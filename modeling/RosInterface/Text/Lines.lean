import RosInterface.Text.Split

/-!
# Lines

A text is cut into lines at line feeds only. A *raw line* keeps the line feed that ends it, so the
raw lines of a text put together are the text. A *line* is a raw line without its line feed and
without one carriage return directly before it. A carriage return that no line feed follows is
part of the line.

## Main definitions

* `Text.rawLines`, `Text.lines`: the raw lines and the lines of a text.
* `Text.IsWhole`: a text that does not end in the middle of a line.

## Main results

* `Text.flatten_rawLines`: no character is lost.
* `Text.lines_flatMap`: lines that are written read back.
* `Text.lines_append`, `Text.exists_of_lines_eq_append`: the lines of a text of two parts.
* `Text.filter_map_lines`: what is read of lines is read of the pieces between the line feeds.
-/

namespace RosInterface.Text

/-- The lines of a text, each with the line feed that ends it. Only the last one may lack it. -/
def rawLines : List Char → List (List Char)
  | [] => []
  | c :: rest =>
    if c = '\n' then [c] :: rawLines rest
    else
      match rawLines rest with
      | [] => [[c]]
      | line :: others => (c :: line) :: others

/-- A raw line without its end: a line feed, or a carriage return and a line feed. -/
def withoutLineEnd (line : List Char) : List Char :=
  match ['\r', '\n'].isSuffixOf? line with
  | some content => content
  | none => (['\n'].isSuffixOf? line).getD line

/-- The lines of a text, without their ends. -/
def lines (s : List Char) : List (List Char) :=
  (rawLines s).map withoutLineEnd

/-- The raw lines put together are the text. -/
theorem flatten_rawLines (s : List Char) : (rawLines s).flatten = s := by
  induction s with
  | nil => rfl
  | cons c s ih =>
    rw [rawLines]
    split
    · simp [ih]
    · split <;> rename_i h <;> rw [h] at ih <;> simp_all

/-! ### Lines that are written -/

/-- A text without line feeds that is ended by one is the first raw line. -/
theorem rawLines_append {line : List Char} (h : '\n' ∉ line) (rest : List Char) :
    rawLines (line ++ '\n' :: rest) = (line ++ ['\n']) :: rawLines rest := by
  induction line with
  | nil => rfl
  | cons c line ih =>
    rw [List.mem_cons, not_or] at h
    rw [List.cons_append, rawLines, if_neg (Ne.symm h.1), ih h.2]
    rfl

theorem isSuffixOf?_lineFeed (line : List Char) :
    ['\n'].isSuffixOf? (line ++ ['\n']) = some line := by
  change (['\n'].isPrefixOf? (line ++ ['\n']).reverse).map List.reverse = some line
  rw [List.reverse_append]
  exact congrArg some line.reverse_reverse

/-- A line that does not end in a carriage return is left when its line feed is cut. -/
theorem withoutLineEnd_append {line : List Char} (h : line.getLast? ≠ some '\r') :
    withoutLineEnd (line ++ ['\n']) = line := by
  have hreturn : ['\r', '\n'].isSuffixOf? (line ++ ['\n']) = none := by
    rw [List.getLast?_eq_head?_reverse] at h
    change (['\n', '\r'].isPrefixOf? (line ++ ['\n']).reverse).map List.reverse = none
    rw [List.reverse_append, Option.map_eq_none_iff]
    cases hr : line.reverse with
    | nil => rfl
    | cons c rest =>
      have hc : c ≠ '\r' := by
        rintro rfl
        exact h (by rw [hr]; rfl)
      change (if '\r' == c then some rest else none) = none
      exact if_neg (by simpa using Ne.symm hc)
  rw [withoutLineEnd, hreturn, isSuffixOf?_lineFeed]
  rfl

/-- Lines that are written, each with a line feed behind it, are read. -/
theorem lines_flatMap {written : List (List Char)}
    (h : ∀ line ∈ written, '\n' ∉ line ∧ line.getLast? ≠ some '\r') :
    lines (written.flatMap (· ++ ['\n'])) = written := by
  induction written with
  | nil => rfl
  | cons line written ih =>
    obtain ⟨hfeed, hreturn⟩ := h line List.mem_cons_self
    have ih := ih fun other ho => h other (List.mem_cons_of_mem _ ho)
    rw [lines] at ih ⊢
    rw [List.flatMap_cons, List.append_assoc, List.singleton_append, rawLines_append hfeed,
      List.map_cons, withoutLineEnd_append hreturn, ih]

/-! ### Texts of two parts -/

/-- The text does not end in the middle of a line: it is empty or ends in a line feed. -/
def IsWhole (s : List Char) : Prop :=
  s = [] ∨ s.getLast? = some '\n'

instance (s : List Char) : Decidable (IsWhole s) :=
  inferInstanceAs (Decidable (_ ∨ _))

theorem isWhole_nil : IsWhole [] :=
  .inl rfl

/-- A line that is ended by a line feed may stand before whole lines. -/
theorem IsWhole.line_append {s : List Char} (h : IsWhole s) (line : List Char) :
    IsWhole (line ++ '\n' :: s) := by
  rcases h with rfl | h
  · exact .inr List.getLast?_concat
  · right
    rw [List.getLast?_append, List.getLast?_cons, h]
    rfl

theorem IsWhole.append {s t : List Char} (hs : IsWhole s) (ht : IsWhole t) : IsWhole (s ++ t) := by
  rcases ht with rfl | ht
  · rwa [List.append_nil]
  · right
    rw [List.getLast?_append, ht]
    rfl

theorem rawLines_ne_nil {s : List Char} (h : s ≠ []) : rawLines s ≠ [] := by
  intro hs
  refine h ?_
  rw [← flatten_rawLines s, hs]
  rfl

/-- The raw lines of whole lines and a text behind them. -/
theorem rawLines_append_of_isWhole {s : List Char} (h : IsWhole s) (t : List Char) :
    rawLines (s ++ t) = rawLines s ++ rawLines t := by
  induction s with
  | nil => rfl
  | cons c s ih =>
    replace h : (c :: s).getLast? = some '\n' := h.resolve_left (List.cons_ne_nil c s)
    by_cases hs : s = []
    · subst hs
      obtain rfl : c = '\n' := Option.some.inj h
      rfl
    · rw [List.getLast?_cons_of_ne_nil hs] at h
      rw [List.cons_append, rawLines, rawLines, ih (.inr h)]
      split
      · rfl
      · obtain ⟨line, more, hline⟩ := List.exists_cons_of_ne_nil (rawLines_ne_nil hs)
        rw [hline]
        rfl

/-- The lines of whole lines and a text behind them. -/
theorem lines_append {s : List Char} (h : IsWhole s) (t : List Char) :
    lines (s ++ t) = lines s ++ lines t := by
  rw [lines, rawLines_append_of_isWhole h, List.map_append, lines, lines]

/-- A text without line feeds is at most one line. -/
theorem rawLines_of_notMem {s : List Char} (h : '\n' ∉ s) (hs : s ≠ []) : rawLines s = [s] := by
  induction s with
  | nil => exact absurd rfl hs
  | cons c s ih =>
    rw [List.mem_cons, not_or] at h
    rw [rawLines, if_neg (Ne.symm h.1)]
    by_cases hs : s = []
    · subst hs
      rfl
    · rw [ih h.2 hs]

/-- The first lines of a text are the lines of a beginning of it, which ends in the middle of a
line only if it is the whole text. -/
theorem exists_of_lines_eq_append {s : List Char} {first others : List (List Char)}
    (h : lines s = first ++ others) :
    ∃ t u, s = t ++ u ∧ lines t = first ∧ lines u = others ∧ (IsWhole t ∨ u = []) := by
  induction s using piece_induction '\n' generalizing first with
  | last s hs =>
    cases first with
    | nil => exact ⟨[], s, rfl, rfl, h, .inl isWhole_nil⟩
    | cons line first =>
      have hne : s ≠ [] := by
        rintro rfl
        cases h
      obtain ⟨rfl, rfl⟩ : first = [] ∧ others = [] := by
        rw [lines, rawLines_of_notMem hs hne, List.cons_append] at h
        exact List.append_eq_nil_iff.mp (List.cons.inj h).2.symm
      exact ⟨s, [], (List.append_nil s).symm, by rw [h, List.append_nil], rfl, .inr rfl⟩
  | piece raw rest hraw ih =>
    cases first with
    | nil => exact ⟨[], _, rfl, rfl, h, .inl isWhole_nil⟩
    | cons line first =>
      rw [lines, rawLines_append hraw, List.map_cons, List.cons_append] at h
      obtain ⟨hline, hrest⟩ := List.cons.inj h
      obtain ⟨t, u, rfl, ht, hu, hwhole⟩ := ih hrest
      refine ⟨raw ++ '\n' :: t, u, by rw [List.append_assoc, List.cons_append], ?_, hu,
        hwhole.imp_left fun hwhole => hwhole.line_append raw⟩
      rw [lines, rawLines_append hraw, List.map_cons, hline, ← lines, ht]

/-! ### Pieces between line feeds -/

/-- The first piece of a text begins like the text, unless it is empty. -/
theorem head?_of_splitOn {s line : List Char} {c : Char}
    (h : (s.splitOn '\n').head? = some line) (hc : line.head? = some c) : s.head? = some c := by
  cases s with
  | nil =>
    rw [List.splitOn_nil] at h
    cases h
    cases hc
  | cons d s =>
    rw [List.splitOn_cons_eq_if_modifyHead] at h
    split at h
    · cases h
      cases hc
    · rw [List.head?_modifyHead] at h
      obtain ⟨rest, -, rfl⟩ := Option.map_eq_some_iff.mp h
      exact hc

theorem eq_append_of_isSuffixOf? {word s content : List Char}
    (h : word.isSuffixOf? s = some content) : s = content ++ word := by
  change (word.reverse.isPrefixOf? s.reverse).map List.reverse = some content at h
  obtain ⟨rest, hrest, rfl⟩ := Option.map_eq_some_iff.mp h
  have hs := congrArg List.reverse (eq_append_of_isPrefixOf? hrest)
  rwa [List.reverse_reverse, List.reverse_append, List.reverse_reverse] at hs

/-- What is cut off at the end of a raw line is blank. -/
theorem exists_eq_withoutLineEnd_append (line : List Char) :
    ∃ blanks, IsBlanks blanks ∧ line = withoutLineEnd line ++ blanks := by
  rw [withoutLineEnd]
  cases hreturn : ['\r', '\n'].isSuffixOf? line with
  | some content => exact ⟨['\r', '\n'], by decide, eq_append_of_isSuffixOf? hreturn⟩
  | none =>
    cases hfeed : ['\n'].isSuffixOf? line with
    | some content => exact ⟨['\n'], by decide, eq_append_of_isSuffixOf? hfeed⟩
    | none => exact ⟨[], fun c hc => (nomatch hc), (List.append_nil line).symm⟩

/-- What is read of the lines of a text is read of its pieces between line feeds, if blanks at the
end of a line do not count and an empty line is passed over. -/
theorem filter_map_lines {f : List Char → List Char}
    (hblanks : ∀ raw blanks, IsBlanks blanks → f (raw ++ blanks) = f raw) (hnil : f [] = [])
    (s : List Char) :
    ((lines s).map f).filter (fun line => !line.isEmpty)
      = ((s.splitOn '\n').map f).filter fun line => !line.isEmpty := by
  have hend (raw : List Char) : f (withoutLineEnd raw) = f raw := by
    obtain ⟨blanks, hb, hraw⟩ := exists_eq_withoutLineEnd_append raw
    rw [← hblanks _ blanks hb, ← hraw]
  induction s using piece_induction '\n' with
  | last s hs =>
    rw [List.splitOn_eq_singleton hs]
    by_cases hempty : s = []
    · subst hempty
      rw [List.map_singleton, hnil]
      rfl
    · rw [lines, rawLines_of_notMem hs hempty, List.map_singleton, List.map_singleton, hend,
        List.map_singleton]
  | piece line rest hline ih =>
    rw [lines, rawLines_append hline, List.map_cons, ← lines, List.map_cons, hend,
      hblanks line ['\n'] (by decide), List.splitOn_append_cons_self_of_not_mem hline,
      List.map_cons, List.filter_cons, List.filter_cons, ih]

/-- There is no line feed in a line. -/
theorem lineFeed_notMem_of_mem_lines {s line : List Char} (h : line ∈ lines s) : '\n' ∉ line := by
  have hcut {raw : List Char} (hraw : '\n' ∉ raw) : '\n' ∉ withoutLineEnd (raw ++ ['\n']) := by
    intro hmem
    rw [withoutLineEnd] at hmem
    split at hmem
    · rename_i content hcontent
      have heq : raw ++ ['\n'] = content ++ ['\r'] ++ ['\n'] := by
        simpa using eq_append_of_isSuffixOf? hcontent
      rw [List.append_cancel_right heq] at hraw
      exact hraw (List.mem_append_left _ hmem)
    · rw [isSuffixOf?_lineFeed] at hmem
      exact hraw hmem
  induction s using piece_induction '\n' with
  | last s hs =>
    by_cases hnil : s = []
    · subst hnil
      cases h
    · rw [lines, rawLines_of_notMem hs hnil, List.map_singleton, List.mem_singleton] at h
      subst h
      obtain ⟨blanks, -, hline⟩ := exists_eq_withoutLineEnd_append s
      exact fun hmem => hs (hline ▸ List.mem_append_left _ hmem)
  | piece raw rest hraw ih =>
    rw [lines, rawLines_append hraw, List.map_cons] at h
    rcases List.mem_cons.mp h with rfl | h
    · exact hcut hraw
    · exact ih h

end RosInterface.Text
