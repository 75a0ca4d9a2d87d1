import RosInterface.Text.Blank

/-!
# Segments of a path

A path is written as segments with a separator between them, either `/` or `::`. Blanks around a
segment do not belong to it, and an empty segment is no segment.

## Main definitions

* `Text.occursIn`: a pattern stands somewhere in a text.
* `Text.splitScope`: the pieces between the separators `::`.
* `Text.slashSegments`, `Text.scopeSegments`: the segments of a path.
* `Text.pathSegments`: the segments of a path in either spelling.

## Main results

* `Text.eq_append_of_isPrefixOf?`: what is left after a known beginning.
* `Text.occursIn_iff`: a pattern that occurs is an infix.
* `Text.notMem_of_mem_splitOn`: a piece between separators does not hold the separator.
* `Text.piece_induction`: induction on the pieces between separators.
* `Text.exists_splitOn_append`, `Text.exists_splitScope_append`: the pieces of a text of two parts.
* `Text.occursIn_scope_iff`: where there is a separator there are two pieces.
-/

namespace RosInterface.Text

/-- The pattern stands somewhere in the text. -/
def occursIn (pattern : List Char) : List Char → Bool
  | [] => pattern.isEmpty
  | c :: rest => pattern.isPrefixOf (c :: rest) || occursIn pattern rest

/-- The pieces of a text between the separators `::`, which are found from left to right. -/
def splitScope : List Char → List (List Char)
  | [] => [[]]
  | ':' :: ':' :: rest => [] :: splitScope rest
  | c :: rest =>
    match splitScope rest with
    | [] => [[c]]
    | piece :: pieces => (c :: piece) :: pieces

/-- The pieces that hold more than blanks, without the blanks at their ends. -/
def segmentsOf (pieces : List (List Char)) : List String :=
  ((pieces.map trim).filter fun piece => !piece.isEmpty).map String.ofList

/-- The segments of a path whose separator is `/`. -/
def slashSegments (s : List Char) : List String :=
  segmentsOf (s.splitOn '/')

/-- The segments of a path whose separator is `::`. -/
def scopeSegments (s : List Char) : List String :=
  segmentsOf (splitScope s)

/-- The segments of a path. The separator is `::` where that occurs at all, else `/`. -/
def pathSegments (s : List Char) : List String :=
  if occursIn [':', ':'] s then scopeSegments s else slashSegments s

/-- A text is the beginning that was found together with what is left after it. -/
theorem eq_append_of_isPrefixOf? {word s rest : List Char}
    (h : word.isPrefixOf? s = some rest) : s = word ++ rest := by
  induction word generalizing s with
  | nil => exact Option.some.inj h
  | cons c word ih =>
    cases s with
    | nil => cases h
    | cons d s =>
      change (if c == d then word.isPrefixOf? s else none) = some rest at h
      split at h
      · rename_i hc
        rw [ih h, eq_of_beq hc, List.cons_append]
      · cases h

/-- What stands somewhere in a text is an infix of it. -/
theorem occursIn_iff {pattern s : List Char} : occursIn pattern s = true ↔ pattern <:+: s := by
  induction s with
  | nil => rw [occursIn, List.isEmpty_iff, List.infix_nil]
  | cons c rest ih =>
    rw [occursIn, Bool.or_eq_true, ih, List.isPrefixOf_iff_prefix, List.infix_cons_iff]

/-- No piece between separators holds the separator. -/
theorem notMem_of_mem_splitOn {separator : Char} {s piece : List Char}
    (h : piece ∈ s.splitOn separator) : separator ∉ piece := by
  induction s generalizing piece with
  | nil =>
    rw [List.splitOn_nil, List.mem_singleton] at h
    exact h ▸ List.not_mem_nil
  | cons c rest ih =>
    rw [List.splitOn_cons_eq_if_modifyHead] at h
    split at h
    · rcases List.mem_cons.mp h with rfl | h
      · exact List.not_mem_nil
      · exact ih h
    · rename_i hc
      cases hrest : rest.splitOn separator with
      | nil => exact absurd hrest (List.splitOn_ne_nil separator rest)
      | cons first pieces =>
        rw [hrest] at h ih
        rcases List.mem_cons.mp h with rfl | h
        · rw [List.mem_cons, not_or]
          exact ⟨fun heq => hc (by rw [heq]; exact beq_self_eq_true c), ih List.mem_cons_self⟩
        · exact ih (List.mem_cons_of_mem _ h)

/-- Induction on the pieces of a text: a separator ends each of them but the last one. -/
@[elab_as_elim]
theorem piece_induction (separator : Char) {motive : List Char → Prop}
    (last : ∀ piece, separator ∉ piece → motive piece)
    (piece : ∀ piece rest, separator ∉ piece → motive rest → motive (piece ++ separator :: rest))
    (s : List Char) : motive s := by
  by_cases h : separator ∈ s
  · obtain ⟨first, rest, rfl, hfirst⟩ := List.eq_append_cons_of_mem h
    have hlength : rest.length < (first ++ separator :: rest).length := by
      rw [List.length_append, List.length_cons]
      omega
    exact piece first rest hfirst (piece_induction separator last piece rest)
  · exact last s h
termination_by s.length

/-- The first piece of a text goes on with what stands before the text. -/
theorem splitOn_append_of_notMem {separator : Char} {piece : List Char} (h : separator ∉ piece)
    (s : List Char) : (piece ++ s).splitOn separator
      = (s.splitOn separator).modifyHead (piece ++ ·) := by
  induction piece with
  | nil => exact (congrFun List.modifyHead_id _).symm
  | cons c piece ih =>
    rw [List.mem_cons, not_or] at h
    rw [List.cons_append, List.splitOn_cons_eq_if_modifyHead, if_neg (by simpa using Ne.symm h.1),
      ih h.2, List.modifyHead_modifyHead]
    rfl

/-- Of a text of two parts, the last piece of the first part and the first piece of the second one
are one piece. -/
theorem exists_splitOn_append (separator : Char) (s : List Char) :
    ∃ first last, ∀ t head more, t.splitOn separator = head :: more →
      (s ++ t).splitOn separator = first ++ (last ++ head) :: more := by
  induction s with
  | nil => exact ⟨[], [], fun t head more ht => ht⟩
  | cons c s ih =>
    obtain ⟨first, last, hsplit⟩ := ih
    by_cases hc : c = separator
    · refine ⟨[] :: first, last, fun t head more ht => ?_⟩
      rw [List.cons_append, List.splitOn_cons_eq_if_modifyHead, if_pos (by simpa using hc),
        hsplit t head more ht, List.cons_append]
    · have hstep (t : List Char) :
          (c :: s ++ t).splitOn separator = ((s ++ t).splitOn separator).modifyHead (c :: ·) := by
        rw [List.cons_append, List.splitOn_cons_eq_if_modifyHead, if_neg (by simpa using hc)]
      -- the character belongs to the first piece, which is the last one of its part or is not
      cases first with
      | nil =>
        exact ⟨[], c :: last, fun t head more ht => by rw [hstep, hsplit t head more ht]; rfl⟩
      | cons piece first =>
        exact ⟨(c :: piece) :: first, last, fun t head more ht => by
          rw [hstep, hsplit t head more ht]; rfl⟩

/-! ### The separator `::` -/

/-- Induction on a text by what it begins with: a separator, or a character that begins none. -/
@[elab_as_elim]
theorem scope_induction {motive : List Char → Prop} (nil : motive [])
    (separator : ∀ rest, motive rest → motive (':' :: ':' :: rest))
    (char : ∀ c rest, (c = ':' → rest.head? ≠ some ':') → motive rest → motive (c :: rest))
    (s : List Char) : motive s := by
  have hchar {c : Char} {rest : List Char}
      (h : ∀ more, c = ':' → rest = ':' :: more → False) : c = ':' → rest.head? ≠ some ':' := by
    rintro rfl hhead
    obtain ⟨more, rfl⟩ := List.head?_eq_some_iff.mp hhead
    exact h more rfl rfl
  induction s using splitScope.induct with
  | case1 => exact nil
  | case2 rest ih => exact separator rest ih
  | case3 c rest h _ ih => exact char c rest (hchar h) ih
  | case4 c rest h _ _ _ ih => exact char c rest (hchar h) ih

/-- There is a first piece. -/
theorem splitScope_ne_nil (s : List Char) : splitScope s ≠ [] := by
  fun_cases splitScope s <;> simp_all

/-- A character that begins no separator belongs to the first piece. -/
theorem splitScope_cons {c : Char} {s : List Char} (h : c = ':' → s.head? ≠ some ':') :
    splitScope (c :: s) = (splitScope s).modifyHead (c :: ·) := by
  rw [splitScope]
  · obtain ⟨piece, pieces, hs⟩ := List.exists_cons_of_ne_nil (splitScope_ne_nil s)
    rw [hs]
    rfl
  · rintro rest rfl rfl
    exact h rfl rfl

/-- The first piece of a text goes on with what stands before the text. -/
theorem splitScope_append_of_notMem {piece : List Char} (h : ':' ∉ piece) (s : List Char) :
    splitScope (piece ++ s) = (splitScope s).modifyHead (piece ++ ·) := by
  induction piece with
  | nil => exact (congrFun List.modifyHead_id _).symm
  | cons c piece ih =>
    rw [List.mem_cons, not_or] at h
    rw [List.cons_append, splitScope_cons fun hc => absurd hc.symm h.1, ih h.2,
      List.modifyHead_modifyHead]
    rfl

/-- A text without colons is one piece. -/
theorem splitScope_eq_singleton {s : List Char} (h : ':' ∉ s) : splitScope s = [s] := by
  have happend := splitScope_append_of_notMem h []
  rwa [splitScope, List.modifyHead_cons, List.append_nil] at happend

/-- A text without colons goes to the end of the last piece. -/
theorem exists_splitScope_append {t : List Char} (ht : ':' ∉ t) (s : List Char) :
    ∃ first last, splitScope s = first ++ [last] ∧ splitScope (s ++ t) = first ++ [last ++ t] := by
  induction s using scope_induction with
  | nil => exact ⟨[], [], rfl, splitScope_eq_singleton ht⟩
  | separator rest ih =>
    obtain ⟨first, last, hs, hst⟩ := ih
    refine ⟨[] :: first, last, ?_, ?_⟩
    · rw [splitScope, hs, List.cons_append]
    · rw [List.cons_append, List.cons_append, splitScope, hst, List.cons_append]
  | char c rest hc ih =>
    obtain ⟨first, last, hs, hst⟩ := ih
    have hct : c = ':' → (rest ++ t).head? ≠ some ':' := by
      intro hcolon
      rw [List.head?_append, Ne, Option.or_eq_some_iff, not_or]
      exact ⟨hc hcolon, fun h => ht (List.mem_of_head? h.2)⟩
    rw [List.cons_append, splitScope_cons hc, splitScope_cons hct, hs, hst]
    cases first with
    | nil => exact ⟨[], c :: last, rfl, rfl⟩
    | cons piece first => exact ⟨(c :: piece) :: first, last, rfl, rfl⟩

/-- There is a separator in a text exactly if there are two pieces. -/
theorem occursIn_scope_iff (s : List Char) :
    occursIn [':', ':'] s = true ↔ 1 < (splitScope s).length := by
  induction s using scope_induction with
  | nil => decide
  | separator rest ih =>
    have hlength := List.length_pos_iff.mpr (splitScope_ne_nil rest)
    simpa [occursIn, splitScope] using hlength
  | char c rest hc ih =>
    have hprefix : [':', ':'].isPrefixOf (c :: rest) = false := by
      rw [Bool.eq_false_iff, Ne, List.isPrefixOf_iff_prefix]
      rintro ⟨more, hmore⟩
      obtain ⟨rfl, rfl⟩ := List.cons.inj hmore
      exact hc rfl rfl
    rw [occursIn, hprefix, Bool.false_or, ih, splitScope_cons hc, List.length_modifyHead]

end RosInterface.Text
