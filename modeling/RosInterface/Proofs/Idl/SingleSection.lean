import RosInterface.Proofs.Idl.Insertion
import RosInterface.Proofs.Idl.Layout
import RosInterface.Proofs.Idl.Merging

/-!
# Bundles with a single section

A bundle with a header and no separators is a single section, and its records are those of the file
below the header. The lines of that file are trimmed before they are read, and blank lines are left
out. No statement is lost by that, since blanks at the ends of a line count neither inside nor
outside the arguments of an annotation. The declarations are then put into an empty scope, where
they stay as they are unless a struct is declared twice.

## Main results

* `Idl.statements_text`: a section has the statements of its file.
* `Idl.nodup_keys_of_declarations`: no enum and no typedef is listed twice.
* `Idl.sections_header_append`: a header and a file below it are one section.
* `Idl.bundleRecords_header_append`: a bundle with one section has the records of the file.
-/

namespace RosInterface.Idl

open Text

/-! ### The text of a section -/

/-- Trimmed lines have the same bare lines, and blank ones have none. -/
theorem bareLines_filter_trim (raws : List (List Char)) :
    bareLines ((raws.map trim).filter fun line => !line.isEmpty) = bareLines raws := by
  induction raws with
  | nil => rfl
  | cons raw raws ih =>
    by_cases hraw : trim raw = []
    · have hbare : bare raw = [] := by
        rw [← bare_trim, hraw]
        rfl
      rw [List.map_cons, List.filter_cons_of_neg (by simp [hraw]), ih,
        bareLines_cons_of_eq_nil hbare]
    · have hline : bareLines [trim raw] = bareLines [raw] :=
        bareLines_congr (congrArg (fun line => [line]) (bare_trim raw))
      rw [List.map_cons, List.filter_cons_of_pos (by simpa using hraw), bareLines_cons, ih, hline,
        ← bareLines_cons]

/-- **A section has the statements of its file.** -/
theorem statements_text (path : Path) (body : List Char) :
    statements .start (lines (Section.text ⟨path, bundleLines body⟩))
      = statements .start (lines body) := by
  have hlines : ∀ line ∈ bundleLines body, '\n' ∉ line :=
    fun line hline => (isContent_of_mem hline).lineFeed_notMem
  rw [Section.text, ← statements_bareLines, bareLines_intercalate hlines, bundleLines,
    bareLines_filter_trim, statements_bareLines]

/-- The section declares what its file declares. -/
theorem declares_iff {path : Path} {body : List Char} {found : Declarations} :
    Section.Declares ⟨path, bundleLines body⟩ found ↔ declarations body = .ok found :=
  ⟨declarations_congr (statements_text path body).symm,
    declarations_congr (statements_text path body)⟩

/-! ### A header and a file -/

/-- No enum and no typedef is listed twice. -/
theorem nodup_keys_of_declarations {text : List Char} {found : Declarations}
    (h : declarations text = .ok found) :
    found.enums.keys.Nodup ∧ found.typedefs.keys.Nodup := by
  obtain ⟨actions, -, -, rfl⟩ := declarations_eq_ok_iff.mp h
  rw [Progress.declarations_applyAll, Declarations.enums_addAll, Declarations.typedefs_addAll]
  exact ⟨Table.nodup_keys_ofList _, Table.nodup_keys_ofList _⟩

/-- **A header and a file below it are one section**, if no line of the file is a separator. -/
theorem sections_header_append {path body : List Char} (hline : '\n' ∉ path)
    (hpath : pathSegments path ≠ [])
    (hbody : ∀ line ∈ lines body, isSeparator (trim line) = false) :
    sections ("IDL: ".toList ++ path ++ '\n' :: body)
      = .ok [⟨pathSegments path, bundleLines body⟩] := by
  have hraw : '\n' ∉ "IDL: ".toList ++ path := by
    rw [List.mem_append, not_or]
    exact ⟨by decide, hline⟩
  have hheader : bundleLines ("IDL: ".toList ++ path) = [trim ("IDL: ".toList ++ path)] := by
    rw [bundleLines_of_notMem hraw, trim_header]
    rfl
  have hgroup : ∀ line ∈ [trim ("IDL: ".toList ++ path)] ++ bundleLines body,
      isSeparator line = false := by
    refine List.forall_mem_append.mpr ⟨List.forall_mem_singleton.mpr ?_, fun line hmem => ?_⟩
    · rw [trim_header]
      rfl
    · obtain ⟨raw, hraw, rfl⟩ := List.mem_map.mp (List.mem_of_mem_filter hmem)
      exact hbody raw hraw
  have hgroups : groups ([trim ("IDL: ".toList ++ path)] ++ bundleLines body)
      = [trim ("IDL: ".toList ++ path) :: bundleLines body] := by
    rw [← List.append_nil (_ ++ _), groups_append hgroup []]
    exact congrArg ([·]) (List.append_nil _)
  rw [sections_eq_ok_iff, bundleLines_append hraw, hheader, hgroups]
  exact ⟨.cons (isReadFrom_header hpath _) .nil, List.cons_ne_nil _ _⟩

/-- **A bundle with a single section has the records of the file.** A header stands above a file in
which no line is a separator and no struct is declared twice. The bundle is accepted exactly when
the file is, and has the same records in the same order. -/
theorem bundleRecords_header_append {path body : List Char} (hline : '\n' ∉ path)
    (hpath : pathSegments path ≠ [])
    (hbody : ∀ line ∈ lines body, isSeparator (trim line) = false)
    (hdistinct : ∀ declared, declarations body = .ok declared →
      (declared.structs.map Prod.fst).Nodup) (found : List Record) :
    bundleRecords ("IDL: ".toList ++ path ++ '\n' :: body) = .ok found ↔
      records body = .ok found := by
  have hmerge {declared : Declarations} (hdeclared : declarations body = .ok declared) :
      Declarations.mergeAll [declared] = declared :=
    have ⟨henums, htypedefs⟩ := nodup_keys_of_declarations hdeclared
    Declarations.mergeAll_singleton (hdistinct declared hdeclared) henums htypedefs
  rw [bundleRecords_eq_ok_iff, records_eq_ok_iff, sections_header_append hline hpath hbody]
  constructor
  · rintro ⟨parts, files, hparts, hfiles, rfl⟩
    obtain rfl := Except.ok.inj hparts
    obtain ⟨declared, _, hdeclares, hrest, rfl⟩ := List.forall₂_cons_left_iff.mp hfiles
    cases hrest
    have hdeclared := declares_iff.mp hdeclares
    exact ⟨declared, hdeclared, by rw [hmerge hdeclared]⟩
  · rintro ⟨declared, hdeclared, rfl⟩
    exact ⟨_, [declared], rfl, .cons (declares_iff.mpr hdeclared) .nil, by rw [hmerge hdeclared]⟩

/-- A file with blank lines, a comment and an annotation with a blank line in its arguments. -/
def commentedText : List Char :=
  ("  @verbatim (\n\")\n\n  \" ) typedef int32 T;\r\n\n" ++
    "\tstruct A \x7b\n  T t;\n\x7d; // ===\n").toList

/-- What is declared there. -/
def commentedDeclarations : Declarations :=
  ⟨[(["A"], [⟨"t", .named ["T"], none⟩])], .empty, ⟨[(["T"], ⟨"T", .basic .int32, none⟩)]⟩⟩

theorem bundleRecords_commentedText :
    bundleRecords ("IDL: ".toList ++ " p :: A ".toList ++ '\n' :: commentedText)
      = .ok [⟨"A", [⟨"t", .primitive "int32"⟩]⟩] := by
  have hdeclared : declarations commentedText = .ok commentedDeclarations := by decide +kernel
  have hdistinct : ∀ declared, declarations commentedText = .ok declared →
      (declared.structs.map Prod.fst).Nodup := by
    intro declared h
    rw [← Except.ok.inj (hdeclared.symm.trans h)]
    decide
  exact (bundleRecords_header_append (by decide) (by decide +kernel) (by decide +kernel)
    hdistinct _).mpr (by decide +kernel)

end RosInterface.Idl
