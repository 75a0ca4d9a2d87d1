import RosInterface.Proofs.Idl.WrittenLine

/-!
# Written files read back

Reading the lines of a definition brings a reader that stands between declarations to the place
behind them, with what the definition declares added to what was read before. The modules that
are open are the same before and after, so this holds below any modules and for any lines that
follow. A whole file is read from the empty declarations on, and every module in it is closed at
its end.

## Main definitions

* `Idl.Progress.between`, `Idl.Progress.inBody`: where a reader stands in a written file.

## Main results

* `Idl.run_lines`, `Idl.run_linesOfAll`: reading the lines of definitions.
* `Idl.declarations_fileText`: what is written reads back.
-/

namespace RosInterface.Idl

open Text

namespace Progress

/-- The reader stands between declarations. -/
def between (declarations : Declarations) (modules : Path) : Progress :=
  ⟨declarations, modules, none, .start⟩

/-- The reader stands in the body of a struct or enum. -/
def inBody (declarations : Declarations) (modules : Path) (body : Body) : Progress :=
  ⟨declarations, modules, some body, .start⟩

variable {progress progress' : Progress} {declarations : Declarations} {modules : Path}
  {name : String} {rest : List (List Char)}

/-! ### Single lines -/

theorem run_cons_of_step {n : Nat} {line : List Char} (h : progress.step n line = .ok progress') :
    run n (line :: rest) progress = run (n + 1) rest progress' := by
  rw [run, h]

theorem step_openingModule (n : Nat) (hn : isIdentifier name = true) :
    (between declarations modules).step n (openingLine "module" name)
      = .ok (between declarations (modules ++ [name])) := by
  rw [step_eq_execute n rfl (isWrittenLine_openingLine (by decide) hn), execute,
    ofLine_openingModule hn]
  rfl

theorem step_openingStruct (n : Nat) (hn : isIdentifier name = true) :
    (between declarations modules).step n (openingLine "struct" name)
      = .ok (inBody declarations modules (.struct name [])) := by
  rw [step_eq_execute n rfl (isWrittenLine_openingLine (by decide) hn), execute,
    ofLine_openingStruct hn]
  rfl

theorem step_openingEnum (n : Nat) (hn : isIdentifier name = true) :
    (between declarations modules).step n (openingLine "enum" name)
      = .ok (inBody declarations modules (.enum name [])) := by
  rw [step_eq_execute n rfl (isWrittenLine_openingLine (by decide) hn), execute,
    ofLine_openingEnum hn]
  rfl

theorem step_typedefLine (n : Nat) {target : Member} (ht : target.IsPrintable) :
    (between declarations modules).step n (typedefLine target)
      = .ok (between (declarations.add (modules ++ [target.name], .typedef target)) modules) := by
  rw [step_eq_execute n rfl (isWrittenLine_typedefLine ht), execute, ofLine_typedefLine target]
  simp only [typedefOfLine_typedefLine ht]
  rfl

theorem step_memberLine (n : Nat) {member : Member} (hm : member.IsPrintable)
    (members : List Member) :
    (inBody declarations modules (.struct name members)).step n member.line
      = .ok (inBody declarations modules (.struct name (members ++ [member]))) := by
  rw [step_eq_execute n rfl (isWrittenLine_memberLine hm), execute, ofLine_memberLine hm]
  simp only [addContent, inBody, memberOfLine_line hm]

theorem step_valueLine (n : Nat) {value : String} (hv : isIdentifier value = true)
    (values : List String) :
    (inBody declarations modules (.enum name values)).step n (valueLine value)
      = .ok (inBody declarations modules (.enum name (values ++ [value]))) := by
  rw [step_eq_execute n rfl (isWrittenLine_valueLine hv), execute, ofLine_valueLine hv]
  simp only [addContent, inBody, enumValueOfLine_valueLine hv]
  rfl

theorem step_closingModule (n : Nat) :
    (between declarations (modules ++ [name])).step n closingLine
      = .ok (between declarations modules) := by
  have hopen : (modules ++ [name]).isEmpty = false := by simp
  rw [step_eq_execute n rfl isWrittenLine_closingLine, execute, ofLine_closingLine]
  simp only [close, between, hopen, Bool.false_eq_true, if_false, List.dropLast_concat]

theorem step_closingStruct (n : Nat) (members : List Member) :
    (inBody declarations modules (.struct name members)).step n closingLine
      = .ok (between (declarations.add (modules ++ [name], .struct members)) modules) := by
  rw [step_eq_execute n rfl isWrittenLine_closingLine, execute, ofLine_closingLine]
  rfl

theorem step_closingEnum (n : Nat) (values : List String) :
    (inBody declarations modules (.enum name values)).step n closingLine
      = .ok (between (declarations.add (modules ++ [name], .enum values)) modules) := by
  rw [step_eq_execute n rfl isWrittenLine_closingLine, execute, ofLine_closingLine]
  rfl

/-! ### The lines of a definition -/

/-- The lines between those that open and close a declaration are read in between. -/
theorem run_block {n : Nat} {keyword : String} {inner : List (List Char)}
    {opened inside closed : Progress}
    (hopen : progress.step n (openingLine keyword name) = .ok opened)
    (hinner : run (n + 1) (inner ++ closingLine :: rest) opened
      = run (n + 1 + inner.length) (closingLine :: rest) inside)
    (hclose : inside.step (n + 1 + inner.length) closingLine = .ok closed) :
    run n (openingLine keyword name :: (inner ++ [closingLine]) ++ rest) progress
      = run (n + (openingLine keyword name :: (inner ++ [closingLine])).length) rest closed := by
  have hlength : n + (openingLine keyword name :: (inner ++ [closingLine])).length
      = n + 1 + inner.length + 1 := by
    simp only [List.length_cons, List.length_append, List.length_nil]
    omega
  rw [List.cons_append, List.append_assoc, List.singleton_append, run_cons_of_step hopen, hinner,
    run_cons_of_step hclose, hlength]

/-- The lines in a body are read one after the other, if each of them adds what it declares. -/
theorem run_bodyLines {α : Type} (body : List α → Body) {line : α → List Char} {items : List α}
    (hstep : ∀ item ∈ items, ∀ n before,
      (inBody declarations modules (body before)).step n (line item)
        = .ok (inBody declarations modules (body (before ++ [item])))) (n : Nat)
    (before : List α) :
    run n (items.map line ++ rest) (inBody declarations modules (body before))
      = run (n + (items.map line).length) rest
          (inBody declarations modules (body (before ++ items))) := by
  induction items generalizing n before with
  | nil => rw [List.append_nil]; rfl
  | cons item items ih =>
    have hitem := hstep item List.mem_cons_self n before
    rw [List.map_cons, List.cons_append, run_cons_of_step hitem,
      ih (fun other ho => hstep other (List.mem_cons_of_mem _ ho)), List.append_assoc,
      List.singleton_append, List.length_cons, Nat.add_right_comm, Nat.add_assoc]

mutual

/-- **Reading the lines of a definition adds what it declares**, below any modules and before any
other lines. -/
theorem run_lines {modules : Path} {declarations : Declarations} {rest : List (List Char)} :
    ∀ (definition : Definition), definition.IsPrintable → ∀ n,
      run n (definition.lines ++ rest) (between declarations modules)
        = run (n + definition.lines.length) rest
            (between (declarations.addAll (definition.contents modules)) modules)
  | .module _ body, h, n =>
    run_block (step_openingModule n h.1) (run_linesOfAll body h.2 (n + 1)) (step_closingModule _)
  | .struct name members, h, n =>
    have hmembers := run_bodyLines (Body.struct name)
      (fun member hm n before => step_memberLine n (h.2 member hm) before) (n + 1) []
    run_block (step_openingStruct n h.1) hmembers (step_closingStruct _ members)
  | .enum name values, h, n =>
    have hvalues := run_bodyLines (Body.enum name)
      (fun value hv n before => step_valueLine n (h.2 value hv) before) (n + 1) []
    run_block (step_openingEnum n h.1) hvalues (step_closingEnum _ values)
  | .typedef _, h, n => run_cons_of_step (step_typedefLine n h)

/-- Reading the lines of definitions adds what they declare. -/
theorem run_linesOfAll {modules : Path} {declarations : Declarations}
    {rest : List (List Char)} :
    ∀ (definitions : List Definition), AllPrintable definitions → ∀ n,
      run n (linesOfAll definitions ++ rest) (between declarations modules)
        = run (n + (linesOfAll definitions).length) rest
            (between (declarations.addAll (contentsOfAll modules definitions)) modules)
  | [], _, n => rfl
  | definition :: others, h, n => by
    obtain ⟨hdefinition, hothers⟩ := h
    rw [linesOfAll, contentsOfAll, List.append_assoc, run_lines definition hdefinition,
      run_linesOfAll others hothers, Declarations.addAll_append, List.length_append, Nat.add_assoc]

end

end Progress

/-! ### Files -/

theorem isWrittenLine_of_mem_block {line opening : List Char} {inner : List (List Char)}
    (ho : IsWrittenLine opening) (hi : ∀ line ∈ inner, IsWrittenLine line)
    (hline : line ∈ opening :: (inner ++ [closingLine])) : IsWrittenLine line := by
  rcases List.mem_cons.mp hline with rfl | hline
  · exact ho
  · rcases List.mem_append.mp hline with hline | hline
    · exact hi line hline
    · rw [List.mem_singleton.mp hline]
      exact isWrittenLine_closingLine

mutual

/-- The lines of a definition are written lines. -/
theorem isWrittenLine_of_mem_lines :
    ∀ (definition : Definition), definition.IsPrintable →
      ∀ line ∈ definition.lines, IsWrittenLine line
  | .module _ body, h, line, hline =>
    isWrittenLine_of_mem_block (isWrittenLine_openingLine (by decide) h.1)
      (isWrittenLine_of_mem_linesOfAll body h.2) hline
  | .struct _ members, h, line, hline =>
    have hmembers := List.forall_mem_map.mpr fun member hm =>
      isWrittenLine_memberLine (h.2 member hm)
    isWrittenLine_of_mem_block (isWrittenLine_openingLine (by decide) h.1) hmembers hline
  | .enum _ values, h, line, hline =>
    have hvalues := List.forall_mem_map.mpr fun value hv => isWrittenLine_valueLine (h.2 value hv)
    isWrittenLine_of_mem_block (isWrittenLine_openingLine (by decide) h.1) hvalues hline
  | .typedef _, h, line, hline => by
    rw [List.mem_singleton.mp hline]
    exact isWrittenLine_typedefLine h

/-- The lines of definitions are written lines. -/
theorem isWrittenLine_of_mem_linesOfAll :
    ∀ (definitions : List Definition), AllPrintable definitions →
      ∀ line ∈ linesOfAll definitions, IsWrittenLine line
  | [], _, line, hline => nomatch hline
  | definition :: others, h, line, hline => by
    rcases List.mem_append.mp hline with hline | hline
    · exact isWrittenLine_of_mem_lines definition h.1 line hline
    · exact isWrittenLine_of_mem_linesOfAll others h.2 line hline

end

/-- The lines of a written file are the lines of its definitions. -/
theorem lines_fileText {file : List Definition} (h : AllPrintable file) :
    lines (fileText file) = linesOfAll file := by
  refine lines_flatMap fun line hline => ?_
  have hwritten := isWrittenLine_of_mem_linesOfAll file h line hline
  constructor
  · intro hfeed
    cases hwritten.plain '\n' hfeed
  · intro hlast
    have hreturn := hwritten.last '\r' hlast
    cases hreturn

/-- **What is written reads back.** The structs come in the order of the text, each under its full
path and with its members in their order. A path that is declared as an enum or as a typedef has
the values or the target that are declared under it last, and no other path has any. -/
theorem declarations_fileText {file : List Definition} (h : AllPrintable file) :
    ∃ found, declarations (fileText file) = .ok found ∧
      found.structs = structsOf (contentsOfAll [] file) ∧
      (∀ path, found.enums.get? path
        = Table.lastUnder? path (enumsOf (contentsOfAll [] file))) ∧
      ∀ path, found.typedefs.get? path
        = Table.lastUnder? path (typedefsOf (contentsOfAll [] file)) := by
  have hrun : Progress.run 1 (linesOfAll file) .start
      = .ok (.between (Declarations.empty.addAll (contentsOfAll [] file)) []) := by
    have hlines : Progress.run 1 (linesOfAll file ++ []) .start = _ :=
      Progress.run_linesOfAll file h 1
    rwa [List.append_nil] at hlines
  refine ⟨Declarations.empty.addAll (contentsOfAll [] file), ?_, ?_, fun path => ?_,
    fun path => ?_⟩
  · rw [declarations, lines_fileText h, hrun]
    rfl
  · rw [Declarations.structs_addAll]
    rfl
  · rw [Declarations.enums_addAll, Table.get?_insertAll]
    exact Option.or_none
  · rw [Declarations.typedefs_addAll, Table.get?_insertAll]
    exact Option.or_none

/-- A written file declares what its definitions declare, one after the other. -/
theorem declarations_fileText_eq {file : List Definition} (h : AllPrintable file) :
    declarations (fileText file) = .ok (Declarations.empty.addAll (contentsOfAll [] file)) := by
  have hrun : Progress.run 1 (linesOfAll file ++ []) .start
      = .ok (.between (Declarations.empty.addAll (contentsOfAll [] file)) []) :=
    Progress.run_linesOfAll file h 1
  rw [List.append_nil] at hrun
  rw [declarations, lines_fileText h, hrun]
  rfl

/-- The members of a struct that refers to the declarations around it. -/
def stationMembers : List Member :=
  [⟨"altitude", .basic .long, none⟩,
    ⟨"serial", .basic .unsignedLongLong, none⟩,
    ⟨"label", .wideString (some 12), none⟩,
    ⟨"grades", .sequence (.named ["survey", "msg", "Grade"]) (some 8), none⟩,
    ⟨"track", .named ["Track"], some 2⟩]

/-- A typedef of nested sequences. -/
def trackTarget : Member :=
  ⟨"Track", .sequence (.sequence (.basic .double) (some 3)) none, some 4⟩

/-- A file with an enum, a typedef and a struct in nested modules. -/
def surveyFile : List Definition :=
  [.module "survey"
    [.module "msg"
      [.enum "Grade" ["LOW", "HIGH"], .typedef trackTarget, .struct "Station" stationMembers]]]

/-- The file of a survey reads back. -/
theorem declarations_surveyFile :
    AllPrintable surveyFile ∧ ∃ found, declarations (fileText surveyFile) = .ok found ∧
      found.structs = [(["survey", "msg", "Station"], stationMembers)] ∧
      found.enums.get? ["survey", "msg", "Grade"] = some ["LOW", "HIGH"] ∧
      found.typedefs.get? ["survey", "msg", "Track"] = some trackTarget := by
  have hmembers : ∀ member ∈ stationMembers, member.IsPrintable := by decide
  have htrack : trackTarget.IsPrintable := by decide
  have hfile : AllPrintable surveyFile :=
    ⟨⟨by decide, ⟨by decide, ⟨by decide, by decide⟩, htrack, ⟨by decide, hmembers⟩, trivial⟩,
      trivial⟩, trivial⟩
  obtain ⟨found, hread, hstructs, henums, htypedefs⟩ := declarations_fileText hfile
  exact ⟨hfile, found, hread, hstructs, henums _, htypedefs _⟩

end RosInterface.Idl
