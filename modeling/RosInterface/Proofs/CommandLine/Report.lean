import RosInterface.Proofs.CommandLine.Parsing
import RosInterface.Proofs.Install.Resolution
import RosInterface.Proofs.Json.OneLine
import RosInterface.Proofs.Resolution.Convention

/-!
# What the program reports

A command line with one name and any number of options asks for the schema of the interface of that
name, below the install prefixes that it gives. The program reports the schema or else the error and
the name, as a document on one line, over the prefixes that are not empty.

Empty prefixes could be left out, as they are by an index over the value of the environment variable
and by the program itself, once it has the arguments. But a parser that splits values at colons
refuses an empty piece before that, where a value begins or ends with a colon or has two colons in a
row. So the program does not report on the name then, but tells how it is used.

The parser and the reader of message specifications are parameters. Of the parser it is assumed that
it splits values. The reader may give up at a file, and then there is no report and no outcome.

## Main definitions

* `Program.givenIndex`: the index over the prefixes that are given and not empty.
* `Program.reportOn`, `Program.report?`: the report on a name.
* `Program.IsOneLine`: a text that is one line.

## Main results

* `Program.run_eq_report?`: arguments are answered with a report, whatever the prefixes are.
* `Program.start_eq_report?_iff`: when a command line is answered with a report.
-/

namespace RosInterface.Program

/-! ### Lines -/

/-- The text is one line: no character of it but the line feed at its end is below U+0020. -/
def IsOneLine (output : String) : Prop :=
  ∃ content, output.toList = content ++ ['\n'] ∧ Json.HasNoControls content

/-- A document is printed on one line. -/
theorem isOneLine_line (document : Json) : IsOneLine (line document) := by
  refine ⟨document.chars, ?_, Json.hasNoControls_chars document⟩
  rw [line, Json.text, String.toList_append, String.toList_ofList]
  rfl

/-- Different documents are printed differently. -/
theorem line_inj {document document' : Json} (h : line document = line document') :
    document = document' :=
  Json.text_inj (String.append_left_inj "\n" |>.mp h)

/-! ### Reports -/

/-- The report on a name, for what comes of its resolution: the schema of its interface, or else the
error and the name. -/
def reportOn (name : String) : Except ResolutionError ResolvedInterface → Outcome
  | .ok resolved => ⟨0, line resolved.json⟩
  | .error error => ⟨1, line (.object [("error", .string error.message), ("type", .string name)])⟩

/-- The report on a name over an index, if the resolution comes to anything. -/
def report? (read : Msg.Reader) (files : Install.Files) (index : Install.Index) (name : String) :
    Option Outcome :=
  (index.resolve? read files name).map (reportOn name)

theorem isOneLine_reportOn (name : String) (result : Except ResolutionError ResolvedInterface) :
    IsOneLine (reportOn name result).output := by
  cases result <;> exact isOneLine_line _

/-- How the program is used is no report. -/
theorem usage_ne_reportOn (name : String) (result : Except ResolutionError ResolvedInterface) :
    usage ≠ reportOn name result := by
  cases result with
  | ok resolved => exact fun h => absurd (congrArg Outcome.code h) (by decide : (1 : UInt32) ≠ 0)
  | error error =>
    intro h
    have hdocument := line_inj (congrArg Outcome.output h)
    simp [usageDocument] at hdocument

variable {read : Msg.Reader} {files : Install.Files}

/-- An error in the resolution of a name tells that name. -/
theorem typeName_of_resolve? {index : Install.Index} {name : String} {error : ResolutionError}
    (h : index.resolve? read files name = some (.error error)) : error.typeName = name := by
  obtain ⟨-, hvalue⟩ := Install.Index.outcome?_eq_some_iff.mp h
  rcases error_of_resolveWith hvalue with ⟨-, rfl⟩ | ⟨-, reason, rfl⟩ <;> rfl

/-- **Arguments are answered with a report,** over the prefixes that are not empty. -/
theorem run_eq_report? (arguments : Arguments) :
    run read files arguments = report? read files arguments.index arguments.typeName := by
  rw [run, report?]
  cases hresult : arguments.index.resolve? read files arguments.typeName with
  | none => rw [Option.map_none, Option.map_none]
  | some result =>
    rw [Option.map_some, Option.map_some]
    cases result with
    | ok resolved => rfl
    | error error =>
      rw [Outcome.ofResolution, errorDocument, typeName_of_resolve? hresult]
      rfl

/-! ### Prefixes -/

/-- The index over the texts that are given as prefixes, without empty ones. -/
def givenIndex (values : List String) (searchPath : Option String) : Install.Index where
  prefixes := (givenPieces values searchPath).filter fun piece => piece ≠ ""

/-- The texts that are not empty, in the two ways of picking them. -/
theorem filter_map_ofList (texts : List (List Char)) :
    (texts.map String.ofList).filter (fun piece => piece ≠ "")
      = texts.filterMap fun piece =>
          if piece.isEmpty then none else some (String.ofList piece) := by
  induction texts with
  | nil => rfl
  | cons text texts ih =>
    by_cases htext : text = []
    · subst htext
      exact ih
    · have hne : String.ofList text ≠ "" := fun h => htext (String.ofList_injective h)
      rw [List.map_cons, List.filter_cons_of_pos (by simpa using hne), ih,
        List.filterMap_cons_some (b := String.ofList text) (by simpa using htext)]

/-- Without options, the index is the one over the value of the environment variable. -/
theorem givenIndex_nil (searchPath : Option String) :
    givenIndex [] searchPath = .ofSearchPath searchPath := by
  cases searchPath with
  | none => rfl
  | some value =>
    rw [givenIndex, givenPieces, if_pos rfl, Option.toList_some, List.flatMap_singleton, pieces,
      filter_map_ofList]
    rfl

/-! ### Command lines -/

variable {parse : Parser} {before behind values values' : List String} {name : String}

/-- What comes of a command line with one name. -/
theorem start_eq (hparse : IsSplitting parse) (hbefore : PrefixOptions before values)
    (hbehind : PrefixOptions behind values') (hname : name.toList.head? ≠ some '-')
    (searchPath : Option String) :
    start read files parse (before ++ name :: behind) searchPath =
      if "" ∈ givenPieces (values ++ values') searchPath then some usage
      else report? read files (givenIndex (values ++ values') searchPath) name := by
  rw [start]
  by_cases hempty : "" ∈ givenPieces (values ++ values') searchPath
  · rw [if_pos hempty, hparse.eq_misuse searchPath hbefore hbehind hname hempty]
  · rw [if_neg hempty, hparse.eq_ok searchPath hbefore hbehind hname hempty]
    exact run_eq_report? ⟨name, givenPieces (values ++ values') searchPath⟩

/-- **When the program reports on a name.** Let the parser split values at colons. A command line
with one name is answered with the report on that name, over the prefixes that are given and not
empty, exactly if none of them is empty. Otherwise it is answered with how the program is used. What
is printed is one line in any case, and something is printed if the reader of specifications never
gives up. Without options, the prefixes that are not empty are those of the index over the value of
the environment variable. -/
theorem start_eq_report?_iff (hparse : IsSplitting parse) (hbefore : PrefixOptions before values)
    (hbehind : PrefixOptions behind values') (hname : name.toList.head? ≠ some '-')
    (read : Msg.Reader) (files : Install.Files) (searchPath : Option String) :
    (start read files parse (before ++ name :: behind) searchPath
        = report? read files (givenIndex (values ++ values') searchPath) name ↔
      "" ∉ givenPieces (values ++ values') searchPath) ∧
    ("" ∈ givenPieces (values ++ values') searchPath →
      start read files parse (before ++ name :: behind) searchPath = some usage) ∧
    (∀ outcome, start read files parse (before ++ name :: behind) searchPath = some outcome →
      IsOneLine outcome.output) ∧
    (read.Returns → ∃ outcome,
      start read files parse (before ++ name :: behind) searchPath = some outcome) ∧
    givenIndex [] searchPath = .ofSearchPath searchPath := by
  rw [start_eq hparse hbefore hbehind hname searchPath]
  by_cases hempty : "" ∈ givenPieces (values ++ values') searchPath
  · rw [if_pos hempty]
    refine ⟨iff_of_false (fun h => ?_) fun h => h hempty, fun _ => rfl, fun outcome h => ?_,
      fun _ => ⟨usage, rfl⟩, givenIndex_nil searchPath⟩
    · obtain ⟨result, -, hreport⟩ := Option.map_eq_some_iff.mp h.symm
      exact usage_ne_reportOn name result hreport.symm
    · obtain rfl := Option.some.inj h
      exact isOneLine_line usageDocument
  · rw [if_neg hempty]
    refine ⟨iff_of_true rfl hempty, fun h => absurd h hempty, fun outcome h => ?_, fun hread => ?_,
      givenIndex_nil searchPath⟩
    · obtain ⟨result, -, rfl⟩ := Option.map_eq_some_iff.mp h
      exact isOneLine_reportOn name result
    · exact ⟨_, congrArg (Option.map (reportOn name))
        (Install.Index.resolve?_of_returns hread name)⟩

/-! ### A name on its own, and an empty prefix -/

/-- One message file below a prefix. -/
def messageFiles : Install.Files :=
  .ofList [(⟨"p", ["share", "k", "msg", "A.msg"]⟩, .ok "int8 x\n".toUTF8)]

/-- The report on a name with a line feed and a quote. -/
def strangeReport : Outcome :=
  ⟨1, "\x7b\"error\":\"Unknown type category for 'A\\n\\\"'. Expected /msg/, /srv/, or /action/ in "
    ++ "type name.\",\"type\":\"A\\n\\\"\"\x7d\n"⟩

theorem start_strangeName :
    start Msg.reader messageFiles CommandLine.parse
        ["--prefix-path", "p:q", "A\n\"", "--prefix-path=r"] (some ":") = some strangeReport ∧
      IsOneLine strangeReport.output := by
  have hbefore : PrefixOptions ["--prefix-path", "p:q"] ["p:q"] := .apart nofun .none
  have hbehind : PrefixOptions ["--prefix-path=r"] ["r"] := .joined "r" .none
  obtain ⟨hreport, -, hline, -⟩ := start_eq_report?_iff CommandLine.isSplitting_parse hbefore
    hbehind (by decide : "A\n\"".toList.head? ≠ some '-') Msg.reader messageFiles (some ":")
  have hempty : "" ∉ givenPieces ["p:q", "r"] (some ":") := by decide +kernel
  have hstrange : report? Msg.reader messageFiles (givenIndex ["p:q", "r"] (some ":")) "A\n\""
      = some strangeReport := by decide +kernel
  have hstart := (hreport.mpr hempty).trans hstrange
  exact ⟨hstart, hline _ hstart⟩

/-- An empty prefix keeps a schema from being reported that is found without it. So it is with every
parser that splits values. -/
theorem start_emptyPrefix :
    (Install.Index.ofSearchPath (some "p:")).resolve? Msg.reader messageFiles "k/msg/A"
        = some (.ok ⟨"k/msg/A", .message ⟨[("x", .named "int8")]⟩⟩) ∧
      IsSplitting CommandLine.parse ∧
      ∀ parse, IsSplitting parse →
        start Msg.reader messageFiles parse ["k/msg/A"] (some "p:") = some usage := by
  refine ⟨?_, CommandLine.isSplitting_parse, fun parse hparse => ?_⟩
  · obtain ⟨after, hrun, hcalls⟩ : ∃ after, Resolver.fresh.walkRecord?
        ((Install.Index.ofSearchPath (some "p:")).lookupWith Msg.reader messageFiles).record 0
        "k/msg/A" [⟨"x", .primitive "int8"⟩] = some (⟨[("x", .named "int8")]⟩, after) ∧
          after.calls = [] := ⟨_, rfl, rfl⟩
    have hresolve := resolve_message (by decide) (by decide +kernel) hrun
    rw [Install.Index.resolve?, hresolve, hcalls]
    exact Install.Index.outcome?_eq_some_iff.mpr ⟨by decide +kernel, rfl⟩
  · have hempty : "" ∈ givenPieces [] (some "p:") := by decide +kernel
    exact (start_eq hparse .none .none (by decide) _).trans (if_pos hempty)

end RosInterface.Program
