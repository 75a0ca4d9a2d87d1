import Mathlib.Data.List.Basic
import RosInterface.CommandLine

/-!
# How a command line with one name is parsed

A command line with one name has any number of options with install prefixes before and behind the
name. The prefixes that it gives are the pieces between colons of the values of the options or,
without options, of the value of the environment variable. A parser that splits values in this way
refuses the command line if one of the pieces is empty, since an empty text is no path.

The parser of this library does so. It reads the options one after the other.

## Main definitions

* `Program.PrefixOptions`: options with install prefixes and their values.
* `Program.givenPieces`: the texts that a command line gives as prefixes.
* `Program.IsSplitting`: a parser that splits values into pieces, none of which may be empty.

## Main results

* `CommandLine.read_append`: how options are read.
* `CommandLine.isSplitting_parse`: the parser of this library splits values.
-/

namespace RosInterface

namespace Program

/-! ### Options -/

/-- The argument may be the value of an option. It begins with a dash only if that is all of it. -/
def IsValue (argument : String) : Prop :=
  argument.toList.head? = some '-' → argument = "-"

/-- The arguments are options with install prefixes, with the given values. An option and its value
are two arguments or one. -/
inductive PrefixOptions : List String → List String → Prop
  /-- There may be no options. -/
  | none : PrefixOptions [] []
  /-- The value may be an argument of its own. -/
  | apart {value : String} {args values : List String} : IsValue value →
      PrefixOptions args values → PrefixOptions ("--prefix-path" :: value :: args) (value :: values)
  /-- The value may stand behind an equals sign. -/
  | joined {args values : List String} (value : String) : PrefixOptions args values →
      PrefixOptions (("--prefix-path=" ++ value) :: args) (value :: values)

/-- The texts between the colons of a value. -/
def pieces (value : String) : List String :=
  (value.toList.splitOn ':').map String.ofList

/-- The texts that are given as prefixes: the pieces of the values of options if there are options,
else the pieces of the value of the environment variable if that is set. -/
def givenPieces (values : List String) (searchPath : Option String) : List String :=
  (if values = [] then searchPath.toList else values).flatMap pieces

/-- The parser splits values at colons. It is only asked about command lines with one name, which
does not begin with a dash, and options before and behind it. -/
structure IsSplitting (parse : Parser) : Prop where
  /-- The pieces are the prefixes if none of them is empty. -/
  eq_ok : ∀ {before behind values values' : List String} {name : String}
    (searchPath : Option String), PrefixOptions before values → PrefixOptions behind values' →
      name.toList.head? ≠ some '-' → "" ∉ givenPieces (values ++ values') searchPath →
        parse (before ++ name :: behind) searchPath
          = .ok ⟨name, givenPieces (values ++ values') searchPath⟩
  /-- An empty piece is no path, and the arguments are refused. -/
  eq_misuse : ∀ {before behind values values' : List String} {name : String}
    (searchPath : Option String), PrefixOptions before values → PrefixOptions behind values' →
      name.toList.head? ≠ some '-' → "" ∈ givenPieces (values ++ values') searchPath →
        parse (before ++ name :: behind) searchPath = .error .misuse

end Program

/-! ### The parser of this library -/

namespace CommandLine

open Program

/-- An argument that may be the value of an option is taken for one. -/
theorem isOptionValue_of_isValue {value : String} (h : IsValue value) :
    isOptionValue value = true := by
  rw [isOptionValue]
  split
  · rename_i c rest hvalue
    have hdash : value = "-" := h (by rw [hvalue]; rfl)
    rw [hdash] at hvalue
    cases hvalue
  · rfl

/-- A value is refused if one of its pieces is empty. -/
theorem prefixList?_eq (value : String) :
    prefixList? value = if "" ∈ pieces value then none else some (pieces value) := by
  rw [prefixList?, ← pieces]
  simp only [List.contains_iff_mem]

/-- The arguments that were found, with the pieces of further values of options. -/
def Found.withValues (found : Found) (values : List String) : Found :=
  ⟨found.typeName, if values = [] then found.prefixes
    else some (found.prefixes.getD [] ++ values.flatMap pieces)⟩

theorem Found.withValues_append (found : Found) (values values' : List String) :
    (found.withValues values).withValues values' = found.withValues (values ++ values') := by
  by_cases h : values = [] <;> by_cases h' : values' = [] <;> simp [withValues, h, h']

theorem addPrefixes_eq (found : Found) (value : String) :
    found.addPrefixes value = if "" ∈ pieces value then .error .misuse
      else .ok (found.withValues [value]) := by
  rw [Found.addPrefixes, prefixList?_eq]
  split
  · rename_i hnone
    rw [if_pos (by simpa using hnone)]
  · rename_i more hmore
    obtain ⟨hpieces, rfl⟩ : "" ∉ pieces value ∧ pieces value = more := by simpa using hmore
    rw [if_neg hpieces]
    simp [Found.withValues]

/-- The values of options are taken one after the other, if none of their pieces is empty. -/
theorem foldlM_addPrefixes (found : Found) (values : List String) :
    values.foldlM Found.addPrefixes found
      = if "" ∈ values.flatMap pieces then .error .misuse
        else .ok (found.withValues values) := by
  induction values generalizing found with
  | nil => rfl
  | cons value values ih =>
    rw [List.foldlM_cons, addPrefixes_eq, List.flatMap_cons]
    by_cases hvalue : "" ∈ pieces value
    · rw [if_pos hvalue, if_pos (List.mem_append_left _ hvalue)]
      rfl
    · rw [if_neg hvalue]
      change values.foldlM Found.addPrefixes (found.withValues [value]) = _
      simp only [ih, List.mem_append, hvalue, false_or, Found.withValues_append,
        List.singleton_append]

theorem Argument.of_prefixOption : Argument.of "--prefix-path" = .prefixOption := by
  decide

/-- A text that begins with another one is no text that does not. -/
theorem append_ne_of_not_begins {first s : String} (h : ¬first.toList <+: s.toList)
    (rest : String) : first ++ rest ≠ s := by
  rintro rfl
  exact h (String.toList_append ▸ List.prefix_append _ _)

theorem Argument.of_prefixOptionWith (value : String) :
    Argument.of ("--prefix-path=" ++ value) = .prefixOptionWith value := by
  have hread : "--prefix-path=".toList.isPrefixOf? ("--prefix-path=" ++ value).toList
      = some value.toList :=
    List.isPrefixOf?_eq_some_iff_append_eq.mpr String.toList_append.symm
  rw [Argument.of, if_neg (append_ne_of_not_begins (by decide) value),
    if_neg (append_ne_of_not_begins (by decide) value),
    if_neg (append_ne_of_not_begins (by decide) value),
    if_neg (append_ne_of_not_begins (by decide) value), hread]
  exact congrArg Argument.prefixOptionWith String.ofList_toList

/-- An argument that does not begin with a dash is no option. -/
theorem Argument.of_plain {name : String} (h : name.toList.head? ≠ some '-') :
    Argument.of name = .plain := by
  have hne (s : String) (hs : s.toList.head? = some '-') : name ≠ s := by
    rintro rfl
    exact h hs
  have hread : "--prefix-path=".toList.isPrefixOf? name.toList = none := by
    cases hprefix : "--prefix-path=".toList.isPrefixOf? name.toList with
    | none => rfl
    | some rest =>
      rw [← List.isPrefixOf?_eq_some_iff_append_eq.mp hprefix] at h
      exact absurd rfl h
  rw [Argument.of, if_neg (hne _ rfl), if_neg (hne _ rfl), if_neg (hne _ rfl), if_neg (hne _ rfl),
    hread]
  generalize name.toList = chars at h
  dsimp only
  split <;> simp_all

/-- **Options are read one after the other**, and then what stands behind them. -/
theorem read_append {args values : List String} (h : PrefixOptions args values)
    (rest : List String) (found : Found) :
    read (args ++ rest) found = values.foldlM Found.addPrefixes found >>= read rest := by
  induction h generalizing found with
  | none => rfl
  | apart hvalue _ ih =>
    rw [List.cons_append, List.cons_append, read.eq_def]
    simp only [Argument.of_prefixOption, isOptionValue_of_isValue hvalue, if_true, ih]
    rw [List.foldlM_cons, bind_assoc]
  | joined value _ ih =>
    rw [List.cons_append, read.eq_def]
    simp only [Argument.of_prefixOptionWith, ih]
    rw [List.foldlM_cons, bind_assoc]

variable {before behind values values' : List String} {name : String}

/-- The arguments are read if no piece of a value is empty. -/
theorem read_eq (hbefore : PrefixOptions before values) (hbehind : PrefixOptions behind values')
    (hname : name.toList.head? ≠ some '-') :
    read (before ++ name :: behind) .nothing
      = if "" ∈ (values ++ values').flatMap pieces then .error .misuse
        else .ok ((⟨some name, none⟩ : Found).withValues (values ++ values')) := by
  have hbehind' (found : Found) :
      read behind found = values'.foldlM Found.addPrefixes found >>= read [] := by
    rw [← read_append hbehind, List.append_nil]
  have hread (found : Found) :
      read (name :: behind) found = found.addTypeName name >>= read behind := by
    rw [read.eq_def]
    simp only [Argument.of_plain hname]
  rw [read_append hbefore, foldlM_addPrefixes]
  by_cases hfirst : "" ∈ values.flatMap pieces
  · rw [if_pos hfirst, if_pos (List.flatMap_append ▸ List.mem_append_left _ hfirst)]
    rfl
  · rw [if_neg hfirst]
    change read (name :: behind) _ = _
    rw [hread]
    change read behind ((⟨some name, none⟩ : Found).withValues values) = _
    rw [hbehind', foldlM_addPrefixes, Found.withValues_append]
    simp only [List.flatMap_append, List.mem_append, hfirst, false_or]
    split <;> rfl

/-- **What comes of a command line with one name.** Its arguments are the name and the prefixes that
are given, unless one of them is empty. -/
theorem parse_eq (hbefore : PrefixOptions before values) (hbehind : PrefixOptions behind values')
    (hname : name.toList.head? ≠ some '-') (searchPath : Option String) :
    parse (before ++ name :: behind) searchPath
      = if "" ∈ givenPieces (values ++ values') searchPath then .error .misuse
        else .ok ⟨name, givenPieces (values ++ values') searchPath⟩ := by
  rw [parse, read_eq hbefore hbehind hname]
  generalize values ++ values' = all
  by_cases hall : all = []
  · subst hall
    cases searchPath with
    | none => rfl
    | some value =>
      have hpieces : givenPieces [] (some value) = pieces value := List.flatMap_singleton _ _
      change (⟨some name, none⟩ : Found).arguments (some value) = _
      simp only [Found.arguments, hpieces, prefixList?_eq]
      by_cases hempty : "" ∈ pieces value
      · rw [if_pos hempty, if_pos hempty]
      · rw [if_neg hempty, if_neg hempty]
  · rw [givenPieces, if_neg hall]
    by_cases hempty : "" ∈ all.flatMap pieces
    · rw [if_pos hempty, if_pos hempty]
      rfl
    · rw [if_neg hempty, if_neg hempty]
      change ((⟨some name, none⟩ : Found).withValues all).arguments searchPath = _
      simp [Found.arguments, Found.withValues, hall]

/-- **The parser of this library splits values at colons.** -/
theorem isSplitting_parse : IsSplitting parse where
  eq_ok searchPath hbefore hbehind hname hpieces := by
    rw [parse_eq hbefore hbehind hname, if_neg hpieces]
  eq_misuse searchPath hbefore hbehind hname hempty := by
    rw [parse_eq hbefore hbehind hname, if_pos hempty]

end CommandLine

end RosInterface
