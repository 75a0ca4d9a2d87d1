import RosInterface.Text.Split
import RosInterface.Text.Decimal
import RosInterface.Idl.Declaration

/-!
# Types and declarators in IDL text

A reader takes the text from some place on. It gives what it read there with the text after it, or
nothing if what it looks for does not stand there.

A *space* is a space or a tab. An identifier is made of ASCII letters, decimal digits and
underscores and does not begin with a digit. The words of a basic type stand apart by blanks, and
the first spelling in `Idl.basicSpellings` that fits is chosen; if an identifier's character
follows it, the text is not that of a basic type. In particular `long longitude` is no basic type
with a name, because `long long` is chosen first.

## Main definitions

* `Idl.identifier?`, `Idl.number?`, `Idl.blanks?`, `Idl.mark?`: the small readers.
* `Idl.basicType?`, `Idl.stringType?`, `Idl.scopedName?`, `Idl.typeExpr?`: types.
* `Idl.declarator?`: a name with the number of elements of an array.
-/

namespace RosInterface.Idl

/-- A character that an identifier may begin with. -/
def isIdentifierStart (c : Char) : Bool :=
  c.isAlpha || c == '_'

/-- A character that an identifier may go on with. -/
def isIdentifierRest (c : Char) : Bool :=
  c.isAlphanum || c == '_'

/-- The text does not go on with an identifier's character. -/
def atBoundary : List Char → Bool
  | [] => true
  | c :: _ => !isIdentifierRest c

/-- The text after its leading spaces and tabs. -/
def skipSpaces (s : List Char) : List Char :=
  s.dropWhile fun c => c == ' ' || c == '\t'

/-- Reads one or more blanks. -/
def blanks? : List Char → Option (List Char)
  | [] => none
  | c :: rest => if Text.isBlank c then some (Text.trimStart rest) else none

/-- Reads a mark after any number of spaces. -/
def mark? (mark : Char) (s : List Char) : Option (List Char) :=
  [mark].isPrefixOf? (skipSpaces s)

/-- Reads an identifier. -/
def identifier? : List Char → Option (String × List Char)
  | [] => none
  | c :: rest =>
    if isIdentifierStart c then
      some (String.ofList (c :: rest.takeWhile isIdentifierRest), rest.dropWhile isIdentifierRest)
    else none

/-- Reads a number of 64 bits. -/
def number? (s : List Char) : Option (Nat × List Char) :=
  (Text.word? (s.takeWhile Char.isDigit)).map (·, s.dropWhile Char.isDigit)

/-- Reads a number between two marks, with any number of spaces before each of the three. -/
def enclosedNumber? (opening closing : Char) (s : List Char) : Option (Nat × List Char) := do
  let s ← mark? opening s
  let (n, s) ← number? (skipSpaces s)
  let s ← mark? closing s
  return (n, s)

/-! ### Basic types -/

/-- The spellings of the basic types, each as its words, in the order in which they are tried. -/
def basicSpellings : List (List String × BasicType) :=
  [(["unsigned", "long", "long"], .unsignedLongLong),
    (["unsigned", "long"], .unsignedLong),
    (["unsigned", "short"], .unsignedShort),
    (["long", "long"], .longLong),
    (["long", "double"], .longDouble),
    (["boolean"], .boolean),
    (["bool"], .boolean),
    (["int8"], .int8),
    (["int16"], .int16),
    (["int32"], .int32),
    (["int64"], .int64),
    (["uint8"], .uint8),
    (["uint16"], .uint16),
    (["uint32"], .uint32),
    (["uint64"], .uint64),
    (["float64"], .double),
    (["double"], .double),
    (["float32"], .float),
    (["float"], .float),
    (["short"], .short),
    (["long"], .long),
    (["char"], .char),
    (["wchar"], .wideChar),
    (["octet"], .octet)]

/-- Reads words with blanks between them. -/
def words? : List String → List Char → Option (List Char)
  | [], s => some s
  | [word], s => word.toList.isPrefixOf? s
  | word :: more, s => do
    let s ← word.toList.isPrefixOf? s
    let s ← blanks? s
    words? more s

/-- Reads a basic type: the first spelling that fits, and no identifier's character after it. -/
def basicType? (s : List Char) : Option (BasicType × List Char) := do
  let (type, rest) ← basicSpellings.findSome? fun (words, type) => (words? words s).map (type, ·)
  if atBoundary rest then some (type, rest) else none

/-! ### Strings -/

/-- Reads a keyword for strings, with or without a greatest length. -/
def keywordString? (keyword : String) (type : Option Nat → TypeExpr) (s : List Char) :
    Option (TypeExpr × List Char) := do
  let rest ← keyword.toList.isPrefixOf? s
  match enclosedNumber? '<' '>' rest with
  | some (limit, rest) => some (type (some limit), rest)
  | none => if atBoundary rest then some (type none, rest) else none

/-- Reads a string type. -/
def stringType? (s : List Char) : Option (TypeExpr × List Char) :=
  (keywordString? "wstring" .wideString s).or (keywordString? "string" .string s)

/-! ### Declared types -/

theorem length_lt_of_identifier? {s rest : List Char} {name : String}
    (h : identifier? s = some (name, rest)) : rest.length < s.length := by
  cases s with
  | nil => simp [identifier?] at h
  | cons c s =>
    rw [identifier?] at h
    split at h
    · simp only [Option.some.injEq, Prod.mk.injEq] at h
      have := (List.dropWhile_sublist isIdentifierRest (l := s)).length_le
      rw [← h.2, List.length_cons]
      omega
    · cases h

/-- Reads the names of a path that follow a first one, each with the separator in front. A
separator without a name after it is left unread. -/
def moreNames (separator : List Char) (s : List Char) : List String × List Char :=
  match _hs : separator.isPrefixOf? s with
  | none => ([], s)
  | some afterSeparator =>
    match _hi : identifier? afterSeparator with
    | none => ([], s)
    | some (name, rest) =>
      let (names, rest) := moreNames separator rest
      (name :: names, rest)
termination_by s.length
decreasing_by
  have := length_lt_of_identifier? _hi
  rw [Text.eq_append_of_isPrefixOf? _hs, List.length_append]
  omega

/-- Reads one or more names with separators between them. The separator is `::` where that occurs
anywhere in the text that follows, else `/`. -/
def scopedName? (s : List Char) : Option (Path × List Char) := do
  let separator := if Text.occursIn [':', ':'] s then [':', ':'] else ['/']
  let (name, rest) ← identifier? s
  let (names, rest) := moreNames separator rest
  return (name :: names, rest)

/-! ### Type expressions -/

/-- Reads the beginning of a sequence type, up to its element type. -/
def sequenceStart? (s : List Char) : Option (List Char) := do
  let s ← "sequence".toList.isPrefixOf? s
  let s ← mark? '<' s
  return skipSpaces s

/-- Reads the end of a sequence type, from behind its element type on. -/
def sequenceEnd? (s : List Char) : Option (Option Nat × List Char) :=
  let limit := do
    let s ← mark? ',' s
    number? (skipSpaces s)
  match limit with
  | some (limit, rest) => (mark? '>' rest).map (some limit, ·)
  | none => (mark? '>' s).map (none, ·)

/-- Reads a type that is not a sequence. -/
def plainType? (s : List Char) : Option (TypeExpr × List Char) :=
  (stringType? s).or <|
    ((basicType? s).map fun (type, rest) => (.basic type, rest)).or <|
      (scopedName? s).map fun (path, rest) => (.named path, rest)

theorem length_lt_of_sequenceStart? {s rest : List Char} (h : sequenceStart? s = some rest) :
    rest.length < s.length := by
  simp only [sequenceStart?, mark?, Option.bind_eq_bind, Option.bind_eq_some_iff, Option.pure_def,
    Option.some.injEq] at h
  obtain ⟨s₁, h₁, s₂, h₂, rfl⟩ := h
  have e₁ := congrArg List.length (Text.eq_append_of_isPrefixOf? h₁)
  have e₂ := congrArg List.length (Text.eq_append_of_isPrefixOf? h₂)
  have e₃ : (skipSpaces s₁).length ≤ s₁.length := (List.dropWhile_sublist _).length_le
  have e₄ : (skipSpaces s₂).length ≤ s₂.length := (List.dropWhile_sublist _).length_le
  simp only [List.length_append, List.length_cons, List.length_nil] at e₁ e₂
  omega

/-- Reads a type: a sequence if the whole of one stands there, else a string type, else a basic
type, else a path of names. -/
def typeExpr? (s : List Char) : Option (TypeExpr × List Char) :=
  match _h : sequenceStart? s with
  | none => plainType? s
  | some body =>
    match typeExpr? body with
    | none => plainType? s
    | some (element, rest) =>
      match sequenceEnd? rest with
      | none => plainType? s
      | some (limit, rest) => some (.sequence element limit, rest)
termination_by s.length
decreasing_by exact length_lt_of_sequenceStart? _h

/-- Reads the name of a member, with the number of elements of an array in brackets. -/
def declarator? (s : List Char) : Option ((String × Option Nat) × List Char) := do
  let (name, rest) ← identifier? s
  match enclosedNumber? '[' ']' rest with
  | some (length, rest) => return ((name, some length), rest)
  | none => return ((name, none), rest)

end RosInterface.Idl
