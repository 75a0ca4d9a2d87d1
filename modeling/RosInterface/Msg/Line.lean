import RosInterface.Msg.Literal

/-!
# Lines of message definitions

A line declares a field or a constant, each with a type, a name and perhaps a value. A comment
begins at the first `#` outside quotes.

## Main definitions

* `Msg.MessageField`: a field.
* `Msg.withoutComment`: a line without its comment.
* `Msg.token?`: the next token of a line.
* `Msg.fieldOfLine`: the field that a line declares, if any.
* `Msg.fieldsOfLines`: the fields that lines declare.
-/

namespace RosInterface.Msg

open Text

/-- A field of a message. -/
structure MessageField where
  /-- The name of the field. -/
  name : String
  /-- The type of the field. -/
  type : MessageType
deriving DecidableEq

/-- A trimmed line of three or more equals signs, which separates the parts of a definition. -/
def isSeparator (line : List Char) : Bool :=
  3 ≤ line.length && line.all (· == '=')

/-! ### Comments -/

mutual

/-- The characters of a line up to its comment, outside quotes. -/
def beforeComment : List Char → List Char
  | [] => []
  | c :: rest =>
    if c = '#' then []
    else if c = '"' ∨ c = '\'' then c :: inQuotes c rest
    else c :: beforeComment rest

/-- The characters of a line up to its comment, after an opening quote of the given sort. A
backslash takes the next character with it. -/
def inQuotes (quote : Char) : List Char → List Char
  | [] => []
  | [c] => [c]
  | c :: next :: rest =>
    if c = '\\' then c :: next :: inQuotes quote rest
    else if c = quote then c :: beforeComment (next :: rest)
    else c :: inQuotes quote (next :: rest)

end

/-- The line without its comment, trimmed. -/
def withoutComment (line : List Char) : List Char :=
  trim (beforeComment line)

/-! ### Tokens -/

/-- The rest of a token after a character, and the text after it. A token ends before a blank and
before an equals sign, unless that stands directly after a `<`. -/
def tokenRest (previous : Char) : List Char → List Char × List Char
  | [] => ([], [])
  | c :: rest =>
    if isBlank c || (c == '=' && previous != '<') then ([], c :: rest)
    else
      let (token, after) := tokenRest c rest
      (c :: token, after)

/-- The next token, and the text after it. An equals sign that begins a token is all of it. -/
def token? (s : List Char) : Option (List Char × List Char) :=
  match trimStart s with
  | [] => none
  | '=' :: rest => some (['='], rest)
  | c :: rest =>
    let (token, after) := tokenRest c rest
    some (c :: token, after)

/-! ### Declarations -/

/-- The name of a constant is made of capital letters, digits and underscores. It begins with a
letter, does not end in an underscore and has no two underscores in a row. -/
def isConstantName (name : List Char) : Bool :=
  name.head?.any Char.isUpper
    && name.all (fun c => c.isUpper || c.isDigit || c == '_')
    && name.getLast? != some '_'
    && !occursIn ['_', '_'] name

/-- The type is a built-in one. -/
def MessageType.isBuiltin : MessageType → Bool
  | .builtin _ => true
  | _ => false

/-- The field that a line without comment declares, if any. A constant is checked and is no
field, and so is the default value of a field, which is no part of it. -/
def fieldOfLine (line : List Char) : Except Failure (Option MessageField) :=
  match token? line with
  | none => .error .malformed
  | some (typeText, afterType) =>
    match token? afterType with
    | none => .error .malformed
    | some (name, afterName) =>
      match MessageType.parse? typeText with
      | none => .error .malformed
      | some type =>
        match trim afterName with
        | [] => .ok (some ⟨String.ofList name, type⟩)
        | '=' :: value => do
          require (isConstantName name && type.isBuiltin)
          checkLiteral type (trim value)
          return none
        | value => do
          checkLiteral type value
          return some ⟨String.ofList name, type⟩

/-- The fields that lines declare. Lines without content and separators are passed over. -/
def fieldsOfLines : List (List Char) → Except Failure (List MessageField)
  | [] => .ok []
  | line :: rest =>
    let content := withoutComment line
    if content.isEmpty || isSeparator content then fieldsOfLines rest
    else do
      let field ← fieldOfLine content
      let fields ← fieldsOfLines rest
      return field.toList ++ fields

end RosInterface.Msg
