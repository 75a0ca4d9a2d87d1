import RosInterface.Msg.Type

/-!
# Literals in message definitions

A constant has a value and a field may have a default value. Neither is part of the record, but a
definition in which one of them is no literal of its type is malformed. A text is also a string
literal without quotes around it; a text that is only one quote has no reading at all, and a
reader that comes to it gives up.

## Main definitions

* `Msg.Failure`: why a text is no literal.
* `Msg.isFloat`: the decimal floating point literals.
* `Msg.checkLiteral`: whether a text is a literal of a type.
-/

namespace RosInterface.Msg

open Text

/-- Why a part of a definition cannot be read. -/
inductive Failure where
  /-- It is malformed. -/
  | malformed
  /-- A string literal is a single quote, which makes the reader give up. -/
  | loneQuote
deriving DecidableEq

/-- Requires a condition of a well-formed definition. -/
def require (condition : Bool) : Except Failure Unit :=
  if condition then .ok () else .error .malformed

/-! ### Floating point numbers -/

/-- The text without one sign in front. -/
def withoutSign : List Char → List Char
  | '+' :: s => s
  | '-' :: s => s
  | s => s

/-- The text is one or more decimal digits. -/
def isDigits (s : List Char) : Bool :=
  !s.isEmpty && s.all Char.isDigit

/-- The text is a decimal exponent or nothing. -/
def isExponent : List Char → Bool
  | [] => true
  | c :: s => (c == 'e' || c == 'E') && isDigits (withoutSign s)

/-- The text is a decimal number, with digits before or after the point, and an exponent if it has
one. -/
def isDecimal (s : List Char) : Bool :=
  match s.dropWhile Char.isDigit with
  | '.' :: rest =>
    !(s.takeWhile Char.isDigit ++ rest.takeWhile Char.isDigit).isEmpty
      && isExponent (rest.dropWhile Char.isDigit)
  | rest => !(s.takeWhile Char.isDigit).isEmpty && isExponent rest

/-- The text is a floating point literal: a decimal number, an infinity or the word for no number,
the words in letters of either case. -/
def isFloat (s : List Char) : Bool :=
  let magnitude := withoutSign s
  ["inf", "infinity", "nan"].any (fun word => word.toList = magnitude.map Char.toLower)
    || isDecimal magnitude

/-! ### Literals of all types -/

/-- Whether a text is a literal of a built-in type. Integers are read with 64 bits, whatever their
type, and the greatest length of a string does not matter. -/
def checkBuiltin (s : List Char) : BuiltinType → Except Failure Unit
  | .bool => require (s = "true".toList || s = "false".toList)
  | .char | .int8 | .int16 | .int32 | .int64 => require (isSigned s)
  | .byte | .uint8 | .uint16 | .uint32 | .uint64 => require (unsigned? s).isSome
  | .float32 | .float64 => require (isFloat s)
  | .string _ | .wideString _ =>
    if s = ['"'] ∨ s = ['\''] then .error .loneQuote else .ok ()

/-- The items of a list literal: what stands between commas, trimmed, as far as it is not empty. -/
def listItems (s : List Char) : List (List Char) :=
  ((s.splitOn ',').map trim).filter fun item => !item.isEmpty

/-- Whether a text is a literal of a type. There are no literals of messages, and a list literal
has no regard for the size of the array. -/
def checkLiteral : MessageType → List Char → Except Failure Unit
  | .builtin type, s => checkBuiltin s type
  | .absolute _ _, _ => .error .malformed
  | .relative _, _ => .error .malformed
  | .array element _, s =>
    match (['['].isPrefixOf? (trim s)).bind ([']'].isSuffixOf? ·) with
    | none => .error .malformed
    | some items => (listItems items).forM (checkLiteral element)

end RosInterface.Msg
