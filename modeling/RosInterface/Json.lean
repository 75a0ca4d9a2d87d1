import RosInterface.Text.Decimal
import RosInterface.Text.Quoted

/-!
# Compact JSON text

The JSON documents that schemas are written in: natural numbers, strings, arrays and objects with
their members in order. The text has no white space. In a string the quote, the backslash and the
control characters below U+0020 are escaped, five of the latter by a letter and the others by
`\u00` and two lower-case hexadecimal digits; every other character stands for itself.

## Main definitions

* `Json`: the documents.
* `Json.escapedChar`, `Json.stringText`: strings.
* `Json.chars`, `Json.text`: the text of a document.
-/

namespace RosInterface

/-- A document of numbers, strings, arrays and objects. -/
inductive Json where
  /-- A natural number. -/
  | number (value : Nat)
  /-- A string. -/
  | string (value : String)
  /-- An array. -/
  | array (items : List Json)
  /-- An object, with its members in the order in which they are written. -/
  | object (members : List (String × Json))
deriving Inhabited

namespace Json

/-- How a character is written inside a string. -/
def escapedChar (c : Char) : List Char :=
  if c = '"' ∨ c = '\\' then ['\\', c]
  else if c = '\x08' then ['\\', 'b']
  else if c = '\t' then ['\\', 't']
  else if c = '\n' then ['\\', 'n']
  else if c = '\x0c' then ['\\', 'f']
  else if c = '\r' then ['\\', 'r']
  else if c.toNat < 0x20 then
    ['\\', 'u', '0', '0', Nat.digitChar (c.toNat / 16), Nat.digitChar (c.toNat % 16)]
  else [c]

/-- The text of a string. -/
def stringChars (s : String) : List Char :=
  '"' :: (s.toList.flatMap escapedChar ++ ['"'])

mutual

/-- The characters of a document. -/
def chars : Json → List Char
  | number value => Text.decimal value
  | string value => stringChars value
  | array items => '[' :: (itemsChars items ++ [']'])
  | object members => '\x7b' :: (membersChars members ++ ['\x7d'])

/-- The items of an array, with commas between them. -/
def itemsChars : List Json → List Char
  | [] => []
  | item :: rest => item.chars ++ moreItemsChars rest

/-- The items after the first one, each with a comma in front. -/
def moreItemsChars : List Json → List Char
  | [] => []
  | item :: rest => ',' :: (item.chars ++ moreItemsChars rest)

/-- The members of an object, with commas between them. -/
def membersChars : List (String × Json) → List Char
  | [] => []
  | (key, value) :: rest => stringChars key ++ ':' :: (value.chars ++ moreMembersChars rest)

/-- The members after the first one, each with a comma in front. -/
def moreMembersChars : List (String × Json) → List Char
  | [] => []
  | (key, value) :: rest =>
    ',' :: (stringChars key ++ ':' :: (value.chars ++ moreMembersChars rest))

end

/-- The compact text of a document. -/
def text (document : Json) : String :=
  String.ofList document.chars

end Json

end RosInterface
