import RosInterface.Text.Unprintable

/-!
# Quoted text

A message that shows a piece of its input writes it between double quotes. A quote and a
backslash are escaped by a backslash, the characters NUL, tab, carriage return and line feed have
short escapes, and every other unprintable character is written by its code point in lower-case
hexadecimal digits, as in `\u{200b}`.

## Main definitions

* `Text.quotedChar`: how one character is written between the quotes.
* `Text.quoted`: the quoted text.
-/

namespace RosInterface.Text

/-- The numeral of a number in lower-case hexadecimal digits, without leading zeros. -/
def hexadecimal (n : Nat) : List Char :=
  Nat.toDigits 16 n

/-- How a character is written between double quotes. -/
def quotedChar (c : Char) : List Char :=
  if c = '"' ∨ c = '\\' then ['\\', c]
  else if c = '\x00' then ['\\', '0']
  else if c = '\t' then ['\\', 't']
  else if c = '\r' then ['\\', 'r']
  else if c = '\n' then ['\\', 'n']
  else if isUnprintable c then ['\\', 'u', '\x7b'] ++ hexadecimal c.toNat ++ ['\x7d']
  else [c]

/-- The text between double quotes. -/
def quoted (s : List Char) : List Char :=
  '"' :: (s.flatMap quotedChar ++ ['"'])

end RosInterface.Text
