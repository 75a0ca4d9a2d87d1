/-!
# String literals in IDL text

Comments and annotations are told apart from the text around them by looking at the characters
outside string literals only. A literal stands between double quotes, and a backslash in it takes
the next character with it.

## Main definitions

* `Idl.LiteralState`: where a scanner stands with respect to literals.
* `Idl.LiteralState.next`: where it stands one character later.
-/

namespace RosInterface.Idl

/-- Where a scanner stands with respect to string literals. -/
inductive LiteralState where
  /-- Not in a literal. -/
  | outside
  /-- In a literal. -/
  | inside
  /-- In a literal, directly after a backslash that escapes the next character. -/
  | escaped
deriving DecidableEq, Inhabited

/-- Where a scanner stands after a character. -/
def LiteralState.next : LiteralState → Char → LiteralState
  | outside, c => if c = '"' then inside else outside
  | inside, c => if c = '\\' then escaped else if c = '"' then outside else inside
  | escaped, _ => inside

end RosInterface.Idl
