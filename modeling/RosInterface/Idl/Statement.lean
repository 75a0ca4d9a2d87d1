import RosInterface.Text.Quoted
import RosInterface.Idl.Grammar

/-!
# Statements of an IDL file

An IDL file is read line by line, and each line holds one statement. A first look at a line tells
what kind of statement it holds; it does not depend on the lines before. What opens a module, a
struct or an enum is recognised up to its brace, and the rest of such a line is not looked at.
Members, typedefs and values of enums are then read in full, and the readers say where they fail.

## Main definitions

* `Idl.Statement`, `Idl.Statement.ofLine`: the kinds of statement.
* `Idl.memberOfLine`, `Idl.typedefOfLine`, `Idl.enumValueOfLine`: the statements read in full.
* `Idl.SyntaxError`: why a statement could not be read.
-/

namespace RosInterface.Idl

open Text

/-- The kind of statement that a line holds. -/
inductive Statement where
  /-- Nothing, an inclusion, a constant or the announcement of a struct. -/
  | skipped
  /-- A declaration of a kind that is not supported. -/
  | unsupported
  /-- A typedef. -/
  | typedef
  /-- The opening of a module. -/
  | openModule (name : String)
  /-- The opening of a struct. -/
  | openStruct (name : String)
  /-- The opening of an enum. -/
  | openEnum (name : String)
  /-- A closing brace. -/
  | close
  /-- What stands in the body of a struct or enum. -/
  | content
deriving DecidableEq

/-- Reads a keyword, a name and a mark. -/
def keywordName? (keyword : String) (mark : Char) (line : List Char) :
    Option (String × List Char) := do
  let rest ← keyword.toList.isPrefixOf? line
  let rest ← blanks? rest
  let (name, rest) ← identifier? rest
  let rest ← mark? mark rest
  return (name, rest)

/-- The line announces a struct without its members. -/
def isAnnouncement (line : List Char) : Bool :=
  match keywordName? "struct" ';' line with
  | some (_, rest) => (trim rest).isEmpty
  | none => false

/-- The line begins with one of the words. -/
def beginsWithAny (words : List String) (line : List Char) : Bool :=
  words.any fun word => word.toList.isPrefixOf line

/-- The kind of statement that a line holds if it is none of those that a single keyword tells. -/
def Statement.ofOpening (line : List Char) : Statement :=
  match keywordName? "module" '\x7b' line with
  | some (name, _) => .openModule name
  | none =>
    if isAnnouncement line then .skipped
    else
      match keywordName? "struct" '\x7b' line with
      | some (name, _) => .openStruct name
      | none =>
        match keywordName? "enum" '\x7b' line with
        | some (name, _) => .openEnum name
        | none => if line = ['\x7d', ';'] ∨ line = ['\x7d'] then .close else .content

/-- The kind of statement that a line without comments and annotations holds. -/
def Statement.ofLine (line : List Char) : Statement :=
  if line.isEmpty || beginsWithAny ["#include", "const "] line then .skipped
  else if beginsWithAny ["union ", "bitmask "] line then .unsupported
  else if beginsWithAny ["typedef "] line then .typedef
  else ofOpening line

/-! ### Errors -/

/-- What does not stand where a member needs it, with the text from there on. -/
inductive MemberFault where
  /-- A type. -/
  | type (rest : List Char)
  /-- A blank after the type. -/
  | blank (rest : List Char)
  /-- A name. -/
  | name (rest : List Char)
deriving DecidableEq

/-- The text of a fault: the text from where a reader failed, and the class of that reader. -/
def faultText (rest : List Char) (readerClass : String) : String :=
  "Parsing Error: Error \x7b input: " ++ String.ofList (quoted rest) ++ ", code: " ++ readerClass
    ++ " \x7d"

/-- The text of a fault in a member. -/
def MemberFault.text : MemberFault → String
  | type rest => faultText rest "Tag"
  | blank rest => faultText rest "TakeWhile1"
  | name rest => faultText rest "Tag"

/-- Why a member or a typedef could not be read. -/
inductive MemberError where
  /-- The line does not end in a semicolon. -/
  | unterminated
  /-- The line goes on after the member. -/
  | trailing (rest : List Char)
  /-- A part of the member is missing. -/
  | malformed (fault : MemberFault)
deriving DecidableEq

/-- Why a statement could not be read. -/
inductive SyntaxError where
  /-- The statement should be a member. -/
  | member (error : MemberError)
  /-- The statement should be a typedef. -/
  | typedef (error : MemberError)
  /-- The statement should be a value of an enum: the line, and its part before any comma. -/
  | enumValue (line value : List Char)
deriving DecidableEq

/-- The text that tells a user why a statement could not be read. -/
def SyntaxError.message : SyntaxError → String
  | member .unterminated => "member declaration must end with ';'"
  | member (.trailing rest) =>
    "unexpected trailing characters in member: " ++ String.ofList rest
  | member (.malformed fault) => "failed to parse member declaration: " ++ fault.text
  | typedef .unterminated => "typedef must be `typedef T name;`"
  | typedef (.trailing rest) =>
    "unexpected trailing characters in typedef: " ++ String.ofList rest
  | typedef (.malformed fault) => "failed to parse typedef: " ++ fault.text
  | enumValue line value =>
    "failed to parse enum variant '" ++ String.ofList line ++ "': " ++ faultText value "Tag"

/-! ### Reading statements -/

/-- Reads a type, blanks and a declarator. -/
def memberBody (s : List Char) : Except MemberFault (Member × List Char) :=
  match typeExpr? s with
  | none => .error (.type s)
  | some (type, rest) =>
    match blanks? rest with
    | none => .error (.blank rest)
    | some rest =>
      match declarator? rest with
      | none => .error (.name rest)
      | some ((name, length), rest) => .ok (⟨name, type, length⟩, rest)

/-- Reads a member that takes up a whole text. -/
def wholeMember (s : List Char) : Except MemberError Member :=
  match memberBody s with
  | .error fault => .error (.malformed fault)
  | .ok (member, rest) =>
    if (trim rest).isEmpty then .ok member else .error (.trailing rest)

/-- The member that a line declares. -/
def memberOfLine (line : List Char) : Except MemberError Member :=
  match [';'].isSuffixOf? line with
  | none => .error .unterminated
  | some body => wholeMember (trim body)

/-- The typedef that a line declares, as the member that stands after the keyword. -/
def typedefOfLine (line : List Char) : Except MemberError Member :=
  match "typedef".toList.isPrefixOf? line with
  | none => .error .unterminated
  | some rest => memberOfLine rest

/-- The text without the commas at its end. -/
def trimCommas (s : List Char) : List Char :=
  (s.reverse.dropWhile (· == ',')).reverse

/-- The value of an enum that a line declares. A line of commas declares none. What follows the
name is not looked at. -/
def enumValueOfLine (line : List Char) : Except SyntaxError (Option String) :=
  let value := trim (trimCommas (trim line))
  if value.isEmpty then .ok none
  else
    match identifier? value with
    | some (name, _) => .ok (some name)
    | none => .error (.enumValue line value)

end RosInterface.Idl
