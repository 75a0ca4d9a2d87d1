import RosInterface.Program
import RosInterface.Install.Standard

/-!
# The command line

The arguments of the program are read from left to right: the name of the interface, and any number
of options with install prefixes. The first argument that asks for help or for the version, or that
is out of place, ends the reading. Without an option, the prefixes are those in the value of an
environment variable.

## Main definitions

* `CommandLine.Found`, `CommandLine.read`: the arguments as far as they were read.
* `CommandLine.parse`: how the arguments are parsed.
* `CommandLine.run`: what the program prints for a command line.
-/

namespace RosInterface.CommandLine

open Program (Arguments Refusal)

/-- The arguments that were found. -/
structure Found where
  /-- The name of the interface. -/
  typeName : Option String
  /-- The install prefixes, if they were given. -/
  prefixes : Option (List String)
deriving DecidableEq

/-- No arguments. -/
def Found.nothing : Found :=
  ⟨none, none⟩

/-- The lines of the text of help. -/
def helpLines : List String :=
  ["Print the JSON schema of a ROS 2 message, service or action type",
    "",
    "Usage: get-type-schema [OPTIONS] <TYPE_NAME>",
    "",
    "Arguments:",
    "  <TYPE_NAME>  Interface type, e.g. sensor_msgs/msg/Temperature",
    "",
    "Options:",
    "      --prefix-path <PREFIX_PATH>  Install prefixes to search for interface definitions "
      ++ "[env: AMENT_PREFIX_PATH]",
    "  -h, --help                       Print help",
    "  -V, --version                    Print version",
    ""]

/-- The text of help. -/
def helpText : String :=
  "\n".intercalate helpLines

/-- The text that tells the version. -/
def versionText : String :=
  "get-type-schema 0.1.0\n"

/-- The install prefixes in a text, with colons between them. None of them may be empty. -/
def prefixList? (value : String) : Option (List String) :=
  let pieces := (value.toList.splitOn ':').map String.ofList
  if pieces.contains "" then none else some pieces

/-- Takes an argument that is no option. There is only one such argument. -/
def Found.addTypeName (found : Found) (value : String) : Except Refusal Found :=
  match found.typeName with
  | some _ => .error .misuse
  | none => .ok { found with typeName := some value }

/-- Takes the value of an option with install prefixes. -/
def Found.addPrefixes (found : Found) (value : String) : Except Refusal Found :=
  match prefixList? value with
  | none => .error .misuse
  | some more => .ok { found with prefixes := some (found.prefixes.getD [] ++ more) }

/-- What an argument is. -/
inductive Argument where
  /-- The mark after which there are no options. -/
  | endOfOptions
  /-- An option with install prefixes, whose value is the next argument. -/
  | prefixOption
  /-- An option with install prefixes, together with its value. -/
  | prefixOptionWith (value : String)
  /-- An argument that ends the reading. -/
  | ending (refusal : Refusal)
  /-- An argument that is no option. -/
  | plain
deriving DecidableEq

/-- What an argument is. A single dash is no option. -/
def Argument.of (argument : String) : Argument :=
  if argument = "--" then .endOfOptions
  else if argument = "--prefix-path" then .prefixOption
  else if argument = "--help" then .ending (.display helpText)
  else if argument = "--version" then .ending (.display versionText)
  else
    match "--prefix-path=".toList.isPrefixOf? argument.toList with
    | some value => .prefixOptionWith (String.ofList value)
    | none =>
      match argument.toList with
      | '-' :: 'h' :: _ => .ending (.display helpText)
      | '-' :: 'V' :: _ => .ending (.display versionText)
      | '-' :: _ :: _ => .ending .misuse
      | _ => .plain

/-- An argument that begins with a dash and goes on is no value of an option. -/
def isOptionValue (argument : String) : Bool :=
  match argument.toList with
  | '-' :: _ :: _ => false
  | _ => true

/-- Reads arguments from left to right. -/
def read : List String → Found → Except Refusal Found
  | [], found => .ok found
  | argument :: rest, found =>
    match Argument.of argument with
    | .ending refusal => .error refusal
    | .endOfOptions => rest.foldlM Found.addTypeName found
    | .plain => do
      let found ← found.addTypeName argument
      read rest found
    | .prefixOptionWith value => do
      let found ← found.addPrefixes value
      read rest found
    | .prefixOption =>
      match rest with
      | [] => .error .misuse
      | value :: rest =>
        if isOptionValue value then do
          let found ← found.addPrefixes value
          read rest found
        else .error .misuse

/-- The arguments that were found, given the value of the environment variable. -/
def Found.arguments (found : Found) (searchPath : Option String) : Except Refusal Arguments :=
  match found.typeName with
  | none => .error .misuse
  | some typeName =>
    match found.prefixes, searchPath with
    | some prefixes, _ => .ok ⟨typeName, prefixes⟩
    | none, none => .ok ⟨typeName, []⟩
    | none, some value =>
      match prefixList? value with
      | none => .error .misuse
      | some prefixes => .ok ⟨typeName, prefixes⟩

/-- How arguments are parsed, given the value of the environment variable. -/
def parse (args : List String) (searchPath : Option String) : Except Refusal Arguments := do
  let found ← read args .nothing
  found.arguments searchPath

/-! ### Runs -/

/-- What is left behind by a run that ends without an outcome. -/
def crash : Program.Outcome :=
  ⟨101, ""⟩

/-- What the program prints for a command line. -/
def run (files : Install.Files) (args : List String) (searchPath : Option String) :
    Program.Outcome :=
  (Program.start Msg.reader files parse args searchPath).getD crash

end RosInterface.CommandLine
