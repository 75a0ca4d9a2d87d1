import RosInterface.Install.Resolution

/-!
# The program

The program `get-type-schema` prints the JSON schema of one interface. How its arguments are parsed
is a parameter, as is the reader of message specifications. Arguments that can be parsed name the
interface and give install prefixes, and the interface is resolved over an index of those prefixes
that are not empty. What the program prints is one document on a line: the schema, or the error and
the name. Arguments that cannot be parsed are answered with how the program is used, unless they ask
for a text such as that of help.

## Main definitions

* `Program.Arguments`, `Program.Refusal`, `Program.Parser`: the arguments and how they are parsed.
* `Program.Outcome`: what is printed, and the exit code.
* `Program.run`: what comes of arguments that were parsed.
* `Program.start`: what comes of a command line.
-/

namespace RosInterface.Program

/-! ### Arguments -/

/-- The arguments of the program. -/
structure Arguments where
  /-- The name of the interface. -/
  typeName : String
  /-- The install prefixes. Some of them may be empty. -/
  prefixes : List String
deriving DecidableEq

/-- Why arguments cannot be parsed. -/
inductive Refusal where
  /-- They ask for a text, which is to be printed. -/
  | display (text : String)
  /-- They are nothing that the program can do. -/
  | misuse
deriving DecidableEq

/-- How arguments are parsed, given the value of the environment variable with install prefixes. -/
abbrev Parser :=
  List String → Option String → Except Refusal Arguments

/-- The index over the prefixes that are not empty. -/
def Arguments.index (arguments : Arguments) : Install.Index where
  prefixes := arguments.prefixes.filter fun piece => piece ≠ ""

/-! ### Outcomes -/

/-- What a run of the program leaves behind. -/
structure Outcome where
  /-- The exit code. -/
  code : UInt32
  /-- The text on the standard output. -/
  output : String
deriving DecidableEq

/-- A document on a line of its own. -/
def line (document : Json) : String :=
  document.text ++ "\n"

/-- The document that tells how to use the program. -/
def usageDocument : Json :=
  .object [("error", .string "Usage: get-type-schema <type>"),
    ("examples", .array [.string "get-type-schema sensor_msgs/msg/Temperature",
      .string "get-type-schema std_srvs/srv/Trigger",
      .string "get-type-schema example_interfaces/action/Fibonacci"])]

/-- The document that tells about an error. -/
def errorDocument (error : ResolutionError) : Json :=
  .object [("error", .string error.message), ("type", .string error.typeName)]

/-- How the program is used. -/
def usage : Outcome :=
  ⟨1, line usageDocument⟩

/-- The schema of an interface, or the error. -/
def Outcome.ofResolution : Except ResolutionError ResolvedInterface → Outcome
  | .ok resolved => ⟨0, line resolved.json⟩
  | .error error => ⟨1, line (errorDocument error)⟩

/-! ### Runs -/

variable (read : Msg.Reader) (files : Install.Files)

/-- What comes of arguments that were parsed. -/
def run (arguments : Arguments) : Option Outcome :=
  (arguments.index.resolve? read files arguments.typeName).map Outcome.ofResolution

/-- What comes of a command line, given the value of the environment variable. -/
def start (parse : Parser) (args : List String) (searchPath : Option String) : Option Outcome :=
  match parse args searchPath with
  | .ok arguments => run read files arguments
  | .error (.display text) => some ⟨0, text⟩
  | .error .misuse => some usage

end RosInterface.Program
