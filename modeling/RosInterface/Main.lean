import RosInterface.CommandLine

/-!
# The executable

Reads the command line, the environment and the files, and prints the answer. Which files matter
is only known as definitions are read. So the answer is worked out from the files read so far, and
as long as it asks for paths that have not been looked at, these are looked at and it is worked
out anew.
-/

namespace RosInterface

open Install

/-- The reason for a failure to read. -/
def reasonOf : IO.Error → String
  | .permissionDenied _ code details => details ++ " (os error " ++ toString code ++ ")"
  | error => toString error

/-- There is something at a path, be it a directory. -/
def isThere (path : SourcePath) : IO Bool := do
  try
    discard (IO.FS.realPath path.text)
    return true
  catch _ => return false

/-- The regular file at a path, if there is one, with what comes of reading it. -/
def readSource (path : SourcePath) : IO (Option (Except String ByteArray)) := do
  if ← isThere path then
    try
      let content ← IO.FS.readBinFile path.text
      return some (.ok content)
    catch error =>
      match error with
      -- a directory is no regular file
      | .inappropriateType .. => return none
      | error => return some (.error (reasonOf error))
  else return none

/-- Looks at the paths that the resolution of a name asks for, until there are no new ones. -/
partial def gather (index : Index) (typeName : String)
    (known : List (SourcePath × Option (Except String ByteArray))) : IO Files := do
  let files := Files.ofList (known.filterMap fun (path, source) => source.map (path, ·))
  let calls := (resolve (index.lookup files) typeName).calls
  let paths := calls.flatMap fun call => index.pathsOf call.subject
  let fresh := (paths.filter fun path => !known.any fun entry => entry.1 = path).eraseDups
  if fresh.isEmpty then return files
  let found ← fresh.mapM fun path => do return (path, ← readSource path)
  gather index typeName (known ++ found)

/-- The files that a command line needs. -/
def filesFor (args : List String) (searchPath : Option String) : IO Files :=
  match CommandLine.parse args searchPath with
  | .ok arguments => gather arguments.index arguments.typeName []
  | .error _ => return Files.ofList []

end RosInterface

open RosInterface in
/-- Runs the program. -/
def main (args : List String) : IO UInt32 := do
  let searchPath ← IO.getEnv "AMENT_PREFIX_PATH"
  let outcome := CommandLine.run (← filesFor args searchPath) args searchPath
  IO.print outcome.output
  return outcome.code
