import ScopeLexer.Command.Run

/-!
The command. The files that the command line and the configuration name are read first; all else is a
function of their contents.
-/
namespace ScopeLexer.Command

/-- The cause of a failure to read a file. -/
def fileErrorOf : IO.Error → FileError
  | .inappropriateType _ 20 _ => .notADirectory
  | .inappropriateType .. => .isDirectory
  | .invalidArgument _ 36 _ => .nameTooLong
  | _ => .notFound

def readPath (path : String) : IO (String × Except FileError String) := do
  try
    return (path, .ok (← IO.FS.readFile path))
  catch error => return (path, .error (fileErrorOf error))

/-- The disk with the files that have been read. -/
def diskOf (contents : List (String × Except FileError String)) : Disk where
  read path := (contents.lookup path).getD (.error .notFound)

/-- Reads the files that a command line names, and those that the configuration among them names. -/
def readDisk (arguments : Arguments) : IO Disk := do
  let named ← (pathsOf arguments).mapM readPath
  let config := arguments.config.bind fun path =>
    (RegistryConfig.load (diskOf named) path).toOption
  let further ← ((config.map pathsOfConfig).getD []).mapM readPath
  return diskOf (named ++ further)

end ScopeLexer.Command

open ScopeLexer.Command in
/-- Tokenizes a file and writes its tokens. -/
def main (arguments : List String) : IO UInt32 := do
  let disk ← match Arguments.ofList arguments with
    | .ok parsed => readDisk parsed
    | .error _ => pure (diskOf [])
  let report := run arguments disk
  IO.print report.standardOutput
  IO.eprint report.standardError
  return report.status.toUInt32
