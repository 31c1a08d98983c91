import ExtensionKit.CommandLine

/-!
# The program

Reads the file that a call names and hands its content to `CommandLine.Invocation.run`, which decides
everything else.
-/

namespace ExtensionKit.CommandLine

/-- What went wrong with a file. -/
def fileFault : IO.Error → FileFault
  | .noFileOrDirectory .. => .absent
  | .inappropriateType _ 21 _ => .directory
  | .inappropriateType .. => .notDirectory
  | e => .other (toString e)

/-- The text of a file. -/
def readText (path : String) : IO (Except FileFault String) := do
  try return textOfBytes (← IO.FS.readBinFile path)
  catch e => return .error (fileFault e)

end ExtensionKit.CommandLine

open ExtensionKit.CommandLine

/-- The program. -/
def main (arguments : List String) : IO UInt32 := do
  let outcome ← match Invocation.ofArguments? arguments with
    | none => pure Outcome.misuse
    | some i => i.run <$> readText i.path
  (← IO.getStdout).putStr outcome.stdout
  (← IO.getStderr).putStr outcome.stderr
  return outcome.exitCode.toUInt32
