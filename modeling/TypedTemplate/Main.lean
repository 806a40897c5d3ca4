import TypedTemplate.Command.Run

/-!
# The command line

Reads the files that a command names, carries it out, and prints what comes of it.
-/

open TypedTemplate

def readText (path : String) : IO (Except String String) := do
  try
    return .ok (← IO.FS.readFile path)
  catch
    | .noFileOrDirectory .. => return .error Files.missing
    | e => return .error (toString e)

def main (args : List String) : IO UInt32 := do
  let paths := match Command.ofArguments args with
    | .ok c => c.paths
    | .error _ => []
  let table ← paths.mapM fun path => do return (path, ← readText path)
  let outcome := Command.runArguments (Files.ofTable table) Registry.builtins args
  (← IO.getStdout).putStr outcome.stdout
  (← IO.getStderr).putStr outcome.stderr
  return outcome.exit.toUInt32
