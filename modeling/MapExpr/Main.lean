import MapExpr.Command

/-!
# The program

Reads the command line and the file that it may name, and prints what the command prints.
-/

namespace MapExpr.Command

/-- The content of a file, or the reason why it cannot be read. -/
def readSource (path : String) : IO (Except String String) := do
  try
    let bytes ← IO.FS.readBinFile path
    match String.fromUTF8? bytes with
    | some text => return .ok text
    | none => return .error "stream did not contain valid UTF-8"
  catch
    | .noFileOrDirectory .. => return .error missingFile
    | e => return .error (toString e)

/-- Runs the command for the arguments of the command line. -/
def runWith (args : List String) : IO UInt32 := do
  match Options.ofArguments? args with
  | none =>
    IO.eprintln "usage: [-f] [-a] [-s NAME=EXPR]... [--no-builtins] [-v] [--] SOURCE"
    return usageStatus.toUInt32
  | some o =>
    let content ← if o.fromFile then readSource o.source else pure (.ok o.source)
    let outcome := run o content
    IO.print outcome.stdout
    IO.eprint outcome.stderr
    return outcome.status.toUInt32

end MapExpr.Command

/-- The program. -/
def main (args : List String) : IO UInt32 := MapExpr.Command.runWith args
