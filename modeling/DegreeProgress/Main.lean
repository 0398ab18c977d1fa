import DegreeProgress.CommandLine.Run

/-!
# The command line program

Reads files from the disk and hands a command line to `Command.run`.
-/

namespace DegreeProgress

/-- the disk and the environment -/
def diskSurroundings : Surroundings IO where
  readFile p most :=
    try
      let handle ← IO.FS.Handle.mk p.text .read
      some <$> readUpTo handle most (most + 1) .empty
    catch _ => return none
  settingsVariable := IO.getEnv "DEGREE_AUDIT_CONFIG"
where
  /-- reads until enough bytes are there or the file ends -/
  readUpTo (handle : IO.FS.Handle) (most : Nat) : (fuel : Nat) → ByteArray → IO ByteArray
    | 0, bytes => return bytes
    | fuel + 1, bytes => do
      if most ≤ bytes.size then return bytes
      let more ← handle.read 65536
      if more.isEmpty then return bytes else readUpTo handle most fuel (bytes ++ more)

end DegreeProgress

open DegreeProgress in
def main (args : List String) : IO UInt32 := do
  let output ← Command.run diskSurroundings args
  IO.print output.out
  IO.eprint output.err
  return output.exitCode.toUInt32
