/-
The command line: a program file, and perhaps a number of cycles. The
program is run without a window, and what is on the display at the end is
printed. Files, the clock and random bytes come from the operating
system; all else is `Headless.run`.
-/
import Chip8.Headless

namespace Chip8

/-- Why a file could not be read, as far as it makes a difference. -/
def FileProblem.ofIOError : IO.Error → FileProblem
  | .noFileOrDirectory .. => .notFound
  | .permissionDenied .. => ⟨13, "PermissionDenied", "Permission denied"⟩
  | .inappropriateType .. => ⟨21, "IsADirectory", "Is a directory"⟩
  | e => ⟨5, "Other", toString e⟩

def readProgram (path : String) : IO (Except FileProblem (Array UInt8)) := do
  match ← (IO.FS.readBinFile path).toBaseIO with
  | .ok bytes => return .ok bytes.data
  | .error e => return .error (.ofIOError e)

/-- A key of random bytes. -/
def randomKey : IO Random.ChaCha.Key := do
  let bytes ← IO.getRandomBytes 32
  return Vector.ofFn fun i =>
    (List.range 4).foldl (fun w j => w <<< 8 ||| (bytes.data.getD (4 * i.val + j) 0).toUInt32) 0

end Chip8

/-- Run a program and print what is on the display at the end. -/
def main (args : List String) : IO UInt32 := do
  let exit ← Chip8.Headless.run Chip8.readProgram IO.monoNanosNow Chip8.randomKey args
  for line in exit.errors do
    IO.eprintln line
  IO.print exit.output
  return exit.code
