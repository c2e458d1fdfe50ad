/-
What can go wrong when a machine is driven. A fault is raised by the
instruction at the program counter and halts the machine; it carries the
address of that instruction. The other errors refuse what the host asked
for and change nothing.

An error is written in two ways: as a message, for people to read, and
as a record, which shows the cause with its data.
-/
import Chip8.Memory
import Chip8.Text.Numeral
import Chip8.Text.Quoted

namespace Chip8

/-- Why an instruction could not be run. -/
inductive Fault where
  /-- The word at `pc` stands for no instruction. -/
  | unknownInstruction (word pc : UInt16)
  /-- A call found the stack full. -/
  | stackOverflow (pc : UInt16)
  /-- A return found the stack empty. -/
  | stackUnderflow (pc : UInt16)
  deriving DecidableEq

/-- Why a file could not be read, as the operating system says it. -/
structure FileProblem where
  code : Nat
  kind : String
  text : String
  deriving DecidableEq

/-- There is no such file. -/
def FileProblem.notFound : FileProblem := ⟨2, "NotFound", "No such file or directory"⟩

/-- Why the machine did not do what it was asked. -/
inductive Error where
  /-- The program file could not be read. -/
  | unreadable (path : String) (problem : FileProblem)
  /-- The program does not fit. -/
  | tooLarge (size : Nat)
  /-- The instruction at the program counter could not be run. -/
  | fault (fault : Fault)
  /-- There is no key with this number. -/
  | invalidKey (code : UInt8)
  deriving DecidableEq

/-- The address of the instruction that could not be run. -/
def Fault.pc : Fault → UInt16
  | .unknownInstruction _ pc => pc
  | .stackOverflow pc => pc
  | .stackUnderflow pc => pc

def Fault.name : Fault → String
  | .unknownInstruction .. => "UnknownInstruction"
  | .stackOverflow _ => "StackOverflow"
  | .stackUnderflow _ => "StackUnderflow"

def Fault.message : Fault → String
  | .unknownInstruction word pc =>
    "unknown instruction " ++ Text.word word ++ " at " ++ Text.address pc
  | .stackOverflow pc => "call stack overflow at " ++ Text.address pc
  | .stackUnderflow pc => "return with an empty call stack at " ++ Text.address pc

namespace Error

/-- Whether the error halts the machine. -/
def isFatal : Error → Bool
  | .fault _ => true
  | _ => false

def name : Error → String
  | .unreadable .. => "ProgramLoad"
  | .tooLarge _ => "ProgramTooLarge"
  | .fault f => f.name
  | .invalidKey _ => "InvalidKey"

def message : Error → String
  | .unreadable path problem =>
    "unable to read program " ++ Text.quoted path ++ ": " ++ problem.text
      ++ " (os error " ++ toString problem.code ++ ")"
  | .tooLarge size =>
    "program is too large (" ++ toString size ++ " bytes), max size is "
      ++ toString Memory.capacity ++ " bytes"
  | .fault f => f.message
  | .invalidKey code =>
    "key code " ++ Text.hex 1 code.toNat ++ " is outside the 16 key keypad"

/-- A name with labelled data behind it, as records show them. -/
def labelled (name : String) (fields : List (String × String)) : String :=
  let shown := fields.map fun (label, value) => label ++ ": " ++ value
  name ++ " \x7b " ++ String.intercalate ", " shown ++ " \x7d"

/-- An error as a record. -/
def record : Error → String
  | e@(.unreadable path problem) =>
    labelled e.name [("path", Text.quoted path),
      ("source", labelled "Os" [("code", toString problem.code), ("kind", problem.kind),
        ("message", Text.quoted problem.text)])]
  | e@(.tooLarge size) =>
    labelled e.name [("size", toString size), ("max_size", toString Memory.capacity)]
  | .fault f@(.unknownInstruction word pc) =>
    labelled f.name [("opcode", toString word.toNat), ("pc", toString pc.toNat)]
  | .fault f => labelled f.name [("pc", toString f.pc.toNat)]
  | e@(.invalidKey code) => e.name ++ "(" ++ toString code.toNat ++ ")"

end Error

end Chip8
