/-
A configuration as JSON: an object of all its fields in the order of
their declaration, without blanks.
-/
import Chip8.Config.Basic

namespace Chip8

/-- A boolean as JSON. -/
def Config.boolChars (b : Bool) : List Char :=
  if b then ['t', 'r', 'u', 'e'] else ['f', 'a', 'l', 's', 'e']

/-- The value of a field as JSON. -/
def Config.valueChars (c : Config) : Config.Field → List Char
  | .shiftSource => '"' :: c.shiftSource.name ++ ['"']
  | .advancesIndex => boolChars c.advancesIndex
  | .flagsIndexOverflow => boolChars c.flagsIndexOverflow
  | .timerInterval => Nat.toDigits 10 c.timerInterval.toNat
  | .timerStep => Nat.toDigits 10 c.timerStep.toNat
  | .seed =>
    match c.seed with
    | none => ['n', 'u', 'l', 'l']
    | some n => Nat.toDigits 10 n.toNat

/-- A field as JSON: its key, a colon and its value. -/
def Config.entryChars (c : Config) (f : Config.Field) : List Char :=
  '"' :: f.name.toList ++ ['"', ':'] ++ c.valueChars f

/-- A configuration as the characters of its JSON text. -/
def Config.chars (c : Config) : List Char :=
  '{' :: [','].intercalate (Config.Field.all.map c.entryChars) ++ ['}']

/-- A configuration as JSON. -/
def Config.toJson (c : Config) : String := String.ofList c.chars

end Chip8
