/-
What can be wrong with a configuration: its form, as JSON, or what it
says. The message names what was found and what should have been there.
-/
import Chip8.Config.Basic
import Chip8.Decimal.Layout
import Chip8.Json.Flaw
import Chip8.Json.Number
import Chip8.Text.Quoted

namespace Chip8.Config

/-- What was found where something else should stand. -/
inductive Found where
  | null
  | boolean (b : Bool)
  | integer (n : Int)
  | real (x : Float)
  | string (cs : List Char)
  | sequence
  | map

/-- What should stand at a place. -/
inductive Wanted where
  | config
  | boolean
  | byte
  | long
  | unit
  deriving DecidableEq

/-- Why a text is no configuration: the first reason met from left to
right. -/
inductive Error where
  /-- It is not JSON. -/
  | malformed (flaw : Json.Flaw)
  /-- A value is of the wrong kind. -/
  | wrongKind (found : Found) (wanted : Wanted)
  /-- An integer does not fit. -/
  | outOfRange (n : Int) (wanted : Wanted)
  /-- No shift source has this name. -/
  | unknownSource (name : List Char)
  /-- A field is given twice. -/
  | duplicate (field : Field)

/-- The kinds of flaws that callers tell apart. -/
inductive Error.Category where
  /-- The text is not JSON. -/
  | form
  /-- The text ends too early. -/
  | truncated
  /-- The text is JSON so far, but says something that is not meant. -/
  | content
  deriving DecidableEq

/-- The kind of number that was found. -/
def Found.ofNumeric : Json.Numeric → Found
  | .natural n => .integer n
  | .negative n => .integer (-n)
  | .real x => .real x

/-- How a message names what was found. -/
def Found.text : Found → String
  | .null => "null"
  | .boolean b => "boolean \x60" ++ (if b then "true" else "false") ++ "\x60"
  | .integer n => "integer \x60" ++ toString n ++ "\x60"
  | .real x => "floating point \x60" ++ Decimal.Layout.signed.float x ++ "\x60"
  | .string cs => "string " ++ Text.quoted (String.ofList cs)
  | .sequence => "sequence"
  | .map => "map"

/-- How a message names what should have stood there. -/
def Wanted.text : Wanted → String
  | .config => "struct Config"
  | .boolean => "a boolean"
  | .byte => "u8"
  | .long => "u64"
  | .unit => "unit"

namespace Error

/-- The kind of flaw that an error is. -/
def category : Error → Category
  | .malformed flaw => if flaw.isEnd then .truncated else .form
  | _ => .content

/-- The name of a category. -/
def Category.name : Category → String
  | .form => "Syntax"
  | .truncated => "Eof"
  | .content => "Data"

/-- The wording of the reason. -/
def reason : Error → String
  | .malformed flaw => flaw.message
  | .wrongKind found wanted => "invalid type: " ++ found.text ++ ", expected " ++ wanted.text
  | .outOfRange n wanted =>
    "invalid value: integer \x60" ++ toString n ++ "\x60, expected " ++ wanted.text
  | .unknownSource name =>
    "unknown variant \x60" ++ String.ofList name ++ "\x60, expected \x60vx\x60 or \x60vy\x60"
  | .duplicate field => "duplicate field \x60" ++ field.name ++ "\x60"

/-- The wording of an error. -/
def message (e : Error) : String := "invalid configuration: " ++ e.reason

end Error

end Chip8.Config
