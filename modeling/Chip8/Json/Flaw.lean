/-
What can be wrong with the form of a JSON text. Which value a document
wanted at a place is not known here; that a value of the wrong kind was
found is told by whoever wanted it.
-/

namespace Chip8.Json

/-- A flaw in the form of a JSON text: the first one met from left to
right. -/
inductive Flaw where
  /-- The text ends where a value should stand, or within a literal. -/
  | endInValue
  /-- The text ends within an array. -/
  | endInArray
  /-- The text ends within an object. -/
  | endInObject
  /-- The text ends within a string. -/
  | endInString
  /-- A key is not followed by a colon. -/
  | noColon
  /-- An element is followed by neither a comma nor the end of its array. -/
  | noCommaInArray
  /-- A value is followed by neither a comma nor the end of its object. -/
  | noCommaInObject
  /-- A literal is misspelt. -/
  | badLiteral
  /-- No value starts here. -/
  | noValue
  /-- A backslash is followed by nothing that it escapes. -/
  | badEscape
  /-- A number lacks digits, or has a zero too many in front. -/
  | badNumber
  /-- A number is too large for a double. -/
  | hugeNumber
  /-- A control character stands in a string. -/
  | controlCharacter
  /-- Something other than a string stands where a key should. -/
  | keyNotString
  /-- A surrogate is escaped that has no partner. -/
  | loneSurrogate
  /-- A leading surrogate is followed by no other escape. -/
  | brokenPair
  /-- A comma is followed by the end. -/
  | trailingComma
  /-- Something follows the value. -/
  | trailingCharacters
  deriving DecidableEq

namespace Flaw

/-- Whether the text merely ends too early, and could be continued. -/
def isEnd : Flaw → Bool
  | .endInValue | .endInArray | .endInObject | .endInString => true
  | _ => false

def message : Flaw → String
  | .endInValue => "EOF while parsing a value"
  | .endInArray => "EOF while parsing a list"
  | .endInObject => "EOF while parsing an object"
  | .endInString => "EOF while parsing a string"
  | .noColon => "expected \x60:\x60"
  | .noCommaInArray => "expected \x60,\x60 or \x60]\x60"
  | .noCommaInObject => "expected \x60,\x60 or \x60\x7d\x60"
  | .badLiteral => "expected ident"
  | .noValue => "expected value"
  | .badEscape => "invalid escape"
  | .badNumber => "invalid number"
  | .hugeNumber => "number out of range"
  | .controlCharacter =>
    "control character (\\u0000-\\u001F) found while parsing a string"
  | .keyNotString => "key must be a string"
  | .loneSurrogate => "lone leading surrogate in hex escape"
  | .brokenPair => "unexpected end of hex escape"
  | .trailingComma => "trailing comma"
  | .trailingCharacters => "trailing characters"

end Flaw

/-- A reader takes something off the front of a text, and gives it back
with the rest, or tells what is wrong. -/
abbrev Reader (α : Type) := List Char → Except Flaw (α × List Char)


-- ============================================== successes taken apart

theorem map_eq_ok {ε α β : Type} {f : α → β} {x : Except ε α} {b : β} :
    x.map f = .ok b ↔ ∃ a, x = .ok a ∧ f a = b := by
  cases x <;> simp [Except.map]

theorem bind_eq_ok {ε α β : Type} {f : α → Except ε β} {x : Except ε α} {b : β} :
    (x >>= f) = .ok b ↔ ∃ a, x = .ok a ∧ f a = .ok b := by
  cases x <;> simp [bind, Except.bind]

end Chip8.Json
