/-
The blank characters of JSON, and literals: the spans of a text that
carry no content of their own.
-/
import Chip8.Json.Flaw

namespace Chip8.Json

/-- Whether a character may stand between tokens. -/
def isBlank (c : Char) : Bool := c == ' ' || c == '\n' || c == '\t' || c == '\r'

/-- The text without the blanks in front. -/
def dropBlank (s : List Char) : List Char := s.dropWhile isBlank

/-- Take the characters of a literal, such as what remains of `true`
after its first character. -/
def literal : List Char → List Char → Except Flaw (List Char)
  | [], s => .ok s
  | _ :: _, [] => .error .endInValue
  | c :: cs, d :: s => if c = d then literal cs s else .error .badLiteral

/-- Dropping the blanks in front makes no text longer. -/
theorem dropBlank_length_le (s : List Char) : (dropBlank s).length ≤ s.length :=
  (List.dropWhile_suffix isBlank).length_le

theorem literal_length {cs s r : List Char} (h : literal cs s = .ok r) :
    r.length + cs.length = s.length := by
  induction cs generalizing s with
  | nil => cases h; rfl
  | cons c cs ih =>
    cases s with
    | nil => simp [literal] at h
    | cons d s =>
      by_cases hc : c = d
      · have := ih (s := s) (by simpa [literal, hc] using h)
        simp only [List.length_cons]
        omega
      · simp [literal, hc] at h

end Chip8.Json
