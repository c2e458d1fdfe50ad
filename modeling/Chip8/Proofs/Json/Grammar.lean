/-
The grammar of JSON, over the characters of a text.

It says which texts are values, strings and numbers, and nothing about
how they are read. Between any two tokens there may be blanks. `Text`
has one case for each rule of the grammar: a value may be an array of
elements or an object of members, an element is a value with the blanks
around it, and a member is a string, a colon and an element.

There are two grammars of strings, as there are two ways to go through
one. `Spells` says how characters are written: a character outside the
basic plane may be escaped as two surrogates, and a surrogate has no
meaning alone. `StringText` says what is a string at all, whatever it
may mean: there an escaped surrogate needs no partner.
-/
import Mathlib
import Chip8.Json.Skip

namespace Chip8.Json.Grammar

-- ============================================================== blanks

/-- A text of blanks and nothing else. -/
def Blank (s : List Char) : Prop := ∀ c ∈ s, c ∈ [' ', '\n', '\t', '\r']

instance (s : List Char) : Decidable (Blank s) :=
  List.decidableBAll (· ∈ [' ', '\n', '\t', '\r']) s

theorem blank_nil : Blank [] := List.forall_mem_nil _

/-- Blanks behind blanks are blank, and so is either part of them. -/
theorem blank_append {s t : List Char} : Blank (s ++ t) ↔ Blank s ∧ Blank t :=
  List.forall_mem_append

-- ============================================================= strings

/-- A hexadecimal digit of either case, and its value. -/
def HexDigit (c : Char) (n : Nat) : Prop :=
  n < 16 ∧ (c = n.digitChar ∨ c = n.digitChar.toUpper)

instance (c : Char) (n : Nat) : Decidable (HexDigit c n) :=
  inferInstanceAs (Decidable (_ ∧ (_ ∨ _)))

/-- The letter and the digits that escape a code unit by its number. -/
inductive CodeUnit : Nat → List Char → Prop where
  | mk {a b c d : Char} {i j k l : Nat} :
      HexDigit a i → HexDigit b j → HexDigit c k → HexDigit d l →
      CodeUnit (((i * 16 + j) * 16 + k) * 16 + l) ['u', a, b, c, d]

/-- The characters that a single letter escapes: the letter, and what it
stands for. -/
def shorthands : List (Char × Char) :=
  [('"', '"'), ('\\', '\\'), ('/', '/'), ('b', '\x08'), ('f', '\x0c'), ('n', '\n'),
    ('r', '\r'), ('t', '\t')]

/-- A character that stands for itself in a string. -/
def Plain (c : Char) : Prop := c ≠ '"' ∧ c ≠ '\\' ∧ 0x20 ≤ c.toNat

instance (c : Char) : Decidable (Plain c) := inferInstanceAs (Decidable (_ ∧ _ ∧ _))

/-- What may stand behind a backslash to mean a character. -/
inductive Escape : Char → List Char → Prop where
  | short {e c : Char} : (e, c) ∈ shorthands → Escape c [e]
  | unit {n : Nat} {w : List Char} :
      CodeUnit n w → n < 0xD800 ∨ 0xE000 ≤ n → Escape (Char.ofNat n) w
  | pair {m n : Nat} {v w : List Char} :
      CodeUnit m v → CodeUnit n w → 0xD800 ≤ m → m < 0xDC00 → 0xDC00 ≤ n → n < 0xE000 →
      Escape (Char.ofNat (0x10000 + (m - 0xD800) * 1024 + (n - 0xDC00))) (v ++ '\\' :: w)

/-- How characters may be written between the quotes of a string. -/
inductive Spells : List Char → List Char → Prop where
  | nil : Spells [] []
  | plain {c : Char} {cs t : List Char} : Plain c → Spells cs t → Spells (c :: cs) (c :: t)
  | escape {c : Char} {cs w t : List Char} :
      Escape c w → Spells cs t → Spells (c :: cs) ('\\' :: w ++ t)

/-- Characters that stand for themselves are one way to write them. -/
theorem spells_self {cs : List Char} (h : ∀ c ∈ cs, Plain c) : Spells cs cs := by
  induction cs with
  | nil => exact .nil
  | cons c cs ih =>
    obtain ⟨hc, h⟩ := List.forall_mem_cons.1 h
    exact .plain hc (ih h)

/-- What may stand between the quotes of a string, whatever it means. -/
inductive StringText : List Char → Prop where
  | nil : StringText []
  | plain {c : Char} {t : List Char} : Plain c → StringText t → StringText (c :: t)
  | short {e c : Char} {t : List Char} :
      (e, c) ∈ shorthands → StringText t → StringText ('\\' :: e :: t)
  | unit {n : Nat} {w t : List Char} :
      CodeUnit n w → StringText t → StringText ('\\' :: w ++ t)

-- ============================================================= numbers

/-- One digit or more. -/
def Digits (s : List Char) : Prop := s ≠ [] ∧ ∀ c ∈ s, c.isDigit = true

/-- The whole part of a number: digits, of which the first is a zero only
if there is no other. -/
def Whole (s : List Char) : Prop := Digits s ∧ (s.head? = some '0' → s = ['0'])

/-- What may stand behind the whole part of a number. -/
inductive Fraction : List Char → Prop where
  | none : Fraction []
  | some {ds : List Char} : Digits ds → Fraction ('.' :: ds)

/-- What may stand at the end of a number. -/
inductive Exponent : List Char → Prop where
  | none : Exponent []
  | some {e : Char} {sign ds : List Char} :
      e ∈ ['e', 'E'] → sign ∈ [[], ['+'], ['-']] → Digits ds → Exponent (e :: sign ++ ds)

/-- A number. -/
inductive NumberText : List Char → Prop where
  | mk {sign whole fraction exponent : List Char} :
      sign ∈ [[], ['-']] → Whole whole → Fraction fraction → Exponent exponent →
      NumberText (sign ++ whole ++ fraction ++ exponent)

-- ============================================================== values

/-- The parts of a text that the grammar of values is about. -/
inductive Part where
  | value
  | element
  | elements
  | member
  | members

/-- The texts of each kind. -/
inductive Text : Part → List Char → Prop where
  | null : Text .value ['n', 'u', 'l', 'l']
  | true : Text .value ['t', 'r', 'u', 'e']
  | false : Text .value ['f', 'a', 'l', 's', 'e']
  | number {w : List Char} : NumberText w → Text .value w
  | string {t : List Char} : StringText t → Text .value ('"' :: t ++ ['"'])
  | emptyArray {b : List Char} : Blank b → Text .value ('[' :: b ++ [']'])
  | array {es : List Char} : Text .elements es → Text .value ('[' :: es ++ [']'])
  | emptyObject {b : List Char} : Blank b → Text .value ('{' :: b ++ ['}'])
  | object {ms : List Char} : Text .members ms → Text .value ('{' :: ms ++ ['}'])
  | element {b w b' : List Char} :
      Blank b → Text .value w → Blank b' → Text .element (b ++ w ++ b')
  | lastElement {e : List Char} : Text .element e → Text .elements e
  | moreElements {e es : List Char} :
      Text .element e → Text .elements es → Text .elements (e ++ ',' :: es)
  | member {b t b' e : List Char} :
      Blank b → StringText t → Blank b' → Text .element e →
      Text .member (b ++ '"' :: t ++ '"' :: b' ++ ':' :: e)
  | lastMember {m : List Char} : Text .member m → Text .members m
  | moreMembers {m ms : List Char} :
      Text .member m → Text .members ms → Text .members (m ++ ',' :: ms)

end Chip8.Json.Grammar
