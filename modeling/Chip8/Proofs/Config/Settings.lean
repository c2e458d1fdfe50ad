/-
What a configuration text may say, and how it is written.

A setting is a field with a value for it. A configuration says a list of
settings if it agrees with all of them and keeps the defaults elsewhere
(`Says`); if no field is set twice there is exactly one such
configuration, whatever the order of the settings, and entering them one
after the other gives it.

A text gives its settings as the members of an object, under the names
of their fields and among members that are no field's, or as the elements
of an array, in the order of the fields. The names and the values of the
settings follow the grammar of JSON, but each kind of value has its own
few forms: a natural number, say, is written by its decimal digits and in
no other way.
-/
import Chip8.Config.Reader
import Chip8.Proofs.Json.Values

namespace Chip8.Config

open Json
open Json.Grammar

-- ============================================================ settings

/-- A field and a value for it. -/
inductive Setting where
  | shiftSource (v : ShiftSource)
  | advancesIndex (v : Bool)
  | flagsIndexOverflow (v : Bool)
  | timerInterval (v : UInt64)
  | timerStep (v : UInt8)
  | seed (v : Option UInt64)
  deriving DecidableEq

/-- The field that is set. -/
def Setting.field : Setting → Field
  | .shiftSource _ => .shiftSource
  | .advancesIndex _ => .advancesIndex
  | .flagsIndexOverflow _ => .flagsIndexOverflow
  | .timerInterval _ => .timerInterval
  | .timerStep _ => .timerStep
  | .seed _ => .seed

/-- What a configuration has in a field. -/
def setting (c : Config) : Field → Setting
  | .shiftSource => .shiftSource c.shiftSource
  | .advancesIndex => .advancesIndex c.advancesIndex
  | .flagsIndexOverflow => .flagsIndexOverflow c.flagsIndexOverflow
  | .timerInterval => .timerInterval c.timerInterval
  | .timerStep => .timerStep c.timerStep
  | .seed => .seed c.seed

/-- A configuration with one field changed. -/
def put (c : Config) : Setting → Config
  | .shiftSource v => { c with shiftSource := v }
  | .advancesIndex v => { c with advancesIndex := v }
  | .flagsIndexOverflow v => { c with flagsIndexOverflow := v }
  | .timerInterval v => { c with timerInterval := v }
  | .timerStep v => { c with timerStep := v }
  | .seed v => { c with seed := v }

/-- A configuration has the values that are given, and the defaults in all
other fields. -/
def Says (c : Config) (given : List Setting) : Prop :=
  (∀ x ∈ given, c.setting x.field = x) ∧
    ∀ f ∉ given.map Setting.field, c.setting f = ({} : Config).setting f

/-- The setting of a field is for that field. -/
theorem field_setting (c : Config) (f : Field) : (c.setting f).field = f := by
  cases f <;> rfl

/-- Configurations with the same settings are the same. -/
theorem ext_setting {c d : Config} (h : ∀ f, c.setting f = d.setting f) : c = d := by
  have h₁ := h .shiftSource
  have h₂ := h .advancesIndex
  have h₃ := h .flagsIndexOverflow
  have h₄ := h .timerInterval
  have h₅ := h .timerStep
  have h₆ := h .seed
  cases c
  cases d
  simp_all [setting]

/-- What was put in is there. -/
theorem setting_put_self (c : Config) (x : Setting) : (c.put x).setting x.field = x := by
  cases x <;> rfl

theorem setting_put_of_ne {x : Setting} {f : Field} (h : f ≠ x.field) (c : Config) :
    (c.put x).setting f = c.setting f := by
  cases x <;> cases f <;> simp_all [put, setting, Setting.field]

/-- Settings are entered one after the other, each overwriting its
field. -/
theorem setting_foldl_of_not_mem {given : List Setting} {f : Field} (c : Config)
    (h : f ∉ given.map Setting.field) : (given.foldl put c).setting f = c.setting f := by
  induction given generalizing c with
  | nil => rfl
  | cons x given ih =>
    simp only [List.map_cons, List.mem_cons, not_or] at h
    rw [List.foldl_cons, ih _ h.2, setting_put_of_ne h.1]

/-- Of settings for different fields each is there when all were put in. -/
theorem setting_foldl_of_mem {given : List Setting} {x : Setting} (c : Config)
    (hnodup : (given.map Setting.field).Nodup) (hx : x ∈ given) :
    (given.foldl put c).setting x.field = x := by
  induction given generalizing c with
  | nil => cases hx
  | cons y given ih =>
    rw [List.map_cons, List.nodup_cons] at hnodup
    rw [List.foldl_cons]
    rcases List.mem_cons.1 hx with rfl | hx
    · rw [setting_foldl_of_not_mem _ hnodup.1, setting_put_self]
    · exact ih _ hnodup.2 hx

/-- What different fields were set to from the defaults on is what those
settings say. -/
theorem says_foldl {given : List Setting} (h : (given.map Setting.field).Nodup) :
    (given.foldl put {}).Says given :=
  ⟨fun _ hx => setting_foldl_of_mem _ h hx, fun _ hf => setting_foldl_of_not_mem _ hf⟩

/-- The order in which settings are given does not matter. -/
theorem Says.perm {c : Config} {given given' : List Setting} (hperm : given.Perm given')
    (h : c.Says given) : c.Says given' :=
  ⟨fun x hx => h.1 x (hperm.mem_iff.2 hx),
    fun f hf => h.2 f fun hmem => hf ((hperm.map _).mem_iff.1 hmem)⟩

/-- There is only one configuration that says what is given. -/
theorem Says.eq {c d : Config} {given : List Setting} (hc : c.Says given) (hd : d.Says given) :
    c = d := by
  refine ext_setting fun f => ?_
  by_cases hf : f ∈ given.map Setting.field
  · obtain ⟨x, hx, rfl⟩ := List.mem_map.1 hf
    rw [hc.1 x hx, hd.1 x hx]
  · rw [hc.2 f hf, hd.2 f hf]

-- ========================================================= written values

/-- The name of a shift source in quotes, or an object in which `null`
stands under it. -/
inductive SourceText : ShiftSource → List Char → Prop where
  | name {v : ShiftSource} {t : List Char} :
      Spells v.name t → SourceText v ('"' :: t ++ ['"'])
  | entry {v : ShiftSource} {b₁ t b₂ b₃ b₄ : List Char} :
      Blank b₁ → Spells v.name t → Blank b₂ → Blank b₃ → Blank b₄ →
      SourceText v ('{' :: b₁ ++ '"' :: t ++ '"' :: b₂ ++ ':' :: b₃ ++ ['n', 'u', 'l', 'l']
        ++ b₄ ++ ['}'])

inductive BoolText : Bool → List Char → Prop where
  | true : BoolText true ['t', 'r', 'u', 'e']
  | false : BoolText false ['f', 'a', 'l', 's', 'e']

inductive SeedText : Option UInt64 → List Char → Prop where
  | none : SeedText none ['n', 'u', 'l', 'l']
  | some (n : UInt64) : SeedText (some n) (Nat.toDigits 10 n.toNat)

/-- How the value of a setting may be written. -/
def Setting.Written : Setting → List Char → Prop
  | .shiftSource v => SourceText v
  | .advancesIndex v => BoolText v
  | .flagsIndexOverflow v => BoolText v
  | .timerInterval v => fun w => w = Nat.toDigits 10 v.toNat
  | .timerStep v => fun w => w = Nat.toDigits 10 v.toNat
  | .seed v => SeedText v

-- =============================================================== objects

/-- A member of an object, with the setting that it gives if its key is
the name of a field. Any other member has just to be one. -/
inductive Member : List Setting → List Char → Prop where
  | setting {x : Setting} {b₁ k b₂ b₃ w b₄ : List Char} :
      Blank b₁ → Spells x.field.name.toList k → Blank b₂ → Blank b₃ → x.Written w → Blank b₄ →
      Member [x] (b₁ ++ '"' :: k ++ '"' :: b₂ ++ ':' :: b₃ ++ w ++ b₄)
  | other {key b₁ k b₂ b₃ w b₄ : List Char} :
      Blank b₁ → Spells key k → (∀ f : Field, f.name.toList ≠ key) → Blank b₂ → Blank b₃ →
      Text .value w → Blank b₄ →
      Member [] (b₁ ++ '"' :: k ++ '"' :: b₂ ++ ':' :: b₃ ++ w ++ b₄)

/-- The name of a field spells itself, as there is nothing in it to escape. -/
theorem spells_name (f : Field) : Spells f.name.toList f.name.toList := by
  refine spells_self ?_
  cases f <;> simp [Field.name, Plain]

/-- The shortest way to give a setting, but for blanks in front of the
colon. -/
theorem member_name (x : Setting) {b₂ w : List Char} (hb₂ : Blank b₂) (hw : x.Written w) :
    Member [x] ('"' :: x.field.name.toList ++ '"' :: b₂ ++ ':' :: w) := by
  simpa using Member.setting blank_nil (spells_name x.field) hb₂ blank_nil hw blank_nil

/-- Members, with the settings that they give. -/
inductive Members : List Setting → List Char → Prop where
  | last {xs : List Setting} {m : List Char} : Member xs m → Members xs m
  | more {xs ys : List Setting} {m ms : List Char} :
      Member xs m → Members ys ms → Members (xs ++ ys) (m ++ ',' :: ms)

/-- An object, with the settings that it gives. -/
inductive ObjectText : List Setting → List Char → Prop where
  | empty {b : List Char} : Blank b → ObjectText [] ('{' :: b ++ ['}'])
  | members {xs : List Setting} {ms : List Char} :
      Members xs ms → ObjectText xs ('{' :: ms ++ ['}'])

-- ================================================================ arrays

/-- Values of settings, one after the other. -/
inductive Elements : List Setting → List Char → Prop where
  | last {x : Setting} {b w b' : List Char} :
      Blank b → x.Written w → Blank b' → Elements [x] (b ++ w ++ b')
  | more {x : Setting} {xs : List Setting} {b w b' es : List Char} :
      Blank b → x.Written w → Blank b' → Elements xs es →
      Elements (x :: xs) (b ++ w ++ b' ++ ',' :: es)

/-- An array of values for the first fields, in their order. -/
inductive ArrayText : List Setting → List Char → Prop where
  | empty {b : List Char} : Blank b → ArrayText [] ('[' :: b ++ [']'])
  | elements {xs : List Setting} {es : List Char} :
      xs.map Setting.field <+: Field.all → Elements xs es → ArrayText xs ('[' :: es ++ [']'])

-- ============================================================= documents

/-- A text gives settings, as an array of them or as an object in which no
field is set twice. -/
def Gives (given : List Setting) (w : List Char) : Prop :=
  ArrayText given w ∨ ObjectText given w ∧ (given.map Setting.field).Nodup

theorem nodup_all : Field.all.Nodup := by decide

/-- The elements of an array are for the fields in their order, from the
first on. -/
theorem ArrayText.inOrder {given : List Setting} {w : List Char} (h : ArrayText given w) :
    given.map Setting.field <+: Field.all := by
  cases h with
  | empty _ => exact List.nil_prefix
  | elements h _ => exact h

/-- A document that gives settings sets no field twice. -/
theorem Gives.nodup {given : List Setting} {w : List Char} (h : Gives given w) :
    (given.map Setting.field).Nodup := by
  rcases h with h | h
  · exact nodup_all.sublist h.inOrder.sublist
  · exact h.2

end Chip8.Config
