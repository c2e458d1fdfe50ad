/-
The value of a field is read exactly if it is written as the grammar has
it.

The readers come from the inside out. All but those of numbers take what
ends by itself, and are described by one equivalence each. A number is
read if it ends where its digits do, and what was read were its digits;
together with the others this makes `readField_ok` and
`readField_of_written`.
-/
import Chip8.Proofs.Config.Settings

namespace Chip8.Config

open Json
open Json.Grammar

variable {s r : List Char}

-- ============================================================ booleans

/-- Booleans are read where they are written, behind blanks, and nowhere
else. -/
theorem readBool_eq_ok_iff {v : Bool} :
    readBool s = .ok (v, r) ↔ ∃ b w, Blank b ∧ BoolText v w ∧ s = b ++ w ++ r := by
  constructor
  · intro h
    unfold readBool at h
    split at h
    · cases h
    · next c q hs =>
      obtain ⟨b, hb, rfl⟩ := exists_blank_of_cons hs
      split at h
      · next hc =>
        obtain ⟨q', hq, h⟩ := map_eq_ok.1 h
        cases h
        exact ⟨b, _, hb, .true, by simp [hc, literal_eq_ok_iff.1 (lift_eq_ok.1 hq)]⟩
      · split at h
        · next hc =>
          obtain ⟨q', hq, h⟩ := map_eq_ok.1 h
          cases h
          exact ⟨b, _, hb, .false, by simp [hc, literal_eq_ok_iff.1 (lift_eq_ok.1 hq)]⟩
        · cases h
  · rintro ⟨b, w, hb, hw, rfl⟩
    cases hw with
    | true =>
      have hlit : literal ['r', 'u', 'e'] ('r' :: 'u' :: 'e' :: r) = .ok r :=
        literal_eq_ok_iff.2 rfl
      simp [readBool, dropBlank_append hb, dropBlank_cons (c := 't') rfl, hlit, lift, Except.map]
    | false =>
      have hlit : literal ['a', 'l', 's', 'e'] ('a' :: 'l' :: 's' :: 'e' :: r) = .ok r :=
        literal_eq_ok_iff.2 rfl
      simp [readBool, dropBlank_append hb, dropBlank_cons (c := 'f') rfl, hlit, lift, Except.map]

-- ============================================================= numbers

/-- A number passes if it is a natural one below the bound. -/
theorem checkNatural_eq_ok_iff {wanted : Wanted} {bound n : Nat} {number : Json.Numeric} :
    checkNatural wanted bound number = .ok n ↔ number = .natural n ∧ n < bound := by
  cases number with
  | natural k =>
    by_cases hk : k < bound
    · simp only [checkNatural, if_pos hk, Except.ok.injEq, Numeric.natural.injEq]
      constructor
      · rintro rfl
        exact ⟨rfl, hk⟩
      · exact And.left
    · simp only [checkNatural, if_neg hk, Numeric.natural.injEq]
      constructor
      · exact nofun
      · rintro ⟨rfl, h⟩
        exact absurd h hk
  | negative k => simp [checkNatural]
  | real x => simp [checkNatural]

/-- What is read as a natural number are its decimal digits. -/
theorem readNatural_ok {wanted : Wanted} {bound n : Nat}
    (h : readNatural wanted bound s = .ok (n, r)) :
    n < bound ∧ ∃ b, Blank b ∧ s = b ++ Nat.toDigits 10 n ++ r := by
  unfold readNatural at h
  split at h
  · cases h
  · next c q hs =>
    obtain ⟨b, hb, rfl⟩ := exists_blank_of_cons hs
    split at h
    · obtain ⟨⟨number, q'⟩, hscan, h⟩ := bind_eq_ok.1 h
      obtain ⟨v, hvalue, h⟩ := bind_eq_ok.1 h
      obtain ⟨k, hcheck, h⟩ := bind_eq_ok.1 h
      cases h
      obtain ⟨rfl, hlt⟩ := checkNatural_eq_ok_iff.1 hcheck
      obtain ⟨-, heq⟩ := Number.scan_natural (lift_eq_ok.1 hscan) (lift_eq_ok.1 hvalue)
      exact ⟨hlt, b, hb, by rw [heq, List.append_assoc]⟩
    · cases h

theorem head_toDigits_isDigit (n : Nat) : ∃ c t, Nat.toDigits 10 n = c :: t ∧ c.isDigit = true := by
  obtain ⟨c, t, h⟩ := List.exists_cons_of_ne_nil (Nat.toDigits_ne_nil (b := 10) (n := n))
  exact ⟨c, t, h, (Number.whole_toDigits n).1.2 c (h ▸ List.mem_cons_self)⟩

/-- A natural number below the bound is read from its digits. -/
theorem readNatural_of_toDigits {wanted : Wanted} {bound n : Nat} {b : List Char}
    (hbound : bound ≤ UInt64.size) (hn : n < bound) (hb : Blank b) (hr : Ends r) :
    readNatural wanted bound (b ++ Nat.toDigits 10 n ++ r) = .ok (n, r) := by
  obtain ⟨number, hscan, hvalue⟩ :=
    Number.scan_toDigits .endInValue (Nat.lt_of_lt_of_le hn hbound) hr
  obtain ⟨c, t, hdigits, hc⟩ := head_toDigits_isDigit n
  have hcheck : checkNatural wanted bound (.natural n) = .ok n :=
    checkNatural_eq_ok_iff.2 ⟨rfl, hn⟩
  rw [hdigits, List.cons_append] at hscan
  rw [hdigits, List.append_assoc, List.cons_append]
  simp [readNatural, dropBlank_append hb, dropBlank_cons (not_blank_of_isDigit hc).1,
    startsNumber, hc, hscan, hvalue, hcheck, lift, bind, Except.bind, pure, Except.pure]

/-- Where a seed or an interval was read there stood its digits, and no
other spelling of it. -/
theorem readLong_ok {v : UInt64} (h : readLong s = .ok (v, r)) :
    ∃ b, Blank b ∧ s = b ++ Nat.toDigits 10 v.toNat ++ r := by
  obtain ⟨⟨n, q⟩, hn, h⟩ := map_eq_ok.1 h
  cases h
  obtain ⟨hlt, b, hb, rfl⟩ := readNatural_ok hn
  exact ⟨b, hb, by rw [UInt64.toNat_ofNat_of_lt' hlt]⟩

theorem readLong_of_toDigits {b : List Char} (v : UInt64) (hb : Blank b) (hr : Ends r) :
    readLong (b ++ Nat.toDigits 10 v.toNat ++ r) = .ok (v, r) := by
  simp only [readLong, readNatural_of_toDigits (Nat.le_refl _) v.toNat_lt hb hr, Except.map,
    UInt64.ofNat_toNat]

/-- Where a step was read there stood its digits, and no other spelling of
it. -/
theorem readByte_ok {v : UInt8} (h : readByte s = .ok (v, r)) :
    ∃ b, Blank b ∧ s = b ++ Nat.toDigits 10 v.toNat ++ r := by
  obtain ⟨⟨n, q⟩, hn, h⟩ := map_eq_ok.1 h
  cases h
  obtain ⟨hlt, b, hb, rfl⟩ := readNatural_ok hn
  exact ⟨b, hb, by rw [UInt8.toNat_ofNat_of_lt' hlt]⟩

theorem readByte_of_toDigits {b : List Char} (v : UInt8) (hb : Blank b) (hr : Ends r) :
    readByte (b ++ Nat.toDigits 10 v.toNat ++ r) = .ok (v, r) := by
  simp only [readByte, readNatural_of_toDigits (by decide) v.toNat_lt hb hr, Except.map,
    UInt8.ofNat_toNat]

/-- Where a seed was read there stood one, or `null`. -/
theorem readOptionalLong_ok {v : Option UInt64} (h : readOptionalLong s = .ok (v, r)) :
    ∃ b w, Blank b ∧ SeedText v w ∧ s = b ++ w ++ r := by
  unfold readOptionalLong at h
  split at h
  · next q hs =>
    obtain ⟨b, hb, rfl⟩ := exists_blank_of_cons hs
    obtain ⟨q', hq, h⟩ := map_eq_ok.1 h
    cases h
    exact ⟨b, _, hb, .none, by simp [literal_eq_ok_iff.1 (lift_eq_ok.1 hq)]⟩
  · obtain ⟨⟨n, q⟩, hn, h⟩ := map_eq_ok.1 h
    cases h
    obtain ⟨b, hb, hs⟩ := exists_blank s
    obtain ⟨b', hb', hs'⟩ := readLong_ok hn
    exact ⟨b ++ b', _, blank_append.2 ⟨hb, hb'⟩, .some n, by
      rw [hs, hs']
      simp only [List.append_assoc]⟩

/-- A seed is read from its text. -/
theorem readOptionalLong_of_seedText {v : Option UInt64} {b w : List Char} (hb : Blank b)
    (hw : SeedText v w) (hr : Ends r) : readOptionalLong (b ++ w ++ r) = .ok (v, r) := by
  cases hw with
  | none =>
    have hlit : literal ['u', 'l', 'l'] ('u' :: 'l' :: 'l' :: r) = .ok r := literal_eq_ok_iff.2 rfl
    simp [readOptionalLong, dropBlank_append hb, dropBlank_cons (c := 'n') rfl, hlit, lift,
      Except.map]
  | some n =>
    obtain ⟨c, t, hdigits, hc⟩ := head_toDigits_isDigit n.toNat
    obtain ⟨hblank, hmem⟩ := not_blank_of_isDigit hc
    have hread := readLong_of_toDigits (r := r) n blank_nil hr
    rw [hdigits, List.nil_append, List.cons_append] at hread
    rw [hdigits, List.append_assoc, List.cons_append]
    unfold readOptionalLong
    rw [dropBlank_append hb, dropBlank_cons hblank]
    split
    · next heq =>
      cases heq
      simp at hmem
    · rw [hread]
      rfl

-- ======================================================== shift sources

/-- A register source has one name. -/
theorem ofName?_eq_some_iff {cs : List Char} {v : ShiftSource} :
    ShiftSource.ofName? cs = some v ↔ cs = v.name := by
  unfold ShiftSource.ofName?
  constructor
  · intro h
    split at h
    · next hcs =>
      cases h
      exact hcs
    · split at h
      · next hcs =>
        cases h
        exact hcs
      · cases h
  · rintro rfl
    cases v <;> rfl

/-- The name of a register source is read where a string spells it, and
nowhere else. -/
theorem readSourceName_eq_ok_iff {v : ShiftSource} :
    readSourceName s = .ok (v, r) ↔ ∃ t, Spells v.name t ∧ s = t ++ '"' :: r := by
  constructor
  · intro h
    obtain ⟨⟨cs, q⟩, hread, hsource⟩ := bind_eq_ok.1 h
    obtain ⟨t, ht, rfl⟩ := Str.read_eq_ok_iff.1 (lift_eq_ok.1 hread)
    dsimp only at hsource
    split at hsource
    · next hname =>
      cases hsource
      rw [ofName?_eq_some_iff.1 hname] at ht
      exact ⟨t, ht, rfl⟩
    · cases hsource
  · rintro ⟨t, ht, rfl⟩
    have hread : Str.read (t ++ '"' :: r) = .ok (v.name, r) := Str.read_eq_ok_iff.2 ⟨t, ht, rfl⟩
    simp [readSourceName, hread, ofName?_eq_some_iff.2 rfl, lift, bind, Except.bind, pure,
      Except.pure]

/-- The first key of an object follows its brace, with nothing but blanks
between them. -/
theorem firstKey_eq_ok_true_iff :
    firstKey s = .ok (true, r) ↔ ∃ b, Blank b ∧ s = b ++ '"' :: r := by
  constructor
  · intro h
    unfold firstKey at h
    split at h
    · cases h
    · next c q hs =>
      obtain ⟨b, hb, rfl⟩ := exists_blank_of_cons hs
      split at h
      · cases h
      · split at h
        · next hc =>
          cases h
          exact ⟨b, hb, by rw [hc]⟩
        · cases h
  · rintro ⟨b, hb, rfl⟩
    simp [firstKey, dropBlank_append hb, dropBlank_cons (c := '"') rfl]

/-- An object without a key closes where its first key would stand. -/
theorem firstKey_eq_ok_false_iff :
    firstKey s = .ok (false, r) ↔ ∃ b, Blank b ∧ s = b ++ '}' :: r := by
  constructor
  · intro h
    unfold firstKey at h
    split at h
    · cases h
    · next c q hs =>
      obtain ⟨b, hb, rfl⟩ := exists_blank_of_cons hs
      split at h
      · next hc =>
        cases h
        exact ⟨b, hb, by rw [hc]⟩
      · split at h <;> cases h
  · rintro ⟨b, hb, rfl⟩
    simp [firstKey, dropBlank_append hb, dropBlank_cons (c := '}') rfl]

/-- `null` is read where it is written, behind blanks, and nowhere else. -/
theorem readNull_eq_ok_iff :
    readNull s = .ok r ↔ ∃ b, Blank b ∧ s = b ++ ['n', 'u', 'l', 'l'] ++ r := by
  constructor
  · intro h
    unfold readNull at h
    split at h
    · cases h
    · next c q hs =>
      obtain ⟨b, hb, rfl⟩ := exists_blank_of_cons hs
      split at h
      · next hc => exact ⟨b, hb, by simp [hc, literal_eq_ok_iff.1 (lift_eq_ok.1 h)]⟩
      · cases h
  · rintro ⟨b, hb, rfl⟩
    have hlit : literal ['u', 'l', 'l'] ('u' :: 'l' :: 'l' :: r) = .ok r := literal_eq_ok_iff.2 rfl
    simp [readNull, dropBlank_append hb, dropBlank_cons (c := 'n') rfl, hlit, lift]

/-- An object of one entry is closed by its brace, with nothing but blanks
before that. -/
theorem closeSingle_eq_ok_iff :
    closeSingle s = .ok r ↔ ∃ b, Blank b ∧ s = b ++ '}' :: r := by
  constructor
  · intro h
    unfold closeSingle at h
    split at h
    · cases h
    · next c q hs =>
      obtain ⟨b, hb, rfl⟩ := exists_blank_of_cons hs
      split at h
      · next hc =>
        cases h
        exact ⟨b, hb, by rw [hc]⟩
      · cases h
  · rintro ⟨b, hb, rfl⟩
    simp [closeSingle, dropBlank_append hb, dropBlank_cons (c := '}') rfl]

/-- A register source is read where one is written, behind blanks, and
nowhere else. -/
theorem readSource_eq_ok_iff {v : ShiftSource} :
    readSource s = .ok (v, r) ↔ ∃ b w, Blank b ∧ SourceText v w ∧ s = b ++ w ++ r := by
  constructor
  · intro h
    unfold readSource at h
    split at h
    · cases h
    · next c q hs =>
      obtain ⟨b, hb, rfl⟩ := exists_blank_of_cons hs
      split at h
      · next hc =>
        obtain ⟨t, ht, rfl⟩ := readSourceName_eq_ok_iff.1 h
        exact ⟨b, _, hb, .name ht, by simp [hc]⟩
      · split at h
        · next hc =>
          split at h
          · cases h
          · cases h
          · next q₁ hkey =>
            obtain ⟨⟨v', q₂⟩, hname, h⟩ := bind_eq_ok.1 h
            obtain ⟨q₃, hcolon, h⟩ := bind_eq_ok.1 h
            obtain ⟨q₄, hnull, h⟩ := bind_eq_ok.1 h
            obtain ⟨q₅, hclose, h⟩ := bind_eq_ok.1 h
            cases h
            obtain ⟨b₁, hb₁, rfl⟩ := firstKey_eq_ok_true_iff.1 hkey
            obtain ⟨t, ht, rfl⟩ := readSourceName_eq_ok_iff.1 hname
            obtain ⟨b₂, hb₂, rfl⟩ := colon_eq_ok_iff.1 (lift_eq_ok.1 hcolon)
            obtain ⟨b₃, hb₃, rfl⟩ := readNull_eq_ok_iff.1 hnull
            obtain ⟨b₄, hb₄, rfl⟩ := closeSingle_eq_ok_iff.1 hclose
            exact ⟨b, _, hb, .entry hb₁ ht hb₂ hb₃ hb₄, by simp [hc]⟩
        · cases h
  · rintro ⟨b, w, hb, hw, rfl⟩
    cases hw with
    | @name t ht =>
      have hname : readSourceName (t ++ '"' :: r) = .ok (v, r) :=
        readSourceName_eq_ok_iff.2 ⟨t, ht, rfl⟩
      simp [readSource, dropBlank_append hb, dropBlank_cons (c := '"') rfl, hname]
    | @entry b₁ t b₂ b₃ b₄ hb₁ ht hb₂ hb₃ hb₄ =>
      -- The text that is left behind each of the readers, from the last to the first.
      obtain ⟨q₄, hq₄⟩ : ∃ q, q = b₄ ++ '}' :: r := ⟨_, rfl⟩
      obtain ⟨q₃, hq₃⟩ : ∃ q, q = b₃ ++ ['n', 'u', 'l', 'l'] ++ q₄ := ⟨_, rfl⟩
      obtain ⟨q₂, hq₂⟩ : ∃ q, q = b₂ ++ ':' :: q₃ := ⟨_, rfl⟩
      obtain ⟨q₁, hq₁⟩ : ∃ q, q = t ++ '"' :: q₂ := ⟨_, rfl⟩
      have hkey : firstKey (b₁ ++ '"' :: q₁) = .ok (true, q₁) :=
        firstKey_eq_ok_true_iff.2 ⟨b₁, hb₁, rfl⟩
      have hname : readSourceName q₁ = .ok (v, q₂) := readSourceName_eq_ok_iff.2 ⟨t, ht, hq₁⟩
      have hcolon : colon q₂ = .ok q₃ := colon_eq_ok_iff.2 ⟨b₂, hb₂, hq₂⟩
      have hnull : readNull q₃ = .ok q₄ := readNull_eq_ok_iff.2 ⟨b₃, hb₃, hq₃⟩
      have hclose : closeSingle q₄ = .ok r := closeSingle_eq_ok_iff.2 ⟨b₄, hb₄, hq₄⟩
      calc readSource _ = readSource (b ++ '{' :: (b₁ ++ '"' :: q₁)) := by
            simp [hq₁, hq₂, hq₃, hq₄]
        _ = .ok (v, r) := by
            simp [readSource, dropBlank_append hb, dropBlank_cons (c := '{') rfl, hkey, hname,
              hcolon, hnull, hclose, lift, bind, Except.bind, pure, Except.pure]

-- =============================================================== fields

/-- What is read for a field is a value for it, which is put there. -/
theorem readField_ok {f : Field} {c c' : Config} (h : readField f c s = .ok (c', r)) :
    ∃ x b w, x.field = f ∧ c' = c.put x ∧ Blank b ∧ x.Written w ∧ s = b ++ w ++ r := by
  cases f <;> obtain ⟨⟨v, q⟩, hv, h⟩ := map_eq_ok.1 h <;> cases h
  case shiftSource =>
    obtain ⟨b, w, hb, hw, hs⟩ := readSource_eq_ok_iff.1 hv
    exact ⟨.shiftSource v, b, w, rfl, rfl, hb, hw, hs⟩
  case advancesIndex =>
    obtain ⟨b, w, hb, hw, hs⟩ := readBool_eq_ok_iff.1 hv
    exact ⟨.advancesIndex v, b, w, rfl, rfl, hb, hw, hs⟩
  case flagsIndexOverflow =>
    obtain ⟨b, w, hb, hw, hs⟩ := readBool_eq_ok_iff.1 hv
    exact ⟨.flagsIndexOverflow v, b, w, rfl, rfl, hb, hw, hs⟩
  case timerInterval =>
    obtain ⟨b, hb, hs⟩ := readLong_ok hv
    exact ⟨.timerInterval v, b, _, rfl, rfl, hb, rfl, hs⟩
  case timerStep =>
    obtain ⟨b, hb, hs⟩ := readByte_ok hv
    exact ⟨.timerStep v, b, _, rfl, rfl, hb, rfl, hs⟩
  case seed =>
    obtain ⟨b, w, hb, hw, hs⟩ := readOptionalLong_ok hv
    exact ⟨.seed v, b, w, rfl, rfl, hb, hw, hs⟩

/-- A value is read for its field, and put there. -/
theorem readField_of_written {x : Setting} {b w : List Char} (c : Config) (hb : Blank b)
    (hw : x.Written w) (hr : Ends r) : readField x.field c (b ++ w ++ r) = .ok (c.put x, r) := by
  cases x with
  | shiftSource v =>
    have hread : readSource (b ++ w ++ r) = .ok (v, r) :=
      readSource_eq_ok_iff.2 ⟨b, w, hb, hw, rfl⟩
    exact map_eq_ok.2 ⟨_, hread, rfl⟩
  | advancesIndex v =>
    have hread : readBool (b ++ w ++ r) = .ok (v, r) := readBool_eq_ok_iff.2 ⟨b, w, hb, hw, rfl⟩
    exact map_eq_ok.2 ⟨_, hread, rfl⟩
  | flagsIndexOverflow v =>
    have hread : readBool (b ++ w ++ r) = .ok (v, r) := readBool_eq_ok_iff.2 ⟨b, w, hb, hw, rfl⟩
    exact map_eq_ok.2 ⟨_, hread, rfl⟩
  | timerInterval v =>
    obtain rfl : w = _ := hw
    exact map_eq_ok.2 ⟨_, readLong_of_toDigits v hb hr, rfl⟩
  | timerStep v =>
    obtain rfl : w = _ := hw
    exact map_eq_ok.2 ⟨_, readByte_of_toDigits v hb hr, rfl⟩
  | seed v => exact map_eq_ok.2 ⟨_, readOptionalLong_of_seedText hb hw hr, rfl⟩

end Chip8.Config
