/-
Blanks, literals and strings are read as the grammar has them.

Each reader is described by one equivalence: it succeeds exactly if the
text starts with what the grammar asks for, and then gives back the rest.
What it takes ends by itself, at a quote or with the last letter of a
literal, so nothing has to be known about the rest.

A string that is one by its form need not have a meaning. But if it has
none, the flaw lies between its quotes, and is the same whatever the rest
is (`read_of_stringText`).
-/
import Chip8.Proofs.Json.Grammar

namespace Chip8.Json

open Grammar

-- ============================================================== blanks

/-- The blanks of a document are these four characters, and no others. -/
theorem isBlank_iff {c : Char} : isBlank c = true ↔ c ∈ [' ', '\n', '\t', '\r'] := by
  simp [isBlank, or_assoc]

/-- Blanks in front of a text are dropped with it. -/
theorem dropBlank_append {b : List Char} (hb : Blank b) (s : List Char) :
    dropBlank (b ++ s) = dropBlank s :=
  List.dropWhile_append_of_pos fun c hc => isBlank_iff.2 (hb c hc)

theorem dropBlank_cons {c : Char} (hc : isBlank c = false) (s : List Char) :
    dropBlank (c :: s) = c :: s :=
  List.dropWhile_cons_of_neg (by simp [hc])

theorem dropBlank_of_blank {b : List Char} (hb : Blank b) : dropBlank b = [] := by
  have h := dropBlank_append hb []
  rwa [List.append_nil] at h

/-- A text is its leading blanks and what they precede. -/
theorem exists_blank (s : List Char) : ∃ b, Blank b ∧ s = b ++ dropBlank s :=
  ⟨s.takeWhile isBlank, fun _ hc => isBlank_iff.1 (List.mem_takeWhile_imp hc),
    List.takeWhile_append_dropWhile.symm⟩

/-- Nothing is left of blanks alone. -/
theorem dropBlank_eq_nil_iff {s : List Char} : dropBlank s = [] ↔ Blank s := by
  constructor
  · intro h
    obtain ⟨b, hb, hs⟩ := exists_blank s
    rw [h, List.append_nil] at hs
    rwa [hs]
  · exact dropBlank_of_blank

/-- What is left was there, behind blanks. -/
theorem exists_blank_of_cons {s r : List Char} {c : Char} (h : dropBlank s = c :: r) :
    ∃ b, Blank b ∧ s = b ++ c :: r := by
  obtain ⟨b, hb, hs⟩ := exists_blank s
  exact ⟨b, hb, h ▸ hs⟩

-- ============================================================ literals

/-- A literal is read where it is written, and nowhere else. -/
theorem literal_eq_ok_iff {cs s r : List Char} : literal cs s = .ok r ↔ s = cs ++ r := by
  induction cs generalizing s with
  | nil => simp [literal]
  | cons c cs ih =>
    cases s with
    | nil => simp [literal]
    | cons d s =>
      by_cases hcd : c = d
      · simp [literal, hcd, ih]
      · simp [literal, hcd, Ne.symm hcd]

namespace Str

-- ============================================================= escapes

/-- A character between two others is that of a code between theirs. -/
theorem exists_ofNat_of_le {a b c : Char} (ha : a ≤ c) (hb : c ≤ b) :
    ∃ n, a.toNat ≤ n ∧ n ≤ b.toNat ∧ c = Char.ofNat n :=
  ⟨c.toNat, ha, hb, (Char.ofNat_toNat c).symm⟩

/-- A hexadecimal digit has the value that the grammar gives it. -/
theorem hexValue?_eq_some_iff {c : Char} {n : Nat} : hexValue? c = some n ↔ HexDigit c n := by
  constructor
  · intro h
    unfold hexValue? at h
    split at h
    · next hc =>
      simp only [Char.isDigit, Bool.and_eq_true, decide_eq_true_eq] at hc
      obtain ⟨k, hk, hk', rfl⟩ := exists_ofNat_of_le (a := '0') (b := '9') hc.1 hc.2
      change 48 ≤ k at hk
      change k ≤ 57 at hk'
      interval_cases k <;> cases h <;> decide
    · split at h
      · next hc =>
        obtain ⟨k, hk, hk', rfl⟩ := exists_ofNat_of_le hc.1 hc.2
        change 97 ≤ k at hk
        change k ≤ 102 at hk'
        interval_cases k <;> cases h <;> decide
      · split at h
        · next hc =>
          obtain ⟨k, hk, hk', rfl⟩ := exists_ofNat_of_le hc.1 hc.2
          change 65 ≤ k at hk
          change k ≤ 70 at hk'
          interval_cases k <;> cases h <;> decide
        · cases h
  · rintro ⟨hn, rfl | rfl⟩
    · interval_cases n <;> rfl
    · interval_cases n <;> rfl

/-- The letter behind a backslash stands for what the table says. -/
theorem escaped?_eq_some_iff {e c : Char} : escaped? e = some c ↔ (e, c) ∈ shorthands := by
  constructor
  · intro h
    unfold escaped? at h
    split at h <;> cases h <;> decide
  · intro h
    simp only [shorthands, List.mem_cons, Prod.mk.injEq, List.not_mem_nil, or_false] at h
    rcases h with h | h | h | h | h | h | h | h <;> (obtain ⟨rfl, rfl⟩ := h; rfl)

/-- Four hexadecimal digits are a code unit. -/
theorem hex4?_eq_some_iff {a b c d : Char} {n : Nat} :
    hex4? a b c d = some n ↔ CodeUnit n ['u', a, b, c, d] := by
  constructor
  · intro h
    simp only [hex4?, Option.bind_eq_bind, Option.bind_eq_some_iff, hexValue?_eq_some_iff] at h
    obtain ⟨i, hi, j, hj, k, hk, l, hl, h⟩ := h
    cases h
    have hn : i * 4096 + j * 256 + k * 16 + l = ((i * 16 + j) * 16 + k) * 16 + l := by omega
    rw [hn]
    exact .mk hi hj hk hl
  · rintro ⟨hi, hj, hk, hl⟩
    simp only [hex4?, hexValue?_eq_some_iff.2 hi, hexValue?_eq_some_iff.2 hj,
      hexValue?_eq_some_iff.2 hk, hexValue?_eq_some_iff.2 hl, Option.bind_eq_bind,
      Option.bind_some]
    exact congrArg some (by omega)

/-- A code unit is read where one is written, and nowhere else. -/
theorem hex4_eq_ok_iff {s r : List Char} {n : Nat} :
    hex4 s = .ok (n, r) ↔ ∃ w, CodeUnit n ('u' :: w) ∧ s = w ++ r := by
  constructor
  · intro h
    unfold hex4 at h
    split at h
    · next a b c d q =>
      split at h
      · next hx =>
        cases h
        exact ⟨[a, b, c, d], hex4?_eq_some_iff.1 hx, rfl⟩
      · cases h
    · split at h <;> cases h
  · rintro ⟨w, hw, rfl⟩
    obtain ⟨a, b, c, d, rfl⟩ : ∃ a b c d, w = [a, b, c, d] := by
      cases hw
      exact ⟨_, _, _, _, rfl⟩
    simp only [hex4, List.cons_append, List.nil_append, hex4?_eq_some_iff.2 hw]

theorem isTrailing_iff {n : Nat} : isTrailing n = true ↔ 0xDC00 ≤ n ∧ n < 0xE000 := by
  simp [isTrailing]

theorem isLeading_iff {n : Nat} : isLeading n = true ↔ 0xD800 ≤ n ∧ n < 0xDC00 := by
  simp [isLeading]

theorem exists_of_codeUnit {n : Nat} {w : List Char} (h : CodeUnit n w) :
    ∃ v, w = 'u' :: v := by
  cases h
  exact ⟨_, rfl⟩

/-- A second half is read where one is written, and makes a character
together with the first. -/
theorem secondHalf_eq_ok_iff {s r : List Char} {m : Nat} {c : Char} :
    secondHalf m s = .ok (c, r) ↔ ∃ n w, CodeUnit n w ∧ (0xDC00 ≤ n ∧ n < 0xE000) ∧
      Char.ofNat (0x10000 + (m - 0xD800) * 1024 + (n - 0xDC00)) = c ∧ s = '\\' :: w ++ r := by
  constructor
  · intro h
    unfold secondHalf at h
    split at h
    · cases h
    · cases h
    · split at h
      · cases h
      · next n q hx =>
        split at h
        · next ht =>
          obtain ⟨w, hw, rfl⟩ := hex4_eq_ok_iff.1 hx
          simp only [Except.ok.injEq, Prod.mk.injEq] at h
          obtain ⟨hc, rfl⟩ := h
          exact ⟨n, _, hw, isTrailing_iff.1 ht, hc, rfl⟩
        · cases h
    · cases h
  · rintro ⟨n, w, hw, hn, rfl, rfl⟩
    obtain ⟨v, rfl⟩ := exists_of_codeUnit hw
    have hx : hex4 (v ++ r) = .ok (n, r) := hex4_eq_ok_iff.2 ⟨v, hw, rfl⟩
    simp only [List.cons_append, secondHalf, hx]
    rw [if_pos (isTrailing_iff.2 hn)]

/-- An escape is read where one is written, as the character that it stands
for. -/
theorem escape_eq_ok_iff {s r : List Char} {c : Char} :
    escape s = .ok (c, r) ↔ ∃ w, Escape c w ∧ s = w ++ r := by
  constructor
  · intro h
    unfold escape at h
    split at h
    · cases h
    · next e q =>
      split at h
      · next he =>
        subst he
        unfold codePoint at h
        split at h
        · cases h
        · next n q' hx =>
          obtain ⟨w, hw, rfl⟩ := hex4_eq_ok_iff.1 hx
          split at h
          · cases h
          · next ht =>
            rw [isTrailing_iff] at ht
            split at h
            · next hl =>
              obtain ⟨hl, hl'⟩ := isLeading_iff.1 hl
              obtain ⟨k, v, hv, ⟨hk, hk'⟩, rfl, rfl⟩ := secondHalf_eq_ok_iff.1 h
              exact ⟨'u' :: w ++ '\\' :: v, .pair hw hv hl hl' hk hk', by simp⟩
            · next hl =>
              rw [isLeading_iff] at hl
              cases h
              exact ⟨'u' :: w, .unit hw (by omega), rfl⟩
      · split at h
        · next d hd =>
          cases h
          exact ⟨[e], .short (escaped?_eq_some_iff.1 hd), rfl⟩
        · cases h
  · rintro ⟨w, hw, rfl⟩
    cases hw with
    | @short e d h =>
      have he : e ≠ 'u' := by
        rintro rfl
        revert h
        simp [shorthands]
      simp only [List.cons_append, List.nil_append, escape, he, if_false,
        escaped?_eq_some_iff.2 h]
    | @unit n w h hn =>
      obtain ⟨u, rfl⟩ := exists_of_codeUnit h
      have hx : hex4 (u ++ r) = .ok (n, r) := hex4_eq_ok_iff.2 ⟨u, h, rfl⟩
      have hl : ¬ isLeading n = true := by
        rw [isLeading_iff]
        omega
      have ht : ¬ isTrailing n = true := by
        rw [isTrailing_iff]
        omega
      simp only [List.cons_append, escape, codePoint, hx, if_true]
      rw [if_neg ht, if_neg hl]
    | @pair m n v v' hv hv' hm hm' hn hn' =>
      obtain ⟨u, rfl⟩ := exists_of_codeUnit hv
      have hx : hex4 (u ++ '\\' :: (v' ++ r)) = .ok (m, '\\' :: (v' ++ r)) :=
        hex4_eq_ok_iff.2 ⟨u, hv, rfl⟩
      have hl : isLeading m = true := isLeading_iff.2 ⟨hm, hm'⟩
      have ht : ¬ isTrailing m = true := by
        rw [isTrailing_iff]
        omega
      simp only [List.cons_append, List.append_assoc, escape, codePoint, hx, if_true]
      rw [if_neg ht, if_pos hl]
      exact secondHalf_eq_ok_iff.2 ⟨n, v', hv', ⟨hn, hn'⟩, rfl, rfl⟩

/-- An escape that is skipped may also be half a surrogate pair. -/
theorem skipEscape_eq_ok_iff {s r : List Char} :
    skipEscape s = .ok r ↔
      (∃ e c, (e, c) ∈ shorthands ∧ s = e :: r) ∨ ∃ n w, CodeUnit n w ∧ s = w ++ r := by
  constructor
  · intro h
    unfold skipEscape at h
    split at h
    · cases h
    · next e q =>
      split at h
      · next he =>
        obtain ⟨⟨n, q'⟩, hx, rfl⟩ := map_eq_ok.1 h
        obtain ⟨w, hw, rfl⟩ := hex4_eq_ok_iff.1 hx
        exact Or.inr ⟨n, 'u' :: w, hw, by rw [he, List.cons_append]⟩
      · split at h
        · next hsome =>
          cases h
          obtain ⟨c, hc⟩ := Option.isSome_iff_exists.1 hsome
          exact Or.inl ⟨e, c, escaped?_eq_some_iff.1 hc, rfl⟩
        · cases h
  · rintro (⟨e, c, hc, rfl⟩ | ⟨n, w, hw, rfl⟩)
    · have he : e ≠ 'u' := by
        rintro rfl
        revert hc
        simp [shorthands]
      simp [skipEscape, he, escaped?_eq_some_iff.2 hc]
    · obtain ⟨u, rfl⟩ := exists_of_codeUnit hw
      have hx : hex4 (u ++ r) = .ok (n, r) := hex4_eq_ok_iff.2 ⟨u, hw, rfl⟩
      simp [skipEscape, hx, Except.map]

-- ========================================================== characters

/-- A character may stand in a string as it is if its code is not below
that of the space. -/
theorem not_isControl_iff {c : Char} : ¬ isControl c = true ↔ 0x20 ≤ c.toNat := by
  simp [isControl]

theorem next_quote (r : List Char) : next ('"' :: r) = .ok (none, r) := rfl

/-- A plain character stands for itself. -/
theorem next_plain {c : Char} (hc : Plain c) (r : List Char) :
    next (c :: r) = .ok (some c, r) := by
  obtain ⟨hquote, hslash, hcontrol⟩ := hc
  simp only [next, hquote, hslash, if_false]
  rw [if_neg (not_isControl_iff.2 hcontrol)]

/-- An escape stands for its character. -/
theorem next_escape {c : Char} {w : List Char} (hw : Escape c w) (r : List Char) :
    next ('\\' :: w ++ r) = .ok (some c, r) := by
  have hx : escape (w ++ r) = .ok (c, r) := escape_eq_ok_iff.2 ⟨w, hw, rfl⟩
  simp [next, hx, Except.map]

/-- What is taken is a quote, a character that stands for itself, or an
escape. -/
theorem next_cases {s r : List Char} {x : Option Char} (h : next s = .ok (x, r)) :
    (x = none ∧ s = '"' :: r) ∨ (∃ c, x = some c ∧ Plain c ∧ s = c :: r) ∨
      ∃ c w, x = some c ∧ Escape c w ∧ s = '\\' :: w ++ r := by
  unfold next at h
  split at h
  · cases h
  · next d q =>
    split at h
    · next hquote =>
      cases h
      exact Or.inl ⟨rfl, by rw [hquote]⟩
    · next hquote =>
      split at h
      · next hslash =>
        obtain ⟨⟨c, q'⟩, hx, h⟩ := map_eq_ok.1 h
        cases h
        obtain ⟨w, hw, rfl⟩ := escape_eq_ok_iff.1 hx
        exact Or.inr (Or.inr ⟨c, w, rfl, hw, by rw [hslash, List.cons_append]⟩)
      · next hslash =>
        split at h
        · cases h
        · next hcontrol =>
          cases h
          exact Or.inr (Or.inl ⟨d, rfl, ⟨hquote, hslash, not_isControl_iff.1 hcontrol⟩, rfl⟩)

theorem skipNext_quote (r : List Char) : skipNext ('"' :: r) = .ok (false, r) := rfl

theorem skipNext_plain {c : Char} (hc : Plain c) (r : List Char) :
    skipNext (c :: r) = .ok (true, r) := by
  obtain ⟨hquote, hslash, hcontrol⟩ := hc
  simp only [skipNext, hquote, hslash, if_false]
  rw [if_neg (not_isControl_iff.2 hcontrol)]

theorem skipNext_escape {s r : List Char} (hs : skipEscape s = .ok r) :
    skipNext ('\\' :: s) = .ok (true, r) := by
  simp [skipNext, hs, Except.map]

/-- A step through a skipped string is at its closing quote, at a plain
character or at an escape. -/
theorem skipNext_cases {s r : List Char} {goesOn : Bool} (h : skipNext s = .ok (goesOn, r)) :
    (goesOn = false ∧ s = '"' :: r) ∨ (goesOn = true ∧ ∃ c, Plain c ∧ s = c :: r) ∨
      (goesOn = true ∧ ∃ q, skipEscape q = .ok r ∧ s = '\\' :: q) := by
  unfold skipNext at h
  split at h
  · cases h
  · next d q =>
    split at h
    · next hquote =>
      cases h
      exact Or.inl ⟨rfl, by rw [hquote]⟩
    · next hquote =>
      split at h
      · next hslash =>
        obtain ⟨q', hx, h⟩ := map_eq_ok.1 h
        cases h
        exact Or.inr (Or.inr ⟨rfl, q, hx, by rw [hslash]⟩)
      · next hslash =>
        split at h
        · cases h
        · next hcontrol =>
          cases h
          exact Or.inr (Or.inl ⟨rfl, d, ⟨hquote, hslash, not_isControl_iff.1 hcontrol⟩, rfl⟩)

-- ============================================================= strings

/-- Where a string ends, what was read of it comes out in its order. -/
theorem readOnto_of_next_none {done s r : List Char} (h : next s = .ok (none, r)) :
    readOnto done s = .ok (done.reverse, r) := by
  rw [readOnto]
  split
  · next e h' => cases h.symm.trans h'
  · next r' h' =>
    cases h.symm.trans h'
    rfl
  · next c r' h' => cases h.symm.trans h'

/-- A character is put on those read before it. -/
theorem readOnto_of_next_some {done s r : List Char} {c : Char} (h : next s = .ok (some c, r)) :
    readOnto done s = readOnto (c :: done) r := by
  rw [readOnto]
  split
  · next e h' => cases h.symm.trans h'
  · next r' h' => cases h.symm.trans h'
  · next c' r' h' =>
    cases h.symm.trans h'
    rfl

theorem readOnto_of_next_error {done s : List Char} {flaw : Flaw} (h : next s = .error flaw) :
    readOnto done s = .error flaw := by
  rw [readOnto]
  split
  · next e h' =>
    cases h.symm.trans h'
    rfl
  · next r' h' => cases h.symm.trans h'
  · next c r' h' => cases h.symm.trans h'

/-- A string is read as the characters that it spells. -/
theorem readOnto_of_spells {cs t : List Char} (h : Spells cs t) (done r : List Char) :
    readOnto done (t ++ '"' :: r) = .ok (done.reverse ++ cs, r) := by
  induction h generalizing done with
  | nil => rw [List.append_nil]; exact readOnto_of_next_none (next_quote r)
  | @plain c cs t hc _ ih =>
    rw [List.cons_append, readOnto_of_next_some (next_plain hc _), ih]
    simp
  | @escape c cs w t hw _ ih =>
    rw [List.append_assoc, readOnto_of_next_some (next_escape hw _), ih]
    simp

/-- What is read as a string is spelled there, up to a quote. -/
theorem spells_of_readOnto {done s r cs : List Char} (h : readOnto done s = .ok (cs, r)) :
    ∃ cs' t, Spells cs' t ∧ cs = done.reverse ++ cs' ∧ s = t ++ '"' :: r := by
  fun_induction readOnto done s with
  | case1 => cases h
  | case2 done s q hnext =>
    cases h
    rcases next_cases hnext with ⟨-, rfl⟩ | ⟨_, h, -⟩ | ⟨_, _, h, -⟩
    · exact ⟨[], [], .nil, by simp, rfl⟩
    · cases h
    · cases h
  | case3 done s c q hnext ih =>
    obtain ⟨cs', t, ht, rfl, rfl⟩ := ih h
    rcases next_cases hnext with ⟨hc, -⟩ | ⟨d, hd, hplain, rfl⟩ | ⟨d, w, hd, hw, rfl⟩
    · cases hc
    · cases hd
      exact ⟨c :: cs', c :: t, .plain hplain ht, by simp, rfl⟩
    · cases hd
      exact ⟨c :: cs', '\\' :: w ++ t, .escape hw ht, by simp, by simp⟩

/-- A string is read if its characters are spelt in front of a quote. -/
theorem read_eq_ok_iff {s r cs : List Char} :
    read s = .ok (cs, r) ↔ ∃ t, Spells cs t ∧ s = t ++ '"' :: r := by
  constructor
  · intro h
    obtain ⟨cs', t, ht, hcs, hs⟩ := spells_of_readOnto h
    rw [List.reverse_nil, List.nil_append] at hcs
    exact ⟨t, hcs ▸ ht, hs⟩
  · rintro ⟨t, ht, rfl⟩
    exact readOnto_of_spells ht [] r

theorem skip_of_next_false {s r : List Char} (h : skipNext s = .ok (false, r)) :
    skip s = .ok r := by
  rw [skip]
  split
  · next e h' => cases h.symm.trans h'
  · next r' h' =>
    cases h.symm.trans h'
    rfl
  · next r' h' => cases h.symm.trans h'

theorem skip_of_next_true {s r : List Char} (h : skipNext s = .ok (true, r)) :
    skip s = skip r := by
  rw [skip]
  split
  · next e h' => cases h.symm.trans h'
  · next r' h' => cases h.symm.trans h'
  · next r' h' =>
    cases h.symm.trans h'
    rfl

/-- The text of a string is skipped up to its quote. -/
theorem skip_of_stringText {t : List Char} (h : StringText t) (r : List Char) :
    skip (t ++ '"' :: r) = .ok r := by
  induction h with
  | nil => exact skip_of_next_false (skipNext_quote r)
  | plain hc _ ih => rwa [List.cons_append, skip_of_next_true (skipNext_plain hc _)]
  | @short e c t hc _ ih =>
    rwa [List.cons_append, List.cons_append, skip_of_next_true (skipNext_escape
      (skipEscape_eq_ok_iff.2 (Or.inl ⟨e, c, hc, rfl⟩)))]
  | @unit n w t hw _ ih =>
    rwa [List.append_assoc, List.cons_append, skip_of_next_true (skipNext_escape
      (skipEscape_eq_ok_iff.2 (Or.inr ⟨n, w, hw, rfl⟩)))]

/-- What is skipped as a string is the text of one. -/
theorem stringText_of_skip {s r : List Char} (h : skip s = .ok r) :
    ∃ t, StringText t ∧ s = t ++ '"' :: r := by
  fun_induction skip s with
  | case1 => cases h
  | case2 s q hnext =>
    cases h
    rcases skipNext_cases hnext with ⟨-, rfl⟩ | ⟨h, -⟩ | ⟨h, -⟩
    · exact ⟨[], .nil, rfl⟩
    · cases h
    · cases h
  | case3 s q hnext ih =>
    obtain ⟨t, ht, rfl⟩ := ih h
    rcases skipNext_cases hnext with ⟨h, -⟩ | ⟨-, c, hc, rfl⟩ | ⟨-, q, hq, rfl⟩
    · cases h
    · exact ⟨c :: t, .plain hc ht, rfl⟩
    · rcases skipEscape_eq_ok_iff.1 hq with ⟨e, c, hc, rfl⟩ | ⟨n, w, hw, rfl⟩
      · exact ⟨'\\' :: e :: t, .short hc ht, rfl⟩
      · exact ⟨'\\' :: w ++ t, .unit hw ht, by simp⟩

/-- A string is passed over if it is one. -/
theorem skip_eq_ok_iff {s r : List Char} :
    skip s = .ok r ↔ ∃ t, StringText t ∧ s = t ++ '"' :: r := by
  constructor
  · exact stringText_of_skip
  · rintro ⟨t, ht, rfl⟩
    exact skip_of_stringText ht r

-- ============================================= one meaning or one flaw

/-- The second half of a surrogate pair is the escape that comes next in
the string, or is missing. -/
theorem secondHalf_of_stringText (m : Nat) {t : List Char} (h : StringText t) :
    (∃ flaw, ∀ r, secondHalf m (t ++ '"' :: r) = .error flaw) ∨
      ∃ c t', StringText t' ∧ t'.length < t.length ∧
        ∀ r, secondHalf m (t ++ '"' :: r) = .ok (c, t' ++ '"' :: r) := by
  cases h with
  | nil => exact .inl ⟨.brokenPair, fun r => by simp [secondHalf]⟩
  | @plain c t hc _ =>
    refine .inl ⟨.brokenPair, fun r => ?_⟩
    have hslash : c ≠ '\\' := hc.2.1
    simp [secondHalf, hslash]
  | @short e c t he _ =>
    refine .inl ⟨.brokenPair, fun r => ?_⟩
    have hu : e ≠ 'u' := by
      rintro rfl
      exact absurd he (by simp [shorthands])
    simp [secondHalf, hu]
  | @unit n w t hw ht =>
    obtain ⟨v, rfl⟩ := exists_of_codeUnit hw
    have hhex (r : List Char) : hex4 (v ++ (t ++ '"' :: r)) = .ok (n, t ++ '"' :: r) :=
      hex4_eq_ok_iff.2 ⟨v, hw, rfl⟩
    by_cases hn : isTrailing n = true
    · refine .inr ⟨Char.ofNat (0x10000 + (m - 0xD800) * 1024 + (n - 0xDC00)), t, ht, ?_,
        fun r => ?_⟩
      · simp only [List.length_cons, List.length_append]
        omega
      · simp [secondHalf, hhex, hn]
    · exact .inl ⟨.loneSurrogate, fun r => by simp [secondHalf, hhex, hn]⟩

/-- What comes next in a string is seen from the string, whatever stands
behind its closing quote. -/
theorem next_of_stringText {t : List Char} (h : StringText t) :
    t = [] ∨ (∃ flaw, ∀ r, next (t ++ '"' :: r) = .error flaw) ∨
      ∃ c t', StringText t' ∧ t'.length < t.length ∧
        ∀ r, next (t ++ '"' :: r) = .ok (some c, t' ++ '"' :: r) := by
  cases h with
  | nil => exact .inl rfl
  | @plain c t hc ht =>
    exact .inr (.inr ⟨c, t, ht, by simp, fun r => next_plain hc _⟩)
  | @short e c t he ht =>
    refine .inr (.inr ⟨c, t, ht, ?_, fun r => next_escape (.short he) _⟩)
    simp only [List.length_cons]
    omega
  | @unit n w t hw ht =>
    right
    obtain ⟨v, rfl⟩ := exists_of_codeUnit hw
    have hnext (r : List Char) : next ('\\' :: 'u' :: v ++ t ++ '"' :: r)
        = (if isTrailing n then .error .loneSurrogate
            else if isLeading n then secondHalf n (t ++ '"' :: r)
            else .ok (Char.ofNat n, t ++ '"' :: r)).map fun p => (some p.1, p.2) := by
      have hhex : hex4 (v ++ (t ++ '"' :: r)) = .ok (n, t ++ '"' :: r) :=
        hex4_eq_ok_iff.2 ⟨v, hw, rfl⟩
      simp [next, escape, codePoint, hhex]
    by_cases htrailing : isTrailing n = true
    · exact .inl ⟨.loneSurrogate, fun r => by rw [hnext, if_pos htrailing]; rfl⟩
    by_cases hleading : isLeading n = true
    · rcases secondHalf_of_stringText n ht with ⟨flaw, hflaw⟩ | ⟨c, t', ht', hlt, hc⟩
      · exact .inl ⟨flaw, fun r => by rw [hnext, if_neg htrailing, if_pos hleading, hflaw]; rfl⟩
      · refine .inr ⟨c, t', ht', ?_, fun r => ?_⟩
        · simp only [List.length_cons, List.length_append]
          omega
        · rw [hnext, if_neg htrailing, if_pos hleading, hc]
          rfl
    · refine .inr ⟨Char.ofNat n, t, ht, ?_, fun r => ?_⟩
      · simp only [List.length_cons, List.length_append]
        omega
      · rw [hnext, if_neg htrailing, if_neg hleading]
        rfl

/-- A string has one meaning or one flaw, whatever stands behind its
closing quote. -/
theorem read_of_stringText {t : List Char} (h : StringText t) :
    ∃ x : Except Flaw (List Char), ∀ r, read (t ++ '"' :: r) = x.map (·, r) := by
  have honto (n : Nat) : ∀ (t done : List Char), StringText t → t.length = n →
      ∃ x : Except Flaw (List Char), ∀ r, readOnto done (t ++ '"' :: r) = x.map (·, r) := by
    induction n using Nat.strongRecOn with
    | ind n ih =>
      intro t done ht hn
      rcases next_of_stringText ht with rfl | ⟨flaw, hflaw⟩ | ⟨c, t', ht', hlt, hc⟩
      · exact ⟨.ok done.reverse, fun r => readOnto_of_next_none (next_quote r)⟩
      · exact ⟨.error flaw, fun r => readOnto_of_next_error (hflaw r)⟩
      · obtain ⟨x, hx⟩ := ih t'.length (hn ▸ hlt) t' (c :: done) ht' rfl
        exact ⟨x, fun r => by rw [readOnto_of_next_some (hc r), hx]⟩
  exact honto t.length t [] h rfl

end Str

end Chip8.Json
