/-
Numbers are scanned as the grammar has them, and integers without a sign
are valued as their decimal digits.

A number does not end by itself: it takes all that could belong to it.
So what is scanned is always a number (`scan_ok`), but a number is
scanned to its end only if what follows could not go on with it
(`Ends`), as a blank, a comma or a closing bracket could not.

A natural number has only one spelling that is a whole part, its decimal
digits, so a field that wants a natural number leaves no choice how to
write it (`toDigits_natOfDigits`).
-/
import Chip8.Proofs.Json.Grammar

namespace Chip8.Json

open Grammar

/-- A number that ends in front of this text is not continued by it. -/
def Ends (s : List Char) : Prop :=
  ∀ c ∈ s.head?, c.isDigit = false ∧ c ≠ '.' ∧ c ≠ 'e' ∧ c ≠ 'E'

namespace Number

variable {atEnd : Flaw} {s r : List Char}

-- ============================================================== digits

/-- Digits are read as far as they go, and not none. -/
theorem digits_eq_ok_iff {ds : List Char} :
    digits atEnd s = .ok (ds, r) ↔ Digits ds ∧ startsWithDigit r = false ∧ s = ds ++ r := by
  constructor
  · intro h
    unfold digits at h
    split at h
    · cases h
    · next c q =>
      split at h
      · next hc =>
        cases h
        refine ⟨⟨List.cons_ne_nil _ _, ?_⟩, ?_, ?_⟩
        · exact List.forall_mem_cons.2 ⟨hc, fun _ hd => List.mem_takeWhile_imp hd⟩
        · cases hq : q.dropWhile Char.isDigit with
          | nil => rfl
          | cons d q' =>
            have := List.head?_dropWhile_not Char.isDigit q
            simpa [hq, startsWithDigit] using this
        · rw [List.cons_append, List.takeWhile_append_dropWhile]
      · cases h
  · rintro ⟨⟨hne, hall⟩, hr, rfl⟩
    obtain ⟨c, ds, rfl⟩ := List.exists_cons_of_ne_nil hne
    obtain ⟨hc, hall⟩ := List.forall_mem_cons.1 hall
    have htake : r.takeWhile Char.isDigit = [] := by
      cases r with
      | nil => rfl
      | cons d r => exact List.takeWhile_cons_of_neg (by simpa [startsWithDigit] using hr)
    have hdrop : r.dropWhile Char.isDigit = r := by
      cases r with
      | nil => rfl
      | cons d r => exact List.dropWhile_cons_of_neg (by simpa [startsWithDigit] using hr)
    simp [digits, hc, List.takeWhile_append_of_pos hall, List.dropWhile_append_of_pos hall,
      htake, hdrop]

/-- The whole part of a number is read as far as its digits go. -/
theorem scanWhole_eq_ok_iff {ds : List Char} :
    scanWhole atEnd s = .ok (ds, r) ↔ Whole ds ∧ startsWithDigit r = false ∧ s = ds ++ r := by
  unfold scanWhole
  split
  · next q =>
    constructor
    · intro h
      split at h
      · cases h
      · next hq =>
        cases h
        exact ⟨⟨⟨List.cons_ne_nil _ _, by simp⟩, fun _ => rfl⟩, by simpa using hq, rfl⟩
    · rintro ⟨⟨⟨hne, hall⟩, hzero⟩, hr, hs⟩
      obtain ⟨c, ds, rfl⟩ := List.exists_cons_of_ne_nil hne
      obtain ⟨rfl, -⟩ := List.cons.inj hs
      obtain ⟨-, rfl⟩ := List.cons.inj (hzero rfl)
      obtain rfl : q = r := by simpa using hs
      simp [hr]
  · next hs =>
    rw [digits_eq_ok_iff]
    constructor
    · rintro ⟨hds, hr, rfl⟩
      refine ⟨⟨hds, fun hzero => ?_⟩, hr, rfl⟩
      obtain ⟨c, ds, rfl⟩ := List.exists_cons_of_ne_nil hds.1
      cases hzero
      exact absurd rfl (hs _)
    · rintro ⟨hds, hr, h⟩
      exact ⟨hds.1, hr, h⟩

-- ============================================================ the scan

/-- A fraction that was read was written, and where none was read there was
nothing. -/
theorem fraction_of_scan {f : Option (List Char)} (h : scanFraction atEnd s = .ok (f, r)) :
    ∃ w, Fraction w ∧ (f = none → w = []) ∧ s = w ++ r := by
  unfold scanFraction at h
  split at h
  · next q =>
    obtain ⟨⟨ds, q'⟩, hd, h⟩ := map_eq_ok.1 h
    cases h
    obtain ⟨hds, -, rfl⟩ := digits_eq_ok_iff.1 hd
    exact ⟨'.' :: ds, .some hds, nofun, rfl⟩
  · cases h
    exact ⟨[], .none, fun _ => rfl, rfl⟩

theorem exists_of_scanSign (s : List Char) :
    ∃ minus sign t, scanSign s = (minus, t) ∧ sign ∈ [[], ['+'], ['-']] ∧ s = sign ++ t := by
  unfold scanSign
  split
  · next t => exact ⟨false, ['+'], t, rfl, by simp, rfl⟩
  · next t => exact ⟨true, ['-'], t, rfl, by simp, rfl⟩
  · exact ⟨false, [], s, rfl, by simp, rfl⟩

/-- An exponent that was read was written, and where none was read there
was nothing. -/
theorem exponent_of_scan {e : Option (Bool × List Char)}
    (h : scanExponent atEnd s = .ok (e, r)) :
    ∃ w, Exponent w ∧ (e = none → w = []) ∧ s = w ++ r := by
  unfold scanExponent at h
  split at h
  · cases h
    exact ⟨[], .none, fun _ => rfl, rfl⟩
  · next c q =>
    split at h
    · next hc =>
      obtain ⟨minus, sign, t, hscan, hsign, rfl⟩ := exists_of_scanSign q
      simp only [hscan] at h
      obtain ⟨⟨ds, q'⟩, hd, h⟩ := map_eq_ok.1 h
      cases h
      obtain ⟨hds, -, rfl⟩ := digits_eq_ok_iff.1 hd
      exact ⟨c :: sign ++ ds, .some (by simpa using hc) hsign hds, nofun, by simp⟩
    · cases h
      exact ⟨[], .none, fun _ => rfl, rfl⟩

theorem exists_of_scanMinus (s : List Char) :
    ∃ minus t, scanMinus s = (minus, t) ∧ s = (if minus then ['-'] else []) ++ t := by
  unfold scanMinus
  split
  · next t => exact ⟨true, t, rfl, rfl⟩
  · exact ⟨false, s, rfl, rfl⟩

/-- What is scanned is a number, and the parts that are missing take up no
room. -/
theorem scan_ok {n : Number} (h : scan atEnd s = .ok (n, r)) :
    ∃ f e, Whole n.whole ∧ Fraction f ∧ Exponent e ∧
      (n.fraction = none → f = []) ∧ (n.exponent = none → e = []) ∧
      s = (if n.negative then ['-'] else []) ++ n.whole ++ f ++ e ++ r := by
  unfold scan at h
  obtain ⟨minus, t, hminus, rfl⟩ := exists_of_scanMinus s
  simp only [hminus] at h
  obtain ⟨⟨whole, s₁⟩, hw, h⟩ := bind_eq_ok.1 h
  obtain ⟨⟨fraction, s₂⟩, hf, h⟩ := bind_eq_ok.1 h
  obtain ⟨⟨exponent, s₃⟩, he, h⟩ := bind_eq_ok.1 h
  cases h
  obtain ⟨hwhole, -, rfl⟩ := scanWhole_eq_ok_iff.1 hw
  obtain ⟨f, hfraction, hf0, rfl⟩ := fraction_of_scan hf
  obtain ⟨e, hexponent, he0, rfl⟩ := exponent_of_scan he
  exact ⟨f, e, hwhole, hfraction, hexponent, hf0, he0, by simp⟩

/-- A number that was read was written. -/
theorem numberText_of_scan {n : Number} (h : scan atEnd s = .ok (n, r)) :
    ∃ w, NumberText w ∧ s = w ++ r := by
  obtain ⟨f, e, hwhole, hfraction, hexponent, -, -, rfl⟩ := scan_ok h
  refine ⟨_, .mk ?_ hwhole hfraction hexponent, rfl⟩
  cases n.negative <;> simp

-- ======================================================= to the very end

/-- What a number may end in front of does not begin with a digit. -/
theorem startsWithDigit_of_ends (h : Ends s) : startsWithDigit s = false := by
  cases s with
  | nil => rfl
  | cons c s => exact (h c rfl).1

theorem scanFraction_none (atEnd : Flaw) (h : ∀ c ∈ s.head?, c ≠ '.') :
    scanFraction atEnd s = .ok (none, s) := by
  unfold scanFraction
  split
  · exact absurd rfl (h '.' rfl)
  · rfl

/-- A fraction is read as it is written, and always the same. -/
theorem scanFraction_of_fraction (atEnd : Flaw) {w : List Char} (hw : Fraction w) :
    ∃ f, ∀ r : List Char, (∀ c ∈ r.head?, c.isDigit = false ∧ c ≠ '.') →
      scanFraction atEnd (w ++ r) = .ok (f, r) := by
  cases hw with
  | none => exact ⟨none, fun r hr => scanFraction_none atEnd fun c hc => (hr c hc).2⟩
  | @some ds hds =>
    refine ⟨some ds, fun r hr => ?_⟩
    have hr' : startsWithDigit r = false := by
      cases r with
      | nil => rfl
      | cons c r => exact (hr c rfl).1
    have hd : digits atEnd (ds ++ r) = .ok (ds, r) := digits_eq_ok_iff.2 ⟨hds, hr', rfl⟩
    simp [scanFraction, hd, Except.map]

theorem scanSign_of_digits {sign ds : List Char} (hsign : sign ∈ [[], ['+'], ['-']])
    (hds : Digits ds) :
    ∃ minus, ∀ r : List Char, scanSign (sign ++ ds ++ r) = (minus, ds ++ r) := by
  simp only [List.mem_cons, List.not_mem_nil, or_false] at hsign
  rcases hsign with rfl | rfl | rfl
  · obtain ⟨c, ds, rfl⟩ := List.exists_cons_of_ne_nil hds.1
    have hc := hds.2 c List.mem_cons_self
    refine ⟨false, fun r => ?_⟩
    unfold scanSign
    split
    · next h =>
      cases h
      cases hc
    · next h =>
      cases h
      cases hc
    · rfl
  · exact ⟨false, fun _ => rfl⟩
  · exact ⟨true, fun _ => rfl⟩

/-- An exponent is read as it is written, and always the same. -/
theorem scanExponent_of_exponent (atEnd : Flaw) {w : List Char} (hw : Exponent w) :
    ∃ e, ∀ r, Ends r → scanExponent atEnd (w ++ r) = .ok (e, r) := by
  cases hw with
  | none =>
    refine ⟨none, fun r hr => ?_⟩
    cases r with
    | nil => rfl
    | cons c r =>
      obtain ⟨-, -, he, hE⟩ := hr c rfl
      simp [scanExponent, he, hE]
  | @some c sign ds hc hsign hds =>
    obtain ⟨minus, hscan⟩ := scanSign_of_digits hsign hds
    have hc : c = 'e' ∨ c = 'E' := by simpa using hc
    refine ⟨some (minus, ds), fun r hr => ?_⟩
    have hd : digits atEnd (ds ++ r) = .ok (ds, r) :=
      digits_eq_ok_iff.2 ⟨hds, startsWithDigit_of_ends hr, rfl⟩
    simp [scanExponent, hc, -List.append_assoc, hscan, hd, Except.map]

theorem scanMinus_of_whole {sign whole : List Char} (hsign : sign ∈ [[], ['-']])
    (hwhole : Whole whole) :
    ∃ minus, (∀ r : List Char, scanMinus (sign ++ whole ++ r) = (minus, whole ++ r)) ∧
      (sign = [] → minus = false) := by
  simp only [List.mem_cons, List.not_mem_nil, or_false] at hsign
  rcases hsign with rfl | rfl
  · obtain ⟨c, ds, rfl⟩ := List.exists_cons_of_ne_nil hwhole.1.1
    have hc := hwhole.1.2 c List.mem_cons_self
    refine ⟨false, fun r => ?_, fun _ => rfl⟩
    unfold scanMinus
    split
    · next h =>
      cases h
      cases hc
    · rfl
  · exact ⟨true, fun _ => rfl, nofun⟩

/-- What can stand behind the whole part of a number. -/
theorem head_of_rest {f e : List Char} (hf : Fraction f) (he : Exponent e) (hr : Ends r) :
    startsWithDigit (f ++ e ++ r) = false ∧
      ∀ c ∈ (e ++ r).head?, c.isDigit = false ∧ c ≠ '.' := by
  have hexponent : ∀ c ∈ (e ++ r).head?, c.isDigit = false ∧ c ≠ '.' := by
    cases he with
    | none => exact fun c hc => ⟨(hr c hc).1, (hr c hc).2.1⟩
    | some hc _ _ =>
      simp only [List.mem_cons, List.not_mem_nil, or_false] at hc
      rintro c ⟨⟩
      rcases hc with rfl | rfl <;> decide
  refine ⟨?_, hexponent⟩
  cases hf with
  | none =>
    rw [List.nil_append]
    cases her : e ++ r with
    | nil => rfl
    | cons c q =>
      rw [her] at hexponent
      exact (hexponent c rfl).1
  | some _ => rfl

/-- A number is scanned to its end, and as the same number, whatever
follows that does not go on with it. -/
theorem scan_of_numberText (atEnd : Flaw) {w : List Char} (hw : NumberText w) :
    ∃ n, ∀ r, Ends r → scan atEnd (w ++ r) = .ok (n, r) := by
  obtain @⟨sign, whole, f, e, hsign, hwhole, hf, he⟩ := hw
  obtain ⟨minus, hminus, -⟩ := scanMinus_of_whole hsign hwhole
  obtain ⟨f', hf'⟩ := scanFraction_of_fraction atEnd hf
  obtain ⟨e', he'⟩ := scanExponent_of_exponent atEnd he
  refine ⟨⟨minus, whole, f', e'⟩, fun r hr => ?_⟩
  obtain ⟨hrest, hrest'⟩ := head_of_rest hf he hr
  have hminus := hminus (f ++ e ++ r)
  have hw : scanWhole atEnd (whole ++ (f ++ e ++ r)) = .ok (whole, f ++ e ++ r) :=
    scanWhole_eq_ok_iff.2 ⟨hwhole, hrest, rfl⟩
  have hf' := hf' (e ++ r) hrest'
  simp only [List.append_assoc] at hminus hw hf' ⊢
  simp [scan, hminus, hw, hf', he' r hr, bind, Except.bind, pure, Except.pure]

/-- A whole number is read without fraction and exponent. -/
theorem scan_of_whole (atEnd : Flaw) {w : List Char} (hw : Whole w) (hr : Ends r) :
    scan atEnd (w ++ r) = .ok (⟨false, w, none, none⟩, r) := by
  obtain ⟨minus, hminus, hsign⟩ := scanMinus_of_whole List.mem_cons_self hw
  obtain rfl := hsign rfl
  have hminus := hminus r
  have hwhole : scanWhole atEnd (w ++ r) = .ok (w, r) :=
    scanWhole_eq_ok_iff.2 ⟨hw, startsWithDigit_of_ends hr, rfl⟩
  have hfraction := scanFraction_none atEnd fun c hc => (hr c hc).2.1
  have hexponent : scanExponent atEnd r = .ok (none, r) := by
    cases r with
    | nil => rfl
    | cons c r =>
      obtain ⟨-, -, he, hE⟩ := hr c rfl
      simp [scanExponent, he, hE]
  rw [List.nil_append] at hminus
  simp [scan, hminus, hwhole, hfraction, hexponent, bind, Except.bind, pure, Except.pure]

-- ===================================================== natural numbers

/-- A digit is the character of its value. -/
theorem digitChar_of_isDigit {c : Char} (hc : c.isDigit = true) :
    c.toNat - '0'.toNat < 10 ∧ (c.toNat - '0'.toNat).digitChar = c := by
  simp only [Char.isDigit, Bool.and_eq_true, decide_eq_true_eq] at hc
  have h48 : 48 ≤ c.toNat := hc.1
  have h57 : c.toNat ≤ 57 := hc.2
  rw [← Char.ofNat_toNat c]
  generalize c.toNat = k at h48 h57
  interval_cases k <;> decide

/-- One more digit makes ten times the number and the digit. -/
theorem natOfDigits_concat (ds : List Char) (c : Char) :
    natOfDigits (ds ++ [c]) = 10 * natOfDigits ds + (c.toNat - '0'.toNat) := by
  unfold natOfDigits
  rw [Nat.ofDigitChars_append, Nat.ofDigitChars_cons, Nat.ofDigitChars_nil]

/-- A whole part is the decimal digits of its number. -/
theorem toDigits_natOfDigits {ds : List Char} (h : Whole ds) :
    Nat.toDigits 10 (natOfDigits ds) = ds := by
  induction ds using List.reverseRecOn with
  | nil => exact absurd rfl h.1.1
  | append_singleton ds c ih =>
    obtain ⟨⟨-, hall⟩, hzero⟩ := h
    obtain ⟨hlt, hchar⟩ := digitChar_of_isDigit (hall c (by simp))
    rw [natOfDigits_concat]
    cases ds with
    | nil =>
      rw [show natOfDigits [] = 0 from rfl, Nat.mul_zero, Nat.zero_add,
        Nat.toDigits_of_lt_base hlt, hchar, List.nil_append]
    | cons d ds =>
      have hd : d ≠ '0' := by
        rintro rfl
        simpa using hzero rfl
      have hwhole : Whole (d :: ds) := by
        refine ⟨⟨List.cons_ne_nil _ _, fun e he => hall e (List.mem_append_left _ he)⟩, fun h => ?_⟩
        exact absurd (Option.some.inj h) hd
      have hdigits := ih hwhole
      -- A zero in front would be all there is.
      have hpos : natOfDigits (d :: ds) ≠ 0 := by
        intro h0
        rw [h0, Nat.toDigits_zero] at hdigits
        exact hd (List.cons.inj hdigits).1.symm
      rw [← Nat.toDigits_append_toDigits (by decide) (Nat.pos_of_ne_zero hpos) hlt, hdigits,
        Nat.toDigits_of_lt_base hlt, hchar]

/-- No number but zero begins with a zero. -/
theorem head_toDigits {n : Nat} (h : n ≠ 0) : (Nat.toDigits 10 n).head? ≠ some '0' := by
  induction n using Nat.strongRecOn with
  | ind n ih =>
    rw [Nat.toDigits_eq_if (by omega)]
    split
    · interval_cases n <;> simp_all
    · rw [List.head?_append_of_ne_nil _ Nat.toDigits_ne_nil]
      exact ih (n / 10) (by omega) (by omega)

/-- The digits of a number are written as JSON has them, without zeros in
front. -/
theorem whole_toDigits (n : Nat) : Whole (Nat.toDigits 10 n) := by
  refine ⟨⟨Nat.toDigits_ne_nil, fun c hc => ?_⟩, fun h => ?_⟩
  · exact Nat.isDigit_of_mem_toDigits (by omega) (by omega) hc
  · by_cases hn : n = 0
    · rw [hn, Nat.toDigits_zero]
    · exact absurd h (head_toDigits hn)

/-- The digits of a number have it as their value. -/
theorem natOfDigits_toDigits (n : Nat) : natOfDigits (Nat.toDigits 10 n) = n :=
  Nat.ofDigitChars_toDigits (by omega) (by omega)

/-- A number is valued as a natural one only if it is spelt by digits, and
these are its decimal ones. -/
theorem scan_natural {k : Nat} {n : Number} (h : scan atEnd s = .ok (n, r))
    (hv : n.value = .ok (.natural k)) : k < UInt64.size ∧ s = Nat.toDigits 10 k ++ r := by
  obtain ⟨f, e, hwhole, -, -, hf, he, rfl⟩ := scan_ok h
  dsimp only [value] at hv
  split at hv
  · next hint =>
    obtain ⟨hint, hneg, hlt⟩ := hint
    simp only [isInteger, Bool.and_eq_true, Option.isNone_iff_eq_none] at hint
    cases hv
    refine ⟨hlt, ?_⟩
    rw [toDigits_natOfDigits hwhole, hf hint.1, he hint.2, if_neg hneg]
    simp
  · split at hv
    · cases hv
    · obtain ⟨x, -, hx⟩ := map_eq_ok.1 hv
      cases hx

/-- The decimal digits of a number of 64 bits are valued as it. -/
theorem scan_toDigits (atEnd : Flaw) {k : Nat} (hk : k < UInt64.size) (hr : Ends r) :
    ∃ n, scan atEnd (Nat.toDigits 10 k ++ r) = .ok (n, r) ∧ n.value = .ok (.natural k) := by
  refine ⟨_, scan_of_whole atEnd (whole_toDigits k) hr, ?_⟩
  have hvalue := natOfDigits_toDigits k
  simp [value, isInteger, hvalue, hk]

end Number

end Chip8.Json
