/-
A value gets one verdict as the value of a field, wherever it stands.

A text may be in order as JSON and still not be what a field wants: of
the wrong kind, out of range, a number too large for a double, a string
with half a surrogate pair. Which of these it is, if any, is seen from
the value itself: the readers stop at its end or before, and what stands
behind it, a comma or the bracket of whatever it is part of, is never a
reason to take it or to refuse it.

`Judges` says this of one reader and one text. It holds for the reader of
each field and every value (`exists_verdict`). What a value is shows in
its first character (`value_of_head`), so each proof splits on that
character as its reader does.
-/
import Chip8.Proofs.Config.Fields

namespace Chip8.Config

open Json
open Json.Grammar

/-- The verdict of a reader on a text, whatever blanks stand in front of it
and whatever it ends in front of: the text is taken to its end, or it is
refused. -/
def Judges {α : Type} (read : Reader α) (w : List Char) (x : Except Error α) : Prop :=
  ∀ b r, Blank b → Ends r → read (b ++ w ++ r) = x.map (·, r)

variable {w t : List Char} {c : Char}

/-- What is made of a value that was read depends on the value alone if
reading it does. -/
theorem Judges.map {α β : Type} {read : Reader α} {x : Except Error α} (h : Judges read w x)
    (g : α → β) : Judges (fun s => (read s).map fun (v, r) => (g v, r)) w (x.map g) := by
  intro b r hb hr
  dsimp only
  rw [h b r hb hr]
  cases x <;> rfl

-- ======================================================= first characters

/-- The first character of a value tells what the value is. -/
theorem value_of_head (h : Text .value (c :: t)) :
    (c = '"' → ∃ t', StringText t' ∧ t = t' ++ ['"']) ∧
      (startsNumber c = true → NumberText (c :: t)) ∧
      (c = 'n' → t = ['u', 'l', 'l']) ∧ (c = 't' → t = ['r', 'u', 'e']) ∧
      (c = 'f' → t = ['a', 'l', 's', 'e']) ∧
      (c = '{' → (∃ b, Blank b ∧ t = b ++ ['}']) ∨ ∃ ms, Text .members ms ∧ t = ms ++ ['}']) := by
  generalize hw : c :: t = w at h
  cases h with
  | number h =>
    subst hw
    obtain ⟨d, t', heq, hd⟩ := startsNumber_of_numberText h
    obtain ⟨rfl, -⟩ := List.cons.inj heq
    refine ⟨?_, fun _ => h, ?_, ?_, ?_, ?_⟩
    all_goals
      rintro rfl
      cases hd
  | string ht =>
    obtain ⟨rfl, rfl⟩ := List.cons.inj hw
    exact ⟨fun _ => ⟨_, ht, rfl⟩, by simp [startsNumber, Char.isDigit]⟩
  | emptyObject hb =>
    obtain ⟨rfl, rfl⟩ := List.cons.inj hw
    refine ⟨by simp, by simp [startsNumber, Char.isDigit], by simp, by simp, by simp, fun _ => ?_⟩
    exact .inl ⟨_, hb, rfl⟩
  | object hms =>
    obtain ⟨rfl, rfl⟩ := List.cons.inj hw
    refine ⟨by simp, by simp [startsNumber, Char.isDigit], by simp, by simp, by simp, fun _ => ?_⟩
    exact .inr ⟨_, hms, rfl⟩
  | _ =>
    obtain ⟨rfl, rfl⟩ := List.cons.inj hw
    simp [startsNumber, Char.isDigit]

theorem dropBlank_value {b : List Char} (hb : Blank b) (hc : isBlank c = false) (r : List Char) :
    dropBlank (b ++ c :: t ++ r) = c :: (t ++ r) := by
  rw [List.append_assoc, dropBlank_append hb, List.cons_append, dropBlank_cons hc]

-- ============================================================ wrong kinds

/-- What a value is named as, where something else is wanted. -/
theorem exists_found (h : Text .value (c :: t)) :
    ∃ x, ∀ r, Ends r → Found.at? c (t ++ r) = x := by
  obtain ⟨hstring, hnumber, hnull, htrue, hfalse, -⟩ := value_of_head h
  have hlit (cs r : List Char) : literal cs (cs ++ r) = .ok r := literal_eq_ok_iff.2 rfl
  unfold Found.at?
  by_cases hquote : c = '"'
  · obtain ⟨t', ht', rfl⟩ := hstring hquote
    obtain ⟨x, hx⟩ := Str.read_of_stringText ht'
    refine ⟨x.map .string, fun r _ => ?_⟩
    rw [if_pos hquote, List.append_assoc, List.singleton_append, hx]
    cases x <;> rfl
  by_cases hdigit : startsNumber c = true
  · obtain ⟨n, hn⟩ := Number.scan_of_numberText .endInValue (hnumber hdigit)
    refine ⟨n.value.map .ofNumeric, fun r hr => ?_⟩
    rw [if_neg hquote, if_pos hdigit, ← List.cons_append, hn r hr]
    rfl
  by_cases hn : c = 'n'
  · refine ⟨.ok .null, fun r _ => ?_⟩
    rw [if_neg hquote, if_neg hdigit, if_pos hn, hnull hn, hlit]
    rfl
  by_cases ht : c = 't'
  · refine ⟨.ok (.boolean true), fun r _ => ?_⟩
    rw [if_neg hquote, if_neg hdigit, if_neg hn, if_pos ht, htrue ht, hlit]
    rfl
  by_cases hf : c = 'f'
  · refine ⟨.ok (.boolean false), fun r _ => ?_⟩
    rw [if_neg hquote, if_neg hdigit, if_neg hn, if_neg ht, if_pos hf, hfalse hf, hlit]
    rfl
  · -- of an array or an object the bracket is enough
    simp only [hquote, hdigit, hn, ht, hf, if_false]
    exact ⟨_, fun _ _ => rfl⟩

/-- A value of another kind is refused for what it begins with. -/
theorem exists_mismatch (h : Text .value (c :: t)) (wanted : Wanted) :
    ∃ e, ∀ r, Ends r → mismatch wanted c (t ++ r) = e := by
  obtain ⟨x, hx⟩ := exists_found h
  cases x with
  | error flaw => exact ⟨.malformed flaw, fun r hr => by rw [mismatch, hx r hr]⟩
  | ok found => exact ⟨.wrongKind found wanted, fun r hr => by rw [mismatch, hx r hr]⟩

-- ================================================================ values

/-- Reading a boolean comes out the same wherever the value stands. -/
theorem exists_bool (h : Text .value w) : ∃ x, Judges readBool w x := by
  obtain ⟨c, t, rfl, hblank, -⟩ := head_of_value h
  obtain ⟨-, -, -, htrue, hfalse, -⟩ := value_of_head h
  by_cases ht : c = 't'
  · refine ⟨.ok true, fun b r hb _ => readBool_eq_ok_iff.2 ⟨b, _, hb, .true, ?_⟩⟩
    rw [ht, htrue ht]
  by_cases hf : c = 'f'
  · refine ⟨.ok false, fun b r hb _ => readBool_eq_ok_iff.2 ⟨b, _, hb, .false, ?_⟩⟩
    rw [hf, hfalse hf]
  · obtain ⟨e, he⟩ := exists_mismatch h .boolean
    refine ⟨.error e, fun b r hb hr => ?_⟩
    simp only [readBool, dropBlank_value hb hblank, if_neg ht, if_neg hf, he r hr, Except.map]

theorem exists_natural (h : Text .value w) (wanted : Wanted) (bound : Nat) :
    ∃ x, Judges (readNatural wanted bound) w x := by
  obtain ⟨c, t, rfl, hblank, -⟩ := head_of_value h
  obtain ⟨-, hnumber, -⟩ := value_of_head h
  by_cases hdigit : startsNumber c = true
  · obtain ⟨n, hn⟩ := Number.scan_of_numberText .endInValue (hnumber hdigit)
    refine ⟨(lift n.value).bind (checkNatural wanted bound), fun b r hb hr => ?_⟩
    have hscan := hn r hr
    rw [List.cons_append] at hscan
    simp only [readNatural, dropBlank_value hb hblank, if_pos hdigit, hscan, lift, bind, Except.bind]
    cases hvalue : n.value with
    | error flaw => simp only [Except.map]
    | ok v =>
      cases hcheck : checkNatural wanted bound v with
      | error e => simp only [hcheck, Except.map]
      | ok k => simp only [hcheck, Except.map, pure, Except.pure]
  · obtain ⟨e, he⟩ := exists_mismatch h wanted
    refine ⟨.error e, fun b r hb hr => ?_⟩
    simp only [readNatural, dropBlank_value hb hblank, if_neg hdigit, he r hr, Except.map]

theorem exists_long (h : Text .value w) : ∃ x, Judges readLong w x := by
  obtain ⟨x, hx⟩ := exists_natural h .long UInt64.size
  exact ⟨_, hx.map UInt64.ofNat⟩

theorem exists_byte (h : Text .value w) : ∃ x, Judges readByte w x := by
  obtain ⟨x, hx⟩ := exists_natural h .byte UInt8.size
  exact ⟨_, hx.map UInt8.ofNat⟩

theorem exists_optionalLong (h : Text .value w) : ∃ x, Judges readOptionalLong w x := by
  obtain ⟨c, t, rfl, hblank, -⟩ := head_of_value h
  obtain ⟨-, -, hnull, -⟩ := value_of_head h
  by_cases hn : c = 'n'
  · refine ⟨.ok none, fun b r hb hr => ?_⟩
    rw [hn, hnull hn]
    exact readOptionalLong_of_seedText hb .none hr
  · obtain ⟨x, hx⟩ := exists_long h
    refine ⟨x.map some, fun b r hb hr => ?_⟩
    unfold readOptionalLong
    rw [dropBlank_value hb hblank]
    split
    · next heq => exact absurd (List.cons.inj heq).1 hn
    · have hread := hx [] r blank_nil hr
      rw [List.nil_append, List.cons_append] at hread
      rw [hread]
      cases x <;> rfl

theorem exists_null (h : Text .value w) :
    ∃ x : Except Error Unit, ∀ b r, Blank b → Ends r → readNull (b ++ w ++ r) = x.map fun _ => r := by
  obtain ⟨c, t, rfl, hblank, -⟩ := head_of_value h
  obtain ⟨-, -, hnull, -⟩ := value_of_head h
  by_cases hn : c = 'n'
  · refine ⟨.ok (), fun b r hb _ => readNull_eq_ok_iff.2 ⟨b, hb, ?_⟩⟩
    rw [hn, hnull hn]
  · obtain ⟨e, he⟩ := exists_mismatch h .unit
    refine ⟨.error e, fun b r hb hr => ?_⟩
    simp only [readNull, dropBlank_value hb hblank, if_neg hn, he r hr, Except.map]

-- ======================================================== shift sources

theorem exists_sourceName (h : StringText t) :
    ∃ x : Except Error ShiftSource, ∀ r, readSourceName (t ++ '"' :: r) = x.map (·, r) := by
  obtain ⟨x, hx⟩ := Str.read_of_stringText h
  cases x with
  | error flaw => exact ⟨.error (.malformed flaw), fun r => by simp only [readSourceName, hx]; rfl⟩
  | ok cs =>
    cases hname : ShiftSource.ofName? cs with
    | none =>
      refine ⟨.error (.unknownSource cs), fun r => ?_⟩
      simp only [readSourceName, hx, lift, Except.map, bind, Except.bind, hname]
      rfl
    | some v =>
      refine ⟨.ok v, fun r => ?_⟩
      simp only [readSourceName, hx, lift, Except.map, bind, Except.bind, hname]
      rfl

/-- A member is a key, a colon and a value, with blanks around them. -/
theorem parts_of_member {m : List Char} (h : Text .member m) :
    ∃ b₁ t b₂ b₃ v b₄, Blank b₁ ∧ StringText t ∧ Blank b₂ ∧ Blank b₃ ∧ Text .value v ∧ Blank b₄ ∧
      m = b₁ ++ '"' :: t ++ '"' :: b₂ ++ ':' :: (b₃ ++ v ++ b₄) := by
  cases h with
  | @member b₁ t b₂ e hb₁ ht hb₂ he =>
    cases he with
    | @element b₃ v b₄ hb₃ hv hb₄ =>
      exact ⟨b₁, t, b₂, b₃, v, b₄, hb₁, ht, hb₂, hb₃, hv, hb₄, rfl⟩

/-- The first member of an object is judged by itself; what follows only has
to be the end of the object. -/
theorem exists_member {m : List Char} (h : Text .member m) :
    ∃ x : Except Error ShiftSource, ∀ b r, Blank b → Ends r →
      readSource (b ++ '{' :: (m ++ r)) = x.bind fun v => (closeSingle r).map (v, ·) := by
  obtain ⟨b₁, t, b₂, b₃, v, b₄, hb₁, ht, hb₂, hb₃, hv, hb₄, rfl⟩ := parts_of_member h
  obtain ⟨x, hx⟩ := exists_sourceName ht
  obtain ⟨y, hy⟩ := exists_null hv
  refine ⟨x.bind fun source => y.map fun _ => source, fun b r hb hr => ?_⟩
  have hs : b₁ ++ '"' :: t ++ '"' :: b₂ ++ ':' :: (b₃ ++ v ++ b₄) ++ r
      = b₁ ++ '"' :: (t ++ '"' :: (b₂ ++ ':' :: (b₃ ++ v ++ (b₄ ++ r)))) := by simp
  have hkey (q : List Char) : firstKey (b₁ ++ '"' :: q) = .ok (true, q) :=
    firstKey_eq_ok_true_iff.2 ⟨b₁, hb₁, rfl⟩
  have hcolon (q : List Char) : colon (b₂ ++ ':' :: q) = .ok q :=
    colon_eq_ok_iff.2 ⟨b₂, hb₂, rfl⟩
  have hclose : closeSingle (b₄ ++ r) = closeSingle r := by
    rw [closeSingle, dropBlank_append hb₄]
    rfl
  have hnull := hy b₃ (b₄ ++ r) hb₃ (ends_append hb₄ hr)
  rw [hs]
  simp only [readSource, dropBlank_append hb, dropBlank_cons (c := '{') rfl, hkey, hx,
    show ('{' = '"') = False by simp, if_true, if_false]
  cases x with
  | error e => rfl
  | ok source =>
    simp only [Except.map, bind, Except.bind, hcolon, lift, hnull]
    cases y with
    | error e => rfl
    | ok _ =>
      simp only [hclose]
      cases closeSingle r <;> rfl

/-- Reading a register source comes out the same wherever the value stands. -/
theorem exists_source (h : Text .value w) : ∃ x, Judges readSource w x := by
  obtain ⟨c, t, rfl, hblank, -⟩ := head_of_value h
  obtain ⟨hstring, -, -, -, -, hobject⟩ := value_of_head h
  by_cases hquote : c = '"'
  · obtain ⟨t', ht', rfl⟩ := hstring hquote
    obtain ⟨x, hx⟩ := exists_sourceName ht'
    refine ⟨x, fun b r hb _ => ?_⟩
    rw [readSource, dropBlank_value hb hblank]
    simp only [if_pos hquote, List.append_assoc, List.singleton_append, hx]
  by_cases hbracket : c = '{'
  · subst hbracket
    rcases hobject rfl with ⟨b', hb', rfl⟩ | ⟨ms, hms, rfl⟩
    · -- no entry at all
      refine ⟨.error (.malformed .noValue), fun b r hb _ => ?_⟩
      have hkey : firstKey (b' ++ '}' :: r) = .ok (false, r) :=
        firstKey_eq_ok_false_iff.2 ⟨b', hb', rfl⟩
      rw [readSource, dropBlank_value hb hblank]
      simp only [if_neg hquote, if_true, List.append_assoc, List.singleton_append, hkey, Except.map]
    · cases hms with
      | lastMember hm =>
        obtain ⟨x, hx⟩ := exists_member hm
        refine ⟨x, fun b r hb hr => ?_⟩
        have hclose : closeSingle ('}' :: r) = .ok r :=
          closeSingle_eq_ok_iff.2 ⟨[], blank_nil, rfl⟩
        have hread := hx b ('}' :: r) hb (ends_cons (by simp) r)
        rw [hclose] at hread
        simp only [List.append_assoc, List.cons_append, List.nil_append]
        rw [hread]
        rfl
      | @moreMembers m ms hm _ =>
        -- a second entry, where the object should end
        obtain ⟨x, hx⟩ := exists_member hm
        refine ⟨x.bind fun _ => .error (.malformed .noValue), fun b r hb hr => ?_⟩
        have hread := hx b (',' :: (ms ++ '}' :: r)) hb (ends_cons (by simp) _)
        simp only [List.append_assoc, List.cons_append, List.nil_append]
        rw [hread]
        cases x <;> rfl
  · refine ⟨.error (.malformed .noValue), fun b r hb _ => ?_⟩
    simp only [readSource, dropBlank_value hb hblank, if_neg hquote, if_neg hbracket, Except.map]

-- ================================================================ fields

/-- A value gets one verdict as the value of a field, wherever it stands. -/
theorem exists_verdict (h : Text .value w) (f : Field) (c : Config) :
    ∃ x, Judges (readField f c) w x := by
  cases f with
  | shiftSource =>
    obtain ⟨x, hx⟩ := exists_source h
    exact ⟨_, hx.map fun v => ({ c with shiftSource := v } : Config)⟩
  | advancesIndex =>
    obtain ⟨x, hx⟩ := exists_bool h
    exact ⟨_, hx.map fun v => ({ c with advancesIndex := v } : Config)⟩
  | flagsIndexOverflow =>
    obtain ⟨x, hx⟩ := exists_bool h
    exact ⟨_, hx.map fun v => ({ c with flagsIndexOverflow := v } : Config)⟩
  | timerInterval =>
    obtain ⟨x, hx⟩ := exists_long h
    exact ⟨_, hx.map fun v => ({ c with timerInterval := v } : Config)⟩
  | timerStep =>
    obtain ⟨x, hx⟩ := exists_byte h
    exact ⟨_, hx.map fun v => ({ c with timerStep := v } : Config)⟩
  | seed =>
    obtain ⟨x, hx⟩ := exists_optionalLong h
    exact ⟨_, hx.map fun v => ({ c with seed := v } : Config)⟩

end Chip8.Config
