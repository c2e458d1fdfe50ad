/-
A value is passed over exactly if it is one, to its end.

# From the grammar to the skipper

What a value comes to is that, once it is passed over, the frames around
it go on (`resume`); `Passes` says so for each part of the grammar, and
`passes_of_text` is an induction with one case for each rule.

# From the skipper to the grammar

A run of the skipper ends values from the inside out. `Closes` says what
is left of the text for a stack of frames: the rest of the innermost
array or object, its bracket, and then the rest of the next. `Awaits`
puts the value in front of it that is still to be read; together they
make up the elements or the members of the innermost array or object
(`elements_of_awaits`, `members_of_awaits`).
-/
import Chip8.Proofs.Json.Numbers
import Chip8.Proofs.Json.Strings

namespace Chip8.Json

open Grammar

/-- A colon is read where one is written, behind blanks, and nowhere else. -/
theorem colon_eq_ok_iff {s r : List Char} :
    colon s = .ok r ↔ ∃ b, Blank b ∧ s = b ++ ':' :: r := by
  constructor
  · intro h
    unfold colon at h
    split at h
    · cases h
    · next c q hs =>
      obtain ⟨b, hb, rfl⟩ := exists_blank_of_cons hs
      split at h
      · next hc =>
        cases h
        exact ⟨b, hb, by rw [hc]⟩
      · cases h
  · rintro ⟨b, hb, rfl⟩
    simp [colon, dropBlank_append hb, dropBlank_cons (c := ':') rfl]

/-- A value may end in front of a blank, a comma or a closing bracket. -/
theorem ends_cons {c : Char} (hc : c ∈ [' ', '\n', '\t', '\r', ',', ']', '}']) (s : List Char) :
    Ends (c :: s) := by
  rintro d ⟨⟩
  simp only [List.mem_cons, List.not_mem_nil, or_false] at hc
  rcases hc with rfl | rfl | rfl | rfl | rfl | rfl | rfl <;> decide

theorem ends_append {b s : List Char} (hb : Blank b) (hs : Ends s) : Ends (b ++ s) := by
  cases b with
  | nil => exact hs
  | cons c b =>
    refine ends_cons ?_ _
    have hc := hb c List.mem_cons_self
    simp only [List.mem_cons, List.not_mem_nil, or_false] at hc ⊢
    tauto

-- ======================================================= first characters

/-- A digit is neither a blank nor anything that the grammar sets marks
with. -/
theorem not_blank_of_isDigit {c : Char} (h : c.isDigit = true) :
    isBlank c = false ∧ c ∉ ['"', '[', ']', '{', '}', ',', ':', 'n'] := by
  constructor
  · rw [Bool.eq_false_iff, ne_eq, isBlank_iff]
    intro hc
    simp only [List.mem_cons, List.not_mem_nil, or_false] at hc
    rcases hc with rfl | rfl | rfl | rfl <;> cases h
  · intro hc
    simp only [List.mem_cons, List.not_mem_nil, or_false] at hc
    rcases hc with rfl | rfl | rfl | rfl | rfl | rfl | rfl | rfl <;> cases h

/-- A number starts with a sign or a digit. -/
theorem startsNumber_of_numberText {w : List Char} (h : NumberText w) :
    ∃ c t, w = c :: t ∧ startsNumber c = true := by
  obtain @⟨sign, whole, f, e, hsign, hwhole, -, -⟩ := h
  simp only [List.mem_cons, List.not_mem_nil, or_false] at hsign
  rcases hsign with rfl | rfl
  · obtain ⟨c, ds, rfl⟩ := List.exists_cons_of_ne_nil hwhole.1.1
    exact ⟨c, _, rfl, by simp [startsNumber, hwhole.1.2 c List.mem_cons_self]⟩
  · exact ⟨'-', _, rfl, rfl⟩

theorem not_blank_of_startsNumber {c : Char} (h : startsNumber c = true) :
    isBlank c = false ∧ c ∉ ['"', '[', ']', '{', '}', ',', ':', 'n'] := by
  simp only [startsNumber, Bool.or_eq_true, beq_iff_eq] at h
  rcases h with rfl | h
  · decide
  · exact not_blank_of_isDigit h

/-- A value starts neither with a blank nor with the end of an array. -/
theorem head_of_value {w : List Char} (h : Text .value w) :
    ∃ c t, w = c :: t ∧ isBlank c = false ∧ c ≠ ']' := by
  cases h with
  | number h =>
    obtain ⟨c, t, rfl, hc⟩ := startsNumber_of_numberText h
    obtain ⟨hblank, hc⟩ := not_blank_of_startsNumber hc
    exact ⟨c, t, rfl, hblank, by rintro rfl; simp at hc⟩
  | _ => exact ⟨_, _, rfl, by decide, by decide⟩

/-- Elements begin with a value, behind blanks. -/
theorem head_of_elements {es : List Char} (h : Text .elements es) :
    ∃ b c t, Blank b ∧ es = b ++ c :: t ∧ isBlank c = false ∧ c ≠ ']' := by
  have helement {e : List Char} (h : Text .element e) (q : List Char) :
      ∃ b c t, Blank b ∧ e ++ q = b ++ c :: t ∧ isBlank c = false ∧ c ≠ ']' := by
    cases h with
    | @element b w b' hb hw _ =>
      obtain ⟨c, t, rfl, hc⟩ := head_of_value hw
      exact ⟨b, c, t ++ b' ++ q, hb, by simp, hc⟩
  cases h with
  | lastElement he => simpa using helement he []
  | moreElements he _ => exact helement he _

/-- Members begin with a key, behind blanks. -/
theorem head_of_members {ms : List Char} (h : Text .members ms) :
    ∃ b t, Blank b ∧ ms = b ++ '"' :: t := by
  have hmember {m : List Char} (h : Text .member m) (q : List Char) :
      ∃ b t, Blank b ∧ m ++ q = b ++ '"' :: t := by
    cases h with
    | @member b t b' e hb _ _ _ =>
      exact ⟨b, t ++ '"' :: b' ++ ':' :: e ++ q, hb, by simp⟩
  cases h with
  | lastMember hm => simpa using hmember hm []
  | moreMembers hm _ => exact hmember hm _

namespace Skip

-- =========================================================== the strides

/-- A key is skipped where a string and a colon stand, with blanks around
the string, and nowhere else. -/
theorem key_eq_ok_iff {s r : List Char} :
    key s = .ok r ↔ ∃ b t b', Blank b ∧ StringText t ∧ Blank b' ∧
      s = b ++ '"' :: t ++ '"' :: b' ++ ':' :: r := by
  constructor
  · intro h
    unfold key at h
    split at h
    · cases h
    · next c q hs =>
      obtain ⟨b, hb, rfl⟩ := exists_blank_of_cons hs
      split at h
      · next hc =>
        obtain ⟨q', hskip, hcolon⟩ := bind_eq_ok.1 h
        obtain ⟨t, ht, rfl⟩ := Str.skip_eq_ok_iff.1 hskip
        obtain ⟨b', hb', rfl⟩ := colon_eq_ok_iff.1 hcolon
        exact ⟨b, t, b', hb, ht, hb', by simp [hc]⟩
      · cases h
  · rintro ⟨b, t, b', hb, ht, hb', rfl⟩
    have hskip := Str.skip_of_stringText ht (b' ++ ':' :: r)
    have hcolon : colon (b' ++ ':' :: r) = .ok r := colon_eq_ok_iff.2 ⟨b', hb', rfl⟩
    simp [key, dropBlank_append hb, dropBlank_cons (c := '"') rfl, hskip, hcolon, Except.bind]

/-- Go on from where a value must start, or be done if there is none. -/
def goOn : List Frame × List Char → Except Flaw (List Char)
  | ([], r) => .ok r
  | (f :: frames, r) => run (f :: frames) r

/-- A value is skipped by one stride into it and those that follow. -/
theorem run_eq (frames : List Frame) (s : List Char) :
    run frames s = (enter frames s).bind goOn := by
  rw [run]
  split
  · next h => rw [h]; rfl
  · next h => rw [h]; rfl
  · next h => rw [h]; rfl

/-- Go on behind a value. -/
def resume (frames : List Frame) (s : List Char) : Except Flaw (List Char) :=
  (leave frames s).bind goOn

variable {frames : List Frame}

theorem resume_nil (s : List Char) : resume [] s = .ok s := rfl

/-- Blanks behind a value are skipped while a frame is open. -/
theorem resume_blank {b : List Char} (hb : Blank b) (f : Frame) (s : List Char) :
    resume (f :: frames) (b ++ s) = resume (f :: frames) s := by
  cases f <;> simp only [resume, leave, dropBlank_append hb]

/-- A comma in an array is followed by another element. -/
theorem resume_comma_array (s : List Char) :
    resume (.array :: frames) (',' :: s) = run (.array :: frames) s := by
  simp [resume, leave, dropBlank_cons (c := ',') rfl, Except.bind, goOn]

/-- A bracket closes an array, and the frame around it goes on. -/
theorem resume_end_array (s : List Char) :
    resume (.array :: frames) (']' :: s) = resume frames s := by
  simp [resume, leave, dropBlank_cons (c := ']') rfl]

/-- A comma in an object is followed by another key and its value. -/
theorem resume_comma_object (s : List Char) :
    resume (.object :: frames) (',' :: s) = (key s).bind (run (.object :: frames)) := by
  simp only [resume, leave, dropBlank_cons (c := ',') rfl, if_true]
  cases key s <;> rfl

/-- A brace closes an object, and the frame around it goes on. -/
theorem resume_end_object (s : List Char) :
    resume (.object :: frames) ('}' :: s) = resume frames s := by
  simp [resume, leave, dropBlank_cons (c := '}') rfl]

theorem run_blank {b : List Char} (hb : Blank b) (s : List Char) :
    run frames (b ++ s) = run frames s := by
  simp only [run_eq, enter, dropBlank_append hb]

/-- A scalar is skipped in one stride. -/
theorem run_scalar {c : Char} {s r : List Char} (hblank : isBlank c = false) (harray : c ≠ '[')
    (hobject : c ≠ '{') (h : scalar c s = .ok r) : run frames (c :: s) = resume frames r := by
  simp [run_eq, enter, dropBlank_cons hblank, harray, hobject, h, Except.bind, resume]

-- ================================================ the grammar is skipped

/-- What the parts of a text come to when they are passed over. -/
def Passes : Part → List Char → Prop
  | .value, w => ∀ frames r, Ends r → run frames (w ++ r) = resume frames r
  | .element, w => ∀ f frames r, Ends r → run (f :: frames) (w ++ r) = resume (f :: frames) r
  | .elements, w => ∀ frames r, run (.array :: frames) (w ++ ']' :: r) = resume frames r
  | .member, w => ∀ frames r, Ends r →
      (key (w ++ r)).bind (run (.object :: frames)) = resume (.object :: frames) r
  | .members, w => ∀ frames r,
      (key (w ++ '}' :: r)).bind (run (.object :: frames)) = resume frames r

/-- A number is skipped to its end. -/
theorem passes_number {w : List Char} (h : NumberText w) : Passes .value w := by
  intro frames r hr
  obtain ⟨n, hn⟩ := Number.scan_of_numberText .badNumber h
  have hn := hn r hr
  obtain ⟨c, t, rfl, hc⟩ := startsNumber_of_numberText h
  obtain ⟨hblank, hmem⟩ := not_blank_of_startsNumber hc
  simp only [List.mem_cons, List.not_mem_nil, or_false, not_or] at hmem
  obtain ⟨hquote, harray, -, hobject, -⟩ := hmem
  rw [List.cons_append] at hn ⊢
  exact run_scalar hblank harray hobject (by simp [scalar, hquote, hc, hn, Except.map])

/-- An array is skipped to its bracket if its elements are. -/
theorem passes_array {es : List Char} (hes : Text .elements es) (h : Passes .elements es) :
    Passes .value ('[' :: es ++ [']']) := by
  intro frames r _
  obtain ⟨b, c, t, hb, rfl, hblank, hc⟩ := head_of_elements hes
  have hdrop : dropBlank (b ++ c :: t ++ ']' :: r) = c :: (t ++ ']' :: r) := by
    rw [List.append_assoc, dropBlank_append hb, List.cons_append, dropBlank_cons hblank]
  calc run frames ('[' :: (b ++ c :: t) ++ [']'] ++ r)
      = run (.array :: frames) (b ++ c :: t ++ ']' :: r) := by
        rw [run_eq]
        simp only [List.append_assoc, List.cons_append, List.nil_append] at hdrop ⊢
        simp [enter, dropBlank_cons (c := '[') rfl, hdrop, hc, Except.bind, goOn]
    _ = resume frames r := h frames r

/-- An object is skipped to its brace if its members are. -/
theorem passes_object {ms : List Char} (hms : Text .members ms) (h : Passes .members ms) :
    Passes .value ('{' :: ms ++ ['}']) := by
  intro frames r _
  obtain ⟨b, t, hb, rfl⟩ := head_of_members hms
  have hdrop : dropBlank (b ++ '"' :: t ++ '}' :: r) = '"' :: (t ++ '}' :: r) := by
    rw [List.append_assoc, dropBlank_append hb, List.cons_append, dropBlank_cons rfl]
  calc run frames ('{' :: (b ++ '"' :: t) ++ ['}'] ++ r)
      = (key (b ++ '"' :: t ++ '}' :: r)).bind (run (.object :: frames)) := by
        rw [run_eq]
        simp only [List.append_assoc, List.cons_append, List.nil_append] at hdrop ⊢
        simp only [enter, dropBlank_cons (c := '{') rfl, hdrop]
        cases hk : key (b ++ '"' :: (t ++ '}' :: r)) <;> simp [Except.map, Except.bind, goOn]
    _ = resume frames r := h frames r

/-- Every part of a text is skipped to its end: by induction on the
grammar, with what is open around the part left open. -/
theorem passes_of_text {p : Part} {w : List Char} (h : Text p w) : Passes p w := by
  induction h with
  | null =>
    exact fun frames r _ => run_scalar rfl (by decide) (by decide) (literal_eq_ok_iff.2 rfl)
  | true =>
    exact fun frames r _ => run_scalar rfl (by decide) (by decide) (literal_eq_ok_iff.2 rfl)
  | false =>
    exact fun frames r _ => run_scalar rfl (by decide) (by decide) (literal_eq_ok_iff.2 rfl)
  | number h => exact passes_number h
  | @string t h =>
    intro frames r _
    have hskip := Str.skip_of_stringText h r
    have hs : '"' :: t ++ ['"'] ++ r = '"' :: (t ++ '"' :: r) := by simp
    rw [hs]
    exact run_scalar rfl (by decide) (by decide) hskip
  | @emptyArray b hb =>
    intro frames r _
    simp [run_eq, enter, dropBlank_cons (c := '[') rfl, dropBlank_append hb,
      dropBlank_cons (c := ']') rfl, resume]
  | array hes ih => exact passes_array hes ih
  | @emptyObject b hb =>
    intro frames r _
    simp [run_eq, enter, dropBlank_cons (c := '{') rfl, dropBlank_append hb,
      dropBlank_cons (c := '}') rfl, resume]
  | object hms ih => exact passes_object hms ih
  | @element b w b' hb _ hb' ih =>
    intro f frames r hr
    rw [List.append_assoc, List.append_assoc, run_blank hb, ih _ _ (ends_append hb' hr),
      resume_blank hb']
  | lastElement _ ih =>
    intro frames r
    rw [ih _ _ _ (ends_cons (by simp) _), resume_end_array]
  | @moreElements e es _ _ ih ih' =>
    intro frames r
    rw [List.append_assoc, List.cons_append, ih _ _ _ (ends_cons (by simp) _),
      resume_comma_array, ih']
  | @member b t b' e hb ht hb' _ ih =>
    intro frames r hr
    have hkey : key (b ++ '"' :: t ++ '"' :: b' ++ ':' :: e ++ r) = .ok (e ++ r) :=
      key_eq_ok_iff.2 ⟨b, t, b', hb, ht, hb', by simp⟩
    rw [hkey]
    exact ih _ _ _ hr
  | lastMember _ ih =>
    intro frames r
    rw [ih _ _ (ends_cons (by simp) _), resume_end_object]
  | @moreMembers m ms _ _ ih ih' =>
    intro frames r
    rw [List.append_assoc, List.cons_append, ih _ _ (ends_cons (by simp) _),
      resume_comma_object, ih']

-- ============================================ what is skipped is grammar

/-- What is left of a text for the frames that are open, behind a value
in the innermost. -/
inductive Closes : List Frame → List Char → Prop where
  | done : Closes [] []
  | endArray {b t : List Char} {frames : List Frame} :
      Blank b → Closes frames t → Closes (.array :: frames) (b ++ ']' :: t)
  | moreElements {b es t : List Char} {frames : List Frame} :
      Blank b → Text .elements es → Closes frames t →
      Closes (.array :: frames) (b ++ ',' :: es ++ ']' :: t)
  | endObject {b t : List Char} {frames : List Frame} :
      Blank b → Closes frames t → Closes (.object :: frames) (b ++ '}' :: t)
  | moreMembers {b ms t : List Char} {frames : List Frame} :
      Blank b → Text .members ms → Closes frames t →
      Closes (.object :: frames) (b ++ ',' :: ms ++ '}' :: t)

/-- What a stride leaves to be read in front of `r`: a value and the rest
of the frames, if there are any. -/
inductive Awaits (r : List Char) : List Frame → List Char → Prop where
  | done : Awaits r [] r
  | value {b w t : List Char} {f : Frame} {frames : List Frame} :
      Blank b → Text .value w → Closes (f :: frames) t → Awaits r (f :: frames) (b ++ w ++ t ++ r)

variable {frames' : List Frame} {s q r : List Char}

/-- Where an element is awaited in an array, elements stand and the array
is closed. -/
theorem elements_of_awaits (h : Awaits r (.array :: frames) s) :
    ∃ es t, Text .elements es ∧ Closes frames t ∧ s = es ++ ']' :: t ++ r := by
  obtain - | @⟨b, w, _, _, _, hb, hw, ht⟩ := h
  cases ht with
  | @endArray b' t _ hb' ht =>
    exact ⟨b ++ w ++ b', t, .lastElement (.element hb hw hb'), ht, by simp⟩
  | @moreElements b' es t _ hb' hes ht =>
    exact ⟨b ++ w ++ b' ++ ',' :: es, t, .moreElements (.element hb hw hb') hes, ht, by simp⟩

/-- Where a member is awaited in an object, members stand and the object is
closed. -/
theorem members_of_awaits (hkey : key s = .ok q) (h : Awaits r (.object :: frames) q) :
    ∃ ms t, Text .members ms ∧ Closes frames t ∧ s = ms ++ '}' :: t ++ r := by
  obtain ⟨b₁, k, b₂, hb₁, hk, hb₂, rfl⟩ := key_eq_ok_iff.1 hkey
  obtain - | @⟨b, w, _, _, _, hb, hw, ht⟩ := h
  cases ht with
  | @endObject b' t _ hb' ht =>
    exact ⟨b₁ ++ '"' :: k ++ '"' :: b₂ ++ ':' :: (b ++ w ++ b'), t,
      .lastMember (.member hb₁ hk hb₂ (.element hb hw hb')), ht, by simp⟩
  | @moreMembers b' ms t _ hb' hms ht =>
    exact ⟨b₁ ++ '"' :: k ++ '"' :: b₂ ++ ':' :: (b ++ w ++ b') ++ ',' :: ms, t,
      .moreMembers (.member hb₁ hk hb₂ (.element hb hw hb')) hms, ht, by simp⟩

/-- What a stride leaves behind a value closes the frames that it leaves
open, and those it has left. -/
theorem closes_of_leave (h : leave frames s = .ok (frames', q)) (hq : Awaits r frames' q) :
    ∃ t, Closes frames t ∧ s = t ++ r := by
  induction frames generalizing s with
  | nil =>
    cases h
    cases hq
    exact ⟨[], .done, rfl⟩
  | cons f frames ih =>
    cases f with
    | array =>
      simp only [leave] at h
      split at h
      · cases h
      · next c s' hs =>
        obtain ⟨b, hb, rfl⟩ := exists_blank_of_cons hs
        split at h
        · next hc =>
          cases h
          obtain ⟨es, t, hes, ht, rfl⟩ := elements_of_awaits hq
          exact ⟨b ++ ',' :: es ++ ']' :: t, .moreElements hb hes ht, by simp [hc]⟩
        · split at h
          · next hc =>
            obtain ⟨t, ht, rfl⟩ := ih h
            exact ⟨b ++ ']' :: t, .endArray hb ht, by simp [hc]⟩
          · cases h
    | object =>
      simp only [leave] at h
      split at h
      · cases h
      · next c s' hs =>
        obtain ⟨b, hb, rfl⟩ := exists_blank_of_cons hs
        split at h
        · next hc =>
          obtain ⟨q', hkey, h⟩ := map_eq_ok.1 h
          cases h
          obtain ⟨ms, t, hms, ht, rfl⟩ := members_of_awaits hkey hq
          exact ⟨b ++ ',' :: ms ++ '}' :: t, .moreMembers hb hms ht, by simp [hc]⟩
        · split at h
          · next hc =>
            obtain ⟨t, ht, rfl⟩ := ih h
            exact ⟨b ++ '}' :: t, .endObject hb ht, by simp [hc]⟩
          · cases h

/-- What is skipped as a scalar is a value. -/
theorem text_of_scalar {c : Char} (h : scalar c s = .ok r) :
    ∃ w, Text .value w ∧ c :: s = w ++ r := by
  unfold scalar at h
  split at h
  · next hc =>
    obtain ⟨t, ht, rfl⟩ := Str.skip_eq_ok_iff.1 h
    exact ⟨'"' :: t ++ ['"'], .string ht, by simp [hc]⟩
  · split at h
    · obtain ⟨⟨n, q⟩, hscan, rfl⟩ := map_eq_ok.1 h
      obtain ⟨w, hw, heq⟩ := Number.numberText_of_scan hscan
      exact ⟨w, .number hw, heq⟩
    · split at h
      · next hc => exact ⟨_, .null, by rw [hc, literal_eq_ok_iff.1 h]; rfl⟩
      · split at h
        · next hc => exact ⟨_, .true, by rw [hc, literal_eq_ok_iff.1 h]; rfl⟩
        · split at h
          · next hc => exact ⟨_, .false, by rw [hc, literal_eq_ok_iff.1 h]; rfl⟩
          · cases h

/-- What a stride goes into is a value, and what follows closes the frames. -/
theorem text_of_enter (h : enter frames s = .ok (frames', q)) (hq : Awaits r frames' q) :
    ∃ b w t, Blank b ∧ Text .value w ∧ Closes frames t ∧ s = b ++ w ++ t ++ r := by
  unfold enter at h
  split at h
  · cases h
  · next c s₁ hs =>
    obtain ⟨b, hb, rfl⟩ := exists_blank_of_cons hs
    split at h
    · next hc =>
      split at h
      · cases h
      · next d s₂ hs₁ =>
        split at h
        · next hd =>
          obtain ⟨b', hb', rfl⟩ := exists_blank_of_cons hs₁
          obtain ⟨t, ht, rfl⟩ := closes_of_leave h hq
          exact ⟨b, '[' :: b' ++ [']'], t, hb, .emptyArray hb', ht, by simp [hc, hd]⟩
        · cases h
          obtain ⟨es, t, hes, ht, rfl⟩ := elements_of_awaits hq
          exact ⟨b, '[' :: es ++ [']'], t, hb, .array hes, ht, by simp [hc]⟩
    · split at h
      · next hc =>
        split at h
        · cases h
        · next d s₂ hs₁ =>
          split at h
          · next hd =>
            obtain ⟨b', hb', rfl⟩ := exists_blank_of_cons hs₁
            obtain ⟨t, ht, rfl⟩ := closes_of_leave h hq
            exact ⟨b, '{' :: b' ++ ['}'], t, hb, .emptyObject hb', ht, by simp [hc, hd]⟩
          · obtain ⟨q', hkey, h⟩ := map_eq_ok.1 h
            cases h
            obtain ⟨ms, t, hms, ht, rfl⟩ := members_of_awaits hkey hq
            exact ⟨b, '{' :: ms ++ ['}'], t, hb, .object hms, ht, by simp [hc]⟩
      · obtain ⟨q', hscalar, hleave⟩ := bind_eq_ok.1 h
        obtain ⟨t, ht, rfl⟩ := closes_of_leave hleave hq
        obtain ⟨w, hw, heq⟩ := text_of_scalar hscalar
        exact ⟨b, w, t, hb, hw, ht, by simp [heq]⟩

/-- What is skipped is a value: by induction on the strides, with the text
that closes the open frames behind it. -/
theorem text_of_run (h : run frames s = .ok r) :
    ∃ b w t, Blank b ∧ Text .value w ∧ Closes frames t ∧ s = b ++ w ++ t ++ r := by
  fun_induction run frames s with
  | case1 => cases h
  | case2 frames s q henter =>
    cases h
    exact text_of_enter henter .done
  | case3 frames s f frames' q henter ih =>
    obtain ⟨b, w, t, hb, hw, ht, rfl⟩ := ih h
    exact text_of_enter henter (.value hb hw ht)

end Skip

-- ================================================================ values

/-- What is passed over is a value. -/
theorem text_of_skipValue {s r : List Char} (h : skipValue s = .ok r) :
    ∃ b w, Blank b ∧ Text .value w ∧ s = b ++ w ++ r := by
  obtain ⟨b, w, t, hb, hw, ht, rfl⟩ := Skip.text_of_run h
  cases ht
  exact ⟨b, w, hb, hw, by simp⟩

/-- A value is passed over to its end. -/
theorem skipValue_of_text {b w r : List Char} (hb : Blank b) (hw : Text .value w) (hr : Ends r) :
    skipValue (b ++ w ++ r) = .ok r := by
  have hpass : Skip.Passes .value w := Skip.passes_of_text hw
  rw [skipValue, List.append_assoc, Skip.run_blank hb, hpass [] r hr, Skip.resume_nil]

end Chip8.Json
