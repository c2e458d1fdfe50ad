/-
An array is read exactly if its elements are values for the first fields,
in their order.

The order tells the fields, so none is set twice and there is nothing to
pass over. The reader goes through fields and elements at once; that it
finds the next element both at the front and behind a comma is
`nextElement_of_head`, and the two directions of the whole are
`readElements_of_elements` and `elements_of_readElements`.
-/
import Chip8.Proofs.Config.Fields

namespace Chip8.Config

open Json
open Json.Grammar

variable {c c' : Config} {s r : List Char} {xs : List Setting}

/-- Where no element comes any more there is the bracket that closes the
array. -/
theorem nextElement_eq_ok_false {isFirst : Bool} (h : nextElement isFirst s = .ok (false, r)) :
    ∃ b, Blank b ∧ s = b ++ ']' :: r := by
  unfold nextElement at h
  split at h
  · cases h
  · next d q hs =>
    obtain ⟨b, hb, rfl⟩ := exists_blank_of_cons hs
    split at h
    · next hd =>
      cases h
      exact ⟨b, hb, by rw [hd]⟩
    · split at h
      · cases h
      · split at h
        · split at h
          · cases h
          · split at h <;> cases h
        · cases h

/-- The first element has nothing but blanks before it. -/
theorem nextElement_first (h : nextElement true s = .ok (true, r)) :
    ∃ b, Blank b ∧ s = b ++ r := by
  unfold nextElement at h
  split at h
  · cases h
  · next d q hs =>
    obtain ⟨b, hb, rfl⟩ := exists_blank_of_cons hs
    split at h
    · cases h
    · rw [if_pos rfl] at h
      cases h
      exact ⟨b, hb, rfl⟩

theorem nextElement_later (h : nextElement false s = .ok (true, r)) :
    ∃ b b', Blank b ∧ Blank b' ∧ s = b ++ ',' :: b' ++ r := by
  unfold nextElement at h
  split at h
  · cases h
  · next d q hs =>
    obtain ⟨b, hb, rfl⟩ := exists_blank_of_cons hs
    split at h
    · cases h
    · rw [if_neg (by decide)] at h
      split at h
      · next hd =>
        split at h
        · cases h
        · next d' q' hs' =>
          obtain ⟨b', hb', rfl⟩ := exists_blank_of_cons hs'
          split at h
          · cases h
          · cases h
            exact ⟨b, b', hb, hb', by simp [hd]⟩
      · cases h

/-- An array is closed by its bracket, with nothing but blanks before that. -/
theorem closeArray_eq_ok_iff :
    closeArray s = .ok r ↔ ∃ b, Blank b ∧ s = b ++ ']' :: r := by
  constructor
  · intro h
    unfold closeArray at h
    split at h
    · cases h
    · next d q hs =>
      obtain ⟨b, hb, rfl⟩ := exists_blank_of_cons hs
      split at h
      · next hd =>
        cases h
        exact ⟨b, hb, by rw [hd]⟩
      · split at h
        · split at h <;> cases h
        · cases h
  · rintro ⟨b, hb, rfl⟩
    simp [closeArray, dropBlank_append hb, dropBlank_cons (c := ']') rfl]

/-- Where the array closes, the fields that are left keep the values they
have. -/
theorem readElements_end {b : List Char} (hb : Blank b) (isFirst : Bool) (c : Config)
    (fields : List Field) : readElements isFirst c fields (b ++ ']' :: r) = .ok (c, r) := by
  cases fields with
  | nil => simp [readElements, closeArray_eq_ok_iff.2 ⟨b, hb, rfl⟩, lift, Except.map]
  | cons f fields =>
    simp [readElements, nextElement, dropBlank_append hb, dropBlank_cons (c := ']') rfl]

/-- A written value starts neither with a blank nor with the end of an
array. -/
theorem head_of_written {x : Setting} {w : List Char} (h : x.Written w) :
    ∃ d t, w = d :: t ∧ isBlank d = false ∧ d ≠ ']' := by
  have hdigits (n : Nat) :
      ∃ d t, Nat.toDigits 10 n = d :: t ∧ isBlank d = false ∧ d ≠ ']' := by
    obtain ⟨d, t, ht, hd⟩ := head_toDigits_isDigit n
    obtain ⟨hblank, hmem⟩ := not_blank_of_isDigit hd
    exact ⟨d, t, ht, hblank, by rintro rfl; simp at hmem⟩
  cases x with
  | shiftSource v => cases h <;> exact ⟨_, _, rfl, by decide, by decide⟩
  | advancesIndex v => cases h <;> exact ⟨_, _, rfl, by decide, by decide⟩
  | flagsIndexOverflow v => cases h <;> exact ⟨_, _, rfl, by decide, by decide⟩
  | timerInterval v => exact h ▸ hdigits v.toNat
  | timerStep v => exact h ▸ hdigits v.toNat
  | seed v =>
    cases h with
    | none => exact ⟨_, _, rfl, by decide, by decide⟩
    | some n => exact hdigits n.toNat

/-- What elements begin with is neither a blank nor the bracket that would
close the array. -/
theorem head_of_configElements {es : List Char} (h : Elements xs es) :
    ∃ b d t, Blank b ∧ es = b ++ d :: t ∧ isBlank d = false ∧ d ≠ ']' := by
  cases h with
  | @last x b w b' hb hw _ =>
    obtain ⟨d, t, rfl, hd⟩ := head_of_written hw
    exact ⟨b, d, t ++ b', hb, by simp, hd⟩
  | @more x xs b w b' es hb hw _ _ =>
    obtain ⟨d, t, rfl, hd⟩ := head_of_written hw
    exact ⟨b, d, t ++ b' ++ ',' :: es, hb, by simp, hd⟩

/-- Both at the front of an array and behind a comma, the next element is
found behind the blanks. -/
theorem nextElement_of_head {b t : List Char} {d : Char} (hb : Blank b) (hblank : isBlank d = false)
    (hd : d ≠ ']') :
    nextElement true (b ++ d :: t) = .ok (true, dropBlank (b ++ d :: t)) ∧
      ∀ b', Blank b' →
        nextElement false (b' ++ ',' :: (b ++ d :: t)) = .ok (true, dropBlank (b ++ d :: t)) := by
  have hdrop : dropBlank (b ++ d :: t) = d :: t := by
    rw [dropBlank_append hb, dropBlank_cons hblank]
  constructor
  · simp only [nextElement, hdrop, if_neg hd, if_true]
  · intro b' hb'
    simp [nextElement, dropBlank_append hb', dropBlank_cons (c := ',') rfl, hdrop, hd]

/-- Elements are found at the start of an array as well as behind a comma. -/
theorem nextElement_of_elements {es : List Char} (h : Elements xs es) (q : List Char) :
    nextElement true (es ++ q) = .ok (true, dropBlank (es ++ q)) ∧
      ∀ b, Blank b →
        nextElement false (b ++ ',' :: (es ++ q)) = .ok (true, dropBlank (es ++ q)) := by
  obtain ⟨b, d, t, hb, rfl, hblank, hd⟩ := head_of_configElements h
  rw [List.append_assoc]
  exact nextElement_of_head hb hblank hd

/-- An element sets the field whose turn it is, and the fields behind that
wait for what comes next. -/
theorem readElements_step {x : Setting} {b w q : List Char} {isFirst : Bool} (hb : Blank b)
    (hw : x.Written w) (hq : Ends q)
    (hs : nextElement isFirst s = .ok (true, dropBlank (b ++ w ++ q))) (c : Config)
    (fields : List Field) :
    readElements isFirst c (x.field :: fields) s = readElements false (c.put x) fields q := by
  have hdrop : dropBlank (b ++ w ++ q) = [] ++ w ++ q := by
    obtain ⟨d, t, rfl, hblank, -⟩ := head_of_written hw
    rw [List.append_assoc, dropBlank_append hb, List.cons_append, dropBlank_cons hblank]
    rfl
  rw [hdrop] at hs
  simp only [readElements, hs, readField_of_written c blank_nil hw hq]

/-- The values of an array are read for the fields in turn. -/
theorem readElements_of_elements {es : List Char} (h : Elements xs es) (r : List Char) :
    ∀ isFirst c fields s, xs.map Setting.field <+: fields →
      nextElement isFirst s = .ok (true, dropBlank (es ++ ']' :: r)) →
      readElements isFirst c fields s = .ok (xs.foldl put c, r) := by
  induction h with
  | @last x b w b' hb hw hb' =>
    intro isFirst c fields s hfields hs
    obtain ⟨rest, rfl⟩ := hfields
    rw [List.append_assoc (b ++ w)] at hs
    calc readElements isFirst c (x.field :: rest) s
        = readElements false (c.put x) rest (b' ++ ']' :: r) :=
          readElements_step hb hw (ends_append hb' (ends_cons (by simp) r)) hs c rest
      _ = .ok (c.put x, r) := readElements_end hb' false _ _
  | @more x xs b w b' es hb hw hb' hes ih =>
    intro isFirst c fields s hfields hs
    obtain ⟨rest, rfl⟩ := hfields
    have hassoc : b ++ w ++ b' ++ ',' :: es ++ ']' :: r
        = b ++ w ++ (b' ++ ',' :: (es ++ ']' :: r)) := by simp
    rw [hassoc] at hs
    calc readElements isFirst c (x.field :: (xs.map Setting.field ++ rest)) s
        = readElements false (c.put x) (xs.map Setting.field ++ rest)
            (b' ++ ',' :: (es ++ ']' :: r)) :=
          readElements_step hb hw (ends_append hb' (ends_cons (by simp) _)) hs c _
      _ = .ok (xs.foldl put (c.put x), r) :=
          ih false _ _ _ (List.prefix_append _ _) ((nextElement_of_elements hes _).2 b' hb')

/-- Blanks may stand before elements. -/
theorem Elements.blank_append {b es : List Char} (hb : Blank b) (h : Elements xs es) :
    Elements xs (b ++ es) := by
  cases h with
  | last hb₁ hw hb' => simpa using Elements.last (blank_append.2 ⟨hb, hb₁⟩) hw hb'
  | more hb₁ hw hb' hes => simpa using Elements.more (blank_append.2 ⟨hb, hb₁⟩) hw hb' hes

/-- What stands for one field and then closes the array is an element for
it. -/
theorem elements_of_last {f : Field} {q b' : List Char} (hfield : readField f c s = .ok (c', q))
    (hb' : Blank b') (hq : q = b' ++ ']' :: r) (fields : List Field) :
    ∃ xs es, Elements xs es ∧ xs.map Setting.field <+: f :: fields ∧ c' = xs.foldl put c ∧
      s = es ++ ']' :: r := by
  obtain ⟨x, b, w, rfl, rfl, hb, hw, rfl⟩ := readField_ok hfield
  exact ⟨[x], _, .last hb hw hb', by simp, rfl, by simp [hq]⟩

/-- What is read as an array are the values of the first fields. -/
theorem elements_of_readElements {f : Field} {fields : List Field} {q : List Char} {c₁ : Config}
    (hfield : readField f c s = .ok (c₁, q)) (h : readElements false c₁ fields q = .ok (c', r)) :
    ∃ xs es, Elements xs es ∧ xs.map Setting.field <+: f :: fields ∧ c' = xs.foldl put c ∧
      s = es ++ ']' :: r := by
  induction fields generalizing f s c c₁ q with
  | nil =>
    obtain ⟨q', hclose, h⟩ := map_eq_ok.1 h
    cases h
    obtain ⟨b', hb', hq⟩ := closeArray_eq_ok_iff.1 (lift_eq_ok.1 hclose)
    exact elements_of_last hfield hb' hq []
  | cons f' fields ih =>
    simp only [readElements] at h
    split at h
    · cases h
    · next hnext =>
      cases h
      obtain ⟨b', hb', hq⟩ := nextElement_eq_ok_false hnext
      exact elements_of_last hfield hb' hq (f' :: fields)
    · next q₁ hnext =>
      split at h
      · cases h
      · next c₂ q₂ hfield' =>
        obtain ⟨xs, es, hes, hfields, rfl, rfl⟩ := ih hfield' h
        obtain ⟨b', b'', hb', hb'', rfl⟩ := nextElement_later hnext
        obtain ⟨x, b, w, rfl, rfl, hb, hw, rfl⟩ := readField_ok hfield
        refine ⟨x :: xs, _, .more hb hw hb' (hes.blank_append hb''), ?_, rfl, by simp⟩
        exact (List.prefix_cons_inj x.field).2 hfields

/-- Where the first element is looked for, the array is either empty or has
elements for the fields in turn. -/
theorem elements_of_first {f : Field} {fields : List Field}
    (h : readElements true c (f :: fields) s = .ok (c', r)) :
    (∃ b, Blank b ∧ s = b ++ ']' :: r ∧ c' = c) ∨
      ∃ xs es, Elements xs es ∧ xs.map Setting.field <+: f :: fields ∧ c' = xs.foldl put c ∧
        s = es ++ ']' :: r := by
  simp only [readElements] at h
  split at h
  · cases h
  · next hnext =>
    cases h
    obtain ⟨b, hb, rfl⟩ := nextElement_eq_ok_false hnext
    exact .inl ⟨b, hb, rfl, rfl⟩
  · next hnext =>
    split at h
    · cases h
    · next hfield =>
      obtain ⟨b, hb, rfl⟩ := nextElement_first hnext
      obtain ⟨xs, es, hes, hfields, hc, rfl⟩ := elements_of_readElements hfield h
      exact .inr ⟨xs, b ++ es, hes.blank_append hb, hfields, hc, by simp⟩

/-- An array is read by putting the values that it gives in their
fields. -/
theorem readArray_of_arrayText {w : List Char} (h : ArrayText xs w) :
    ∃ t, w = '[' :: t ∧ ∀ r, readArray (t ++ r) = .ok (xs.foldl put {}, r) := by
  cases h with
  | @empty b hb =>
    refine ⟨b ++ [']'], rfl, fun r => ?_⟩
    rw [List.append_assoc]
    exact readElements_end hb true {} Field.all
  | @elements _ es hfields hes =>
    refine ⟨es ++ [']'], rfl, fun r => ?_⟩
    rw [List.append_assoc]
    exact readElements_of_elements hes r true {} Field.all _ hfields
      (nextElement_of_elements hes _).1

/-- What is read as an array is the text of one, and its elements set the
fields in their order. -/
theorem arrayText_of_readArray (h : readArray s = .ok (c, r)) :
    ∃ xs t, ArrayText xs ('[' :: t) ∧ s = t ++ r ∧ c = xs.foldl put {} := by
  rcases elements_of_first h with ⟨b, hb, rfl, rfl⟩ | ⟨xs, es, hes, hfields, rfl, rfl⟩
  · exact ⟨[], b ++ [']'], .empty hb, by simp, rfl⟩
  · exact ⟨xs, es ++ [']'], .elements hfields hes, by simp, rfl⟩

end Chip8.Config
