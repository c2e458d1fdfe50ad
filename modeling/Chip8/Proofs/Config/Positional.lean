/-
The two forms of a configuration agree.

A configuration may be written as an array of values for the first
fields, or as an object that has the same values under the names of these
fields. The readers of the two have little in common: one goes through
the fields and looks for the next element, the other looks for the next
key and finds out which field it names.

Both come to the same as reading the values one by one, each by itself,
and stopping at the first that is refused (`fill`). For a value gets one
verdict, whether a comma, the end of an array or the end of an object
stands behind it (`verdict_of_element`). So the two forms give the same
configuration if every value is one of its field's, and otherwise they
are refused for the same reason (`positional_agrees_with_named`).
-/
import Chip8.Proofs.Config.Documents
import Chip8.Proofs.Config.Verdicts

namespace Chip8.Config

open Json
open Json.Grammar

variable {c c' : Config} {f : Field} {fields given : List Field} {e s : List Char}
  {es : List (List Char)}

-- ============================================================== the forms

/-- Values with commas between them. -/
def commas (es : List (List Char)) : List Char := [','].intercalate es

/-- An array of values: those of the first fields. -/
def positional (es : List (List Char)) : String := String.ofList ('[' :: commas es ++ [']'])

/-- A value under the name of a field. -/
def underName (f : Field) (e : List Char) : List Char := '"' :: f.name.toList ++ '"' :: ':' :: e

/-- An object that has the values under the names of the first fields, in
the order of their declaration. -/
def named (es : List (List Char)) : String :=
  String.ofList ('{' :: commas (List.zipWith underName Field.all es) ++ ['}'])

/-- Read values for the fields in turn, each by itself. -/
def fill (c : Config) : List Field → List (List Char) → Except Error Config
  | f :: fields, e :: es => (readField f c e).bind fun p => fill p.1 fields es
  | _, _ => .ok c

theorem commas_singleton (e : List Char) : commas [e] = e := by simp [commas]

theorem commas_cons (e e' : List Char) (es : List (List Char)) :
    commas (e :: e' :: es) = e ++ ',' :: commas (e' :: es) := by
  simp [commas, List.intercalate]

theorem exists_commas (e : List Char) (es : List (List Char)) : ∃ q, commas (e :: es) = e ++ q := by
  cases es with
  | nil => exact ⟨[], by rw [commas_singleton, List.append_nil]⟩
  | cons e' es => exact ⟨_, commas_cons e e' es⟩

theorem fill_cons (c : Config) (f : Field) (fields : List Field) (e : List Char)
    (es : List (List Char)) :
    fill c (f :: fields) (e :: es) = (readField f c e).bind fun p => fill p.1 fields es := rfl

theorem fill_nil (c : Config) (fields : List Field) : fill c fields [] = .ok c := by
  cases fields <;> rfl

-- =============================================================== elements

/-- A value with the blanks around it gets the verdict that it gets by
itself, and only blanks of it are left. -/
theorem verdict_of_element (he : Text .element e) (f : Field) (c : Config) :
    ∃ (x : Except Error Config) (b : List Char), Blank b ∧ readField f c e = x.map (·, b) ∧
      ∀ r, Ends r →
      readField f c (e ++ r) = x.map (·, b ++ r)
        ∧ readField f c (dropBlank (e ++ r)) = x.map (·, b ++ r) := by
  cases he with
  | @element b w b' hb hw hb' =>
    obtain ⟨x, hx⟩ := exists_verdict hw f c
    have hnil : Ends [] := nofun
    refine ⟨x, b', hb', ?_, fun r hr => ⟨?_, ?_⟩⟩
    · have hend := ends_append hb' hnil
      rw [List.append_nil] at hend
      exact hx b b' hb hend
    · rw [List.append_assoc]
      exact hx b (b' ++ r) hb (ends_append hb' hr)
    · have hread := hx [] (b' ++ r) blank_nil (ends_append hb' hr)
      obtain ⟨d, t, rfl, hd, -⟩ := head_of_value hw
      rw [List.append_assoc, dropBlank_value hb hd]
      exact hread

/-- A text is the value of a setting, with blanks around it. -/
def Setting.Fills (x : Setting) (e : List Char) : Prop :=
  ∃ b w b', Blank b ∧ x.Written w ∧ Blank b' ∧ e = b ++ w ++ b'

/-- Values of settings are read as these settings. -/
theorem fill_of_fills {given : List Setting}
    (hfields : given.map Setting.field = fields.take es.length)
    (h : List.Forall₂ Setting.Fills given es) : fill c fields es = .ok (given.foldl put c) := by
  induction h generalizing c fields with
  | nil => exact fill_nil c fields
  | @cons x e given es hx _ ih =>
    obtain ⟨b, w, b', hb, hw, hb', rfl⟩ := hx
    obtain _ | ⟨f, fields⟩ := fields
    · cases hfields
    · obtain ⟨rfl, hrest⟩ := List.cons.inj hfields
      have hend : Ends (b' ++ []) := ends_append hb' nofun
      rw [List.append_nil] at hend
      rw [fill_cons, readField_of_written c hb hw hend]
      exact ih hrest

/-- Only values of settings are taken, and they are read as these
settings. -/
theorem fills_of_fill (hes : ∀ v ∈ es, Text .element v) (hlength : es.length ≤ fields.length)
    (h : fill c fields es = .ok c') :
    ∃ given, given.map Setting.field = fields.take es.length ∧
      List.Forall₂ Setting.Fills given es ∧ c' = given.foldl put c := by
  induction es generalizing c fields with
  | nil =>
    rw [fill_nil] at h
    cases h
    exact ⟨[], rfl, .nil, rfl⟩
  | cons e es ih =>
    obtain ⟨f, fields, rfl⟩ := List.exists_cons_of_length_pos (Nat.zero_lt_of_lt hlength)
    have he := hes e List.mem_cons_self
    have hlater : ∀ v ∈ es, Text .element v := fun v hv => hes v (List.mem_cons_of_mem e hv)
    obtain ⟨x, b, hb, hself, -⟩ := verdict_of_element he f c
    obtain ⟨⟨c₁, r⟩, hread, hrest⟩ := bind_eq_ok.1 h
    obtain rfl : b = r := by
      rw [hself] at hread
      obtain ⟨_, -, hpair⟩ := map_eq_ok.1 hread
      exact (Prod.mk.inj hpair).2
    obtain ⟨x, b', w, rfl, rfl, hb', hw, rfl⟩ := readField_ok hread
    obtain ⟨given, hfields, hfills, rfl⟩ := ih hlater (Nat.le_of_succ_le_succ hlength) hrest
    refine ⟨x :: given, ?_, .cons ⟨b', w, b, hb', hw, hb, rfl⟩ hfills, rfl⟩
    rw [List.map_cons, hfields, List.length_cons, List.take_succ_cons]

/-- The next value is found behind a comma, and at the front of an array. -/
theorem nextElement_of_values (he : Text .element e) (es : List (List Char)) (r : List Char) :
    nextElement true (commas (e :: es) ++ r) = .ok (true, dropBlank (commas (e :: es) ++ r))
      ∧ ∀ b, Blank b → nextElement false (b ++ ',' :: (commas (e :: es) ++ r))
        = .ok (true, dropBlank (commas (e :: es) ++ r)) := by
  obtain ⟨q, hq⟩ := exists_commas e es
  cases he with
  | @element b w b' hb hw hb' =>
    obtain ⟨d, t, rfl, hblank, hd⟩ := head_of_value hw
    have hs : commas ((b ++ d :: t ++ b') :: es) ++ r = b ++ d :: (t ++ b' ++ q ++ r) := by
      rw [hq]
      simp
    rw [hs]
    exact nextElement_of_head hb hblank hd

-- ============================================================== both forms

/-- An array is read by filling the fields. -/
theorem readElements_eq_fill (hes : ∀ v ∈ e :: es, Text .element v)
    (hlength : es.length ≤ fields.length) {isFirst : Bool} (r : List Char)
    (hs : nextElement isFirst s = .ok (true, dropBlank (commas (e :: es) ++ ']' :: r))) :
    readElements isFirst c (f :: fields) s
      = (fill c (f :: fields) (e :: es)).map (·, r) := by
  induction es generalizing e f fields c isFirst s with
  | nil =>
    obtain ⟨x, b, hb, hself, hread⟩ := verdict_of_element (hes e List.mem_cons_self) f c
    obtain ⟨-, hread⟩ := hread (']' :: r) (ends_cons (by simp) r)
    rw [commas_singleton] at hs
    simp only [readElements, hs, hread, fill_cons, hself]
    cases x with
    | error e => rfl
    | ok c₁ =>
      simp only [Except.map, Except.bind, fill_nil]
      exact readElements_end hb false c₁ fields
  | cons e' es ih =>
    obtain ⟨he, hes⟩ := List.forall_mem_cons.1 hes
    obtain ⟨x, b, hb, hself, hread⟩ := verdict_of_element he f c
    obtain ⟨-, hread⟩ := hread (',' :: (commas (e' :: es) ++ ']' :: r)) (ends_cons (by simp) _)
    obtain ⟨f', fields, rfl⟩ := List.exists_cons_of_length_pos (Nat.zero_lt_of_lt hlength)
    rw [commas_cons, List.append_assoc, List.cons_append] at hs
    simp only [readElements, hs, hread]
    rw [fill_cons, hself]
    cases x with
    | error e => rfl
    | ok c₁ =>
      obtain ⟨-, hnext⟩ := nextElement_of_values (hes e' List.mem_cons_self) es (']' :: r)
      exact ih hes (Nat.le_of_succ_le_succ hlength) (hnext b hb)

/-- The members of an object that are under the names of fields in turn are
read by filling the fields. -/
theorem readEntries_eq_fill (hes : ∀ v ∈ e :: es, Text .element v)
    (hlength : es.length ≤ fields.length) (hnodup : (f :: fields).Nodup)
    (hgiven : ∀ g ∈ f :: fields, g ∉ given) (r : List Char)
    (hs : '"' :: s = commas (List.zipWith underName (f :: fields) (e :: es)) ++ '}' :: r) :
    readEntries c given s = (fill c (f :: fields) (e :: es)).map (·, r) := by
  induction es generalizing e f fields c given s with
  | nil =>
    obtain ⟨x, b, hb, hself, hread⟩ := verdict_of_element (hes e List.mem_cons_self) f c
    obtain ⟨hread, -⟩ := hread ('}' :: r) (ends_cons (by simp) r)
    have hentry : s = f.name.toList ++ '"' :: [] ++ ':' :: (e ++ '}' :: r) := by
      simpa [commas_singleton, underName] using hs
    rw [hentry, readEntries_eq,
      readEntry_field (hgiven f List.mem_cons_self) (spells_name f) blank_nil, hread, fill_cons,
      hself]
    cases x with
    | error e => rfl
    | ok c₁ =>
      simp only [Except.map, Except.bind, fill_nil]
      exact goOn_end _ hb r
  | cons e' es ih =>
    obtain ⟨he, hes⟩ := List.forall_mem_cons.1 hes
    obtain ⟨x, b, hb, hself, hread⟩ := verdict_of_element he f c
    obtain ⟨f', fields, rfl⟩ := List.exists_cons_of_length_pos (Nat.zero_lt_of_lt hlength)
    obtain ⟨hf, hnodup⟩ := List.nodup_cons.1 hnodup
    obtain ⟨q, hq⟩ : ∃ q, '"' :: q
        = commas (List.zipWith underName (f' :: fields) (e' :: es)) ++ '}' :: r := by
      obtain ⟨q, hq⟩ := exists_commas (underName f' e') (List.zipWith underName fields es)
      exact ⟨_, by rw [List.zipWith_cons_cons, hq]; rfl⟩
    have hentry : s = f.name.toList ++ '"' :: [] ++ ':' :: (e ++ ',' :: '"' :: q) := by
      simp only [List.zipWith_cons_cons] at hs hq
      rw [commas_cons, List.append_assoc, List.cons_append, ← hq] at hs
      simpa [underName] using hs
    have hfresh : ∀ g ∈ f' :: fields, g ∉ f :: given := by
      intro g hg hmem
      rcases List.mem_cons.1 hmem with rfl | hmem
      · exact hf hg
      · exact hgiven g (List.mem_cons_of_mem _ hg) hmem
    obtain ⟨hread, -⟩ := hread (',' :: '"' :: q) (ends_cons (by simp) _)
    rw [hentry, readEntries_eq,
      readEntry_field (hgiven f List.mem_cons_self) (spells_name f) blank_nil, hread, fill_cons,
      hself]
    cases x with
    | error e => rfl
    | ok c₁ =>
      have hnext : goOn (c₁, f :: given) (b ++ ',' :: '"' :: q) = readEntries c₁ (f :: given) q :=
        by simpa using goOn_comma (c₁, f :: given) hb blank_nil q
      simp only [Except.map, Except.bind, hnext]
      exact ih hes (Nat.le_of_succ_le_succ hlength) hnodup hfresh hq

/-- A text that is read to its end is a configuration if what was read is
one. -/
theorem ofChars_of_readConfig {x : Except Error Config} (h : readConfig s = x.map (·, [])) :
    ofChars s = x := by
  unfold ofChars
  rw [h]
  cases x <;> rfl

/-- A document of elements in their order fills the fields in theirs. -/
theorem ofJson_positional (hes : ∀ v ∈ es, Text .element v)
    (hlength : es.length ≤ Field.all.length) : ofJson (positional es) = fill {} Field.all es := by
  rw [ofJson, positional, String.toList_ofList]
  apply ofChars_of_readConfig
  have harray (q : List Char) : readConfig ('[' :: q) = readArray q := by
    simp [readConfig, dropBlank_cons (c := '[') rfl]
  rw [List.cons_append, harray, readArray]
  cases es with
  | nil => exact readElements_end blank_nil true {} Field.all
  | cons e es =>
    obtain ⟨f, fields, hall⟩ := List.exists_cons_of_length_pos (Nat.zero_lt_of_lt hlength)
    rw [hall] at hlength ⊢
    refine readElements_eq_fill hes (Nat.le_of_succ_le_succ hlength) [] ?_
    exact (nextElement_of_values (hes e List.mem_cons_self) es [']']).1

/-- So does a document that names the fields. -/
theorem ofJson_named (hes : ∀ v ∈ es, Text .element v) (hlength : es.length ≤ Field.all.length) :
    ofJson (named es) = fill {} Field.all es := by
  rw [ofJson, named, String.toList_ofList]
  apply ofChars_of_readConfig
  have hobject (q : List Char) : readConfig ('{' :: q) = readObject q := by
    simp [readConfig, dropBlank_cons (c := '{') rfl]
  rw [List.cons_append, hobject, readObject]
  cases es with
  | nil =>
    have hkey : firstKey ['}'] = .ok (false, []) := firstKey_eq_ok_false_iff.2 ⟨[], blank_nil, rfl⟩
    simp [commas, hkey, fill_nil, Except.map]
  | cons e es =>
    have hnodup := nodup_all
    obtain ⟨f, fields, hall⟩ := List.exists_cons_of_length_pos (Nat.zero_lt_of_lt hlength)
    rw [hall] at hlength hnodup ⊢
    obtain ⟨q, hq⟩ := exists_commas (underName f e) (List.zipWith underName fields es)
    have hentries : '"' :: (f.name.toList ++ '"' :: ':' :: e ++ q ++ ['}'])
        = commas (List.zipWith underName (f :: fields) (e :: es)) ++ ['}'] := by
      rw [List.zipWith_cons_cons, hq]
      rfl
    have hkey := firstKey_eq_ok_true_iff.2 ⟨[], blank_nil, hentries.symm⟩
    simp only [hkey]
    exact readEntries_eq_fill hes (Nat.le_of_succ_le_succ hlength) hnodup (fun _ _ => by simp) []
      hentries

/-- Texts are the values of settings for the first fields, in their
order. -/
structure InOrder (given : List Setting) (es : List (List Char)) : Prop where
  fields : given.map Setting.field = Field.all.take es.length
  fills : List.Forall₂ Setting.Fills given es

/-- Values for the first fields give the same configuration as an array
and under the names of these fields, with the defaults in the other
fields, if each is one of its field's; and otherwise both forms are
refused for the same reason. -/
theorem positional_agrees_with_named (hes : ∀ v ∈ es, Text .element v)
    (hlength : es.length ≤ Field.all.length) :
    (∃ c given, ofJson (positional es) = .ok c ∧ ofJson (named es) = .ok c ∧
        InOrder given es ∧ c.Says given) ∨
      ∃ reason, ofJson (positional es) = .error reason ∧ ofJson (named es) = .error reason ∧
        ∀ given, ¬ InOrder given es := by
  rw [ofJson_positional hes hlength, ofJson_named hes hlength]
  cases hfill : fill {} Field.all es with
  | error reason =>
    refine .inr ⟨reason, rfl, rfl, fun given h => ?_⟩
    rw [fill_of_fills h.fields h.fills] at hfill
    cases hfill
  | ok c =>
    obtain ⟨given, hfields, hfills, rfl⟩ := fills_of_fill hes hlength hfill
    refine .inl ⟨_, given, rfl, rfl, ⟨hfields, hfills⟩, says_foldl ?_⟩
    rw [hfields]
    exact nodup_all.sublist (List.take_sublist _ _)

/-- A shift source and a boolean, the second behind a blank. -/
def vyFalse : List (List Char) := [['"', 'v', 'y', '"'], [' ', 'f', 'a', 'l', 's', 'e']]

theorem element_vyFalse : ∀ e ∈ vyFalse, Text .element e := by
  have hvy : Text .value ['"', 'v', 'y', '"'] :=
    .string (.plain (by decide) (.plain (by decide) .nil))
  have hspace : Blank [' '] := by decide
  simpa [vyFalse] using And.intro (Text.element blank_nil hvy blank_nil)
    (Text.element hspace .false blank_nil)

theorem gives_vyFalse :
    Gives [.shiftSource .vy, .advancesIndex false] (positional vyFalse).toList := by
  have hvy : (Setting.shiftSource .vy).Written ['"', 'v', 'y', '"'] :=
    .name (t := ['v', 'y']) (spells_self (by simp [Plain, ShiftSource.name]))
  have hspace : Blank [' '] := by decide
  rw [positional, String.toList_ofList]
  exact .inl (.elements (by decide) (.more blank_nil hvy blank_nil
    (.last (x := .advancesIndex false) hspace .false blank_nil)))

/-- In order or by name, the two set a source and a boolean, and no other
field. -/
theorem vyFalse_by_name :
    (∀ e ∈ vyFalse, Text .element e) ∧ vyFalse.length ≤ Field.all.length ∧
      positional vyFalse = "[\"vy\", false]" ∧
      named vyFalse = "\x7b\"shift_source\":\"vy\",\"load_store_increments_index\": false\x7d" ∧
      ofJson (positional vyFalse) = .ok { shiftSource := .vy, advancesIndex := false } ∧
      ofJson (named vyFalse) = .ok { shiftSource := .vy, advancesIndex := false } := by
  have hlength : vyFalse.length ≤ Field.all.length := by decide
  have harray : ofJson (positional vyFalse) = .ok { shiftSource := .vy, advancesIndex := false } := by
    have hread := ofChars_of_gives blank_nil gives_vyFalse blank_nil (says_foldl gives_vyFalse.nodup)
    rwa [List.nil_append, List.append_nil] at hread
  refine ⟨element_vyFalse, hlength, ?_, ?_, harray, ?_⟩
  · simp [positional, commas, vyFalse]
  · simp [named, commas, vyFalse, underName, Field.all, Field.name]
  · rcases positional_agrees_with_named element_vyFalse hlength with ⟨c, -, hp, hn, -⟩ | ⟨e, hp, -⟩
    · obtain rfl := Except.ok.inj (hp.symm.trans harray)
      exact hn
    · cases hp.symm.trans harray

end Chip8.Config
