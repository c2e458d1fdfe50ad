/-
A configuration is read exactly if the text gives its settings, as an
object or as an array, and nothing else.

Objects and arrays end with a bracket, so a configuration can be read off
the front of any text (`readConfig_eq_ok_iff`), and it is a whole text if
only blanks are left behind it (`ofChars_eq_ok_iff`). What a document
means depends on the settings it gives and not on how it gives them
(`object_means_its_settings`), and no other text has a meaning
(`accepted_iff_gives`).
-/
import Chip8.Proofs.Config.Arrays
import Chip8.Proofs.Config.Objects

namespace Chip8.Config

open Json
open Json.Grammar

variable {c : Config} {s r : List Char}

/-- A configuration is read off the front of a text if the text gives its
settings there, behind blanks. -/
theorem readConfig_eq_ok_iff :
    readConfig s = .ok (c, r) ↔
      ∃ xs b w, Blank b ∧ Gives xs w ∧ c.Says xs ∧ s = b ++ w ++ r := by
  constructor
  · intro h
    unfold readConfig at h
    split at h
    · cases h
    · next d q hs =>
      obtain ⟨b, hb, rfl⟩ := exists_blank_of_cons hs
      split at h
      · next hd =>
        obtain ⟨xs, t, given, hobject, rfl, hassign⟩ := objectText_of_readObject h
        obtain ⟨hnodup, rfl, -⟩ := assign_ok hassign
        exact ⟨xs, b, _, hb, .inr ⟨hobject, hnodup⟩, says_foldl hnodup, by simp [hd]⟩
      · split at h
        · next hd =>
          obtain ⟨xs, t, harray, rfl, rfl⟩ := arrayText_of_readArray h
          have hgives : Gives xs ('[' :: t) := .inl harray
          exact ⟨xs, b, _, hb, hgives, says_foldl hgives.nodup, by simp [hd]⟩
        · cases h
  · rintro ⟨xs, b, w, hb, hgives, hc, rfl⟩
    obtain rfl := hc.eq (says_foldl hgives.nodup)
    rcases hgives with harray | ⟨hobject, hnodup⟩
    · obtain ⟨t, rfl, hread⟩ := readArray_of_arrayText harray
      rw [List.append_assoc, List.cons_append]
      simp [readConfig, dropBlank_append hb, dropBlank_cons (c := '[') rfl, hread]
    · obtain ⟨t, rfl, hread⟩ := readObject_of_objectText hobject
      have hfresh : ∀ x ∈ xs, x.field ∉ [] := fun _ _ => List.not_mem_nil
      obtain ⟨given, hassign⟩ := assign_of_nodup {} hnodup hfresh
      rw [List.append_assoc, List.cons_append]
      simp [readConfig, dropBlank_append hb, dropBlank_cons (c := '{') rfl, hread, hassign,
        Except.map]

/-- A text is read if a configuration is read off its front and only blanks
are left. -/
theorem ofChars_eq_ok_iff :
    ofChars s = .ok c ↔ ∃ r, readConfig s = .ok (c, r) ∧ Blank r := by
  constructor
  · intro h
    obtain ⟨⟨c', r⟩, hread, hrest⟩ := bind_eq_ok.1 h
    dsimp only at hrest
    split at hrest
    · next hr =>
      cases hrest
      exact ⟨r, hread, dropBlank_eq_nil_iff.1 hr⟩
    · cases hrest
  · rintro ⟨r, hread, hr⟩
    simp [ofChars, hread, dropBlank_of_blank hr, bind, Except.bind, pure, Except.pure]

/-- A text that gives settings is read as the configuration that says
them. -/
theorem ofChars_of_gives {xs : List Setting} {b w b' : List Char} (hb : Blank b)
    (hw : Gives xs w) (hb' : Blank b') (hc : c.Says xs) : ofChars (b ++ w ++ b') = .ok c :=
  ofChars_eq_ok_iff.2 ⟨b', readConfig_eq_ok_iff.2 ⟨xs, b, w, hb, hw, hc, rfl⟩, hb'⟩

-- ============================================================== meaning

/-- A text that is an object, up to the blanks around it, with the settings
that it gives. -/
def IsObject (given : List Setting) (s : List Char) : Prop :=
  ∃ b w b', Blank b ∧ ObjectText given w ∧ Blank b' ∧ s = b ++ w ++ b'

/-- A document that is an object, and sets no field twice, is accepted as
the configuration that it says. -/
theorem ofChars_of_isObject {given : List Setting} (h : IsObject given s)
    (hnodup : (given.map Setting.field).Nodup) (hc : c.Says given) : ofChars s = .ok c := by
  obtain ⟨b, w, b', hb, hw, hb', rfl⟩ := h
  exact ofChars_of_gives hb (.inr ⟨hw, hnodup⟩) hb' hc

/-- A text that starts as an object in which a field is set, and its name is
the key of another entry later on. Whatever that entry is and whatever
follows is left open. -/
def SetsAgain (s : List Char) : Prop :=
  ∃ b given ms f b' k rest, Blank b ∧ Members given ms ∧ f ∈ given.map Setting.field ∧
    Blank b' ∧ Spells f.name.toList k ∧
    s = b ++ '{' :: ms ++ ',' :: b' ++ '"' :: k ++ '"' :: rest

/-- A key of a field that was set already is refused as soon as it is read. -/
theorem readObject_of_setsAgain {given : List Setting} {ms b k : List Char} {f : Field}
    (hms : Members given ms) (hf : f ∈ given.map Setting.field) (hb : Blank b)
    (hk : Spells f.name.toList k) (rest : List Char) :
    ∃ g, readObject (ms ++ ',' :: b ++ '"' :: k ++ '"' :: rest) = .error (.duplicate g) := by
  obtain ⟨b₁, t, hb₁, rfl, hread⟩ := readEntries_of_members hms
  obtain ⟨q, hq⟩ : ∃ q, q = k ++ '"' :: rest := ⟨_, rfl⟩
  have hs : b₁ ++ '"' :: t ++ ',' :: b ++ '"' :: k ++ '"' :: rest
      = b₁ ++ '"' :: (t ++ ',' :: (b ++ '"' :: q)) := by simp [hq]
  have hkey : firstKey (b₁ ++ '"' :: (t ++ ',' :: (b ++ '"' :: q)))
      = .ok (true, t ++ ',' :: (b ++ '"' :: q)) := firstKey_eq_ok_true_iff.2 ⟨b₁, hb₁, rfl⟩
  have hread := hread {} [] (',' :: (b ++ '"' :: q)) (ends_cons (by simp) _)
  simp only [hs, readObject, hkey, hread]
  cases hassign : assign {} [] given with
  | error e =>
    obtain ⟨g, rfl⟩ := assign_error hassign
    exact ⟨g, rfl⟩
  | ok p =>
    obtain ⟨-, -, hmem⟩ := assign_ok hassign
    refine ⟨f, (goOn_comma p blank_nil hb q).trans ?_⟩
    rw [readEntries_eq, hq, readEntry_again ((hmem f).2 (.inl hf)) hk]
    rfl

/-- A document that sets a field twice is refused, whatever comes behind. -/
theorem ofChars_of_setsAgain (h : SetsAgain s) : ∃ f, ofChars s = .error (.duplicate f) := by
  obtain ⟨b, given, ms, f, b', k, rest, hb, hms, hf, hb', hk, rfl⟩ := h
  obtain ⟨g, hread⟩ := readObject_of_setsAgain hms hf hb' hk rest
  refine ⟨g, ?_⟩
  have hs : b ++ '{' :: ms ++ ',' :: b' ++ '"' :: k ++ '"' :: rest
      = b ++ '{' :: (ms ++ ',' :: b' ++ '"' :: k ++ '"' :: rest) := by simp
  have hconfig : readConfig (b ++ '{' :: (ms ++ ',' :: b' ++ '"' :: k ++ '"' :: rest))
      = .error (.duplicate g) := by
    simp only [readConfig, dropBlank_append hb, dropBlank_cons (c := '{') rfl, if_true, hread]
  rw [hs, ofChars, hconfig]
  rfl

/-- An object means the settings that it gives, with the defaults for all
other fields: two objects that give the same settings, in any order, with
any blanks and any other members between them, mean the same. An object
in which a field is set again means nothing. -/
theorem object_means_its_settings :
    (∀ {given given' : List Setting} {text text' : String},
      IsObject given text.toList → IsObject given' text'.toList → given.Perm given' →
      (given.map Setting.field).Nodup →
      ∃ c, ofJson text = .ok c ∧ ofJson text' = .ok c ∧ c.Says given) ∧
    ∀ {text : String}, SetsAgain text.toList → ∃ f, ofJson text = .error (.duplicate f) := by
  refine ⟨fun {given given'} {text text'} htext htext' hperm hnodup => ?_, ofChars_of_setsAgain⟩
  have hc := says_foldl hnodup
  have hnodup' : (given'.map Setting.field).Nodup := (hperm.map _).nodup_iff.1 hnodup
  exact ⟨_, ofChars_of_isObject htext hnodup hc,
    ofChars_of_isObject htext' hnodup' (hc.perm hperm), hc⟩

/-- Settings with blanks around, a member between them that sets nothing,
under an escaped name and with half a surrogate pair in its value. -/
def scattered : String :=
  " \x7b\"rng_seed\" :18446744073709551615,\"\\u0078\":[\"\\ud800\"],\"timer_step\":0\x7d"

/-- The same settings the other way around, one of them under a name that
is partly escaped. -/
def reversed : String :=
  "\x7b\"timer_step\":0,\"\\u0072ng_seed\":18446744073709551615\x7d\n"

/-- A field is set again, and the text ends behind its name. -/
def setTwice : String := "\x7b\"timer_step\":0,\"timer_step\""

theorem toDigits_top : Nat.toDigits 10 18446744073709551615 =
    ['1', '8', '4', '4', '6', '7', '4', '4', '0', '7', '3', '7', '0', '9', '5', '5', '1', '6',
      '1', '5'] := rfl

/-- The first text is an object that gives these settings, as the member
between them sets nothing. -/
theorem isObject_scattered :
    IsObject [.seed (some 18446744073709551615), .timerStep 0] scattered.toList := by
  have hx : Spells ['x'] ['\\', 'u', '0', '0', '7', '8'] :=
    .escape (.unit (.mk (i := 0) (j := 0) (k := 7) (l := 8) (by decide) (by decide) (by decide)
      (by decide)) (by decide)) .nil
  have hvalue : Text .value ['[', '"', '\\', 'u', 'd', '8', '0', '0', '"', ']'] :=
    .array (.lastElement (.element blank_nil (.string (.unit (.mk (i := 13) (j := 8) (k := 0)
      (l := 0) (by decide) (by decide) (by decide) (by decide)) .nil)) blank_nil))
  have hother : Member [] _ :=
    .other blank_nil hx (by intro f; cases f <;> simp [Field.name]) blank_nil blank_nil hvalue
      blank_nil
  have hspace : Blank [' '] := by decide
  have hseed := member_name (.seed (some 18446744073709551615)) hspace (.some _)
  have hstep := member_name (.timerStep 0) blank_nil rfl
  refine ⟨[' '], _, [], hspace, .members (.more hseed (.more hother (.last hstep))), blank_nil, ?_⟩
  simp [scattered, Setting.field, Field.name, toDigits_top]

/-- The second gives the same settings the other way round. -/
theorem isObject_reversed :
    IsObject [.timerStep 0, .seed (some 18446744073709551615)] reversed.toList := by
  have hname : Spells Field.seed.name.toList
      ('\\' :: ['u', '0', '0', '7', '2'] ++ ['n', 'g', '_', 's', 'e', 'e', 'd']) := by
    have hr : Escape 'r' ['u', '0', '0', '7', '2'] :=
      .unit (.mk (i := 0) (j := 0) (k := 7) (l := 2) (by decide) (by decide) (by decide)
        (by decide)) (by decide)
    have hchars : Field.seed.name.toList = ['r', 'n', 'g', '_', 's', 'e', 'e', 'd'] := by
      simp [Field.name]
    rw [hchars]
    exact .escape hr (spells_self (by simp [Plain]))
  have hseed : Member [.seed (some 18446744073709551615)] _ :=
    .setting (x := .seed (some 18446744073709551615)) blank_nil hname blank_nil blank_nil
      (.some _) blank_nil
  refine ⟨[], _, ['\n'], blank_nil, .members (.more
    (member_name (.timerStep 0) blank_nil rfl) (.last hseed)), by decide, ?_⟩
  simp [reversed, Setting.field, Field.name, toDigits_top]

/-- The third sets the step a second time. -/
theorem setsAgain_setTwice : SetsAgain setTwice.toList := by
  refine ⟨[], [.timerStep 0], _, .timerStep, [], _, [], blank_nil,
    .last (member_name (.timerStep 0) blank_nil rfl), by decide, blank_nil,
    spells_name .timerStep, ?_⟩
  simp [setTwice, Setting.field, Field.name]

/-- Objects that differ in order, in blanks and in unknown members mean the
same, and one that sets a field twice means nothing. -/
theorem scattered_means_reversed :
    IsObject [.seed (some 18446744073709551615), .timerStep 0] scattered.toList ∧
      IsObject [.timerStep 0, .seed (some 18446744073709551615)] reversed.toList ∧
      SetsAgain setTwice.toList ∧
      ofJson scattered = .ok { timerStep := 0, seed := some 18446744073709551615 } ∧
      ofJson reversed = .ok { timerStep := 0, seed := some 18446744073709551615 } ∧
      ∃ f, ofJson setTwice = .error (.duplicate f) := by
  have hnodup : ([.seed (some 18446744073709551615), .timerStep 0].map Setting.field).Nodup := by
    decide
  obtain ⟨c, hscattered, hreversed, hc⟩ := object_means_its_settings.1 isObject_scattered
    isObject_reversed (.swap _ _ _) hnodup
  obtain rfl := hc.eq (says_foldl hnodup)
  exact ⟨isObject_scattered, isObject_reversed, setsAgain_setTwice, hscattered, hreversed,
    object_means_its_settings.2 setsAgain_setTwice⟩

/-- A text is a configuration if it is, up to the blanks around it, an array
of values for the first fields or an object that sets no field twice; and
then the configuration has the values that are written, and the defaults
in all other fields. No other text is one. -/
theorem accepted_iff_gives (text : String) (c : Config) :
    ofJson text = .ok c ↔
      ∃ given b w b', Blank b ∧ Gives given w ∧ Blank b' ∧ c.Says given ∧
        text.toList = b ++ w ++ b' := by
  constructor
  · intro h
    obtain ⟨b', hread, hb'⟩ := ofChars_eq_ok_iff.1 h
    obtain ⟨given, b, w, hb, hw, hc, htext⟩ := readConfig_eq_ok_iff.1 hread
    exact ⟨given, b, w, b', hb, hw, hb', hc, htext⟩
  · rintro ⟨given, b, w, b', hb, hw, hb', hc, htext⟩
    rw [ofJson, htext]
    exact ofChars_of_gives hb hw hb' hc

end Chip8.Config
