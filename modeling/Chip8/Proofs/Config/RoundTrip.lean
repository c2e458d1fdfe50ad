/-
A configuration is what its text means.

The text that is printed is an object with a member for every field, so
it gives all settings of the configuration and leaves nothing to the
defaults. That it is read again needs nothing more than that it is such
an object, whatever else could have been written instead.
-/
import Chip8.Config.Printer
import Chip8.Proofs.Config.Documents

namespace Chip8.Config

open Json.Grammar

/-- The settings of a configuration are printed as they may be written. -/
theorem written_valueChars (c : Config) (f : Field) :
    (c.setting f).Written (c.valueChars f) := by
  have hbool (b : Bool) : BoolText b (boolChars b) := by
    cases b with
    | false => exact .false
    | true => exact .true
  cases f with
  | shiftSource =>
    refine .name (spells_self ?_)
    cases c.shiftSource <;> simp [ShiftSource.name, Plain]
  | advancesIndex => exact hbool c.advancesIndex
  | flagsIndexOverflow => exact hbool c.flagsIndexOverflow
  | timerInterval => rfl
  | timerStep => rfl
  | seed =>
    show SeedText c.seed (c.valueChars .seed)
    unfold valueChars
    cases c.seed with
    | none => exact .none
    | some n => exact .some n

/-- An entry as it is written is a member for the setting that the
configuration has. -/
theorem member_entryChars (c : Config) (f : Field) : Member [c.setting f] (c.entryChars f) := by
  have h := member_name (c.setting f) blank_nil (written_valueChars c f)
  rw [field_setting] at h
  simpa [entryChars] using h

/-- Entries with commas between them are members that give their settings. -/
theorem members_entryChars (c : Config) (f : Field) (fields : List Field) :
    Members ((f :: fields).map c.setting)
      ([','].intercalate ((f :: fields).map c.entryChars)) := by
  induction fields generalizing f with
  | nil => simpa using Members.last (member_entryChars c f)
  | cons g fields ih =>
    have h := Members.more (member_entryChars c f) (ih g)
    simpa [List.intercalate] using h

/-- A configuration as it is written is an object for all its settings. -/
theorem isObject_chars (c : Config) : IsObject (Field.all.map c.setting) c.chars :=
  ⟨[], _, [], blank_nil, .members (members_entryChars c _ _), blank_nil, by simp [chars, Field.all]⟩

/-- It sets each field once, in their order. -/
theorem map_field_settings (c : Config) :
    (Field.all.map c.setting).map Setting.field = Field.all := by
  simp [Function.comp_def, field_setting]

/-- The settings of a configuration say it. -/
theorem says_settings (c : Config) : c.Says (Field.all.map c.setting) := by
  refine ⟨fun x hx => ?_, fun f hf => ?_⟩
  · obtain ⟨f, -, rfl⟩ := List.mem_map.1 hx
    rw [field_setting]
  · rw [map_field_settings] at hf
    exact absurd (mem_all f) hf

/-- A configuration is read back from what it is written as. -/
theorem ofJson_toJson (c : Config) : ofJson c.toJson = .ok c := by
  have hnodup : ((Field.all.map c.setting).map Setting.field).Nodup := by
    rw [map_field_settings]
    exact nodup_all
  rw [ofJson, toJson, String.toList_ofList]
  exact ofChars_of_isObject (isObject_chars c) hnodup (says_settings c)

/-- A configuration is read from its own text, so no two have the same
text, and a text that was read and printed means what it meant. -/
theorem text_round_trips :
    (∀ c : Config, ofJson c.toJson = .ok c) ∧ Function.Injective toJson ∧
      ∀ text : String, (ofJson text).bind (fun c => ofJson c.toJson) = ofJson text := by
  refine ⟨ofJson_toJson, fun c d h => ?_, fun text => ?_⟩
  · have hd := ofJson_toJson d
    rw [← h, ofJson_toJson] at hd
    exact Except.ok.inj hd
  · cases ofJson text with
    | error e => rfl
    | ok c => exact ofJson_toJson c

end Chip8.Config
