/-
A configuration that has been cut off is not one.

Every field has a default, so a text that were still read after its end
is lost would give a configuration that is partly a default one. But a
configuration ends with a bracket, and what has been read up to there
stays read whatever follows (`readConfig_append`). So if a text can be
read and can be read after something is appended, nothing but blanks was
appended.
-/
import Chip8.Proofs.Config.RoundTrip

namespace Chip8.Config

open Json
open Json.Grammar

variable {c d : Config} {s t r : List Char}

/-- What is read off the front of a text is read off the front of every
text that goes on from it. -/
theorem readConfig_append (h : readConfig s = .ok (c, r)) (t : List Char) :
    readConfig (s ++ t) = .ok (c, r ++ t) := by
  obtain ⟨given, b, w, hb, hw, hc, rfl⟩ := readConfig_eq_ok_iff.1 h
  exact readConfig_eq_ok_iff.2 ⟨given, b, w, hb, hw, hc, List.append_assoc ..⟩

/-- Nothing but blanks can stand behind a document for the whole to be one
as well. -/
theorem blank_of_ofChars_append (h : ofChars s = .ok c) (ht : ofChars (s ++ t) = .ok d) :
    Blank t := by
  obtain ⟨r, hread, -⟩ := ofChars_eq_ok_iff.1 h
  obtain ⟨r', hread', hr'⟩ := ofChars_eq_ok_iff.1 ht
  obtain ⟨-, rfl⟩ : d = c ∧ r' = r ++ t := by
    have heq := hread'.symm.trans (readConfig_append hread t)
    simpa using heq
  exact (blank_append.1 hr').2

/-- If a text is a configuration, its beginning is one only if the rest is
blank; and unless the text ends with a blank, none of its beginnings is
one but itself. -/
theorem truncated_is_refused {text rest : String} {c : Config}
    (h : ofJson (text ++ rest) = .ok c) :
    (∀ d, ofJson text = .ok d → Blank rest.toList) ∧
      ((∀ a ∈ (text ++ rest).toList.getLast?, a ∉ [' ', '\n', '\t', '\r']) → rest ≠ "" →
        ∃ e, ofJson text = .error e) := by
  have hblank : ∀ d, ofJson text = .ok d → Blank rest.toList := by
    intro d hd
    rw [ofJson, String.toList_append] at h
    exact blank_of_ofChars_append hd h
  refine ⟨hblank, fun hlast hne => ?_⟩
  cases htext : ofJson text with
  | error e => exact ⟨e, rfl⟩
  | ok d =>
    have hne : rest.toList ≠ [] := by simpa using hne
    have hmem := List.getLast_mem hne
    refine absurd (hblank d htext _ hmem) (hlast _ ?_)
    rw [String.toList_append, List.getLast?_append_of_ne_nil _ hne]
    exact List.getLast?_eq_getLast_of_ne_nil hne

/-- A text cut off inside a number, and what is missing of it. -/
def cutNumber : String := "\x7b\"timer_step\":25"

def missing : String := "5\x7d"

/-- With what is missing the document is an object that sets the step. -/
theorem isObject_cutNumber : IsObject [.timerStep 255] (cutNumber ++ missing).toList := by
  have hdigits : Nat.toDigits 10 255 = ['2', '5', '5'] := rfl
  refine ⟨[], _, [], blank_nil, .members (.last (member_name (.timerStep 255) blank_nil rfl)),
    blank_nil, ?_⟩
  simp [cutNumber, missing, Setting.field, Field.name, hdigits]

/-- The whole is accepted, and what was cut off in the middle of the number
is refused. -/
theorem cutNumber_is_refused :
    ofJson (cutNumber ++ missing) = .ok { timerStep := 255 } ∧
      (∀ a ∈ (cutNumber ++ missing).toList.getLast?, a ∉ [' ', '\n', '\t', '\r']) ∧
      missing ≠ "" ∧ ∃ e, ofJson cutNumber = .error e := by
  have hnodup : ([.timerStep 255].map Setting.field).Nodup := by decide
  have hwhole : ofJson (cutNumber ++ missing) = .ok { timerStep := 255 } :=
    ofChars_of_isObject isObject_cutNumber hnodup (says_foldl hnodup)
  have hlast : ∀ a ∈ (cutNumber ++ missing).toList.getLast?, a ∉ [' ', '\n', '\t', '\r'] := by
    simp [missing, cutNumber]
  have hmissing : missing ≠ "" := by simp [missing]
  exact ⟨hwhole, hlast, hmissing, (truncated_is_refused hwhole).2 hlast hmissing⟩

end Chip8.Config
