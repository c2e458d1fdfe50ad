/-
An object is read exactly if its members are well formed and no field is
set twice.

The members of an object give settings, which are entered one after the
other, and stop at the first field that has been set before (`assign`).
`readEntries_of_members` says that reading members is no more than that,
whatever the blanks and the members between them that set nothing; the
other way around, `members_of_readEntries` finds the members in a text
that was read.
-/
import Chip8.Proofs.Config.Fields

namespace Chip8.Config

open Json
open Json.Grammar

variable {c c' : Config} {given given' : List Field} {s r : List Char} {xs : List Setting}

-- ============================================== settings one by one

/-- Enter settings, of which none may be for a field that is given
already. -/
def assign (c : Config) (given : List Field) :
    List Setting → Except Error (Config × List Field)
  | [] => .ok (c, given)
  | x :: xs =>
    if x.field ∈ given then .error (.duplicate x.field)
    else assign (c.put x) (x.field :: given) xs

/-- Settings can be assigned in two parts. -/
theorem assign_append (c : Config) (given : List Field) (xs ys : List Setting) :
    assign c given (xs ++ ys) = (assign c given xs).bind fun p => assign p.1 p.2 ys := by
  induction xs generalizing c given with
  | nil => rfl
  | cons x xs ih =>
    simp only [List.cons_append, assign]
    split
    · rfl
    · exact ih _ _

/-- If an assignment succeeds, it set no field twice, and the fields that
count as given are those before it and its own. -/
theorem assign_ok (h : assign c given xs = .ok (c', given')) :
    (xs.map Setting.field).Nodup ∧ c' = xs.foldl put c ∧
      ∀ f, f ∈ given' ↔ f ∈ xs.map Setting.field ∨ f ∈ given := by
  suffices hdisjoint : (∀ x ∈ xs, x.field ∉ given) ∧ (xs.map Setting.field).Nodup ∧
      c' = xs.foldl put c ∧ ∀ f, f ∈ given' ↔ f ∈ xs.map Setting.field ∨ f ∈ given from
    hdisjoint.2
  induction xs generalizing c given with
  | nil =>
    cases h
    simp
  | cons x xs ih =>
    simp only [assign] at h
    split at h
    · cases h
    · next hx =>
      obtain ⟨hgiven, hnodup, hc, hmem⟩ := ih h
      refine ⟨?_, ?_, hc, fun f => ?_⟩
      · exact List.forall_mem_cons.2 ⟨hx, fun y hy hy' => hgiven y hy (List.mem_cons_of_mem _ hy')⟩
      · refine List.nodup_cons.2 ⟨fun hmem' => ?_, hnodup⟩
        obtain ⟨y, hy, hfield⟩ := List.mem_map.1 hmem'
        exact hgiven y hy (by simp [hfield])
      · rw [hmem, List.map_cons, List.mem_cons, List.mem_cons]
        tauto

/-- An assignment succeeds if it sets no field twice, and none that is
given already. -/
theorem assign_of_nodup (c : Config) (hnodup : (xs.map Setting.field).Nodup)
    (hgiven : ∀ x ∈ xs, x.field ∉ given) :
    ∃ given', assign c given xs = .ok (xs.foldl put c, given') := by
  induction xs generalizing c given with
  | nil => exact ⟨given, rfl⟩
  | cons x xs ih =>
    obtain ⟨hx, hgiven⟩ := List.forall_mem_cons.1 hgiven
    rw [List.map_cons, List.nodup_cons] at hnodup
    have hfresh : ∀ y ∈ xs, y.field ∉ x.field :: given := by
      intro y hy hmem
      rcases List.mem_cons.1 hmem with hfield | hmem
      · exact hnodup.1 (List.mem_map.2 ⟨y, hy, hfield⟩)
      · exact hgiven y hy hmem
    obtain ⟨given', h⟩ := ih (c.put x) hnodup.2 hfresh
    exact ⟨given', by simpa only [assign, if_neg hx, List.foldl_cons] using h⟩

/-- What stops the settings is a field that is given again. -/
theorem assign_error {e : Error} (h : assign c given xs = .error e) : ∃ f, e = .duplicate f := by
  induction xs generalizing c given with
  | nil => cases h
  | cons x xs ih =>
    simp only [assign] at h
    split at h
    · cases h
      exact ⟨x.field, rfl⟩
    · exact ih h

-- ============================================================== entries

/-- The name of a field names it. -/
theorem ofName?_name (f : Field) : Field.ofName? f.name.toList = some f := by
  cases f <;> decide

theorem name_of_ofName? {key : List Char} {f : Field} (h : Field.ofName? key = some f) :
    f.name.toList = key := by
  have h := List.find?_some h
  simpa using h

theorem mem_all (f : Field) : f ∈ Field.all := by
  cases f <;> decide

/-- A key names no field if it is the name of none. -/
theorem ofName?_eq_none_iff {key : List Char} :
    Field.ofName? key = none ↔ ∀ f : Field, f.name.toList ≠ key := by
  simp [Field.ofName?, List.find?_eq_none, mem_all]

/-- A key that is the name of a field that is given already is an error,
whatever comes behind it. -/
theorem readEntry_again {f : Field} {k : List Char} (hf : f ∈ given)
    (hk : Spells f.name.toList k) (q : List Char) :
    readEntry c given (k ++ '"' :: q) = .error (.duplicate f) := by
  have hread : Str.read (k ++ '"' :: q) = .ok (f.name.toList, q) :=
    Str.read_eq_ok_iff.2 ⟨k, hk, rfl⟩
  simp [readEntry, hread, lift, ofName?_name, hf, bind, Except.bind, throw, throwThe,
    MonadExceptOf.throw]

/-- Behind the name of a field that is not given yet, its value is read. -/
theorem readEntry_field {f : Field} {k b : List Char} (hf : f ∉ given)
    (hk : Spells f.name.toList k) (hb : Blank b) (q : List Char) :
    readEntry c given (k ++ '"' :: b ++ ':' :: q)
      = (readField f c q).map fun p => ((p.1, f :: given), p.2) := by
  have hs : k ++ '"' :: b ++ ':' :: q = k ++ '"' :: (b ++ ':' :: q) := by simp
  have hread : Str.read (k ++ '"' :: (b ++ ':' :: q)) = .ok (f.name.toList, b ++ ':' :: q) :=
    Str.read_eq_ok_iff.2 ⟨k, hk, rfl⟩
  have hcolon : colon (b ++ ':' :: q) = .ok q := colon_eq_ok_iff.2 ⟨b, hb, rfl⟩
  simp only [hs, readEntry, hread, lift, bind, Except.bind, ofName?_name, if_neg hf, hcolon]
  cases readField f c q <;> rfl

/-- Behind any other key, a value is passed over. -/
theorem readEntry_other {key k b : List Char} (hkey : ∀ f : Field, f.name.toList ≠ key)
    (hk : Spells key k) (hb : Blank b) (q : List Char) :
    readEntry c given (k ++ '"' :: b ++ ':' :: q)
      = (lift (skipValue q)).map ((c, given), ·) := by
  have hs : k ++ '"' :: b ++ ':' :: q = k ++ '"' :: (b ++ ':' :: q) := by simp
  have hread : Str.read (k ++ '"' :: (b ++ ':' :: q)) = .ok (key, b ++ ':' :: q) :=
    Str.read_eq_ok_iff.2 ⟨k, hk, rfl⟩
  have hcolon : colon (b ++ ':' :: q) = .ok q := colon_eq_ok_iff.2 ⟨b, hb, rfl⟩
  simp only [hs, readEntry, hread, lift, bind, Except.bind, ofName?_eq_none_iff.2 hkey, hcolon]
  cases skipValue q <;> rfl

/-- An entry is read by entering the setting that it gives, if it gives
one. -/
theorem readEntry_of_member {m : List Char} (h : Member xs m) :
    ∃ b t, Blank b ∧ m = b ++ '"' :: t ∧ ∀ c given r, Ends r →
      ∃ b', Blank b' ∧ readEntry c given (t ++ r) = (assign c given xs).map (·, b' ++ r) := by
  cases h with
  | @setting x b₁ k b₂ b₃ w b₄ hb₁ hk hb₂ hb₃ hw hb₄ =>
    refine ⟨b₁, k ++ '"' :: b₂ ++ ':' :: (b₃ ++ w ++ b₄), hb₁, by simp, fun c given r hr => ?_⟩
    refine ⟨b₄, hb₄, ?_⟩
    by_cases hx : x.field ∈ given
    · have hs : k ++ '"' :: b₂ ++ ':' :: (b₃ ++ w ++ b₄) ++ r
          = k ++ '"' :: (b₂ ++ ':' :: (b₃ ++ w ++ b₄ ++ r)) := by simp
      rw [hs, readEntry_again hx hk]
      simp [assign, hx, Except.map]
    · have hs : k ++ '"' :: b₂ ++ ':' :: (b₃ ++ w ++ b₄) ++ r
          = k ++ '"' :: b₂ ++ ':' :: (b₃ ++ w ++ (b₄ ++ r)) := by simp
      rw [hs, readEntry_field hx hk hb₂, readField_of_written c hb₃ hw (ends_append hb₄ hr)]
      simp [assign, hx, Except.map]
  | @other key b₁ k b₂ b₃ w b₄ hb₁ hk hkey hb₂ hb₃ hw hb₄ =>
    refine ⟨b₁, k ++ '"' :: b₂ ++ ':' :: (b₃ ++ w ++ b₄), hb₁, by simp, fun c given r hr => ?_⟩
    refine ⟨b₄, hb₄, ?_⟩
    have hs : k ++ '"' :: b₂ ++ ':' :: (b₃ ++ w ++ b₄) ++ r
        = k ++ '"' :: b₂ ++ ':' :: (b₃ ++ w ++ (b₄ ++ r)) := by simp
    rw [hs, readEntry_other hkey hk hb₂, skipValue_of_text hb₃ hw (ends_append hb₄ hr)]
    rfl

/-- What is read as an entry is a member, for a field or for nothing, and
sets what it says. -/
theorem member_of_readEntry (h : readEntry c given s = .ok ((c', given'), r)) :
    ∃ xs t, (∀ b b', Blank b → Blank b' → Member xs (b ++ '"' :: t ++ b')) ∧ s = t ++ r ∧
      assign c given xs = .ok (c', given') := by
  obtain ⟨⟨key, q₁⟩, hread, hrest⟩ := bind_eq_ok.1 h
  obtain ⟨k, hk, rfl⟩ := Str.read_eq_ok_iff.1 (lift_eq_ok.1 hread)
  dsimp only at hrest
  split at hrest
  · next hkey =>
    obtain ⟨q₂, hcolon, hrest⟩ := bind_eq_ok.1 hrest
    obtain ⟨q₃, hskip, hrest⟩ := bind_eq_ok.1 hrest
    cases hrest
    obtain ⟨b₂, hb₂, rfl⟩ := colon_eq_ok_iff.1 (lift_eq_ok.1 hcolon)
    obtain ⟨b₃, w, hb₃, hw, rfl⟩ := text_of_skipValue (lift_eq_ok.1 hskip)
    refine ⟨[], k ++ '"' :: b₂ ++ ':' :: b₃ ++ w, fun b b' hb hb' => ?_, by simp, rfl⟩
    simpa using Member.other hb hk (ofName?_eq_none_iff.1 hkey) hb₂ hb₃ hw hb'
  · next f hkey =>
    split at hrest
    · cases hrest
    · next hf =>
      obtain ⟨q₂, hcolon, hrest⟩ := bind_eq_ok.1 hrest
      obtain ⟨⟨c₁, q₃⟩, hfield, hrest⟩ := bind_eq_ok.1 hrest
      cases hrest
      obtain ⟨b₂, hb₂, rfl⟩ := colon_eq_ok_iff.1 (lift_eq_ok.1 hcolon)
      obtain ⟨x, b₃, w, rfl, rfl, hb₃, hw, rfl⟩ := readField_ok hfield
      refine ⟨[x], k ++ '"' :: b₂ ++ ':' :: b₃ ++ w, fun b b' hb hb' => ?_, by simp, ?_⟩
      · rw [← name_of_ofName? hkey] at hk
        simpa using Member.setting hb hk hb₂ hb₃ hw hb'
      · simp [assign, hf]

-- ============================================================== objects

/-- Another key follows a comma, with nothing but blanks around that. -/
theorem nextKey_eq_ok_true_iff :
    nextKey s = .ok (true, r) ↔ ∃ b b', Blank b ∧ Blank b' ∧ s = b ++ ',' :: b' ++ '"' :: r := by
  constructor
  · intro h
    unfold nextKey at h
    split at h
    · cases h
    · next d q hs =>
      obtain ⟨b, hb, rfl⟩ := exists_blank_of_cons hs
      split at h
      · cases h
      · split at h
        · next hd =>
          split at h
          · cases h
          · next d' q' hs' =>
            obtain ⟨b', hb', rfl⟩ := exists_blank_of_cons hs'
            split at h
            · next hd' =>
              cases h
              exact ⟨b, b', hb, hb', by simp [hd, hd']⟩
            · split at h <;> cases h
        · cases h
  · rintro ⟨b, b', hb, hb', rfl⟩
    simp [nextKey, dropBlank_append hb, dropBlank_cons (c := ',') rfl, dropBlank_append hb',
      dropBlank_cons (c := '"') rfl]

/-- An object closes where its comma would stand. -/
theorem nextKey_eq_ok_false_iff :
    nextKey s = .ok (false, r) ↔ ∃ b, Blank b ∧ s = b ++ '}' :: r := by
  constructor
  · intro h
    unfold nextKey at h
    split at h
    · cases h
    · next d q hs =>
      obtain ⟨b, hb, rfl⟩ := exists_blank_of_cons hs
      split at h
      · next hd =>
        cases h
        exact ⟨b, hb, by rw [hd]⟩
      · split at h
        · split at h
          · cases h
          · split at h
            · cases h
            · split at h <;> cases h
        · cases h
  · rintro ⟨b, hb, rfl⟩
    simp [nextKey, dropBlank_append hb, dropBlank_cons (c := '}') rfl]

/-- Go on behind an entry, with the fields that have been given. -/
def goOn (p : Config × List Field) (s : List Char) : Except Error (Config × List Char) :=
  match nextKey s with
  | .error flaw => .error (.malformed flaw)
  | .ok (false, r) => .ok (p.1, r)
  | .ok (true, r) => readEntries p.1 p.2 r

/-- Entries are one entry, and what comes behind it. -/
theorem readEntries_eq (c : Config) (given : List Field) (s : List Char) :
    readEntries c given s = (readEntry c given s).bind fun q => goOn q.1 q.2 := by
  rw [readEntries]
  split
  · next h => rw [h]; rfl
  · next h =>
    rw [h]
    simp only [Except.bind, goOn]
    split <;> simp_all

/-- The brace ends the entries. -/
theorem goOn_end (p : Config × List Field) {b : List Char} (hb : Blank b) (r : List Char) :
    goOn p (b ++ '}' :: r) = .ok (p.1, r) := by
  simp only [goOn, nextKey_eq_ok_false_iff.2 ⟨b, hb, rfl⟩]

theorem goOn_comma (p : Config × List Field) {b b' : List Char} (hb : Blank b) (hb' : Blank b')
    (r : List Char) : goOn p (b ++ ',' :: b' ++ '"' :: r) = readEntries p.1 p.2 r := by
  simp only [goOn, nextKey_eq_ok_true_iff.2 ⟨b, b', hb, hb', rfl⟩]

theorem goOn_blank (p : Config × List Field) {b : List Char} (hb : Blank b) (s : List Char) :
    goOn p (b ++ s) = goOn p s := by
  simp only [goOn, nextKey, dropBlank_append hb]

/-- Members are read by entering the settings that they give. -/
theorem readEntries_of_members {ms : List Char} (h : Members xs ms) :
    ∃ b t, Blank b ∧ ms = b ++ '"' :: t ∧ ∀ c given r, Ends r →
      readEntries c given (t ++ r) = (assign c given xs).bind (goOn · r) := by
  have hmember {xs : List Setting} {m : List Char} (h : Member xs m) :
      ∃ b t, Blank b ∧ m = b ++ '"' :: t ∧ ∀ c given r, Ends r →
        readEntries c given (t ++ r) = (assign c given xs).bind (goOn · r) := by
    obtain ⟨b, t, hb, rfl, hread⟩ := readEntry_of_member h
    refine ⟨b, t, hb, rfl, fun c given r hr => ?_⟩
    obtain ⟨b', hb', hread⟩ := hread c given r hr
    rw [readEntries_eq, hread]
    cases assign c given xs with
    | error e => rfl
    | ok p => exact goOn_blank p hb' r
  induction h with
  | last h => exact hmember h
  | @more xs ys m ms h _ ih =>
    obtain ⟨b, t, hb, rfl, hread⟩ := hmember h
    obtain ⟨b', t', hb', rfl, hread'⟩ := ih
    refine ⟨b, t ++ ',' :: b' ++ '"' :: t', hb, by simp, fun c given r hr => ?_⟩
    have hs : t ++ ',' :: b' ++ '"' :: t' ++ r = t ++ ',' :: (b' ++ '"' :: (t' ++ r)) := by simp
    rw [hs, hread _ _ _ (ends_cons (by simp) _), assign_append]
    cases assign c given xs with
    | error e => rfl
    | ok p => exact (goOn_comma p blank_nil hb' (t' ++ r)).trans (hread' _ _ _ hr)

/-- What is read as entries is the text of members, and they set what they
say in their order. -/
theorem members_of_readEntries (h : readEntries c given s = .ok (c', r)) :
    ∃ xs t given', (∀ b, Blank b → Members xs (b ++ '"' :: t)) ∧ s = t ++ '}' :: r ∧
      assign c given xs = .ok (c', given') := by
  fun_induction readEntries c given s with
  | case1 => cases h
  | case2 => cases h
  | case3 c given s c₁ given₁ q hentry q' hnext =>
    cases h
    obtain ⟨xs, t, hmember, rfl, hassign⟩ := member_of_readEntry hentry
    obtain ⟨b', hb', rfl⟩ := nextKey_eq_ok_false_iff.1 hnext
    refine ⟨xs, t ++ b', given₁, fun b hb => ?_, by simp, hassign⟩
    simpa using Members.last (hmember b b' hb hb')
  | case4 c given s c₁ given₁ q hentry q' hnext ih =>
    obtain ⟨xs, t, hmember, rfl, hassign⟩ := member_of_readEntry hentry
    obtain ⟨b', b'', hb', hb'', rfl⟩ := nextKey_eq_ok_true_iff.1 hnext
    obtain ⟨ys, t', given', hmembers, rfl, hassign'⟩ := ih h
    refine ⟨xs ++ ys, t ++ b' ++ ',' :: b'' ++ '"' :: t', given', fun b hb => ?_, by simp, ?_⟩
    · simpa using Members.more (hmember b b' hb hb') (hmembers b'' hb'')
    · rw [assign_append, hassign]
      exact hassign'

/-- An object is read by entering the settings that it gives. -/
theorem readObject_of_objectText {w : List Char} (h : ObjectText xs w) :
    ∃ t, w = '{' :: t ∧ ∀ r, readObject (t ++ r) = (assign {} [] xs).map fun p => (p.1, r) := by
  cases h with
  | @empty b hb =>
    refine ⟨b ++ ['}'], rfl, fun r => ?_⟩
    have hkey : firstKey (b ++ '}' :: r) = .ok (false, r) :=
      firstKey_eq_ok_false_iff.2 ⟨b, hb, rfl⟩
    rw [List.append_assoc]
    simp [readObject, hkey, assign, Except.map]
  | members h =>
    obtain ⟨b, t, hb, rfl, hread⟩ := readEntries_of_members h
    refine ⟨b ++ '"' :: t ++ ['}'], rfl, fun r => ?_⟩
    have hkey : firstKey (b ++ '"' :: (t ++ '}' :: r)) = .ok (true, t ++ '}' :: r) :=
      firstKey_eq_ok_true_iff.2 ⟨b, hb, rfl⟩
    have hs : b ++ '"' :: t ++ ['}'] ++ r = b ++ '"' :: (t ++ '}' :: r) := by simp
    have hread := hread {} [] ('}' :: r) (ends_cons (by simp) r)
    simp only [hs, readObject, hkey, hread]
    cases assign {} [] xs with
    | error e => rfl
    | ok p => exact goOn_end p blank_nil r

/-- What is read as an object is the text of one, and its members set the
fields from the defaults on. -/
theorem objectText_of_readObject (h : readObject s = .ok (c, r)) :
    ∃ xs t given, ObjectText xs ('{' :: t) ∧ s = t ++ r ∧ assign {} [] xs = .ok (c, given) := by
  unfold readObject at h
  split at h
  · cases h
  · next hkey =>
    cases h
    obtain ⟨b, hb, rfl⟩ := firstKey_eq_ok_false_iff.1 hkey
    exact ⟨[], b ++ ['}'], [], .empty hb, by simp, rfl⟩
  · next hkey =>
    obtain ⟨b, hb, rfl⟩ := firstKey_eq_ok_true_iff.1 hkey
    obtain ⟨xs, t, given, hmembers, rfl, hassign⟩ := members_of_readEntries h
    refine ⟨xs, b ++ '"' :: t ++ ['}'], given, ?_, by simp, hassign⟩
    simpa using ObjectText.members (hmembers b hb)

end Chip8.Config
