/-
A record of an error tells which error it was, with all its data.

A record is a text, and what is in it has to be found again. Numbers are
followed by something that is no digit, so they end where their digits
end (`toDigits_append_inj`). A text in quotes ends at the first quote
that is not escaped: `unquoteChar` takes one character off the front of
what is between the quotes, whatever comes behind it, and finds none
where the quote is bare (`quoted_append_inj`).

One field is put into a record as it is, the kind of a problem with a
file. It is found from the other end. Behind it stands a text in quotes,
and between the quotes every quote has a backslash before it, so the last
quote with a space before it is the one that opens that text
(`open_quote_inj`).

`Error.Says` lists what records look like, error by error. It is what
`Error.record` writes (`says_iff`), and no text is what two errors say
(`Says.injective`), so different errors have different records.
-/
import Mathlib
import Chip8.Error
import Chip8.Json.Str

namespace Chip8

namespace Text

-- ============================================================= numbers

/-- What a digit stands for, up to base sixteen. -/
theorem hexValue?_digitChar {d : Nat} (h : d < 16) :
    Json.Str.hexValue? (Nat.digitChar d) = some d := by
  have hall : ∀ d < 16, Json.Str.hexValue? (Nat.digitChar d) = some d := by decide
  exact hall d h

/-- The number that is written by some digits. -/
def ofDigits (b : Nat) (digits : List Char) : Nat :=
  digits.foldl (fun n c => b * n + (Json.Str.hexValue? c).getD 0) 0

/-- The digits of a number are read back. -/
theorem ofDigits_toDigits {b : Nat} (hb : 1 < b) (hb' : b ≤ 16) (n : Nat) :
    ofDigits b (Nat.toDigits b n) = n := by
  induction n using Nat.strongRecOn with
  | ind n ih =>
      unfold ofDigits at ih ⊢
      rw [Nat.toDigits_eq_if hb]
      split
      next hlt =>
        rw [List.foldl_cons, hexValue?_digitChar (Nat.lt_of_lt_of_le hlt hb')]
        simp
      next hge =>
        have hlt : n / b < n := Nat.div_lt_self (by omega) hb
        have hmod : n % b < 16 := Nat.lt_of_lt_of_le (Nat.mod_lt n (by omega)) hb'
        rw [List.foldl_append, ih _ hlt, List.foldl_cons, hexValue?_digitChar hmod]
        exact Nat.div_add_mod n b

/-- What is no digit is not among the digits of a number. -/
theorem notMem_toDigits {b : Nat} (hb : 1 < b) {c : Char} (hc : ∀ d, Nat.digitChar d ≠ c)
    (n : Nat) : c ∉ Nat.toDigits b n := by
  induction n using Nat.strongRecOn with
  | ind n ih =>
      rw [Nat.toDigits_eq_if hb]
      split
      next => exact fun hmem => hc n (List.mem_singleton.mp hmem).symm
      next hge =>
        have hlt : n / b < n := Nat.div_lt_self (by omega) hb
        rw [List.mem_append, not_or]
        exact ⟨ih _ hlt, fun hmem => hc _ (List.mem_singleton.mp hmem).symm⟩

/-- Where a mark comes first, a list is cut there in one way. -/
theorem cut_at_mark {c : Char} {l l' r r' : List Char} (hl : c ∉ l) (hl' : c ∉ l')
    (h : l ++ c :: r = l' ++ c :: r') : l = l' ∧ r = r' := by
  have hlength := congrArg (List.idxOf c) h
  rw [List.idxOf_append_of_notMem hl, List.idxOf_append_of_notMem hl', List.idxOf_cons_self,
    List.idxOf_cons_self, Nat.add_zero, Nat.add_zero] at hlength
  obtain ⟨hfront, hback⟩ := List.append_inj h hlength
  injection hback with _ hback
  exact ⟨hfront, hback⟩

/-- A number is told by its digits and by what is no digit behind them. -/
theorem toDigits_append_inj {b : Nat} (hb : 1 < b) (hb' : b ≤ 16) {n n' : Nat} {c : Char}
    (hc : ∀ d, Nat.digitChar d ≠ c) {r r' : List Char}
    (h : Nat.toDigits b n ++ c :: r = Nat.toDigits b n' ++ c :: r') : n = n' ∧ r = r' := by
  obtain ⟨hdigits, hrest⟩ := cut_at_mark (notMem_toDigits hb hc n) (notMem_toDigits hb hc n') h
  have hn := congrArg (ofDigits b) hdigits
  rw [ofDigits_toDigits hb hb', ofDigits_toDigits hb hb'] at hn
  exact ⟨hn, hrest⟩

-- =========================================================== quoted text

/-- Take one character off the front of what is between quotes. There is
none in front of the quote that ends it. -/
def unquoteChar : List Char → Option (Char × List Char)
  | '\\' :: '"' :: r => some ('"', r)
  | '\\' :: '\\' :: r => some ('\\', r)
  | '\\' :: 't' :: r => some ('\t', r)
  | '\\' :: 'n' :: r => some ('\n', r)
  | '\\' :: 'r' :: r => some ('\r', r)
  | '\\' :: '0' :: r => some ('\x00', r)
  | '\\' :: 'u' :: '{' :: r =>
    let digits := r.takeWhile (· != '}')
    some (Char.ofNat (ofDigits 16 digits), (r.dropWhile (· != '}')).tail)
  | '"' :: _ => none
  | c :: r => some (c, r)
  | [] => none

/-- A character is read back from the way it stands in quotes, whatever
comes behind it. -/
theorem unquoteChar_quotedChar (c : Char) (r : List Char) :
    unquoteChar (quotedChar c ++ r) = some (c, r) := by
  unfold quotedChar
  split_ifs with hquote hslash htab hline hreturn hzero hodd
  · rw [hquote]
    rfl
  · rw [hslash]
    rfl
  · rw [htab]
    rfl
  · rw [hline]
    rfl
  · rw [hreturn]
    rfl
  · rw [hzero]
    rfl
  · have hdigits : ∀ d ∈ Nat.toDigits 16 c.toNat, (d != '}') = true := by
      intro d hd
      have hbrace := notMem_toDigits (b := 16) (by decide)
        (fun d => Nat.digitChar_ne '}' rfl) c.toNat
      exact bne_iff_ne.mpr fun hd' => hbrace (hd' ▸ hd)
    rw [List.append_assoc, List.append_assoc]
    show some
      (Char.ofNat (ofDigits 16 ((Nat.toDigits 16 c.toNat ++ '}' :: r).takeWhile (· != '}'))),
      ((Nat.toDigits 16 c.toNat ++ '}' :: r).dropWhile (· != '}')).tail) = _
    rw [List.takeWhile_append_of_pos hdigits, List.dropWhile_append_of_pos hdigits]
    simp [ofDigits_toDigits, Char.ofNat_toNat]
  · have hplain : unquoteChar (c :: r) = some (c, r) := by
      unfold unquoteChar
      split
      all_goals simp_all
    exact hplain

/-- A bare quote stands for no character. -/
theorem unquoteChar_quote (r : List Char) : unquoteChar ('"' :: r) = none := rfl

/-- A text in quotes is told from what comes behind it. -/
theorem quoted_append_inj {s t r r' : List Char}
    (h : s.flatMap quotedChar ++ '"' :: r = t.flatMap quotedChar ++ '"' :: r') :
    s = t ∧ r = r' := by
  induction s generalizing t with
  | nil =>
      cases t with
      | nil =>
          injection h with _ hr
          exact ⟨rfl, hr⟩
      | cons d t =>
          have hread := congrArg unquoteChar h
          rw [List.flatMap_nil, List.nil_append, unquoteChar_quote, List.flatMap_cons,
            List.append_assoc, unquoteChar_quotedChar] at hread
          cases hread
  | cons c s ih =>
      have hread := congrArg unquoteChar h
      rw [List.flatMap_cons, List.append_assoc, unquoteChar_quotedChar] at hread
      cases t with
      | nil =>
          rw [List.flatMap_nil, List.nil_append, unquoteChar_quote] at hread
          cases hread
      | cons d t =>
          rw [List.flatMap_cons, List.append_assoc, unquoteChar_quotedChar] at hread
          injection hread with hread
          injection hread with hc hrest
          obtain ⟨rfl, hr⟩ := ih hrest
          exact ⟨by rw [hc], hr⟩

/-- Every quote has a backslash before it. -/
def Escaped (l : List Char) : Prop := ∀ a r, l = a ++ '"' :: r → ∃ a', a = a' ++ ['\\']

/-- A text without a quote has a backslash before each. -/
theorem escaped_of_notMem {l : List Char} (h : '"' ∉ l) : Escaped l := by
  intro a r hl
  refine absurd ?_ h
  rw [hl]
  exact List.mem_append_right a List.mem_cons_self

/-- One text behind another has every quote escaped if both have. -/
theorem Escaped.append {l l' : List Char} (h : Escaped l) (h' : Escaped l') :
    Escaped (l ++ l') := by
  intro a r hl
  rcases List.append_eq_append_iff.mp hl with ⟨front, rfl, hback⟩ | ⟨back, rfl, hback⟩
  · -- the quote is in the second part
    obtain ⟨a', rfl⟩ := h' front r hback
    exact ⟨l ++ a', (List.append_assoc l a' ['\\']).symm⟩
  · cases back with
    | nil =>
        obtain ⟨a', ha'⟩ := h' [] r hback.symm
        exact absurd ha'.symm (List.append_ne_nil_of_right_ne_nil a' (List.cons_ne_nil _ _))
    | cons c back =>
        injection hback with hc _
        exact h a back (by rw [hc])

/-- A quote is the one character that is written with a quote, and its
backslash is written with it. -/
theorem escaped_quotedChar (c : Char) : Escaped (quotedChar c) := by
  unfold quotedChar
  split_ifs with hquote hslash htab hline hreturn hzero hodd
  · intro a r h
    cases a with
    | nil => cases h
    | cons x a =>
        injection h with hx h
        cases a with
        | nil => exact ⟨[], by rw [← hx]; rfl⟩
        | cons y a =>
            injection h with _ h
            exact absurd h.symm (List.append_ne_nil_of_right_ne_nil a (List.cons_ne_nil _ _))
  · exact escaped_of_notMem (by decide)
  · exact escaped_of_notMem (by decide)
  · exact escaped_of_notMem (by decide)
  · exact escaped_of_notMem (by decide)
  · exact escaped_of_notMem (by decide)
  · refine escaped_of_notMem ?_
    have hdigits := notMem_toDigits (b := 16) (by decide)
      (fun d => Nat.digitChar_ne '"' rfl) c.toNat
    simp [hdigits]
  · exact escaped_of_notMem fun hmem => hquote (List.mem_singleton.mp hmem).symm

/-- So a text in quotes has no quote inside it that could be taken for its
end. -/
theorem escaped_flatMap (s : List Char) : Escaped (s.flatMap quotedChar) := by
  induction s with
  | nil => exact escaped_of_notMem List.not_mem_nil
  | cons c s ih => exact (escaped_quotedChar c).append ih

/-- A bare quote behind a space never stands inside an escaped text, so it
comes no later than the one that opens that text. -/
theorem le_of_open_quote {k k' body body' : List Char} (hbody : Escaped body)
    (h : k ++ ' ' :: '"' :: body = k' ++ ' ' :: '"' :: body') : k'.length ≤ k.length := by
  rcases List.append_eq_append_iff.mp h with ⟨front, rfl, hback⟩ | ⟨back, rfl, hback⟩
  · cases front with
    | nil => rw [List.append_nil]
    | cons x front =>
        injection hback with _ hback
        cases front with
        | nil => cases hback
        | cons y front =>
            -- the quote behind the space would be a bare one in `body`
            injection hback with _ hback
            obtain ⟨a', ha'⟩ := hbody (front ++ [' ']) body' (by rw [hback, List.append_assoc]; rfl)
            have hlast := (List.append_inj' ha' rfl).2
            cases hlast
  · rw [List.length_append]
    exact Nat.le_add_right _ _

/-- The last quote with a space before it opens the text behind it. -/
theorem open_quote_inj {k k' body body' : List Char} (hbody : Escaped body)
    (hbody' : Escaped body') (h : k ++ ' ' :: '"' :: body = k' ++ ' ' :: '"' :: body') :
    k = k' ∧ body = body' := by
  have hlength : k.length = k'.length :=
    Nat.le_antisymm (le_of_open_quote hbody' h.symm) (le_of_open_quote hbody h)
  obtain ⟨hk, hback⟩ := List.append_inj h hlength
  injection hback with _ hback
  injection hback with _ hback
  exact ⟨hk, hback⟩

/-- A quoted text is its characters as they stand in quotes, between two
quotes. -/
theorem toList_quoted (s : String) :
    (quoted s).toList = '"' :: (s.toList.flatMap quotedChar ++ ['"']) := String.toList_ofList

/-- A text in quotes is told from what comes behind it. -/
theorem toList_quoted_append_inj {s t : String} {r r' : List Char}
    (h : (quoted s).toList ++ r = (quoted t).toList ++ r') : s = t ∧ r = r' := by
  rw [toList_quoted, toList_quoted, List.cons_append, List.cons_append, List.append_assoc,
    List.append_assoc] at h
  injection h with _ h
  obtain ⟨hs, hr⟩ := quoted_append_inj h
  exact ⟨String.toList_inj.mp hs, hr⟩

theorem toList_toString (n : Nat) : (toString n).toList = Nat.toDigits 10 n := String.toList_ofList

/-- A number is told from what is no digit behind it. -/
theorem toList_toString_append_inj {n n' : Nat} {mark r r' : List Char} {c : Char}
    {rest : List Char}
    (h : (toString n).toList ++ (mark ++ r) = (toString n').toList ++ (mark ++ r'))
    (hmark : mark = c :: rest) (hc : ∀ d, Nat.digitChar d ≠ c) : n = n' ∧ r = r' := by
  rw [toList_toString, toList_toString, hmark] at h
  obtain ⟨hn, hback⟩ := toDigits_append_inj (by decide) (by decide) hc h
  exact ⟨hn, List.append_cancel_left hback⟩

theorem toString_inj {n n' : Nat} (h : (toString n).toList = (toString n').toList) : n = n' := by
  rw [toList_toString, toList_toString] at h
  have hn := congrArg (ofDigits 10) h
  rwa [ofDigits_toDigits (by decide) (by decide), ofDigits_toDigits (by decide) (by decide)] at hn

/-- A text as it is, with a text in quotes behind it. -/
theorem kind_inj {kind kind' text text' : String} {tail : List Char}
    (h : kind.toList ++ ((", message: " : String).toList ++ ((quoted text).toList ++ tail))
      = kind'.toList ++ ((", message: " : String).toList ++ ((quoted text').toList ++ tail))) :
    kind = kind' ∧ text = text' := by
  have hshape (kind text : String) :
      kind.toList ++ ((", message: " : String).toList ++ ((quoted text).toList ++ tail))
        = (kind.toList ++ (", message:" : String).toList)
          ++ ' ' :: '"' :: text.toList.flatMap quotedChar ++ '"' :: tail := by
    rw [toList_quoted]
    simp
  rw [hshape, hshape] at h
  obtain ⟨hkind, hbody⟩ := open_quote_inj (escaped_flatMap _) (escaped_flatMap _)
    (List.append_cancel_right h)
  obtain ⟨htext, -⟩ := quoted_append_inj (congrArg (· ++ ['"']) hbody)
  exact ⟨String.toList_inj.mp (List.append_cancel_right hkind), String.toList_inj.mp htext⟩

end Text

-- ============================================================= records

/-- What a record of an error says: the name of the error, and all the
data that comes with it. -/
inductive Error.Says : Error → String → Prop where
  | unreadable (path : String) (problem : FileProblem) :
      Says (.unreadable path problem)
        ("ProgramLoad \x7b path: " ++ Text.quoted path ++ ", source: Os \x7b code: "
          ++ toString problem.code ++ ", kind: " ++ problem.kind ++ ", message: "
          ++ Text.quoted problem.text ++ " \x7d \x7d")
  | tooLarge (size : Nat) :
      Says (.tooLarge size)
        ("ProgramTooLarge \x7b size: " ++ toString size ++ ", max_size: 3584 \x7d")
  | unknownInstruction (word pc : UInt16) :
      Says (.fault (.unknownInstruction word pc))
        ("UnknownInstruction \x7b opcode: " ++ toString word.toNat ++ ", pc: "
          ++ toString pc.toNat ++ " \x7d")
  | stackOverflow (pc : UInt16) :
      Says (.fault (.stackOverflow pc)) ("StackOverflow \x7b pc: " ++ toString pc.toNat ++ " \x7d")
  | stackUnderflow (pc : UInt16) :
      Says (.fault (.stackUnderflow pc)) ("StackUnderflow \x7b pc: " ++ toString pc.toNat ++ " \x7d")
  | invalidKey (code : UInt8) :
      Says (.invalidKey code) ("InvalidKey(" ++ toString code.toNat ++ ")")

namespace Error

/-- Every error has a record. -/
theorem exists_says (e : Error) : ∃ s, e.Says s := by
  cases e with
  | unreadable path problem => exact ⟨_, .unreadable path problem⟩
  | tooLarge size => exact ⟨_, .tooLarge size⟩
  | fault f =>
      cases f with
      | unknownInstruction word pc => exact ⟨_, .unknownInstruction word pc⟩
      | stackOverflow pc => exact ⟨_, .stackOverflow pc⟩
      | stackUnderflow pc => exact ⟨_, .stackUnderflow pc⟩
  | invalidKey code => exact ⟨_, .invalidKey code⟩

namespace Says

variable {e e' : Error} {s : String}

/-- An error has no other record than the one that is written. -/
theorem eq_record (h : e.Says s) : s = e.record := by
  have hcapacity : toString Memory.capacity = "3584" := rfl
  rw [← String.toList_inj]
  cases h with
  | tooLarge size =>
      simp only [record, labelled, hcapacity]
      simp [name, String.intercalate_cons_cons]
  | _ => simp [record, labelled, name, Fault.name, Fault.pc, String.intercalate_cons_cons]

/-- A record begins with the name of the error, and goes on with something
that is no letter. -/
theorem begins_with_name (h : e.Says s) :
    ∃ c r, c.isAlpha = false ∧ s.toList = e.name.toList ++ c :: r := by
  cases h with
  | invalidKey code => exact ⟨'(', _, rfl, by simp [name]; rfl⟩
  | _ => exact ⟨' ', _, rfl, by simp [name, Fault.name]; rfl⟩

/-- So the name is found again. -/
theorem name_eq (h : e.Says s) : s.toList.takeWhile Char.isAlpha = e.name.toList := by
  obtain ⟨c, r, hc, hs⟩ := h.begins_with_name
  have hname : ∀ c ∈ e.name.toList, c.isAlpha = true := by
    cases h with
    | _ => simp [name, Fault.name]
  rw [hs, List.takeWhile_append_of_pos hname, List.takeWhile_cons_of_neg (by rw [hc]; decide),
    List.append_nil]

/-- The data in a record of a problem with a file. -/
theorem unreadable_data {path path' kind kind' text text' : String} {code code' : Nat}
    (h : ("ProgramLoad \x7b path: " ++ Text.quoted path ++ ", source: Os \x7b code: "
          ++ toString code ++ ", kind: " ++ kind ++ ", message: " ++ Text.quoted text
          ++ " \x7d \x7d").toList
      = ("ProgramLoad \x7b path: " ++ Text.quoted path' ++ ", source: Os \x7b code: "
          ++ toString code' ++ ", kind: " ++ kind' ++ ", message: " ++ Text.quoted text'
          ++ " \x7d \x7d").toList) :
    path = path' ∧ code = code' ∧ kind = kind' ∧ text = text' := by
  simp only [String.toList_append, List.append_assoc, List.append_cancel_left_eq] at h
  obtain ⟨hpath, hsource⟩ := Text.toList_quoted_append_inj h
  have hrest := List.append_cancel_left hsource
  have hmark : (", kind: " : String).toList = ',' :: (" kind: " : String).toList := rfl
  obtain ⟨hcode, hkind⟩ :=
    Text.toList_toString_append_inj hrest hmark fun d => Nat.digitChar_ne ',' rfl
  exact ⟨hpath, hcode, Text.kind_inj hkind⟩

/-- The data in a record of an unknown instruction. -/
theorem unknownInstruction_data {word word' pc pc' : UInt16}
    (h : ("UnknownInstruction \x7b opcode: " ++ toString word.toNat ++ ", pc: "
          ++ toString pc.toNat ++ " \x7d").toList
      = ("UnknownInstruction \x7b opcode: " ++ toString word'.toNat ++ ", pc: "
          ++ toString pc'.toNat ++ " \x7d").toList) : word = word' ∧ pc = pc' := by
  simp only [String.toList_append, List.append_assoc, List.append_cancel_left_eq] at h
  have hmark : (", pc: " : String).toList = ',' :: (" pc: " : String).toList := rfl
  obtain ⟨hword, hpc⟩ := Text.toList_toString_append_inj h hmark fun d => Nat.digitChar_ne ',' rfl
  have hpc := Text.toString_inj (List.append_cancel_right hpc)
  exact ⟨UInt16.toNat_inj.mp hword, UInt16.toNat_inj.mp hpc⟩

/-- The number in a record that has no more than that. -/
theorem number_data {front back : String} {n n' : Nat}
    (h : (front ++ toString n ++ back).toList = (front ++ toString n' ++ back).toList) :
    n = n' := by
  simp only [String.toList_append, List.append_cancel_left_eq, List.append_cancel_right_eq] at h
  exact Text.toString_inj h

/-- No text is what two errors say. -/
theorem injective {s' : String} (h : e.Says s) (h' : e'.Says s') (heq : s.toList = s'.toList) :
    e = e' := by
  have hname : e.name = e'.name := by
    rw [← String.toList_inj, ← h.name_eq, ← h'.name_eq, heq]
  -- the names leave the errors of one kind, and the data are read off
  cases h with
  | unreadable path problem =>
      cases h' with
      | unreadable path' problem' =>
          obtain ⟨code, kind, text⟩ := problem
          obtain ⟨code', kind', text'⟩ := problem'
          obtain ⟨rfl, rfl, rfl, rfl⟩ := unreadable_data heq
          rfl
      | _ => simp [name, Fault.name] at hname
  | tooLarge size =>
      cases h' with
      | tooLarge size' => rw [number_data heq]
      | _ => simp [name, Fault.name] at hname
  | unknownInstruction word pc =>
      cases h' with
      | unknownInstruction word' pc' =>
          obtain ⟨rfl, rfl⟩ := unknownInstruction_data heq
          rfl
      | _ => simp [name, Fault.name] at hname
  | stackOverflow pc =>
      cases h' with
      | stackOverflow pc' => rw [UInt16.toNat_inj.mp (number_data heq)]
      | _ => simp [name, Fault.name] at hname
  | stackUnderflow pc =>
      cases h' with
      | stackUnderflow pc' => rw [UInt16.toNat_inj.mp (number_data heq)]
      | _ => simp [name, Fault.name] at hname
  | invalidKey code =>
      cases h' with
      | invalidKey code' => rw [UInt8.toNat_inj.mp (number_data heq)]
      | _ => simp [name, Fault.name] at hname

end Says

/-- What a record says is what is written. -/
theorem says_iff {e : Error} {s : String} : e.Says s ↔ s = e.record := by
  constructor
  · exact Says.eq_record
  · intro h
    obtain ⟨s', hs'⟩ := e.exists_says
    rw [h, ← hs'.eq_record]
    exact hs'

/-- Different errors have different records. -/
theorem record_injective : Function.Injective record := by
  intro e e' h
  exact (says_iff.mpr rfl).injective (says_iff.mpr rfl) (congrArg String.toList h)

end Error

end Chip8
