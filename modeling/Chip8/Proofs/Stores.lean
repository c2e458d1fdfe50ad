/-
What FX33 and FX55 leave in memory, byte by byte, and what FX65 finds there.

# Cells behind an address

The bytes of a store go to the cells behind I, and these are counted round
4096 whether or not the address wraps at 65536 on its way, since 4096
divides 65536 (`ofAddress_add`). As there are 4096 of them, no two bytes of
a store that is no longer than memory aim at the same cell
(`behind_injective`). So no byte is overwritten by a later one.

# Stores

A store is therefore known from each cell on its own: a cell behind I that
is not part of the font holds its byte (`store_lands`), every other cell
what it held before (`store_keeps`), and the cells of the font that were
aimed at are reported in the order of the bytes (`store_refused`). The
rest is to read this off for registers and for decimal digits, and to load
back what was stored.
-/
import Chip8.Proofs.Effects
import Chip8.Proofs.Log

namespace Chip8

-- =============================================== cells behind an address

namespace Cell

theorem mod_lt (n : Nat) : n % 4096 < 4096 := Nat.mod_lt _ (by decide)

/-- The cell `i` places behind an address: their sum modulo 4096. -/
def behind (a : UInt16) (i : Nat) : Cell := ⟨(a.toNat + i) % 4096, mod_lt _⟩

/-- The cell that is so far behind an address is the one it falls on when
moved on so far. -/
theorem ofAddress_add (a : UInt16) (i : Nat) :
    Cell.ofAddress (a + UInt16.ofNat i) = behind a i := by
  apply Fin.ext
  show (a + UInt16.ofNat i).toNat % 4096 = (a.toNat + i) % 4096
  rw [UInt16.toNat_add, UInt16.toNat_ofNat']
  omega

theorem behind_zero (a : UInt16) : behind a 0 = Cell.ofAddress a := rfl

theorem behind_add_one (a : UInt16) (i : Nat) : behind (a + 1) i = behind a (i + 1) := by
  apply Fin.ext
  show ((a + 1).toNat + i) % 4096 = (a.toNat + (i + 1)) % 4096
  rw [UInt16.toNat_add, show (1 : UInt16).toNat = 1 from rfl]
  omega

/-- The cells behind an address are all different up to the size of the
memory. -/
theorem behind_injective {a : UInt16} {i j : Nat} (hi : i < 4096) (hj : j < 4096)
    (h : behind a i = behind a j) : i = j := by
  have hmod : (a.toNat + i) % 4096 = (a.toNat + j) % 4096 := congrArg Fin.val h
  omega

/-- The lowest address of a cell is its number. -/
theorem toNat_address (c : Cell) : c.address.toNat = c.val := by
  have hlt := c.isLt
  show (UInt16.ofNat c.val).toNat = c.val
  rw [UInt16.toNat_ofNat']
  omega

end Cell

-- =============================================================== stores

namespace Memory

variable {m : Memory} {a : UInt16} {bytes : List UInt8} {c : Cell}

/-- A read so far behind an address reads the cell there. -/
theorem read_add (m : Memory) (a : UInt16) (i : Nat) :
    m.read (a + UInt16.ofNat i) = m.cells.get (Cell.behind a i) := by
  rw [← Cell.ofAddress_add]
  rfl

/-- A byte that is put above the font is there. -/
theorem put_self (m : Memory) (byte : UInt8) (h : c.isFont = false) :
    (m.put c byte).cells.get c = byte := by
  unfold put
  rw [if_neg (by simp [h])]
  exact Vector.getElem_set_self c.isLt

/-- A cell is left alone by what is put in another, or in itself if it is
of the font. -/
theorem put_of_ne (m : Memory) (byte : UInt8) {c' : Cell} (h : c' = c → c.isFont = true) :
    (m.put c' byte).cells.get c = m.cells.get c := by
  unfold put
  cases hfont : c'.isFont with
  | true => rfl
  | false =>
      have hne : c'.val ≠ c.val := by
        intro hval
        have heq := Fin.ext hval
        rw [heq, h heq] at hfont
        cases hfont
      exact Vector.getElem_set_ne c'.isLt c.isLt hne

/-- What no byte is put into keeps its byte. -/
theorem store_keeps (bytes : List UInt8) :
    ∀ (m : Memory) (a : UInt16),
      (∀ i, i < bytes.length → Cell.behind a i = c → c.isFont = true) →
      (m.store a bytes).1.cells.get c = m.cells.get c := by
  induction bytes with
  | nil =>
      intro m a _
      rfl
  | cons byte rest ih =>
      intro m a h
      show ((m.put (Cell.ofAddress a) byte).store (a + 1) rest).1.cells.get c = _
      have hfirst : Cell.ofAddress a = c → c.isFont = true := h 0 (Nat.succ_pos _)
      rw [ih, put_of_ne m byte hfirst]
      intro i hi hc
      rw [Cell.behind_add_one] at hc
      exact h (i + 1) (Nat.succ_lt_succ hi) hc

/-- Each byte is in its cell, unless the cell belongs to the font. -/
theorem store_lands (bytes : List UInt8) :
    ∀ (m : Memory) (a : UInt16), bytes.length ≤ 4096 → ∀ (i : Nat) (byte : UInt8),
      bytes[i]? = some byte → (Cell.behind a i).isFont = false →
      (m.store a bytes).1.cells.get (Cell.behind a i) = byte := by
  induction bytes with
  | nil =>
      intro m a _ i byte hbyte
      cases hbyte
  | cons first rest ih =>
      intro m a hlength i byte hbyte hfont
      rw [List.length_cons] at hlength
      show ((m.put (Cell.ofAddress a) first).store (a + 1) rest).1.cells.get _ = byte
      cases i with
      | zero =>
          -- none of the bytes behind the first comes round to its cell
          cases hbyte
          rw [store_keeps]
          · exact put_self m first hfont
          · intro j hj hcell
            rw [Cell.behind_add_one] at hcell
            have hzero := Cell.behind_injective (by omega) (by omega) hcell
            cases hzero
      | succ i =>
          rw [← Cell.behind_add_one] at hfont ⊢
          exact ih _ _ (by omega) i byte hbyte hfont

/-- The cells that a store leaves alone are those of the font that it aims
at, in the order of its bytes. -/
theorem store_refused (bytes : List UInt8) :
    ∀ (m : Memory) (a : UInt16), (m.store a bytes).2
      = ((List.range bytes.length).map (Cell.behind a)).filter Cell.isFont := by
  induction bytes with
  | nil =>
      intro m a
      rfl
  | cons byte rest ih =>
      intro m a
      have hrest : (List.range rest.length).map (Cell.behind (a + 1))
          = ((List.range rest.length).map Nat.succ).map (Cell.behind a) := by
        rw [List.map_map]
        exact List.map_congr_left fun i _ => Cell.behind_add_one a i
      have hfirst : (m.store a (byte :: rest)).2
          = if (Cell.ofAddress a).isFont
            then Cell.ofAddress a :: ((m.put (Cell.ofAddress a) byte).store (a + 1) rest).2
            else ((m.put (Cell.ofAddress a) byte).store (a + 1) rest).2 := rfl
      rw [hfirst, ih, hrest, List.length_cons, List.range_succ_eq_map, List.map_cons,
        List.filter_cons, Cell.behind_zero]

end Memory

-- ============================================================= warnings

namespace Cell

/-- The cells that a store of `n` bytes aims at. -/
def targets (a : UInt16) (n : Nat) : Finset Cell := (Finset.range n).image (behind a)

/-- A list of the cells of the font that are aimed at, in order, names each
of them once. -/
theorem length_targets (a : UInt16) {n : Nat} (hn : n ≤ 4096) :
    (((List.range n).map (behind a)).filter isFont).length
      = ((targets a n).filter fun c => c.isFont = true).card := by
  have hnodup : ((List.range n).map (behind a)).Nodup := by
    refine List.nodup_range.map_on fun i hi j hj h => ?_
    rw [List.mem_range] at hi hj
    exact behind_injective (by omega) (by omega) h
  rw [← List.toFinset_card_of_nodup (hnodup.filter _), List.toFinset_filter]
  rfl

end Cell

/-- Whether a record warns of a write into the font. -/
def Record.warnsOfFont (r : Record) : Bool :=
  r.level == .warning && r.hasMessage "ignoring write into the font"

/-- What is recorded of cells that were left alone: a warning for each. -/
theorem warnings_of_refused (refused : List Cell) :
    ((refused.map Event.fontKept).map Event.record).filter Record.warnsOfFont
      = refused.map fun c => (Event.fontKept c).record := by
  rw [List.map_map, List.filter_eq_self.mpr]
  · rfl
  · intro r hr
    obtain ⟨c, -, rfl⟩ := List.mem_map.mp hr
    rfl

namespace Machine

variable {m : Machine} {x i : Reg}

/-- Bytes were stored from I on, each in a cell of its own: where a cell
belongs to the font it keeps its byte, and a warning names it. -/
structure Stores (m : Machine) (bytes : List UInt8) (memory : Memory) (events : List Event) :
    Prop where
  apart : ∀ i j, i < bytes.length → j < bytes.length →
    Cell.behind m.index i = Cell.behind m.index j → i = j
  lands : ∀ i byte, bytes[i]? = some byte → (Cell.behind m.index i).isFont = false →
    memory.cells.get (Cell.behind m.index i) = byte
  keeps : ∀ c, (∀ i, i < bytes.length → Cell.behind m.index i = c → c.isFont = true) →
    memory.cells.get c = m.memory.cells.get c
  /-- There are as many warnings as cells of the font that were aimed at. -/
  counted : ((events.map Event.record).filter Record.warnsOfFont).length
    = ((Cell.targets m.index bytes.length).filter fun c => c.isFont = true).card
  /-- They name these cells in the order of the bytes. -/
  named : ((events.map Event.record).filter Record.warnsOfFont).map (·.field? "addr")
    = (((List.range bytes.length).map (Cell.behind m.index)).filter Cell.isFont).map
        fun c => some (Text.hex 3 c.val)

/-- Storing some bytes at I stores them one by one behind I, and reports
those that fell on the font. -/
theorem storeBytes_stores (m : Machine) {bytes : List UInt8} (h : bytes.length ≤ 4096) :
    m.Stores bytes (m.memory.store m.index bytes).1 (m.storeBytes bytes).2 := by
  have hwarnings : ((m.storeBytes bytes).2.map Event.record).filter Record.warnsOfFont
      = (((List.range bytes.length).map (Cell.behind m.index)).filter Cell.isFont).map
          fun c => (Event.fontKept c).record := by
    rw [← Memory.store_refused bytes m.memory m.index]
    exact warnings_of_refused _
  constructor
  case apart =>
    intro i j hi hj heq
    exact Cell.behind_injective (by omega) (by omega) heq
  case lands => exact Memory.store_lands bytes m.memory m.index h
  case keeps => exact fun c hc => Memory.store_keeps bytes m.memory m.index hc
  case counted => rw [hwarnings, List.length_map, Cell.length_targets m.index h]
  case named =>
    rw [hwarnings, List.map_map]
    apply List.map_congr_left
    intro c _
    show some (Text.hex 3 c.address.toNat) = some (Text.hex 3 c.val)
    rw [c.toNat_address]

theorem length_upTo (m : Machine) (x : Reg) : (m.upTo x).length = x.val + 1 := by
  have hx := x.isLt
  unfold upTo
  rw [List.length_take, Vector.length_toList]
  omega

/-- Of the registers up to VX each is in its place. -/
theorem getElem?_upTo (h : i ≤ x) : (m.upTo x)[i.val]? = some (m.get i) := by
  have hi : i.val < m.registers.toList.length := by
    rw [Vector.length_toList]
    exact i.isLt
  have hle : i.val ≤ x.val := h
  unfold upTo
  rw [List.getElem?_take_of_lt (by omega), List.getElem?_eq_getElem hi, Vector.getElem_toList]
  rfl

/-- FX55 stores the registers up to VX. -/
theorem stores_of_store {m' : Machine} {events : List Event}
    (h : m.exec (.store x) = .ok (m', events)) : m.Stores (m.upTo x) m'.memory events := by
  have hlength : (m.upTo x).length ≤ 4096 := by
    have hx := x.isLt
    rw [length_upTo]
    omega
  have hmemory : m'.memory = (m.memory.store m.index (m.upTo x)).1 := (exec_footprint h).memory
  cases h
  rw [hmemory]
  exact m.storeBytes_stores hlength

/-- The decimal digits of a byte are three, and make it up. -/
theorem decimalDigits_eq (value : UInt8) :
    ∃ h t o, decimalDigits value = [h, t, o] ∧ t.toNat ≤ 9 ∧ o.toNat ≤ 9
      ∧ 100 * h.toNat + 10 * t.toNat + o.toNat = value.toNat := by
  refine ⟨value / 100, value / 10 % 10, value % 10, rfl, ?_⟩
  rw [UInt8.toNat_mod, UInt8.toNat_mod, UInt8.toNat_div, UInt8.toNat_div]
  simp only [show (10 : UInt8).toNat = 10 from rfl, show (100 : UInt8).toNat = 100 from rfl]
  omega

/-- FX55 and FX33 write exactly the bytes that they aim at, and report
exactly what they drop.

FX55 stores V0 to VX from I on, and FX33 the hundreds, tens and ones of
VX, and leaves I alone. The addresses are taken modulo 4096 and fall on
different cells; a cell of the font keeps its byte, every other one that
is aimed at holds the byte meant for it, and the cells that are not aimed
at hold what they held. For each cell of the font that was aimed at there
is one warning with its address, in the order of the bytes. -/
theorem stores_hit_their_cells (m : Machine) (x : Reg) :
    (∃ bytes m' events, m.exec (.store x) = .ok (m', events)
        ∧ bytes.length = x.val + 1 ∧ (∀ i : Reg, i ≤ x → bytes[i.val]? = some (m.get i))
        ∧ m.Stores bytes m'.memory events)
      ∧ ∃ h t o m' events, m.exec (.decimal x) = .ok (m', events)
        ∧ t.toNat ≤ 9 ∧ o.toNat ≤ 9 ∧ 100 * h.toNat + 10 * t.toNat + o.toNat = (m.get x).toNat
        ∧ m.Stores [h, t, o] m'.memory events ∧ m'.index = m.index := by
  constructor
  · have hexec : m.exec (.store x) = .ok
        (((m.storeBytes (m.upTo x)).1.advanceIndex x).next, (m.storeBytes (m.upTo x)).2) := rfl
    exact ⟨m.upTo x, _, _, hexec, m.length_upTo x, fun i hi => getElem?_upTo hi,
      stores_of_store hexec⟩
  · obtain ⟨h, t, o, hdigits, ht, ho, hvalue⟩ := decimalDigits_eq (m.get x)
    have hexec : m.exec (.decimal x) = .ok
        ((m.storeBytes (decimalDigits (m.get x))).1.next,
          (m.storeBytes (decimalDigits (m.get x))).2) := rfl
    refine ⟨h, t, o, _, _, hexec, ht, ho, hvalue, ?_, rfl⟩
    rw [(exec_footprint hexec).memory, ← hdigits]
    have hlength : (decimalDigits (m.get x)).length = 3 := rfl
    exact m.storeBytes_stores (by omega)

/-- A machine that has I two places before the end of the addresses. -/
def beforeEnd : Machine :=
  { booted #[] with index := 0xFFFE, registers := Vector.replicate 16 7 }

/-- Of four registers stored there, two go to the end of memory and two are
dropped at the font; of three digits, only the last is dropped. -/
theorem store_goes_round_end :
    (∃ m' events, beforeEnd.exec (.store 3) = .ok (m', events)
        ∧ (∃ c, c.val = 4095 ∧ m'.memory.cells.get c = 7)
        ∧ (∃ c, c.val = 1 ∧ m'.memory.cells.get c = beforeEnd.memory.cells.get c)
        ∧ ((events.map Event.record).filter Record.warnsOfFont).map (·.field? "addr")
          = [some "0x000", some "0x001"])
      ∧ ∃ m' events, beforeEnd.exec (.decimal 0) = .ok (m', events)
        ∧ ((events.map Event.record).filter Record.warnsOfFont).length = 1 := by
  obtain ⟨⟨bytes, m', events, hexec, hlength, hbytes, hstores⟩, -⟩ :=
    stores_hit_their_cells beforeEnd 3
  obtain ⟨-, h, t, o, m'', events', hexec', -, -, -, hstores', -⟩ :=
    stores_hit_their_cells beforeEnd 0
  have hlength : bytes.length = 4 := hlength
  refine ⟨⟨m', events, hexec, ⟨_, rfl, hstores.lands 1 7 (hbytes 1 (by decide)) rfl⟩,
    ⟨Cell.behind 0xFFFE 3, rfl, hstores.keeps _ fun _ _ _ => rfl⟩, ?_⟩, m'', events', hexec', ?_⟩
  · rw [hstores.named, hlength]
    decide
  · rw [hstores'.counted]
    show ((Cell.targets 0xFFFE 3).filter fun c => c.isFont = true).card = 1
    decide

-- ==================================================== loaded after stored

/-- Loading registers up to VX gives each of them what is stored that far
behind I. -/
theorem loadRegisters_get_of_le (h : i ≤ x) :
    (m.loadRegisters x).get i = m.memory.cells.get (Cell.behind m.index i.val) := by
  rw [← Memory.read_add]
  refine (Vector.getElem_ofFn i.isLt).trans ?_
  exact if_pos h

/-- I moves past the last register if the configuration says so, and wraps. -/
theorem toNat_advanceIndex (m : Machine) (x : Reg) :
    (m.advanceIndex x).index.toNat
      = if m.config.advancesIndex then (m.index.toNat + x.val + 1) % 65536
        else m.index.toNat := by
  have hx := x.isLt
  unfold advanceIndex
  split
  · show (m.index + UInt16.ofNat (x.val + 1)).toNat = _
    rw [UInt16.toNat_add, UInt16.toNat_ofNat']
    omega
  · rfl

/-- What was stored is loaded again, except from the font.

Let V0 to VX be stored from I on, the registers changed in any way, I put
back, and V0 to VX loaded. Both instructions can be run. Each of the
registers is then what it was before the store if its cell is not part of
the font, and otherwise the byte of the font there; the registers above VX
keep what they were changed to; and I is behind the cells if the machine is
configured to move it, and where it was if not. -/
theorem load_undoes_store (hfont : m.memory.HoldsFont) (x : Reg) (registers : Vector UInt8 16) :
    ∃ m₁ events m₂, m.exec (.store x) = .ok (m₁, events)
      ∧ { m₁ with registers := registers, index := m.index }.exec (.load x) = .ok (m₂, [])
      ∧ (∀ i : Reg, i ≤ x → (Cell.behind m.index i.val).isFont = false → m₂.get i = m.get i)
      ∧ (∀ i : Reg, i ≤ x → ∀ hc : (Cell.behind m.index i.val).val < Font.size,
        m₂.get i = Font.bytes.get ⟨(Cell.behind m.index i.val).val, hc⟩)
      ∧ (∀ r : Reg, x < r → m₂.get r = registers.get r)
      ∧ m₂.index.toNat
        = if m.config.advancesIndex then (m.index.toNat + x.val + 1) % 65536
          else m.index.toNat := by
  have hexec : m.exec (.store x) = .ok
      (((m.storeBytes (m.upTo x)).1.advanceIndex x).next, (m.storeBytes (m.upTo x)).2) := rfl
  have hfoot := exec_footprint hexec
  have hstores := stores_of_store hexec
  generalize ((m.storeBytes (m.upTo x)).1.advanceIndex x).next = m₁ at hexec hfoot hstores
  have hfont₁ : m₁.memory.HoldsFont := by
    rw [hfoot.memory]
    exact hfont.store _ _
  have hloaded (i : Reg) (hi : i ≤ x) :
      (({ m₁ with registers := registers, index := m.index }.loadRegisters x).advanceIndex x).get i
        = m₁.memory.cells.get (Cell.behind m.index i.val) :=
    (advanceIndex_get _ x i).trans (loadRegisters_get_of_le hi)
  refine ⟨m₁, _, _, hexec, rfl, fun i hi hcell => ?_, fun i hi hcell => ?_, fun r hr => ?_, ?_⟩
  · exact (hloaded i hi).trans (hstores.lands i.val (m.get i) (getElem?_upTo hi) hcell)
  · exact (hloaded i hi).trans (hfont₁ _ hcell)
  · exact (advanceIndex_get _ x r).trans (loadRegisters_get (not_le.mpr hr))
  · refine (toNat_advanceIndex _ x).trans ?_
    show (if m₁.config.advancesIndex then _ else _) = _
    rw [hfoot.config]
    rfl

/-- Stored round the end of memory and cleared, V0 comes back, and V2 and V3
are the first bytes of the font. -/
theorem registers_come_back :
    beforeEnd.memory.HoldsFont
      ∧ ∃ m₁ events m₂, beforeEnd.exec (.store 3) = .ok (m₁, events)
        ∧ { m₁ with registers := Vector.replicate 16 0, index := beforeEnd.index }.exec (.load 3)
          = .ok (m₂, [])
        ∧ m₂.get 0 = 7 ∧ m₂.get 2 = 0xF0 ∧ m₂.get 3 = 0x90 ∧ m₂.get 4 = 0
        ∧ m₂.index.toNat = 2 := by
  have hfont : beforeEnd.memory.HoldsFont := Memory.holdsFont_ofProgram #[]
  obtain ⟨m₁, events, m₂, hstore, hload, hback, hglyph, habove, hindex⟩ :=
    load_undoes_store hfont 3 (Vector.replicate 16 0)
  exact ⟨hfont, m₁, events, m₂, hstore, hload, hback 0 (by decide) rfl,
    hglyph 2 (by decide) (by decide), hglyph 3 (by decide) (by decide), habove 4 (by decide),
    hindex⟩

end Machine

end Chip8
