/-
What the memory holds, whatever was stored.

# Program images

A machine that was let run a program finds it from `programStart` on,
byte by byte (`read_ofProgram`) and word by word (`readWord_ofProgram`).

# The font

`HoldsFont` is the invariant: the first cells are the font. It is true
of every program image, since programs start behind the font, and a store
keeps it, because a store looks at the cell that it is about to write and
not at the address that chose the cell. So it does not matter from which
of the sixteen addresses of a cell a store comes, nor whether it wraps on
its way. `readMany_glyph` is what the invariant is for: the rows of a
glyph are still there to be drawn.
-/
import Mathlib
import Chip8.Machine.Basic

namespace Chip8

/-- The rows of a glyph lie in the font. -/
theorem Font.glyph_lt (value : UInt8) (r : Fin glyphRows) :
    5 * (value.toNat % 16) + r.val < size := by
  have hrows : glyphRows = 5 := rfl
  have hsize : size = 80 := rfl
  omega

/-- The rows of the glyph of the low digit of `value`. -/
def Font.glyph (value : UInt8) : Vector UInt8 glyphRows :=
  Vector.ofFn fun r => bytes.get ⟨5 * (value.toNat % 16) + r.val, glyph_lt value r⟩

namespace Memory

-- ======================================================= program images

/-- What a program image has in a cell. -/
theorem cells_ofProgram (program : Array UInt8) (c : Cell) :
    (ofProgram program).cells.get c
      = if h : c.val < Font.size then Font.bytes.get ⟨c.val, h⟩
        else if programStart ≤ c.val then program.getD (c.val - programStart) 0
        else 0 := by
  rw [Vector.get_eq_getElem, ofProgram, Vector.getElem_ofFn]
  rfl

/-- The bytes of a program are where programs are loaded. -/
theorem read_ofProgram (program : Array UInt8) {a : UInt16} {k : Nat}
    (ha : a.toNat = programStart + k) (hk : k < capacity) :
    (ofProgram program).read a = program.getD k 0 := by
  have hstart : programStart = 512 := rfl
  have hcap : capacity = 3584 := rfl
  have hsize : Font.size = 80 := rfl
  have hcell : (Cell.ofAddress a).val = programStart + k := by
    show a.toNat % 4096 = programStart + k
    omega
  show (ofProgram program).cells.get (Cell.ofAddress a) = program.getD k 0
  rw [cells_ofProgram, dif_neg (by omega), if_pos (by omega), hcell,
    Nat.add_sub_cancel_left]

/-- A program image, cell by cell: the font, zeros up to `programStart`,
the program, and zeros behind it. -/
theorem toList_ofProgram {program : Array UInt8} (hsize : program.size ≤ capacity) :
    (ofProgram program).cells.toList
      = Font.bytes.toList ++ List.replicate (programStart - Font.size) 0 ++ program.toList
        ++ List.replicate (capacity - program.size) 0 := by
  have hstart : programStart = 512 := rfl
  have hcap : capacity = 3584 := rfl
  have hfont : Font.size = 80 := rfl
  refine List.ext_getElem (by simp; omega) fun c hc hc' => ?_
  have hlt : c < 4096 := by simpa using hc
  have hcell := cells_ofProgram program ⟨c, hlt⟩
  rw [Vector.get_eq_getElem] at hcell
  rw [Vector.getElem_toList]
  refine hcell.trans ?_
  simp only [List.getElem_append, Vector.length_toList, List.length_append, List.length_replicate,
    Array.length_toList, Vector.getElem_toList, List.getElem_replicate, Array.getElem_toList]
  by_cases hlow : c < Font.size
  · rw [dif_pos hlow, dif_pos (by omega), dif_pos (by omega), dif_pos hlow]
    rfl
  · rw [dif_neg hlow]
    by_cases hgap : c < programStart
    · rw [if_neg (by omega), dif_pos (by omega), dif_pos (by omega), dif_neg hlow]
    · have hbehind : Font.size + (programStart - Font.size) = programStart := by omega
      rw [if_pos (by omega)]
      simp only [hbehind]
      by_cases hin : c < programStart + program.size
      · rw [dif_pos hin, dif_neg hgap]
        exact (Array.getElem_eq_getD _).symm
      · rw [dif_neg hin, Array.getD_eq_getD_getElem?, Array.getElem?_eq_none (by omega)]
        rfl

/-- The word at a byte of a program is made of that byte and the next. -/
theorem readWord_ofProgram (program : Array UInt8) {a : UInt16} {k : Nat}
    (ha : a.toNat = programStart + k) (hk : k + 1 < capacity) :
    (ofProgram program).readWord a
      = UInt16.ofNat ((program.getD k 0).toNat * 256 + (program.getD (k + 1) 0).toNat) := by
  have hstart : programStart = 512 := rfl
  have hcap : capacity = 3584 := rfl
  have hnext : (a + 1).toNat = programStart + (k + 1) := by
    rw [UInt16.toNat_add]
    show (a.toNat + 1) % 65536 = programStart + (k + 1)
    omega
  unfold readWord
  rw [read_ofProgram program ha (by omega), read_ofProgram program hnext hk]

/-- What a machine runs while its memory is the image of its program. -/
theorem decode_ofProgram {m : Machine} {program : Array UInt8} {k : Nat} {i : Instr}
    (hmem : m.memory = ofProgram program) (hpc : m.pc.toNat = programStart + k)
    (hk : k + 1 < capacity)
    (hdec : Instr.decode?
      (UInt16.ofNat ((program.getD k 0).toNat * 256 + (program.getD (k + 1) 0).toNat)) = some i) :
    Instr.decode? m.fetch = some i := by
  unfold Machine.fetch
  rw [hmem, readWord_ofProgram program hpc hk]
  exact hdec

-- ============================================================= the font

/-- The first cells are the font. -/
def HoldsFont (m : Memory) : Prop :=
  ∀ (c : Cell) (hc : c.val < Font.size), m.cells.get c = Font.bytes.get ⟨c.val, hc⟩

/-- A memory that a program was laid in has the font below it. -/
theorem holdsFont_ofProgram (program : Array UInt8) : (ofProgram program).HoldsFont := by
  intro c hc
  rw [cells_ofProgram, dif_pos hc]

/-- A byte that is put into a cell spares the font: a cell of the font is
left alone, and any other is not part of it. -/
theorem HoldsFont.put {m : Memory} (h : m.HoldsFont) (cell : Cell) (byte : UInt8) :
    (m.put cell byte).HoldsFont := by
  intro c hc
  unfold Memory.put
  cases hfont : cell.isFont with
  | true => exact h c hc
  | false =>
      have hcell : ¬ cell.val < Font.size := by simpa [Cell.isFont] using hfont
      have hne : cell.val ≠ c.val := by omega
      rw [if_neg (by simp), Vector.get_eq_getElem, Vector.getElem_set_ne _ _ hne]
      exact h c hc

/-- Whatever is stored, at whatever address, the font stays. -/
theorem HoldsFont.store {m : Memory} (h : m.HoldsFont) (a : UInt16) (bytes : List UInt8) :
    (m.store a bytes).1.HoldsFont := by
  induction bytes generalizing m a with
  | nil => exact h
  | cons byte rest ih => exact ih (h.put (Cell.ofAddress a) byte) (a + 1)

/-- The font is the bytes that the memory begins with. -/
theorem HoldsFont.take_cells {m : Memory} (h : m.HoldsFont) :
    m.cells.toList.take Font.size = Font.bytes.toList := by
  have hsize : Font.size = 80 := rfl
  refine List.ext_getElem (by simp [hsize]) fun c hc hc' => ?_
  have hlt : c < Font.size := by simpa using hc'
  rw [List.getElem_take, Vector.getElem_toList, Vector.getElem_toList]
  exact h ⟨c, by omega⟩ hlt

/-- The rows of a glyph can be read where the font has it. -/
theorem HoldsFont.readMany_glyph {m : Memory} (h : m.HoldsFont) (value : UInt8) :
    m.readMany (Font.address value) Font.glyphRows = (Font.glyph value).toList := by
  have hsize : Font.size = 80 := rfl
  have hrows : Font.glyphRows = 5 := rfl
  refine List.ext_getElem (by simp [readMany]) fun r hr hr' => ?_
  have hlt : r < Font.glyphRows := by simpa using hr'
  have hcell : (Cell.ofAddress (Font.address value + UInt16.ofNat r)).val
      = 5 * (value.toNat % 16) + r := by
    show (Font.address value + UInt16.ofNat r).toNat % 4096 = _
    rw [UInt16.toNat_add, Font.address, UInt16.toNat_ofNat', UInt16.toNat_ofNat', hrows]
    omega
  have hfont : (Cell.ofAddress (Font.address value + UInt16.ofNat r)).val < Font.size := by
    omega
  simp only [readMany, List.getElem_map, List.getElem_range, Vector.getElem_toList]
  show m.cells.get (Cell.ofAddress (Font.address value + UInt16.ofNat r)) = _
  rw [h _ hfont]
  simp only [Font.glyph, Vector.getElem_ofFn, hcell, Vector.get_eq_getElem]

end Memory

end Chip8
