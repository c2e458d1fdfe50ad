/-
What DXYN does, from the bytes behind I to the flag.

The rows of the sprite are the bytes in the cells behind I, which are
counted round the end of memory and of the addresses (`getElem?_readMany`).
They are fifteen at most, so no two of their bits fall on one pixel, and
the draw is an exclusive or with the pixels that they fall on (`Turns`);
it collides if one of these was lit. Both are said by the coordinates, and
so by VX and VY, as they are before the draw. That one of the two may be VF
does no harm, since the flag is written when all is drawn.
-/
import Chip8.Proofs.Redraw
import Chip8.Proofs.Stores

namespace Chip8

/-- The bytes read from an address on are those of the cells behind it. -/
theorem Memory.getElem?_readMany {m : Memory} {a : UInt16} {n r : Nat} {byte : UInt8} :
    (m.readMany a n)[r]? = some byte ↔ r < n ∧ m.cells.get (Cell.behind a r) = byte := by
  unfold readMany
  rw [List.getElem?_map, Option.map_eq_some_iff]
  constructor
  · intro h
    obtain ⟨i, hi, hbyte⟩ := h
    obtain ⟨hlt, heq⟩ := List.getElem?_eq_some_iff.mp hi
    rw [List.length_range] at hlt
    rw [List.getElem_range] at heq
    subst heq
    exact ⟨hlt, (m.read_add a r).symm.trans hbyte⟩
  · intro h
    obtain ⟨hlt, hbyte⟩ := h
    exact ⟨r, List.getElem?_range hlt, (m.read_add a r).trans hbyte⟩

namespace Machine

variable {m : Machine} {x y : Reg} {n : Nat} {p : Pixel}

/-- One of the first `n` bytes behind I, as rows of a sprite with its top
left corner at (VX, VY), has a bit set that falls on a pixel. -/
def Turns (m : Machine) (x y : Reg) (n : Nat) (p : Pixel) : Prop :=
  ∃ r c, r < n ∧ c < 8
    ∧ (m.memory.cells.get (Cell.behind m.index r)).toNat.testBit (7 - c) = true
    ∧ p = Pixel.ofCoords ((m.get x).toNat + c) ((m.get y).toNat + r)

/-- The pixels of a sprite are those that the bits of its rows turn over. -/
theorem mem_pixels_iff_turns :
    p ∈ Sprite.pixels (m.get x).toNat (m.get y).toNat (m.memory.readMany m.index n)
      ↔ m.Turns x y n p := by
  rw [Sprite.mem_pixels]
  constructor
  · intro h
    obtain ⟨r, byte, c, hr, hc, hbit, hp⟩ := h
    obtain ⟨hlt, hbyte⟩ := Memory.getElem?_readMany.mp hr
    subst hbyte
    exact ⟨r, c, hlt, hc, hbit, hp⟩
  · intro h
    obtain ⟨r, c, hr, hc, hbit, hp⟩ := h
    exact ⟨r, _, c, Memory.getElem?_readMany.mpr ⟨hr, rfl⟩, hc, hbit, hp⟩

/-- A sprite without a set bit turns nothing over. -/
theorem not_turns_of_blank (h : ∀ r, r < n → m.memory.cells.get (Cell.behind m.index r) = 0) :
    ¬ m.Turns x y n p := by
  intro hturns
  obtain ⟨r, c, hr, -, hbit, -⟩ := hturns
  rw [h r hr] at hbit
  simp at hbit

/-- The display and the collision when the bytes behind I are drawn. -/
def drawn (m : Machine) (x y : Reg) (n : Nat) : Display × Bool :=
  m.display.draw (m.get x) (m.get y) (m.memory.readMany m.index n)

/-- A sprite is never taller than the screen. -/
theorem length_rows (h : n < 16) : (m.memory.readMany m.index n).length ≤ 32 := by
  unfold Memory.readMany
  rw [List.length_map, List.length_range]
  omega

/-- The draw turns over what is under a bit, and nothing else. -/
theorem lit_drawn (h : n < 16) :
    (m.Turns x y n p → (m.drawn x y n).1.lit.get p = !m.display.lit.get p)
      ∧ (¬ m.Turns x y n p → (m.drawn x y n).1.lit.get p = m.display.lit.get p) := by
  have hlit := m.display.lit_draw (m.get x) (m.get y) (m.length_rows h) p
  constructor
  · intro hturns
    rw [decide_eq_true (mem_pixels_iff_turns.mpr hturns), Bool.xor_true] at hlit
    exact hlit
  · intro hturns
    rw [decide_eq_false (mt mem_pixels_iff_turns.mp hturns), Bool.xor_false] at hlit
    exact hlit

/-- The draw collides if it turns over a pixel that was lit. -/
theorem drawn_collides_iff (h : n < 16) :
    (m.drawn x y n).2 = true ↔ ∃ p, m.Turns x y n p ∧ m.display.lit.get p = true := by
  refine (Display.draw_collides_iff_of_le (m.length_rows h)).trans ?_
  exact exists_congr fun p => and_congr_left' mem_pixels_iff_turns

/-- DXYN draws the N bytes behind I, as rows of a sprite, with the top left
corner where VX and VY say. Exactly the pixels under a set bit are turned
over. VF is one if one of these was lit and zero if not, and so zero for a
sprite without a set bit or without a row. No other register changes, and
neither do memory and I. -/
theorem draw_turns_over_its_bits (m : Machine) (x y : Reg) (n : Fin 16) :
    ∃ m', m.exec (.draw x y n) = .ok (m', [])
      ∧ (∀ p, m.Turns x y n.val p → m'.display.lit.get p = !m.display.lit.get p)
      ∧ (∀ p, ¬ m.Turns x y n.val p → m'.display.lit.get p = m.display.lit.get p)
      ∧ ((∃ p, m.Turns x y n.val p ∧ m.display.lit.get p = true) → m'.get Reg.flag = 1)
      ∧ ((¬ ∃ p, m.Turns x y n.val p ∧ m.display.lit.get p = true) → m'.get Reg.flag = 0)
      ∧ ((∀ r, r < n.val → m.memory.cells.get (Cell.behind m.index r) = 0) →
        m'.get Reg.flag = 0)
      ∧ (∀ r, r ≠ Reg.flag → m'.get r = m.get r)
      ∧ m'.memory = m.memory ∧ m'.index = m.index := by
  have hflag : (m.draw x y n.val).get Reg.flag = (m.drawn x y n.val).2.toUInt8 :=
    get_set_self _ Reg.flag _
  have hclear : (¬ ∃ p, m.Turns x y n.val p ∧ m.display.lit.get p = true) →
      (m.draw x y n.val).get Reg.flag = 0 := by
    intro hnone
    rw [hflag, Bool.eq_false_of_not_eq_true (mt (drawn_collides_iff n.isLt).mp hnone)]
    rfl
  refine ⟨m.draw x y n.val, rfl, fun p => (lit_drawn n.isLt).1, fun p => (lit_drawn n.isLt).2, ?_,
    hclear, ?_, fun r hr => get_set_of_ne hr _ _, rfl, rfl⟩
  · intro hlit
    rw [hflag, (drawn_collides_iff n.isLt).mpr hlit]
    rfl
  · intro hblank
    apply hclear
    intro hlit
    obtain ⟨p, hturns, -⟩ := hlit
    exact not_turns_of_blank hblank hturns

/-- A machine with every register at 63, I at the last address, and the
first pixel lit. -/
def atCorner : Machine :=
  { booted #[] with
    index := 0xFFFF
    registers := Vector.replicate 16 63
    display := (Display.blank.flip (Pixel.ofCoords 0 0)).1 }

/-- VF says where to draw and is then the flag. The second row is the first
byte of the font and comes to the first row of pixels; the first row is
blank. -/
theorem draw_at_flag_goes_round :
    (∃ m', atCorner.exec (.draw Reg.flag Reg.flag 2) = .ok (m', [])
        ∧ m'.display.lit.get (Pixel.ofCoords 0 0) = false
        ∧ m'.display.lit.get (Pixel.ofCoords 63 0) = true
        ∧ m'.display.lit.get (Pixel.ofCoords 63 31) = false
        ∧ m'.get Reg.flag = 1 ∧ m'.get Reg.zero = 63)
      ∧ ∃ m', atCorner.exec (.draw Reg.flag Reg.flag 1) = .ok (m', []) ∧ m'.get Reg.flag = 0 := by
  obtain ⟨m', hexec, hturned, hleft, hset, -, -, hothers, -⟩ :=
    draw_turns_over_its_bits atCorner Reg.flag Reg.flag 2
  obtain ⟨m'', hexec', -, -, -, -, hblank, -⟩ :=
    draw_turns_over_its_bits atCorner Reg.flag Reg.flag 1
  have hglyph : atCorner.memory.cells.get (Cell.behind atCorner.index 1) = 0xF0 :=
    Memory.holdsFont_ofProgram #[] (Cell.behind 0xFFFF 1) (by decide)
  have hlast : atCorner.memory.cells.get (Cell.behind atCorner.index 0) = 0 := by
    refine (Memory.cells_ofProgram #[] (Cell.behind 0xFFFF 0)).trans ?_
    rw [dif_neg (by decide), if_pos (by decide)]
    simp
  have hleftmost : atCorner.Turns Reg.flag Reg.flag 2 (Pixel.ofCoords 63 0) := by
    refine ⟨1, 0, by decide, by decide, ?_, rfl⟩
    rw [hglyph]
    rfl
  have hsecond : atCorner.Turns Reg.flag Reg.flag 2 (Pixel.ofCoords 0 0) := by
    refine ⟨1, 1, by decide, by decide, ?_, rfl⟩
    rw [hglyph]
    rfl
  have hlit (p : Pixel) : atCorner.display.lit.get p = decide (Pixel.ofCoords 0 0 = p) := by
    refine (Display.lit_flip _ _ p).trans ?_
    rw [Display.lit_blank, Bool.false_xor]
  have hcorner : ¬ atCorner.Turns Reg.flag Reg.flag 2 (Pixel.ofCoords 63 31) := by
    intro hturns
    obtain ⟨r, c, hr, hc, hbit, hp⟩ := hturns
    have hcoords : 63 % 64 = (63 + c) % 64 ∧ 31 % 32 = (63 + r) % 32 :=
      Pixel.ofCoords_eq_iff.mp hp
    have hfirst : r = 0 := by omega
    rw [hfirst, hlast] at hbit
    simp at hbit
  refine ⟨⟨m', hexec, ?_, ?_, ?_, ?_, hothers Reg.zero (by decide)⟩, m'', hexec', ?_⟩
  · rw [hturned _ hsecond, hlit]
    decide
  · rw [hturned _ hleftmost, hlit]
    decide
  · rw [hleft _ hcorner, hlit]
    decide
  · refine hset ⟨_, hsecond, ?_⟩
    rw [hlit]
    decide
  · apply hblank
    intro r hr
    have hfirst : r = 0 := Nat.lt_one_iff.mp hr
    rw [hfirst]
    exact hlast

end Machine

end Chip8
