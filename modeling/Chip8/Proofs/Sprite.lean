/-
What a draw does to each single pixel.

# Flips

`flipAll` takes the pixels in an order, and the order does not matter to
what is lit in the end: each pixel is turned over as often as the list
names it, so it ends up as it was or the other way round, by whether that
number is even or odd (`lit_flipAll`). Nothing here is about sprites yet.

# Sprites

A pixel is under a sprite if some row of the sprite has a bit set there
(`mem_pixels`), both coordinates taken round the display. Two bits fall on
one pixel only if their rows are a multiple of 32 apart, as a row is
narrower than the display is wide. So a sprite of at most 32 rows names no
pixel twice (`nodup_pixels`), and drawing it is an exclusive or with the
pixels that it names (`lit_draw`).
-/
import Mathlib
import Chip8.Display

namespace Chip8

-- =============================================================== flips

namespace Display

/-- A flip turns over one pixel and no other. -/
theorem lit_flip (d : Display) (p q : Pixel) :
    (d.flip p).1.lit.get q = (d.lit.get q ^^ decide (p = q)) := by
  show (d.lit.set p.val (!d.lit.get p) p.isLt).get q = _
  rw [Vector.get_eq_getElem, Vector.getElem_set]
  by_cases h : p = q
  · subst h
    rw [if_pos rfl, decide_eq_true rfl, Bool.xor_true]
  · rw [if_neg (fun hval => h (Fin.ext hval)), decide_eq_false h, Bool.xor_false,
      ← Vector.get_eq_getElem]

/-- Flips turn over each pixel as often as they name it. -/
theorem lit_flipAll (ps : List Pixel) :
    ∀ (d : Display) (q : Pixel),
      (d.flipAll ps).1.lit.get q = (d.lit.get q ^^ decide (ps.count q % 2 = 1)) := by
  induction ps with
  | nil =>
      intro d q
      show d.lit.get q = _
      simp
  | cons p ps ih =>
      intro d q
      show ((d.flip p).1.flipAll ps).1.lit.get q = _
      rw [ih, lit_flip, Bool.xor_assoc, List.count_cons]
      congr 1
      by_cases h : p = q
      · -- one more flip of `q` changes the parity
        subst h
        rcases Nat.mod_two_eq_zero_or_one (ps.count p) with heven | hodd
        · simp [heven, Nat.add_mod]
        · simp [hodd, Nat.add_mod]
      · simp [h]

end Display

-- ============================================================= sprites

/-- Coordinates name the same pixel if they agree once around. -/
theorem Pixel.ofCoords_eq_iff {x y x' y' : Nat} :
    Pixel.ofCoords x y = Pixel.ofCoords x' y' ↔ x % 64 = x' % 64 ∧ y % 32 = y' % 32 := by
  unfold Pixel.ofCoords
  rw [Fin.mk.injEq]
  omega

namespace Sprite

/-- The columns of a row are those of its bits that are set, the highest on
the left. -/
theorem mem_columns {byte : UInt8} {c : Nat} :
    c ∈ columns byte ↔ c < 8 ∧ byte.toNat.testBit (7 - c) = true := by
  unfold columns
  rw [List.mem_filter, List.mem_range]

/-- The pixels under a sprite are those where one of its rows has a bit
set. -/
theorem mem_pixels {rows : List UInt8} {x : Nat} {q : Pixel} :
    ∀ {y : Nat}, q ∈ pixels x y rows ↔ ∃ r byte c, rows[r]? = some byte ∧ c < 8
      ∧ byte.toNat.testBit (7 - c) = true ∧ q = Pixel.ofCoords (x + c) (y + r) := by
  induction rows with
  | nil => simp [pixels]
  | cons byte rest ih =>
      intro y
      rw [pixels, List.mem_append, List.mem_map]
      constructor
      · rintro (⟨c, hc, rfl⟩ | hq)
        · obtain ⟨hlt, hbit⟩ := mem_columns.mp hc
          exact ⟨0, byte, c, rfl, hlt, hbit, rfl⟩
        · obtain ⟨r, byte', c, hr, hlt, hbit, rfl⟩ := ih.mp hq
          refine ⟨r + 1, byte', c, hr, hlt, hbit, ?_⟩
          rw [Nat.add_assoc, Nat.add_comm 1 r]
      · rintro ⟨r, byte', c, hr, hlt, hbit, rfl⟩
        cases r with
        | zero =>
            cases hr
            exact Or.inl ⟨c, mem_columns.mpr ⟨hlt, hbit⟩, rfl⟩
        | succ r =>
            refine Or.inr (ih.mpr ⟨r, byte', c, hr, hlt, hbit, ?_⟩)
            rw [Nat.add_assoc, Nat.add_comm 1 r]

/-- A sprite that is no higher than the display names no pixel twice. -/
theorem nodup_pixels {rows : List UInt8} {x : Nat} (h : rows.length ≤ 32) :
    ∀ y : Nat, (pixels x y rows).Nodup := by
  induction rows with
  | nil => intro y; exact List.nodup_nil
  | cons byte rest ih =>
      intro y
      have hrest : rest.length + 1 ≤ 32 := h
      rw [pixels, List.nodup_append]
      refine ⟨?_, ih (Nat.le_of_succ_le h) (y + 1), ?_⟩
      · -- within a row: eight columns in a row of 64
        have hcolumns : (columns byte).Nodup := List.nodup_range.filter _
        refine hcolumns.map_on fun c hc c' hc' heq => ?_
        have hlt := (mem_columns.mp hc).1
        have hlt' := (mem_columns.mp hc').1
        have hcol := (Pixel.ofCoords_eq_iff.mp heq).1
        omega
      · -- between rows: fewer than 32 of them
        intro p hp p' hp' heq
        obtain ⟨c, -, rfl⟩ := List.mem_map.mp hp
        obtain ⟨r, byte', c', hr, -, -, rfl⟩ := mem_pixels.mp hp'
        have hrow := (Pixel.ofCoords_eq_iff.mp heq).2
        have hlt : r < rest.length := (List.getElem?_eq_some_iff.mp hr).1
        omega

end Sprite

/-- Drawing a sprite that is no higher than the display is an exclusive
or with the pixels under it. -/
theorem Display.lit_draw (d : Display) (x y : UInt8) {rows : List UInt8}
    (h : rows.length ≤ 32) (q : Pixel) :
    (d.draw x y rows).1.lit.get q
      = (d.lit.get q ^^ decide (q ∈ Sprite.pixels x.toNat y.toNat rows)) := by
  have hnodup := Sprite.nodup_pixels (x := x.toNat) h y.toNat
  unfold Display.draw
  rw [Display.lit_flipAll]
  congr 2
  by_cases hq : q ∈ Sprite.pixels x.toNat y.toNat rows
  · simp [List.count_eq_one_of_mem hnodup hq, hq]
  · simp [List.count_eq_zero_of_not_mem hq, hq]

end Chip8
