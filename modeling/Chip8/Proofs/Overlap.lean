/-
A sprite of any height, which may come back to rows it has drawn already.

A pixel is turned over as often as set bits of the sprite fall on it
(`card_hits`), so whether it is lit in the end is a matter of how many
they are, and no matter of their order. The collision looks like one: it
is collected on the way, from what each bit finds. But the first bit that
falls on a pixel finds it as it was before the draw, and if that is off,
a second one finds it lit. So it comes down to the numbers of bits and
the display before (`flipAll_collides_iff`).

Two bits fall on one pixel only if a multiple of 32 rows lies between
them (`rows_of_hits`). A sprite of at most 32 rows has no such bits, and
there a collision says that a pixel under the sprite was lit.
-/
import Chip8.Proofs.Sprite

namespace Chip8

-- =============================================================== flips

namespace Display

/-- Flips switch a lit pixel off if they name a pixel that is lit, or any
pixel twice. -/
theorem flipAll_collides_iff (ps : List Pixel) :
    ∀ d : Display, (d.flipAll ps).2 = true ↔
      ∃ p, p ∈ ps ∧ (d.lit.get p = true ∨ 2 ≤ ps.count p) := by
  induction ps with
  | nil =>
      intro d
      show false = true ↔ _
      simp
  | cons q ps ih =>
      intro d
      have hcons : (d.flipAll (q :: ps)).2 = true ↔
          d.lit.get q = true ∨ ((d.flip q).1.flipAll ps).2 = true := Bool.or_eq_true_iff
      rw [hcons, ih]
      constructor
      · intro h
        rcases h with hq | ⟨p, hp, h⟩
        · exact ⟨q, List.mem_cons_self, Or.inl hq⟩
        · refine ⟨p, List.mem_cons_of_mem q hp, ?_⟩
          by_cases hqp : q = p
          · -- named at the front and once more behind
            subst hqp
            have hcount := List.one_le_count_iff.mpr hp
            rw [List.count_cons_self]
            omega
          · rw [lit_flip, decide_eq_false hqp, Bool.xor_false] at h
            rwa [List.count_cons_of_ne hqp]
      · intro h
        obtain ⟨p, hp, h⟩ := h
        by_cases hqp : q = p
        · -- if it was off, the first flip has lit it for the second
          subst hqp
          by_cases hlit : d.lit.get q = true
          · exact Or.inl hlit
          · rcases h with hq | hcount
            · exact absurd hq hlit
            · rw [List.count_cons_self] at hcount
              have hq : q ∈ ps := List.one_le_count_iff.mp (by omega)
              refine Or.inr ⟨q, hq, Or.inl ?_⟩
              rw [lit_flip, decide_eq_true rfl, Bool.xor_true, Bool.not_eq_true']
              exact Bool.eq_false_of_not_eq_true hlit
        · have hp : p ∈ ps := List.mem_of_ne_of_mem (Ne.symm hqp) hp
          rw [List.count_cons_of_ne hqp] at h
          refine Or.inr ⟨p, hp, ?_⟩
          rwa [lit_flip, decide_eq_false hqp, Bool.xor_false]

/-- A sprite that is no higher than the display collides with what was lit
under it, and with nothing else. -/
theorem draw_collides_iff_of_le {d : Display} {x y : UInt8} {rows : List UInt8}
    (h : rows.length ≤ 32) :
    (d.draw x y rows).2 = true ↔
      ∃ p ∈ Sprite.pixels x.toNat y.toNat rows, d.lit.get p = true := by
  unfold draw
  rw [flipAll_collides_iff]
  refine exists_congr fun p => and_congr_right fun _ => or_iff_left ?_
  have honce := List.nodup_iff_count_le_one.mp (Sprite.nodup_pixels (x := x.toNat) h y.toNat) p
  omega

end Display

-- ================================================================ hits

/-- Coordinates fall on a pixel if they are its own up to the size of the
screen. -/
theorem Pixel.ofCoords_eq_iff_coords {p : Pixel} {x y : Nat} :
    Pixel.ofCoords x y = p ↔ p.column = x % 64 ∧ p.row = y % 32 := by
  have hlt := p.isLt
  unfold Pixel.ofCoords Pixel.column Pixel.row
  rw [Fin.ext_iff]
  constructor
  · intro h
    dsimp only at h
    omega
  · intro h
    dsimp only
    omega

namespace Sprite

/-- Bit `7 - c` of a row is set and falls on a pixel, where the row starts
at `(x, y)` and both coordinates are taken round the display. -/
def Falls (x y : Nat) (byte : UInt8) (p : Pixel) (c : Nat) : Prop :=
  byte.toNat.testBit (7 - c) = true ∧ p.column = (x + c) % 64 ∧ p.row = y % 32

instance (x y : Nat) (byte : UInt8) (p : Pixel) : DecidablePred (Falls x y byte p) :=
  fun _ => inferInstanceAs (Decidable (_ ∧ _ ∧ _))

/-- The bits of a sprite, by row and column, that are set and fall on a
pixel. -/
def hits (x y : Nat) (rows : List UInt8) (p : Pixel) : Finset (Fin rows.length × Fin 8) :=
  Finset.univ.filter fun h => Falls x (y + h.1.val) (rows.get h.1) p h.2.val

/-- A bit of a sprite hits a pixel if it is set and falls there. -/
theorem mem_hits {x y : Nat} {rows : List UInt8} {p : Pixel} {h : Fin rows.length × Fin 8} :
    h ∈ hits x y rows p ↔ Falls x (y + h.1.val) (rows.get h.1) p h.2.val := by
  unfold hits
  rw [Finset.mem_filter]
  exact and_iff_right (Finset.mem_univ h)

/-- One row names a pixel once for each of its bits that falls there. -/
theorem count_columns (x y : Nat) (byte : UInt8) (p : Pixel) :
    ((columns byte).map fun c => Pixel.ofCoords (x + c) y).count p
      = ∑ c : Fin 8, if Falls x y byte p c.val then 1 else 0 := by
  have hcount : ((columns byte).map fun c => Pixel.ofCoords (x + c) y).count p
      = Nat.count (Falls x y byte p) 8 := by
    unfold columns Nat.count
    rw [List.count_eq_countP, List.countP_map, List.countP_filter]
    apply List.countP_congr
    intro c _
    simp only [Function.comp, Bool.and_eq_true, beq_iff_eq, Pixel.ofCoords_eq_iff_coords,
      decide_eq_true_iff]
    exact and_comm
  rw [hcount, Nat.count_eq_card_filter_range, Finset.card_filter, Finset.sum_range]

/-- A sprite names a pixel once for each of its bits that falls there. -/
theorem card_hits {rows : List UInt8} {x : Nat} {p : Pixel} :
    ∀ y : Nat, (hits x y rows p).card = (pixels x y rows).count p := by
  induction rows with
  | nil =>
      intro y
      rfl
  | cons byte rest ih =>
      intro y
      -- the first row by itself, the others as a sprite one row further down
      have hrest (r : Fin rest.length) : y + r.succ.val = y + 1 + r.val := by
        rw [Fin.val_succ]
        omega
      rw [pixels, List.count_append, count_columns, ← ih (y + 1)]
      unfold hits
      rw [Finset.card_filter, Finset.card_filter, Fintype.sum_prod_type, Fintype.sum_prod_type]
      refine (Fin.sum_univ_succ _).trans ?_
      simp only [hrest]
      rfl

/-- Two bits fall on one pixel only if a multiple of 32 rows, and at least
32, lie between them. -/
theorem rows_of_hits {x y : Nat} {rows : List UInt8} {p : Pixel} {h h' : Fin rows.length × Fin 8}
    (hp : h ∈ hits x y rows p) (hp' : h' ∈ hits x y rows p) (hne : h ≠ h') :
    ∃ k : Int, k ≠ 0 ∧ (h.1.val : Int) - h'.1.val = 32 * k := by
  obtain ⟨-, hcolumn, hrow⟩ := mem_hits.mp hp
  obtain ⟨-, hcolumn', hrow'⟩ := mem_hits.mp hp'
  have hlt := h.2.isLt
  have hlt' := h'.2.isLt
  have hcolumns : h.2.val = h'.2.val := by omega
  have hrows : h.1.val ≠ h'.1.val := by
    intro heq
    exact hne (Prod.ext (Fin.ext heq) (Fin.ext hcolumns))
  refine ⟨((h.1.val : Int) - h'.1.val) / 32, ?_, ?_⟩
  · omega
  · omega

/-- No two bits of a sprite that is no higher than the display fall on one
pixel. -/
theorem card_hits_le_one {x y : Nat} {rows : List UInt8} {p : Pixel} (h : rows.length ≤ 32) :
    (hits x y rows p).card ≤ 1 := by
  rw [card_hits]
  exact List.nodup_iff_count_le_one.mp (nodup_pixels h y) p

end Sprite

-- =============================================================== draws

namespace Display

open Sprite

variable (d : Display) (x y : UInt8) (rows : List UInt8)

/-- A pixel is turned over once for each bit that falls on it. -/
theorem lit_draw_eq_parity (p : Pixel) :
    (d.draw x y rows).1.lit.get p
      = (d.lit.get p ^^ decide (Odd (hits x.toNat y.toNat rows p).card)) := by
  unfold draw
  rw [lit_flipAll, card_hits]
  simp only [Nat.odd_iff]

/-- A draw collides if a bit falls on a pixel that was lit, or a second one
on any pixel. -/
theorem draw_collides_iff :
    (d.draw x y rows).2 = true ↔
      ∃ p, 1 ≤ (hits x.toNat y.toNat rows p).card ∧ d.lit.get p = true
        ∨ 2 ≤ (hits x.toNat y.toNat rows p).card := by
  unfold draw
  rw [flipAll_collides_iff]
  refine exists_congr fun p => ?_
  rw [card_hits]
  constructor
  · intro h
    rcases h with ⟨hp, hlit | htwice⟩
    · exact Or.inl ⟨List.one_le_count_iff.mpr hp, hlit⟩
    · exact Or.inr htwice
  · intro h
    rcases h with ⟨honce, hlit⟩ | htwice
    · exact ⟨List.one_le_count_iff.mp honce, Or.inl hlit⟩
    · exact ⟨List.one_le_count_iff.mp (Nat.le_of_succ_le htwice), Or.inr htwice⟩

/-- A draw turns over the pixels on which an odd number of its bits fall.
It collides if a bit falls on a pixel that was lit, or two of them on any
pixel; and those are a multiple of 32 rows apart, so that a sprite of at
most 32 rows collides only with what was lit before. -/
theorem draw_eq_parity :
    (∀ p, (d.draw x y rows).1.lit.get p
        = (d.lit.get p ^^ decide (Odd (hits x.toNat y.toNat rows p).card)))
      ∧ ((d.draw x y rows).2 = true ↔
          ∃ p, 1 ≤ (hits x.toNat y.toNat rows p).card ∧ d.lit.get p = true
            ∨ 2 ≤ (hits x.toNat y.toNat rows p).card)
      ∧ (∀ p, ∀ h ∈ hits x.toNat y.toNat rows p, ∀ h' ∈ hits x.toNat y.toNat rows p, h ≠ h' →
          ∃ k : Int, k ≠ 0 ∧ (h.1.val : Int) - h'.1.val = 32 * k)
      ∧ (rows.length ≤ 32 →
          ((d.draw x y rows).2 = true ↔
            ∃ p, (∃ h, h ∈ hits x.toNat y.toNat rows p) ∧ d.lit.get p = true)) := by
  refine ⟨d.lit_draw_eq_parity x y rows, d.draw_collides_iff x y rows, ?_, ?_⟩
  · intro p h hp h' hp' hne
    exact rows_of_hits hp hp' hne
  · intro hlength
    rw [draw_collides_iff]
    refine exists_congr fun p => ?_
    have hle := card_hits_le_one (x := x.toNat) (y := y.toNat) (p := p) hlength
    have htwice : ¬ 2 ≤ (hits x.toNat y.toNat rows p).card := by omega
    rw [or_iff_left htwice]
    exact and_congr_left' Finset.card_pos

/-- A sprite of 33 rows, with one bit in the first and one in the last. -/
def tall : List UInt8 := 0x80 :: (List.replicate 31 0 ++ [0x80])

/-- Two bits of a sprite taller than the screen cancel on a pixel, and
collide though the screen was blank. The first 32 of its rows do not. -/
theorem draw_tall :
    (∃ p h h', h ∈ hits 200 31 tall p ∧ h' ∈ hits 200 31 tall p ∧ h ≠ h'
        ∧ (∃ k : Int, k ≠ 0 ∧ (h.1.val : Int) - h'.1.val = 32 * k)
        ∧ (blank.draw 200 31 tall).1.lit.get p = false)
      ∧ (blank.draw 200 31 tall).2 = true
      ∧ (tall.take 32).length ≤ 32 ∧ (blank.draw 200 31 (tall.take 32)).2 = false := by
  obtain ⟨hlit, hcollides, hrows, -⟩ := draw_eq_parity blank 200 31 tall
  obtain ⟨-, -, -, hshort⟩ := draw_eq_parity blank 200 31 (tall.take 32)
  have hoff (p : Pixel) : blank.lit.get p = false := Vector.getElem_replicate _
  have htop : (⟨0, by decide⟩, ⟨0, by decide⟩) ∈ hits 200 31 tall (Pixel.ofCoords 200 31) :=
    mem_hits.mpr (by decide)
  have hbottom : (⟨32, by decide⟩, ⟨0, by decide⟩) ∈ hits 200 31 tall (Pixel.ofCoords 200 31) :=
    mem_hits.mpr (by decide)
  have hcard : (hits 200 31 tall (Pixel.ofCoords 200 31)).card = 2 := by
    rw [card_hits]
    decide
  refine ⟨⟨_, _, _, htop, hbottom, by decide, ?_, ?_⟩, ?_, by decide, ?_⟩
  · exact hrows _ _ htop _ hbottom (by decide)
  · have heven := hlit (Pixel.ofCoords 200 31)
    rw [hoff] at heven
    exact heven.trans (by simp [hcard])
  · exact hcollides.mpr ⟨_, Or.inr hcard.ge⟩
  · apply Bool.eq_false_of_not_eq_true
    intro h
    obtain ⟨p, -, hp⟩ := (hshort (by decide)).mp h
    rw [hoff] at hp
    cases hp

end Display

end Chip8
