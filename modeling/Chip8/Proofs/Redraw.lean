/-
Draws one after the other.

# What they leave

A draw turns over each pixel as often as a bit of it falls there, so a
list of draws turns it over as often as all of them together
(`lit_stampAll`). A sum does not ask for the order of its terms, and only
its parity counts. So draws may change places, two that are the same
cancel out wherever they stand, and a list of draws is undone by drawing
it again: as changes of the display they form a commutative group in which
each element is its own inverse.

# How many pixels are lit

A draw that does not collide finds each pixel that it turns over off, and
turns it over once. It leaves as many more pixels lit as it has set bits
(`litCount_stamp`). Here a sprite may be of any height: one that comes
back to a pixel collides.
-/
import Chip8.Proofs.Overlap

namespace Chip8

/-- A sprite and where it is drawn. -/
structure Stamp where
  x : UInt8
  y : UInt8
  rows : List UInt8
  deriving DecidableEq

namespace Stamp

/-- The bits of a stamp that fall on a pixel. -/
def hits (s : Stamp) (p : Pixel) : Finset (Fin s.rows.length × Fin 8) :=
  Sprite.hits s.x.toNat s.y.toNat s.rows p

/-- The set bits of a stamp, by row and column. -/
def bits (s : Stamp) : Finset (Fin s.rows.length × Fin 8) :=
  Finset.univ.filter fun h => (s.rows.get h.1).toNat.testBit (7 - h.2.val) = true

/-- Each set bit falls on one pixel. -/
theorem card_bits (s : Stamp) : s.bits.card = ∑ p : Pixel, (s.hits p).card := by
  have hfibers := Finset.card_eq_sum_card_fiberwise (s := s.bits) (t := Finset.univ)
    (f := fun h => Pixel.ofCoords (s.x.toNat + h.2.val) (s.y.toNat + h.1.val))
    (fun _ _ => Finset.mem_coe.mpr (Finset.mem_univ _))
  rw [hfibers]
  refine Finset.sum_congr rfl fun p _ => congrArg Finset.card ?_
  unfold bits hits Sprite.hits
  rw [Finset.filter_filter]
  apply Finset.filter_congr
  intro h _
  exact and_congr_right fun _ => Pixel.ofCoords_eq_iff_coords

end Stamp

namespace Display

/-- Displays are the same if the same pixels are lit. -/
theorem ext_lit {d d' : Display} (h : ∀ p : Pixel, d.lit.get p = d'.lit.get p) : d = d' := by
  have hlit : d.lit = d'.lit := Vector.ext fun i hi => h ⟨i, hi⟩
  cases d
  cases d'
  exact congrArg Display.mk hlit

/-- How many pixels are lit. -/
def litCount (d : Display) : Nat := (Finset.univ.filter fun p : Pixel => d.lit.get p = true).card

/-- Draw a stamp. -/
def stamp (d : Display) (s : Stamp) : Display × Bool := d.draw s.x s.y s.rows

/-- Draw stamps one after the other; the flags tell of each whether it
collided. -/
def stampAll (d : Display) : List Stamp → Display × List Bool
  | [] => (d, [])
  | s :: rest =>
    let first := d.stamp s
    let others := first.1.stampAll rest
    (others.1, first.2 :: others.2)

-- ====================================================== what they leave

/-- A sum is odd if just one of its terms is. -/
private theorem odd_add_eq_xor (a b : Nat) :
    decide (Odd (a + b)) = (decide (Odd a) ^^ decide (Odd b)) := by
  by_cases ha : Odd a
  · simp [Nat.odd_add, ha, ← Nat.not_odd_iff_even]
  · simp [Nat.odd_add, ha]

/-- Stamps turn over a pixel once for each of their bits that falls
there. -/
theorem lit_stampAll (p : Pixel) (stamps : List Stamp) :
    ∀ d : Display, (d.stampAll stamps).1.lit.get p
      = (d.lit.get p ^^ decide (Odd (stamps.map fun s => (s.hits p).card).sum)) := by
  induction stamps with
  | nil =>
      intro d
      show d.lit.get p = _
      simp
  | cons s rest ih =>
      intro d
      show ((d.stamp s).1.stampAll rest).1.lit.get p = _
      have hfirst : (d.stamp s).1.lit.get p
          = (d.lit.get p ^^ decide (Odd (s.hits p).card)) := d.lit_draw_eq_parity s.x s.y s.rows p
      rw [ih, hfirst, Bool.xor_assoc, List.map_cons, List.sum_cons, odd_add_eq_xor]

/-- What is drawn stays the same when the draws change places. -/
theorem stampAll_perm (d : Display) {stamps stamps' : List Stamp} (h : stamps.Perm stamps') :
    (d.stampAll stamps).1 = (d.stampAll stamps').1 := by
  apply ext_lit
  intro p
  rw [lit_stampAll, lit_stampAll, (h.map _).sum_eq]

/-- Two stamps that are the same cancel out. -/
theorem stampAll_cancel (d : Display) (s : Stamp) (stamps : List Stamp) :
    (d.stampAll (s :: s :: stamps)).1 = (d.stampAll stamps).1 := by
  apply ext_lit
  intro p
  rw [lit_stampAll, lit_stampAll]
  simp only [List.map_cons, List.sum_cons, odd_add_eq_xor]
  rw [← Bool.xor_assoc (decide _), Bool.xor_self, Bool.false_xor]

/-- Stamps that are drawn again are undone. -/
theorem stampAll_stampAll (d : Display) (stamps : List Stamp) :
    ((d.stampAll stamps).1.stampAll stamps).1 = d := by
  apply ext_lit
  intro p
  rw [lit_stampAll, lit_stampAll, Bool.xor_assoc, Bool.xor_self, Bool.xor_false]

/-- A sprite drawn again is gone. -/
theorem draw_draw (d : Display) (x y : UInt8) (rows : List UInt8) :
    ((d.draw x y rows).1.draw x y rows).1 = d :=
  d.stampAll_stampAll [⟨x, y, rows⟩]

/-- A stamp that is no higher than the display does not collide where
nothing is lit under it. -/
theorem stamp_clear {d : Display} {s : Stamp} (h : s.rows.length ≤ 32)
    (hoff : ∀ p ∈ Sprite.pixels s.x.toNat s.y.toNat s.rows, d.lit.get p = false) :
    (d.stamp s).2 = false := by
  apply Bool.eq_false_of_not_eq_true
  intro hcollides
  obtain ⟨p, hp, hon⟩ := (draw_collides_iff_of_le h).mp hcollides
  exact Bool.false_ne_true ((hoff p hp).symm.trans hon)

/-- A sprite that is no higher than the display collides, drawn again, with
what was off under it. -/
theorem redraw_collides_iff (d : Display) (x y : UInt8) {rows : List UInt8}
    (h : rows.length ≤ 32) :
    ((d.draw x y rows).1.draw x y rows).2 = true ↔
      ∃ p ∈ Sprite.pixels x.toNat y.toNat rows, d.lit.get p = false := by
  rw [draw_collides_iff_of_le h]
  refine exists_congr fun p => and_congr_right fun hp => ?_
  rw [d.lit_draw x y h, decide_eq_true hp, Bool.xor_true, Bool.not_eq_true']

-- ============================================= how many pixels are lit

/-- What does not collide lights each pixel on which a bit falls. -/
theorem toNat_lit_stamp {d : Display} {s : Stamp} (h : (d.stamp s).2 = false) (p : Pixel) :
    ((d.stamp s).1.lit.get p).toNat = (d.lit.get p).toNat + (s.hits p).card := by
  have hlit : (d.stamp s).1.lit.get p = (d.lit.get p ^^ decide (Odd (s.hits p).card)) :=
    d.lit_draw_eq_parity s.x s.y s.rows p
  have hclear : ¬ (1 ≤ (s.hits p).card ∧ d.lit.get p = true ∨ 2 ≤ (s.hits p).card) := by
    intro hp
    have hcollides := (d.draw_collides_iff s.x s.y s.rows).mpr ⟨p, hp⟩
    exact Bool.false_ne_true (h.symm.trans hcollides)
  rw [hlit]
  by_cases hnone : (s.hits p).card = 0
  · rw [hnone]
    simp
  · have honce : (s.hits p).card = 1 := by omega
    have hoff : d.lit.get p = false := by
      apply Bool.eq_false_of_not_eq_true
      intro hon
      exact hclear (Or.inl ⟨honce.ge, hon⟩)
    rw [honce, hoff]
    rfl

/-- The lit pixels are counted one by one. -/
theorem litCount_eq_sum (d : Display) : d.litCount = ∑ p : Pixel, (d.lit.get p).toNat := by
  unfold litCount
  rw [Finset.card_filter]
  refine Finset.sum_congr rfl fun p _ => ?_
  cases d.lit.get p with
  | true => rfl
  | false => rfl

/-- A stamp that does not collide lights a pixel for each of its bits. -/
theorem litCount_stamp {d : Display} {s : Stamp} (h : (d.stamp s).2 = false) :
    (d.stamp s).1.litCount = d.litCount + s.bits.card := by
  rw [litCount_eq_sum, litCount_eq_sum, s.card_bits, ← Finset.sum_add_distrib]
  exact Finset.sum_congr rfl fun p _ => toNat_lit_stamp h p

/-- Sprites that hit nothing light as many pixels as they have bits. -/
theorem litCount_stampAll (stamps : List Stamp) :
    ∀ {d : Display}, (∀ hit ∈ (d.stampAll stamps).2, hit = false) →
      (d.stampAll stamps).1.litCount = d.litCount + (stamps.map fun s => s.bits.card).sum := by
  induction stamps with
  | nil =>
      intro d _
      exact (Nat.add_zero d.litCount).symm
  | cons s rest ih =>
      intro d h
      have hfirst : (d.stamp s).2 = false := h _ List.mem_cons_self
      have hrest := ih fun hit hmem => h hit (List.mem_cons_of_mem _ hmem)
      rw [litCount_stamp hfirst, Nat.add_assoc] at hrest
      exact hrest

-- ========================================================= the contract

/-- Draws form a commutative group of changes of the display in which each
element is its own inverse. A list of draws may be put in any order, two
of its draws that are the same may be left out wherever they stand, and
drawing it again undoes it; so does drawing a single sprite again. The
second draw of a sprite of at most 32 rows collides exactly if the sprite
covers a pixel that was off before the first. Draws of which none collides
light exactly as many pixels as they have set bits. -/
theorem draws_commute_and_cancel (d : Display) :
    (∀ stamps stamps' : List Stamp, stamps.Perm stamps' →
        (d.stampAll stamps).1 = (d.stampAll stamps').1)
      ∧ (∀ (before between after : List Stamp) (s : Stamp),
        (d.stampAll (before ++ s :: between ++ s :: after)).1
          = (d.stampAll (before ++ between ++ after)).1)
      ∧ (∀ stamps : List Stamp, ((d.stampAll stamps).1.stampAll stamps).1 = d)
      ∧ (∀ x y rows, ((d.draw x y rows).1.draw x y rows).1 = d)
      ∧ (∀ x y rows, rows.length ≤ 32 →
        (((d.draw x y rows).1.draw x y rows).2 = true ↔
          ∃ p, (∃ h, h ∈ Sprite.hits x.toNat y.toNat rows p) ∧ d.lit.get p = false))
      ∧ (∀ stamps : List Stamp, (∀ hit ∈ (d.stampAll stamps).2, hit = false) →
        (d.stampAll stamps).1.litCount
          = d.litCount + (stamps.map fun s => s.bits.card).sum) := by
  refine ⟨fun _ _ h => d.stampAll_perm h, ?_, d.stampAll_stampAll, d.draw_draw, ?_,
    fun stamps h => litCount_stampAll stamps h⟩
  · intro before between after s
    have hfront : (before ++ s :: between ++ s :: after).Perm
        (s :: s :: (before ++ between ++ after)) := by
      apply List.perm_middle.trans
      exact (List.perm_middle.append_right after).cons s
    rw [d.stampAll_perm hfront, stampAll_cancel]
  · intro x y rows h
    rw [d.redraw_collides_iff x y h]
    refine exists_congr fun p => and_congr_left' ?_
    rw [← List.one_le_count_iff, ← Sprite.card_hits]
    exact Finset.card_pos

theorem lit_blank (p : Pixel) : blank.lit.get p = false := Vector.getElem_replicate _

theorem litCount_blank : blank.litCount = 0 := by
  unfold litCount
  rw [Finset.card_eq_zero, Finset.filter_eq_empty_iff]
  intro p _
  rw [lit_blank]
  exact Bool.false_ne_true

/-- The glyph of zero in the corner, where it goes round both edges. -/
def ring : Stamp := ⟨62, 30, [0xF0, 0x90, 0x90, 0x90, 0xF0]⟩

/-- What the glyph leaves out in its middle. -/
def inside : Stamp := ⟨63, 31, [0xC0, 0xC0, 0xC0]⟩

/-- One pixel of the glyph. -/
def dot : Stamp := ⟨63, 30, [0x80]⟩

/-- A ring, a dot and the ring again leave what the dot alone leaves, and
the second ring collides with the first. What fits inside the ring hits
nothing of it, and the two light twenty pixels. -/
theorem ring_is_erased_and_filled :
    (blank.stampAll [ring, dot, ring]).1 = (blank.stampAll [ring, ring, dot]).1
      ∧ (blank.stampAll ([] ++ ring :: [dot] ++ ring :: [])).1 = (blank.stampAll [dot]).1
      ∧ ring.rows.length ≤ 32
      ∧ ((blank.draw 62 30 ring.rows).1.draw 62 30 ring.rows).2 = true
      ∧ (∀ hit ∈ (blank.stampAll [ring, inside]).2, hit = false)
      ∧ (blank.stampAll [ring, inside]).1.litCount = 20 := by
  obtain ⟨hperm, hcancel, -, -, hredraw, hcount⟩ := draws_commute_and_cancel blank
  have hring : (blank.stamp ring).2 = false :=
    stamp_clear (by decide) fun p _ => lit_blank p
  have hinside : ((blank.stamp ring).1.stamp inside).2 = false := by
    refine stamp_clear (by decide) fun p hp => ?_
    have hnodup : (Sprite.pixels ring.x.toNat ring.y.toNat ring.rows
        ++ Sprite.pixels inside.x.toNat inside.y.toNat inside.rows).Nodup := by
      decide
    have hapart : p ∉ Sprite.pixels ring.x.toNat ring.y.toNat ring.rows := fun hring =>
      List.disjoint_of_nodup_append hnodup hring hp
    have hrows : ring.rows.length ≤ 32 := by decide
    have hlit := blank.lit_draw ring.x ring.y hrows p
    rw [lit_blank, decide_eq_false hapart] at hlit
    exact hlit
  have hclear : ∀ hit ∈ (blank.stampAll [ring, inside]).2, hit = false := by
    intro hit hmem
    have hflags : (blank.stampAll [ring, inside]).2
        = [(blank.stamp ring).2, ((blank.stamp ring).1.stamp inside).2] := rfl
    rw [hflags, hring, hinside] at hmem
    simpa using hmem
  refine ⟨?_, hcancel [] [dot] [] ring, by decide, ?_, hclear, ?_⟩
  · apply hperm
    exact (List.Perm.swap ring dot []).cons ring
  · have htop : (⟨0, by decide⟩, ⟨0, by decide⟩) ∈ Sprite.hits 62 30 ring.rows
        (Pixel.ofCoords 62 30) := Sprite.mem_hits.mpr (by decide)
    exact (hredraw 62 30 ring.rows (by decide)).mpr ⟨_, ⟨_, htop⟩, lit_blank _⟩
  · have hringBits : ring.bits.card = 14 := by decide
    have hinsideBits : inside.bits.card = 6 := by decide
    rw [hcount _ hclear, litCount_blank]
    simp [hringBits, hinsideBits]

end Display

end Chip8
