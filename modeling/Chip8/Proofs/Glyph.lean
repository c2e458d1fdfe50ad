/-
The font is never lost, so a program that asks for a glyph draws it.

Nothing that can be done to a machine makes its memory lose the font
(`holdsFont_invariant`): a machine starts with it, a host never writes
memory but by restarting, and an instruction writes memory by a store,
which spares the font wherever it is aimed at. What FX29 points to is
therefore the glyph, whatever ran before, and a DXY5 behind it draws the
glyph's five rows: the sprite is the glyph (`readMany_glyph`), and a draw
is an exclusive or with the pixels of its sprite (`lit_draw`).
-/
import Chip8.Proofs.Footprint
import Chip8.Proofs.Memory
import Chip8.Proofs.Sprite

namespace Chip8.Machine

variable {m : Machine}

/-- No step loses the font: a load lays it out anew, and a store below its
end is dropped. -/
theorem holdsFont_invariant : Invariant fun m => m.memory.HoldsFont where
  fresh := fun _ _ _ => Memory.holdsFont_ofProgram #[]
  loaded := fun _ _ _ program => Memory.holdsFont_ofProgram program
  stop := id
  host := fun hm hframe => by
    rw [hframe.memory]
    exact hm
  exec := fun hm _ hexec => by
    rw [(exec_footprint hexec).memory]
    exact hm.store _ _

/-- What FX29 and a DXY5 behind it leave on the display. -/
theorem glyph_draw_display (hfont : m.memory.HoldsFont) (x a b : Reg) {m₁ m₂ : Machine}
    {events₁ events₂ : List Event} (hglyph : m.exec (.glyph x) = .ok (m₁, events₁))
    (hdraw : m₁.exec (.draw a b 5) = .ok (m₂, events₂)) :
    m₂.display = (m.display.draw (m.get a) (m.get b) (Font.glyph (m.get x)).toList).1 := by
  cases hglyph
  cases hdraw
  rw [← hfont.readMany_glyph]
  rfl

/-- The pixels of a glyph are the bits of its five rows, wherever it is
put. -/
theorem mem_pixels_glyph {value : UInt8} {x y : Nat} {q : Pixel} :
    q ∈ Sprite.pixels x y (Font.glyph value).toList
      ↔ ∃ (r : Fin Font.glyphRows) (c : Fin 8),
        ((Font.glyph value).get r).toNat.testBit (7 - c.val) = true
        ∧ q = Pixel.ofCoords (x + c.val) (y + r.val) := by
  rw [Sprite.mem_pixels]
  constructor
  · rintro ⟨r, byte, c, hr, hc, hbit, rfl⟩
    obtain ⟨hlt, rfl⟩ := List.getElem?_eq_some_iff.mp hr
    rw [Vector.length_toList] at hlt
    exact ⟨⟨r, hlt⟩, ⟨c, hc⟩, hbit, rfl⟩
  · rintro ⟨r, c, hbit, rfl⟩
    refine ⟨r.val, ((Font.glyph value).get r), c.val, ?_, c.isLt, hbit, rfl⟩
    rw [List.getElem?_eq_getElem (by rw [Vector.length_toList]; exact r.isLt)]
    rfl

/-- The font is never lost. On every machine that a host can come by, the
first 80 of the 4096 bytes of memory are the font. So for all registers,
FX29 and a DXY5 behind it can be run, and they combine the display by
exclusive or with exactly the five rows of the glyph. -/
theorem font_never_lost (hm : m.Reachable) :
    m.memory.cells.toList.length = 4096
      ∧ m.memory.cells.toList.take 80 = Font.bytes.toList
      ∧ ∀ x a b : Reg, ∃ m₁ events₁ m₂ events₂,
        m.exec (.glyph x) = .ok (m₁, events₁) ∧ m₁.exec (.draw a b 5) = .ok (m₂, events₂)
        ∧ ∀ q : Pixel, m₂.display.lit.get q
          = (m.display.lit.get q ^^ decide (∃ (r : Fin Font.glyphRows) (c : Fin 8),
              ((Font.glyph (m.get x)).get r).toNat.testBit (7 - c.val) = true
              ∧ q = Pixel.ofCoords ((m.get a).toNat + c.val) ((m.get b).toNat + r.val))) := by
  have hfont : m.memory.HoldsFont := holdsFont_invariant.of_reachable hm
  refine ⟨Vector.length_toList, hfont.take_cells, fun x a b => ?_⟩
  refine ⟨_, [], _, [], rfl, rfl, fun q => ?_⟩
  have hrows : (Font.glyph (m.get x)).toList.length ≤ 32 := by
    rw [Vector.length_toList]
    decide
  rw [glyph_draw_display hfont x a b rfl rfl, Display.lit_draw _ _ _ hrows]
  congr 2
  exact propext mem_pixels_glyph

/-- A program that stores all registers from 0xFFF on, and so round the
end of memory into the font. -/
def storeRoundEnd : Array UInt8 := #[0xAF, 0xFF, 0xFF, 0x55]

def beforeStore : Machine := booted storeRoundEnd

/-- The machine when it is about to store. -/
def atStore : Machine := { beforeStore with index := 0xFFF }.next

private theorem beforeStore_cycle : beforeStore.cycle.machine = atStore := by
  have hdec : Instr.decode? beforeStore.fetch = some (.setIndex ⟨0xFFF, by decide⟩) :=
    Memory.decode_ofProgram (k := 0) rfl rfl (by decide) rfl
  rw [cycle_of_exec rfl hdec rfl]
  rfl

private theorem atStore_decode : Instr.decode? atStore.fetch = some (.store 15) :=
  Memory.decode_ofProgram (k := 2) rfl rfl (by decide) rfl

/-- The store is run, and the font is still there to be drawn. -/
theorem font_outlasts_store :
    atStore.index = 0xFFF ∧ atStore.cycle.reply = .ok (some (.store 15))
      ∧ atStore.cycle.machine.memory.cells.toList.take 80 = Font.bytes.toList
      ∧ ∃ m₁ events₁ m₂ events₂,
        atStore.cycle.machine.exec (.glyph 0) = .ok (m₁, events₁)
        ∧ m₁.exec (.draw 0 0 5) = .ok (m₂, events₂) := by
  have hstart : beforeStore.Reachable := reachable_booted (by decide)
  have hreach : atStore.Reachable := by
    rw [← beforeStore_cycle, ← perform_cycle beforeStore 0]
    exact .perform 0 .cycle hstart
  have hm : atStore.cycle.machine.Reachable := by
    rw [← perform_cycle atStore 0]
    exact .perform 0 .cycle hreach
  have hreply : atStore.cycle.reply = .ok (some (.store 15)) := by
    rw [cycle_of_exec rfl atStore_decode rfl]
  obtain ⟨-, hfont, hdraw⟩ := font_never_lost hm
  obtain ⟨m₁, events₁, m₂, events₂, hglyph, hrows, -⟩ := hdraw 0 0 0
  exact ⟨rfl, hreply, hfont, m₁, events₁, m₂, events₂, hglyph, hrows⟩

end Chip8.Machine
