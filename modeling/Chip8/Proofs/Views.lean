/-
All that a host is shown of a display shows the same pixels.

# Two ways to write a display

The pixels lie one behind the other, and the end of a row is nowhere
marked; a text is written by cutting them into runs of 64. One way puts
each line together and appends it with its line end (`linewise`), the
other appends mark by mark (`charwise`). Both come to the text that is put
together by coordinates, since the runs are the rows (`cut_eq_rows`).

# Reading it back

All lines have the same length, so the mark of a pixel stands at a place
that can be computed from its coordinates (`getElem?_chars`), as its
number can. So text, numbers and coordinates name the same pixels, and a
text leaves no doubt about its display.
-/
import Chip8.Proofs.Pieces
import Chip8.Proofs.Redraw
import Chip8.Proofs.Script

namespace Chip8

-- ================================================================= rows

namespace Display

/-- The runs of 64 pixels are the rows. -/
theorem cut_eq_rows (d : Display) : Pieces.cut 64 d.lit.toList = (List.finRange 32).map d.row := by
  have hlength : d.lit.toList.length = 64 * 32 := Vector.length_toList
  rw [Pieces.cut_of_length (by decide) hlength, ← List.map_coe_finRange_eq_range, List.map_map]
  refine List.map_congr_left fun y _ => ?_
  refine List.ext_getElem ?_ fun x hx hx' => ?_
  · simp [row]
    omega
  · have hlt : x < 64 := by simpa [row] using hx'
    have hpixel : (Pixel.ofCoords x y.val).val = 64 * y.val + x := by
      show x % 64 + y.val % 32 * 64 = _
      omega
    simp [row, hpixel]

end Display

-- ======================================================== writing a text

/-- The display written line by line: each line is put together by itself
and then appended with its end. -/
def Display.linewise (d : Display) : String :=
  (Pieces.cut 64 d.lit.toList).foldl
    (fun out run => out ++ (String.ofList (run.map mark) ++ "\n")) ""

/-- The display of a snapshot written mark by mark, with an end of line
behind each run. -/
def Snapshot.charwise (s : Snapshot) : String :=
  (Pieces.cut 64 s.display.lit.toList).foldl
    (fun out run => (run.foldl (fun out on => out.push (Display.mark on)) out).push '\n') ""

namespace Display

/-- Marks that are pushed one by one stand behind one another. -/
theorem toList_pushMarks (run : List Bool) :
    ∀ out : String, (run.foldl (fun out on => out.push (mark on)) out).toList
      = out.toList ++ run.map mark := by
  induction run with
  | nil =>
      intro out
      exact (List.append_nil _).symm
  | cons on rest ih =>
      intro out
      rw [List.foldl_cons, ih, String.toList_push, List.append_assoc]
      rfl

theorem toList_text (d : Display) : d.text.toList = d.chars := String.toList_ofList

/-- The characters of a screen are those of its rows, with a line feed
behind each. -/
theorem chars_eq (d : Display) :
    d.chars = (Pieces.cut 64 d.lit.toList).flatMap fun run => run.map mark ++ ['\n'] := by
  rw [cut_eq_rows, List.flatMap_map]
  rfl

/-- The screen written line by line is its text. -/
theorem linewise_eq (d : Display) : d.linewise = d.text := by
  refine String.toList_inj.mp ?_
  rw [toList_text, chars_eq]
  refine Pieces.toList_foldl (fun out run => ?_) _ ""
  rw [String.toList_append, String.toList_append, String.toList_ofList]
  rfl

end Display

theorem Snapshot.charwise_eq (s : Snapshot) : s.charwise = s.text := by
  refine String.toList_inj.mp ?_
  rw [Snapshot.text, Display.toList_text, Display.chars_eq]
  refine Pieces.toList_foldl (fun out run => ?_) _ ""
  rw [String.toList_push, Display.toList_pushMarks, List.append_assoc]

-- ======================================================== reading it back

namespace Display

variable {d d' : Display} {x y : Nat}

/-- A row has 64 pixels. -/
theorem length_row (d : Display) (y : Fin 32) : (d.row y).length = 64 := by
  rw [row, List.length_map, List.length_finRange]

/-- The mark of a pixel is where its row and its column say. -/
theorem getElem?_chars (d : Display) (hx : x < 64) (hy : y < 32) :
    d.chars[65 * y + x]? = some (mark (d.lit.get (Pixel.ofCoords x y))) := by
  have hpiece : ∀ y : Fin 32, ((d.row y).map mark ++ ['\n']).length = 65 := by
    intro y
    rw [List.length_append, List.length_map, length_row]
    rfl
  have hrow : (List.finRange 32)[y]? = some ⟨y, hy⟩ := by
    rw [List.getElem?_eq_getElem (by rw [List.length_finRange]; exact hy), List.getElem_finRange]
    rfl
  have hcolumn : (List.finRange 64)[x]? = some ⟨x, hx⟩ := by
    rw [List.getElem?_eq_getElem (by rw [List.length_finRange]; exact hx), List.getElem_finRange]
    rfl
  unfold chars
  rw [Pieces.getElem?_flatMap hpiece (by omega), hrow, Option.bind_some,
    List.getElem?_append_left (by rw [List.length_map, length_row]; exact hx), row, List.map_map,
    List.getElem?_map, hcolumn]
  rfl

/-- A hash is the mark of a lit pixel, and of no other. -/
theorem mark_eq_hash_iff {on : Bool} : mark on = '#' ↔ on = true := by
  cases on with
  | false => exact ⟨fun h => absurd h (by decide), fun h => absurd h (by decide)⟩
  | true => exact ⟨fun _ => rfl, fun _ => rfl⟩

/-- Lit and unlit pixels have different marks. -/
theorem mark_injective : Function.Injective mark := by
  intro on on' h
  refine Bool.eq_iff_iff.mpr ?_
  rw [← mark_eq_hash_iff, ← mark_eq_hash_iff, h]

/-- The lines of the text. -/
def lines (d : Display) : List (List Char) := (List.finRange 32).map fun y => (d.row y).map mark

/-- The characters of a screen are its lines, each with a line feed behind
it. -/
theorem chars_eq_lines (d : Display) : d.chars = d.lines.flatMap fun line => line ++ ['\n'] := by
  rw [lines, List.flatMap_map]
  rfl

/-- There are 32 lines. -/
theorem length_lines (d : Display) : d.lines.length = 32 := by
  rw [lines, List.length_map, List.length_finRange]

/-- A line has a mark for each pixel of its row, and no end of line. -/
theorem mem_lines {line : List Char} (h : line ∈ d.lines) :
    line.length = 64 ∧ '\n' ∉ line := by
  obtain ⟨y, -, rfl⟩ := List.mem_map.mp h
  refine ⟨by rw [List.length_map, length_row], fun hnewline => ?_⟩
  obtain ⟨on, -, hmark⟩ := List.mem_map.mp hnewline
  cases on with
  | false => exact absurd hmark (by decide)
  | true => exact absurd hmark (by decide)

/-- Displays that show the same pixels at all coordinates are the same. -/
theorem ext_ofCoords
    (h : ∀ x y : Nat, x < 64 → y < 32 →
      d.lit.get (Pixel.ofCoords x y) = d'.lit.get (Pixel.ofCoords x y)) : d = d' := by
  refine ext_lit fun p => ?_
  have hlt := p.isLt
  have hcoords : Pixel.ofCoords p.column p.row = p := by
    refine Pixel.ofCoords_eq_iff_coords.mpr ⟨?_, ?_⟩
    · exact (Nat.mod_mod _ _).symm
    · unfold Pixel.row
      omega
  have hsame := h p.column p.row (Nat.mod_lt _ (by omega)) (by unfold Pixel.row; omega)
  rwa [hcoords] at hsame

/-- A text leaves no doubt about its display. -/
theorem text_injective (h : d.text = d'.text) : d = d' := by
  refine ext_ofCoords fun x y hx hy => ?_
  have hplace : d.chars[65 * y + x]? = d'.chars[65 * y + x]? := by
    rw [← toList_text, ← toList_text, h]
  rw [getElem?_chars d hx hy, getElem?_chars d' hx hy] at hplace
  exact mark_injective (Option.some.inj hplace)

-- ======================================================= by their numbers

/-- The number of a pixel is where its row and its column say. -/
theorem getElem?_lit (d : Display) (hx : x < 64) (hy : y < 32) :
    d.lit[x + 64 * y]? = some (d.lit.get (Pixel.ofCoords x y)) := by
  have hnumber : x + 64 * y = (Pixel.ofCoords x y).val := by
    show _ = x % 64 + y % 32 * 64
    omega
  rw [hnumber]
  exact Vector.getElem?_eq_getElem (Pixel.ofCoords x y).isLt

/-- The value of a pixel tells whether it is lit. -/
theorem getElem?_pixels (d : Display) (i : Nat) :
    d.pixels[i]? = (d.lit[i]?).map fun on => if on then white else black :=
  Vector.getElem?_map

theorem value_eq_white_iff {on : Bool} :
    (if on then white else black) = white ↔ on = true := by
  cases on with
  | false => exact ⟨fun h => absurd h (by decide), fun h => absurd h (by decide)⟩
  | true => exact ⟨fun _ => rfl, fun _ => rfl⟩

end Display

namespace Snapshot

variable {x y : Nat}

/-- Inside the screen a snapshot answers with the pixel at the coordinates. -/
theorem pixel_inside (s : Snapshot) (hx : x < 64) (hy : y < 32) :
    s.pixel x y = s.display.lit.get (Pixel.ofCoords x y) := if_pos ⟨hx, hy⟩

/-- Outside the screen it answers that nothing is lit. -/
theorem pixel_outside (s : Snapshot) (h : 64 ≤ x ∨ 32 ≤ y) : s.pixel x y = false := by
  refine if_neg fun hinside => ?_
  omega

end Snapshot

/-- On a display the coordinates wrap, in a snapshot of it they do not. -/
theorem Machine.isLit_eq_pixel (m : Machine) (x y : UInt8) :
    m.display.isLit x y = m.snapshot.pixel (x.toNat % 64) (y.toNat % 32) := by
  have hwraps : Pixel.ofCoords (x.toNat % 64) (y.toNat % 32) = Pixel.ofCoords x.toNat y.toNat :=
    Pixel.ofCoords_eq_iff.mpr ⟨Nat.mod_mod _ _, Nat.mod_mod _ _⟩
  rw [Snapshot.pixel_inside _ (Nat.mod_lt _ (by omega)) (Nat.mod_lt _ (by omega)), hwraps]
  rfl

-- ============================================================ main result

/-- All that a host is shown of a display shows the same pixels. Written
line by line or mark by mark it is the same text: 32 lines of 64 marks, each
with its end. For a column and a row of the display the mark at
`65 * row + column`, the value and the cell at `column + 64 * row` and both
lookups agree. Outside the display nothing is lit in a snapshot, while on
the display itself coordinates wrap. Displays with the same text are the
same. -/
theorem Machine.views_agree (m : Machine) :
    m.display.linewise = m.snapshot.charwise
      ∧ m.display.linewise = m.display.text ∧ m.snapshot.charwise = m.snapshot.text
      ∧ (m.display.text.toList = m.display.lines.flatMap (fun line => line ++ ['\n'])
        ∧ m.display.lines.length = 32
        ∧ ∀ line ∈ m.display.lines, line.length = 64 ∧ '\n' ∉ line)
      ∧ (∀ x y : Nat, x < 64 → y < 32 →
        m.display.text.toList[65 * y + x]? = some (if m.snapshot.pixel x y then '#' else '.')
          ∧ (m.display.text.toList[65 * y + x]? = some '#' ↔ m.snapshot.pixel x y = true)
          ∧ m.display.isLit (UInt8.ofNat x) (UInt8.ofNat y) = m.snapshot.pixel x y
          ∧ m.display.lit[x + 64 * y]? = some (m.snapshot.pixel x y)
          ∧ m.display.pixels[x + 64 * y]?
            = some (if m.snapshot.pixel x y then Display.white else Display.black)
          ∧ (m.display.pixels[x + 64 * y]? = some Display.white ↔ m.snapshot.pixel x y = true))
      ∧ (∀ x y : Nat, 64 ≤ x ∨ 32 ≤ y → m.snapshot.pixel x y = false)
      ∧ (∀ x y : UInt8,
        m.display.isLit x y = m.snapshot.pixel (x.toNat % 64) (y.toNat % 32))
      ∧ ∀ m' : Machine, m'.display.text = m.display.text → m'.display = m.display := by
  have htext := m.display.linewise_eq
  have hsnapshot := m.snapshot.charwise_eq
  refine ⟨htext.trans hsnapshot.symm, htext, hsnapshot,
    ⟨?_, m.display.length_lines, fun _ => Display.mem_lines⟩, ?_,
    fun _ _ => m.snapshot.pixel_outside, m.isLit_eq_pixel, fun _ => Display.text_injective⟩
  · rw [Display.toList_text, Display.chars_eq_lines]
  · intro x y hx hy
    have hpixel := m.snapshot.pixel_inside hx hy
    have hcell : m.display.lit[x + 64 * y]? = some (m.snapshot.pixel x y) :=
      (m.display.getElem?_lit hx hy).trans (congrArg some hpixel.symm)
    have hmark : m.display.text.toList[65 * y + x]?
        = some (Display.mark (m.snapshot.pixel x y)) := by
      rw [Display.toList_text, Display.getElem?_chars m.display hx hy, hpixel]
      rfl
    have hvalue : m.display.pixels[x + 64 * y]?
        = some (if m.snapshot.pixel x y then Display.white else Display.black) := by
      rw [Display.getElem?_pixels, hcell, Option.map_some]
    refine ⟨hmark, ?_, ?_, hcell, hvalue, ?_⟩
    · rw [hmark, Option.some.injEq, Display.mark_eq_hash_iff]
    · have hx' : (UInt8.ofNat x).toNat = x := Nat.mod_eq_of_lt (by omega)
      have hy' : (UInt8.ofNat y).toNat = y := Nat.mod_eq_of_lt (by omega)
      rw [m.isLit_eq_pixel, hx', hy', Nat.mod_eq_of_lt hx, Nat.mod_eq_of_lt hy]
    · rw [hvalue, Option.some.injEq, Display.value_eq_white_iff]

/-- With one pixel lit at the end of the third row, the text has its mark
before the third line end, and a snapshot does not find it one row
further, where the display wraps to it. -/
theorem Machine.views_of_one_pixel :
    ∃ m : Machine,
      m.display.text.toList[65 * 2 + 63]? = some '#'
        ∧ m.display.pixels[63 + 64 * 2]? = some Display.white
        ∧ m.snapshot.pixel 127 2 = false ∧ m.display.isLit 127 34 = true := by
  let m : Machine :=
    { Machine.booted #[] with display := (Display.blank.flip (Pixel.ofCoords 63 2)).1 }
  obtain ⟨-, -, -, -, hinside, houtside, hwraps, -⟩ := m.views_agree
  have hlit : m.snapshot.pixel 63 2 = true := by decide +kernel
  obtain ⟨-, hmark, -, -, -, hvalue⟩ := hinside 63 2 (by decide) (by decide)
  exact ⟨m, hmark.mpr hlit, hvalue.mpr hlit, houtside 127 2 (.inl (by decide)),
    (hwraps 127 34).trans hlit⟩

end Chip8
