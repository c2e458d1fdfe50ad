/-
The parts of the machine in storage that checks what is asked of it.

Nothing here can rely on a type to keep it in bounds. An index is any
number, and is compared with the size of the array; a sum, a difference
or a product is compared with the width that the result has to fit; a
range is compared with what it is a range of. An operation that is asked
for what cannot be done answers `none`, and a sequence of operations
breaks off at the first such answer.

# What is checked

The parts do what `Memory`, `Display`, `Keys`, `Timers` and `Clock` do,
by the steps that a program takes on plain arrays and numbers: a pixel is
found by a product and a sum, a sprite is drawn bit by bit, the clock
adds one interval after the other to its last instant. Additions that are
meant to wrap around are those of `UInt8` and `UInt16`; all others are
checked.

# What comes of it

Each operation has one lemma, which says that it does not break off and
that its result is that of the unchecked part. Loops are dealt with by
`foldlM_eq_some` and its like: if no round breaks off, neither does the
loop, and it comes to the loop over the unchecked rounds.
-/
import Mathlib
import Chip8.Machine.Host
import Chip8.Proofs.Decay
import Chip8.Proofs.Sprite

namespace Chip8.Checked

-- ========================================================== arithmetic

/-- How many bits sizes and indices have at least, whatever the host. -/
def sizeBits : Nat := 32

/-- A sum that has to fit into so many bits. -/
def sum (bits a b : Nat) : Option Nat := if a + b < 2 ^ bits then some (a + b) else none

/-- A product that has to fit into so many bits. -/
def product (bits a b : Nat) : Option Nat := if a * b < 2 ^ bits then some (a * b) else none

/-- A difference that must not fall below zero. -/
def difference (a b : Nat) : Option Nat := if b ≤ a then some (a - b) else none

/-- A number of so many bits shifted to the right, by less than it is
wide. -/
def shifted (bits a k : Nat) : Option Nat := if k < bits then some (a / 2 ^ k) else none

/-- A sum that fits its type is computed. -/
theorem sum_eq {bits a b : Nat} (h : a + b < 2 ^ bits) : sum bits a b = some (a + b) := if_pos h

theorem product_eq {bits a b : Nat} (h : a * b < 2 ^ bits) :
    product bits a b = some (a * b) := if_pos h

theorem difference_eq {a b : Nat} (h : b ≤ a) : difference a b = some (a - b) := if_pos h

theorem shifted_eq {bits a k : Nat} (h : k < bits) : shifted bits a k = some (a / 2 ^ k) :=
  if_pos h

-- ============================================================== arrays

section Arrays

variable {α : Type} {n : Nat}

/-- Put a value at an index. -/
def write (xs : Vector α n) (i : Nat) (value : α) : Option (Vector α n) :=
  if h : i < n then some (xs.set i value h) else none

/-- The values from one index up to another. -/
def slice (xs : Vector α n) (start stop : Nat) : Option (List α) :=
  if start ≤ stop ∧ stop ≤ n then some ((xs.toList.take stop).drop start) else none

/-- Put values in place of those from one index up to another. There must
be as many. -/
def copy (xs : Vector α n) (start stop : Nat) (values : Array α) : Option (Vector α n) :=
  if start ≤ stop ∧ stop ≤ n ∧ values.size = stop - start then
    some (Vector.ofFn fun i =>
      if start ≤ i.val then values.getD (i.val - start) (xs.get i) else xs.get i)
  else none

theorem write_eq (xs : Vector α n) {i : Nat} (value : α) (h : i < n) :
    write xs i value = some (xs.set i value h) := dif_pos h

end Arrays

-- =============================================================== loops

section Loops

variable {α σ τ : Type}

/-- A loop none of whose rounds breaks off, on states that stand for
others. -/
theorem foldlM_eq_some (φ : σ → τ) {f : τ → α → Option τ} {g : σ → α → σ} {xs : List α}
    (h : ∀ s, ∀ x ∈ xs, f (φ s) x = some (φ (g s x))) (s : σ) :
    xs.foldlM f (φ s) = some (φ (xs.foldl g s)) := by
  induction xs generalizing s with
  | nil => rfl
  | cons x xs ih =>
      rw [List.foldlM_cons, h s x List.mem_cons_self]
      exact ih (fun s y hy => h s y (List.mem_cons_of_mem _ hy)) (g s x)

/-- A checked walk over a list runs through if each of its steps does. -/
theorem mapM_eq_some {f : α → Option τ} {g : α → τ} {xs : List α}
    (h : ∀ x ∈ xs, f x = some (g x)) : xs.mapM f = some (xs.map g) := by
  induction xs with
  | nil => rfl
  | cons x xs ih =>
      rw [List.mapM_cons, h x List.mem_cons_self,
        ih fun y hy => h y (List.mem_cons_of_mem _ hy)]
      rfl

/-- A checked search of a list runs through if the test of each element
does. -/
theorem findM?_eq_some {p : α → Option Bool} {q : α → Bool} {xs : List α}
    (h : ∀ x ∈ xs, p x = some (q x)) : xs.findM? p = some (xs.find? q) := by
  induction xs with
  | nil => rfl
  | cons x xs ih =>
      have hrest := ih fun y hy => h y (List.mem_cons_of_mem _ hy)
      rw [List.findM?, h x List.mem_cons_self, List.find?_cons]
      cases q x with
      | true => rfl
      | false => exact hrest

/-- The last round of a loop. -/
theorem foldlM_range_succ (f : σ → Nat → Option σ) (s : σ) (n : Nat) :
    (List.range (n + 1)).foldlM f s = ((List.range n).foldlM f s).bind fun t => f t n := by
  rw [List.range_succ, List.foldlM_append]
  exact congrArg (Option.bind _) (funext fun t => bind_pure (f t n))

/-- A loop that writes the first places of an array, one after the
other. -/
theorem foldlM_write {n : Nat} {f : Vector α n → Nat → Option (Vector α n)} {g : Nat → α}
    (xs : Vector α n) {k : Nat} (hk : k ≤ n) (h : ∀ ys, ∀ i < k, f ys i = write ys i (g i)) :
    (List.range k).foldlM f xs
      = some (Vector.ofFn fun i => if i.val < k then g i.val else xs.get i) := by
  induction k with
  | zero =>
      refine congrArg some (Vector.ext fun i hi => ?_)
      rw [Vector.getElem_ofFn, if_neg (Nat.not_lt_zero i), Vector.get_eq_getElem]
  | succ k ih =>
      rw [foldlM_range_succ, ih (Nat.le_of_succ_le hk)
        fun ys i hi => h ys i (Nat.lt_succ_of_lt hi), Option.bind_some,
        h _ k (Nat.lt_succ_self k), write_eq _ _ hk]
      refine congrArg some (Vector.ext fun i hi => ?_)
      rw [Vector.getElem_set, Vector.getElem_ofFn, Vector.getElem_ofFn]
      by_cases hik : k = i
      · subst hik
        rw [if_pos rfl, if_pos (Nat.lt_succ_self k)]
      · rw [if_neg hik]
        simp only [show i < k + 1 ↔ i < k by omega]

end Loops

-- ============================================================== memory

def readByte (cells : Vector UInt8 4096) (a : UInt16) : Option UInt8 := cells[a.toNat % 4096]?

/-- Put a byte into memory, unless it would land in the font. -/
def writeByte (cells : Vector UInt8 4096) (a : UInt16) (byte : UInt8) :
    Option (Vector UInt8 4096) :=
  if a.toNat % 4096 < Font.size then some cells else write cells (a.toNat % 4096) byte

/-- Memory that holds the font, and zeros everywhere else. -/
def blankCells : Option (Vector UInt8 4096) :=
  copy (Vector.replicate 4096 0) 0 Font.size Font.bytes.toArray

/-- Copy a program to where programs are loaded. -/
def loadCells (cells : Vector UInt8 4096) (program : Array UInt8) :
    Option (Vector UInt8 4096) := do
  let stop ← sum sizeBits Memory.programStart program.size
  copy cells Memory.programStart stop program

/-- Reading takes the address modulo the size of the memory, so it never
fails. -/
theorem readByte_eq (m : Memory) (a : UInt16) : readByte m.cells a = some (m.read a) :=
  Vector.getElem?_eq_getElem (Cell.toNat_mod_lt a)

/-- Writing takes the address modulo the size of the memory, so it never
fails. -/
theorem writeByte_eq (m : Memory) (a : UInt16) (byte : UInt8) :
    writeByte m.cells a byte = some (m.put (Cell.ofAddress a) byte).cells := by
  unfold writeByte Memory.put
  by_cases hfont : a.toNat % 4096 < Font.size
  · rw [if_pos hfont, if_pos (show (Cell.ofAddress a).isFont = true from decide_eq_true hfont)]
  · have hcell : ¬ (Cell.ofAddress a).isFont = true := fun hc => hfont (of_decide_eq_true hc)
    rw [if_neg hfont, if_neg hcell, write_eq _ _ (Cell.toNat_mod_lt a)]
    rfl

/-- Storing a row of bytes ends with storing the last of them. -/
theorem store_concat (m : Memory) (a : UInt16) (bytes : List UInt8) (byte : UInt8) :
    (m.store a (bytes ++ [byte])).1
      = (m.store a bytes).1.put (Cell.ofAddress (a + UInt16.ofNat bytes.length)) byte := by
  induction bytes generalizing m a with
  | nil =>
      show m.put (Cell.ofAddress a) byte = m.put (Cell.ofAddress (a + 0)) byte
      rw [UInt16.add_zero]
  | cons b rest ih =>
      have hnext : a + 1 + UInt16.ofNat rest.length = a + UInt16.ofNat (rest.length + 1) := by
        rw [UInt16.ofNat_add, UInt16.add_assoc, UInt16.add_comm 1]
        rfl
      refine (ih (m.put (Cell.ofAddress a) b) (a + 1)).trans ?_
      rw [hnext]
      rfl

/-- A loop that stores the first bytes of an array, one after the
other. -/
theorem foldlM_writeByte {k : Nat} (m : Memory) (a : UInt16) (bytes : Vector UInt8 k) {n : Nat}
    (hn : n ≤ k) :
    (List.range n).foldlM
        (fun cells i => do writeByte cells (a + UInt16.ofNat i) (← bytes[i]?)) m.cells
      = some (m.store a (bytes.toList.take n)).1.cells := by
  induction n with
  | zero => rfl
  | succ n ih =>
      have hlen : (bytes.toList.take n).length = n := by
        rw [List.length_take, Vector.length_toList]
        omega
      have hlast : bytes.toList.take (n + 1) = bytes.toList.take n ++ [bytes[n]] := by
        rw [List.take_succ_eq_append_getElem (by rw [Vector.length_toList]; exact hn),
          Vector.getElem_toList]
      rw [foldlM_range_succ, ih (Nat.le_of_succ_le hn), Option.bind_some,
        Vector.getElem?_eq_getElem hn, hlast, store_concat, hlen]
      exact writeByte_eq _ _ _

/-- The font has its place in the memory. -/
theorem blankCells_eq : blankCells = some Memory.blank.cells := by
  have hsize : Font.size = 80 := rfl
  unfold blankCells copy
  rw [if_pos (by simp [hsize])]
  refine congrArg some (Vector.ext fun i hi => ?_)
  have hcell := Memory.cells_ofProgram #[] ⟨i, hi⟩
  rw [Vector.get_eq_getElem] at hcell
  refine Eq.trans ?_ hcell.symm
  rw [Vector.getElem_ofFn, if_pos (Nat.zero_le i)]
  by_cases hlow : i < Font.size
  · rw [dif_pos hlow]
    simp [hlow, Vector.get_eq_getElem]
  · rw [dif_neg hlow]
    simp [hlow, Vector.get_eq_getElem]

/-- A program that fits has its place in the memory. -/
theorem loadCells_eq {program : Array UInt8} (h : program.size ≤ Memory.capacity) :
    loadCells Memory.blank.cells program = some (Memory.ofProgram program).cells := by
  have hstart : Memory.programStart = 512 := rfl
  have hcap : Memory.capacity = 3584 := rfl
  have hfont : Font.size = 80 := rfl
  unfold loadCells
  rw [sum_eq (by rw [sizeBits]; omega)]
  show copy _ _ _ _ = _
  unfold copy
  rw [if_pos (by omega)]
  refine congrArg some (Vector.ext fun i hi => ?_)
  have hblank := Memory.cells_ofProgram #[] ⟨i, hi⟩
  have hcell := Memory.cells_ofProgram program ⟨i, hi⟩
  rw [Vector.get_eq_getElem] at hcell
  refine Eq.trans ?_ hcell.symm
  rw [Vector.getElem_ofFn]
  show (if Memory.programStart ≤ i then
    program.getD (i - Memory.programStart) ((Memory.ofProgram #[]).cells.get ⟨i, hi⟩)
    else (Memory.ofProgram #[]).cells.get ⟨i, hi⟩) = _
  rw [hblank]
  by_cases hlow : i < Font.size
  · rw [if_neg (by omega), dif_pos hlow, dif_pos hlow]
  · rw [dif_neg hlow, dif_neg hlow]
    by_cases hbehind : Memory.programStart ≤ i
    · rw [if_pos hbehind, if_pos hbehind, if_pos hbehind]
      rfl
    · rw [if_neg hbehind, if_neg hbehind, if_neg hbehind]

-- ============================================================= display

/-- The number of the pixel at `(x, y)`. -/
def pixelIndex (x y : UInt8) : Option Nat := do
  let above ← product sizeBits (y.toNat % 32) 64
  sum sizeBits (x.toNat % 64) above

/-- Combine the pixel at `(x, y)` with `on` by exclusive or; the flag
tells whether a lit pixel went out. -/
def combine (lit : Vector Bool 2048) (x y : UInt8) (on : Bool) :
    Option (Vector Bool 2048 × Bool) := do
  let i ← pixelIndex x y
  let was ← lit[i]?
  return (← write lit i (was ^^ on), was && on)

/-- Draw the bit in one column of one row of a sprite, on a display beside
the collision so far. -/
def drawBit (x y byte : UInt8) (row : Nat) (s : Vector Bool 2048 × Bool) (column : Nat) :
    Option (Vector Bool 2048 × Bool) := do
  let bits ← shifted 8 byte.toNat (← difference 7 column)
  if bits % 2 = 1 then
    let px ← sum sizeBits x.toNat column
    let py ← sum sizeBits y.toNat row
    let (lit, out) ← combine s.1 (UInt8.ofNat (px % 64)) (UInt8.ofNat (py % 32)) true
    return (lit, s.2 || out)
  else return s

def drawRow (x y byte : UInt8) (row : Nat) (s : Vector Bool 2048 × Bool) :
    Option (Vector Bool 2048 × Bool) := (List.range 8).foldlM (drawBit x y byte row) s

/-- Draw a sprite with its top left corner at `(x, y)`; the flag is the
collision. -/
def drawSprite (lit : Vector Bool 2048) (x y : UInt8) (rows : List UInt8) :
    Option (Vector Bool 2048 × Bool) :=
  rows.zipIdx.foldlM (fun s row => drawRow x y row.1 row.2 s) (lit, false)

/-- The arrays of a display and a collision. -/
def drawing (s : Display × Bool) : Vector Bool 2048 × Bool := (s.1.lit, s.2)

/-- Flip one more pixel. -/
def flipInto (s : Display × Bool) (p : Pixel) : Display × Bool :=
  ((s.1.flip p).1, s.2 || (s.1.flip p).2)

/-- Flipping pixels one by one leaves the screen as flipping them all does,
and remembers a collision. -/
theorem foldl_flipInto (ps : List Pixel) :
    ∀ (d : Display) (hit : Bool),
      ps.foldl flipInto (d, hit) = ((d.flipAll ps).1, hit || (d.flipAll ps).2) := by
  induction ps with
  | nil =>
      intro d hit
      show (d, hit) = (d, hit || false)
      rw [Bool.or_false]
  | cons p ps ih =>
      intro d hit
      show ps.foldl flipInto ((d.flip p).1, hit || (d.flip p).2) = _
      rw [ih, Bool.or_assoc]
      rfl

/-- Coordinates modulo the screen name a pixel on it. -/
theorem pixelIndex_eq (x y : UInt8) :
    pixelIndex x y = some (Pixel.ofCoords x.toNat y.toNat).val := by
  have hrow : y.toNat % 32 < 32 := Nat.mod_lt _ (by decide)
  have hcolumn : x.toNat % 64 < 64 := Nat.mod_lt _ (by decide)
  unfold pixelIndex
  rw [product_eq (by rw [sizeBits]; omega)]
  exact sum_eq (by rw [sizeBits]; omega)

/-- Drawing a pixel passes every check. -/
theorem combine_eq (d : Display) (x y : UInt8) (on : Bool) :
    combine d.lit x y on = some (drawing (d.combine x y on)) := by
  have hlt := (Pixel.ofCoords x.toNat y.toNat).isLt
  unfold combine
  rw [pixelIndex_eq]
  show (do
    let was ← d.lit[(Pixel.ofCoords x.toNat y.toNat).val]?
    return (← write d.lit (Pixel.ofCoords x.toNat y.toNat).val (was ^^ on), was && on)) = _
  rw [Vector.getElem?_eq_getElem hlt]
  show (do
    return (← write d.lit _ _, _)) = _
  rw [write_eq _ _ hlt]
  cases on with
  | true => simp [drawing, Display.combine, Display.flip]
  | false => simp [drawing, Display.combine]

/-- Coordinates may be taken around the display before a pixel is looked
up. -/
theorem ofCoords_mod (x y : Nat) :
    Pixel.ofCoords (UInt8.ofNat (x % 64)).toNat (UInt8.ofNat (y % 32)).toNat
      = Pixel.ofCoords x y := by
  have hx : (UInt8.ofNat (x % 64)).toNat = x % 64 := by
    rw [UInt8.toNat_ofNat']
    omega
  have hy : (UInt8.ofNat (y % 32)).toNat = y % 32 := by
    rw [UInt8.toNat_ofNat']
    omega
  rw [hx, hy]
  refine Fin.ext ?_
  show x % 64 % 64 + y % 32 % 32 * 64 = x % 64 + y % 32 * 64
  rw [Nat.mod_mod, Nat.mod_mod]

/-- A set bit flips its pixel, and any other bit does nothing. -/
theorem drawBit_eq (x y byte : UInt8) {row column : Nat} (hrow : row ≤ 2 ^ 31)
    (hcolumn : column < 8) (s : Display × Bool) :
    drawBit x y byte row (drawing s) column
      = some (drawing (if byte.toNat.testBit (7 - column) then
          flipInto s (Pixel.ofCoords (x.toNat + column) (y.toNat + row)) else s)) := by
  have hx := x.toNat_lt
  have hy := y.toNat_lt
  unfold drawBit
  rw [difference_eq (by omega)]
  show (shifted 8 byte.toNat (7 - column) >>= fun bits => _) = _
  rw [shifted_eq (by omega), Nat.testBit_eq_decide_div_mod_eq]
  show (if byte.toNat / 2 ^ (7 - column) % 2 = 1 then _ else _) = _
  by_cases hset : byte.toNat / 2 ^ (7 - column) % 2 = 1
  · rw [if_pos hset, if_pos (decide_eq_true hset), sum_eq (by rw [sizeBits]; omega)]
    show (sum sizeBits y.toNat row >>= fun py => _) = _
    rw [sum_eq (by rw [sizeBits]; omega)]
    show (combine s.1.lit _ _ true >>= fun drawn => _) = _
    rw [combine_eq, Display.combine, if_pos rfl, ofCoords_mod]
    rfl
  · rw [if_neg hset, if_neg (by simpa using hset)]
    rfl

/-- A row of a sprite passes every check, as its columns lie fewer than
eight to the right. -/
theorem drawRow_eq (x y byte : UInt8) {row : Nat} (hrow : row ≤ 2 ^ 31) (s : Display × Bool) :
    drawRow x y byte row (drawing s)
      = some (drawing (((Sprite.columns byte).map fun c =>
          Pixel.ofCoords (x.toNat + c) (y.toNat + row)).foldl flipInto s)) := by
  rw [List.foldl_map, Sprite.columns, List.foldl_filter]
  exact foldlM_eq_some drawing (fun s c hc => drawBit_eq x y byte hrow (List.mem_range.mp hc) s) s

/-- Row by row, the flips are those of the sprite; `k` rows were drawn
before. -/
theorem foldl_rows (x y : Nat) (rows : List UInt8) (k : Nat) (s : Display × Bool) :
    (rows.zipIdx k).foldl (fun s row => ((Sprite.columns row.1).map fun c =>
        Pixel.ofCoords (x + c) (y + row.2)).foldl flipInto s) s
      = (Sprite.pixels x (y + k) rows).foldl flipInto s := by
  induction rows generalizing k s with
  | nil => rfl
  | cons byte rest ih =>
      rw [List.zipIdx_cons, List.foldl_cons, ih, Sprite.pixels, List.foldl_append]
      rfl

/-- A sprite passes every check, row by row. -/
theorem drawSprite_eq (d : Display) (x y : UInt8) {rows : List UInt8}
    (hrows : rows.length ≤ 2 ^ 31) :
    drawSprite d.lit x y rows = some (drawing (d.draw x y rows)) := by
  have hround (s : Display × Bool) (row : UInt8 × Nat) (hrow : row ∈ rows.zipIdx) :=
    drawRow_eq x y row.1 ((List.snd_lt_of_mem_zipIdx hrow).le.trans (by omega)) s
  refine (foldlM_eq_some drawing hround (d, false)).trans (congrArg (fun s => some (drawing s)) ?_)
  rw [foldl_rows, foldl_flipInto, Bool.false_or]
  rfl

-- ================================================================ keys

/-- The lowest key that is down in `now` and up in `before`. -/
def pressed (before now : Keys) : Option (Option Nat) :=
  (List.range 16).findM? fun k => do return !(← before[k]?) && (← now[k]?)

/-- Exactly the keys of a list are down. -/
def held (keys : List Key) : Option Keys :=
  keys.foldlM (fun down k => write down k.val true) (Vector.replicate 16 false)

/-- Press or release whichever keys are not as they are to be. -/
def follow (down now : Keys) : Option Keys :=
  (List.range 16).foldlM (fun down k => do
    let on ← now[k]?
    if on != (← down[k]?) then write down k on else return down) down

/-- The search for a pressed key looks at the sixteen keys and no others. -/
theorem pressed_eq (before now : Keys) :
    pressed before now = some ((Keys.fresh? before now).map Fin.val) := by
  have hkey : ∀ k ∈ List.range 16, (do return !(← before[k]?) && (← now[k]?))
      = some (!before[k]?.getD false && now[k]?.getD false) := by
    intro k hk
    have hlt := List.mem_range.mp hk
    rw [Vector.getElem?_eq_getElem hlt, Vector.getElem?_eq_getElem hlt]
    rfl
  refine (findM?_eq_some hkey).trans (congrArg some ?_)
  rw [← List.map_coe_finRange_eq_range, List.find?_map]
  refine congrArg (Option.map _) (List.find?_congr fun k _ => ?_)
  show (!before[k.val]?.getD false && now[k.val]?.getD false) = (!before[k.val] && now[k.val])
  rw [Vector.getElem?_eq_getElem k.isLt, Vector.getElem?_eq_getElem k.isLt]
  rfl

/-- Every key of a list has its place. -/
theorem held_eq (keys : List Key) : held keys = some (Keys.ofList keys) := by
  have hround (down : Keys) (k : Key) (_ : k ∈ keys) :
      write down k.val true = some (down.set k.val true k.isLt) := write_eq down true k.isLt
  have hloop (i : Nat) (hi : i < 16) (ks : List Key) (down : Keys) :
      (ks.foldl (fun down (k : Key) => down.set k.val true k.isLt) down)[i]
        = (decide ((⟨i, hi⟩ : Key) ∈ ks) || down[i]) := by
    induction ks generalizing down with
    | nil => simp
    | cons k rest ih =>
        rw [List.foldl_cons, ih, Vector.getElem_set]
        by_cases hk : k.val = i
        · simp [Fin.ext_iff, hk]
        · simp [Fin.ext_iff, hk, Ne.symm hk]
  refine (foldlM_eq_some id hround _).trans (congrArg some (Vector.ext fun i hi => ?_))
  refine (hloop i hi keys _).trans ?_
  rw [Keys.ofList, Vector.getElem_ofFn]
  simp

/-- Writing each key that has changed leaves the keys as they are now. -/
theorem follow_eq (down now : Keys) : follow down now = some now := by
  have hround : ∀ ys : Keys, ∀ k < 16, (do
      let on ← now[k]?
      if on != (← ys[k]?) then write ys k on else return ys) = write ys k (now[k]?.getD false) := by
    intro ys k hk
    rw [Vector.getElem?_eq_getElem hk, Vector.getElem?_eq_getElem hk, Option.getD_some]
    show (if now[k] != ys[k] then write ys k now[k] else some ys) = write ys k now[k]
    by_cases hsame : now[k] = ys[k]
    · rw [if_neg (by simpa using hsame), hsame, write_eq _ _ hk, Vector.set_getElem_self]
    · rw [if_pos (by simpa using hsame)]
  refine (foldlM_write down (Nat.le_refl 16) hround).trans (congrArg some ?_)
  refine Vector.ext fun i hi => ?_
  rw [Vector.getElem_ofFn, if_pos hi, Vector.getElem?_eq_getElem hi, Option.getD_some]

-- ====================================================== timers and clock

/-- What is left of a count after one step. -/
def lower (count step : UInt8) : Option UInt8 := do
  return UInt8.ofNat (← difference count.toNat (min count.toNat step.toNat))

/-- Move the last instant on by one interval after the other, for as long
as they fit, and count them in 32 bits. Instants from `horizon` on cannot
be told. -/
def walk (horizon : Instant) (c : Clock) (now : Instant) (ticks : Nat) : Option (Nat × Clock) :=
  if c.last ≤ now then
    if h : 0 < c.interval ∧ c.interval ≤ now - c.last then
      if c.last + c.interval < horizon ∧ ticks + 1 < 2 ^ 32 then
        walk horizon { c with last := c.last + c.interval } now (ticks + 1)
      else none
    else some (ticks, c)
  else none
termination_by now - c.last
decreasing_by
  dsimp only [Instant] at *
  omega

/-- Account for the ticks that are due at an instant. -/
def settle (horizon : Instant) (c : Clock) (now : Instant) : Option (Nat × Clock) :=
  if c.interval = 0 then some (0, c) else walk horizon c now 0

/-- A count is lowered by no more than it has. -/
theorem lower_eq (count step : UInt8) :
    lower count step = some (Timers.lower count step.toNat) := by
  unfold lower
  rw [difference_eq (Nat.min_le_left _ _), Timers.lower]
  refine congrArg (fun n => some (UInt8.ofNat n)) ?_
  omega

/-- Walking the clock on passes every check, as the time before the last
interval is not asked for and the count of intervals fits. -/
theorem walk_eq {horizon now : Instant} (hnow : now < horizon) {c : Clock} (hlast : c.last ≤ now)
    {ticks : Nat} (hticks : ticks + (c.walk now).1 < 2 ^ 32) :
    walk horizon c now ticks = some (ticks + (c.walk now).1, (c.walk now).2) := by
  fun_induction Clock.walk c now generalizing ticks with
  | case1 c h later ih =>
      -- the instant that is added to fits, because it is not one to come
      have hfits : c.interval ≤ now - c.last := Nat.le_sub_of_add_le' h.2
      have hnext : ticks + 1 + later.1 < 2 ^ 32 := by
        dsimp only at hticks
        omega
      rw [walk, if_pos hlast, dif_pos ⟨h.1, hfits⟩, if_pos ⟨h.2.trans_lt hnow, by omega⟩,
        ih h.2 hnext, Nat.add_assoc, Nat.add_comm 1]
  | case2 c h =>
      have hshort : ¬ (0 < c.interval ∧ c.interval ≤ now - c.last) := by
        dsimp only [Instant] at *
        omega
      rw [walk, if_pos hlast, dif_neg hshort]
      rfl

/-- Settling the clock passes every check if the intervals that are due fit
their counter. -/
theorem settle_eq {horizon now : Instant} (hnow : now < horizon) {c : Clock} (hlast : c.last ≤ now)
    (hdue : c.due now < 2 ^ 32) : settle horizon c now = some (c.settle now) := by
  unfold settle
  by_cases hstill : c.interval = 0
  · have hnone : c.due now = 0 := by rw [Clock.due, hstill, Nat.div_zero]
    rw [if_pos hstill, Clock.settle, hnone, Nat.zero_mul]
    rfl
  · rw [Clock.settle_eq_walk]
    rw [if_neg hstill, walk_eq hnow hlast, Nat.zero_add]
    have hdue' : c.due now = (c.walk now).1 := congrArg Prod.fst (c.settle_eq_walk now)
    omega

end Chip8.Checked
