/-
Lists and texts that are put together from pieces.

A list is cut into pieces of one length, the last of which may be shorter
(`cut`); where nothing is left over, the pieces are known by their numbers
(`cut_of_length`). The other way round, a place in a list that was put
together from pieces of one length is a piece and a place in it
(`getElem?_flatMap`): so marks are found in a text and words in a program.
-/
import Mathlib

namespace Chip8.Pieces

variable {α β : Type} {n : Nat}

-- =============================================================== cutting

/-- A list cut into pieces of length `n`; the last may be shorter. -/
def cut (n : Nat) : List α → List (List α)
  | [] => []
  | a :: rest => (a :: rest.take (n - 1)) :: cut n (rest.drop (n - 1))
termination_by as => as.length
decreasing_by
  rw [List.length_drop, List.length_cons]
  omega

/-- A list of a multiple of `n` elements is cut into pieces of `n`. -/
theorem cut_of_length (hn : 0 < n) {count : Nat} :
    ∀ {as : List α}, as.length = n * count →
      cut n as = (List.range count).map fun i => (as.drop (n * i)).take n := by
  induction count with
  | zero =>
      intro as hlength
      rw [List.length_eq_zero_iff.mp hlength, cut]
      rfl
  | succ count ih =>
      intro as hlength
      rw [Nat.mul_succ] at hlength
      cases as with
      | nil =>
          rw [List.length_nil] at hlength
          omega
      | cons a rest =>
          rw [List.length_cons] at hlength
          have hrest : (rest.drop (n - 1)).length = n * count := by
            rw [List.length_drop]
            omega
          have hfirst : (a :: rest).take n = a :: rest.take (n - 1) := by
            rw [← List.take_succ_cons, Nat.sub_add_cancel hn]
          rw [cut, ih hrest, List.range_succ_eq_map, List.map_cons, List.map_map, Nat.mul_zero,
            List.drop_zero, hfirst]
          refine congrArg (List.cons _) (List.map_congr_left fun i _ => ?_)
          have hskip : n * (i + 1) = (n - 1 + n * i) + 1 := by
            rw [Nat.mul_succ]
            omega
          rw [List.drop_drop, Function.comp_apply, Nat.succ_eq_add_one, hskip, List.drop_succ_cons]

-- ====================================================== putting together

/-- Where pieces have the same length, a place in the whole is a piece and
a place in it. -/
theorem getElem?_flatMap {piece : α → List β} {x : Nat} (h : ∀ a, (piece a).length = n)
    (hx : x < n) :
    ∀ (as : List α) (y : Nat),
      (as.flatMap piece)[n * y + x]? = as[y]?.bind fun a => (piece a)[x]? := by
  intro as
  induction as with
  | nil =>
      intro y
      rfl
  | cons a rest ih =>
      intro y
      rw [List.flatMap_cons]
      cases y with
      | zero =>
          rw [Nat.mul_zero, Nat.zero_add, List.getElem?_append_left (by rw [h]; exact hx)]
          rfl
      | succ y =>
          have hplace : n * (y + 1) + x = (piece a).length + (n * y + x) := by
            rw [h, Nat.mul_succ]
            omega
          rw [hplace, List.getElem?_append_right (Nat.le_add_right _ _), Nat.add_sub_cancel_left,
            ih]
          rfl

/-- A text that grows at its end is what is appended, in order. -/
theorem toList_foldl {write : String → α → String} {piece : α → List Char}
    (h : ∀ out a, (write out a).toList = out.toList ++ piece a) (as : List α) :
    ∀ out : String, (as.foldl write out).toList = out.toList ++ as.flatMap piece := by
  induction as with
  | nil =>
      intro out
      exact (List.append_nil _).symm
  | cons a rest ih =>
      intro out
      rw [List.foldl_cons, ih, h, List.append_assoc, List.flatMap_cons]

end Chip8.Pieces
