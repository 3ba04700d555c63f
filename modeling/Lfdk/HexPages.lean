import Mathlib.Tactic

/-!
# A page of bytes with a cursor

A page is shown as sixteen lines of sixteen bytes, in cells of one, two or more bytes
each. The number of bytes in a cell is a power of two. A cursor is moved over the page
from cell to cell; it is on the page when it stands at the start of a cell.

Every way of moving keeps the cursor on the page. A cursor on the page stands at exactly
one of the cells, and the bytes of that cell are inside the page and aligned to their
number.
-/

namespace Lfdk.HexPages

/-- The number of bytes in a cell. -/
def width (shift : Nat) : Int := 2 ^ shift

/-- A cell has a byte at least, so a step of the cursor by a cell moves it. -/
theorem width_pos (shift : Nat) : 0 < width shift := by
  unfold width
  positivity

/-- Up to a whole line, cells divide a line, so no cell goes over the end of one. -/
theorem width_dvd {shift : Nat} (fits : shift ≤ 4) : width shift ∣ 16 := by
  have line : (16 : Int) = 2 ^ 4 := by norm_num
  rw [width, line]
  exact pow_dvd_pow 2 fits

/-- A multiple of the width below the end of a line leaves room for a cell. -/
theorem room {shift : Nat} (fits : shift ≤ 4) {column : Int} (aligned : width shift ∣ column)
    (inside : column < 16) : column + width shift ≤ 16 := by
  have rest : width shift ∣ 16 - column := dvd_sub (width_dvd fits) aligned
  have least : width shift ≤ 16 - column := Int.le_of_dvd (by omega) rest
  omega

structure Cursor where
  x : Int
  y : Int
deriving DecidableEq, Repr

namespace Cursor

/-- The first cell of a page. -/
def start : Cursor := ⟨0, 0⟩

/-- The byte of the page it stands at. -/
def offset (cursor : Cursor) : Int := cursor.y * 16 + cursor.x

def up (cursor : Cursor) : Cursor :=
  if 0 < cursor.y then { cursor with y := cursor.y - 1 } else cursor

def down (cursor : Cursor) : Cursor :=
  if cursor.y < 15 then { cursor with y := cursor.y + 1 } else cursor

/-- One cell to the left, and to the first column from beyond it. -/
def left (shift : Nat) (cursor : Cursor) : Cursor :=
  let x := cursor.x - width shift
  { cursor with x := if x < 0 then 0 else x }

/-- One cell to the right, and back from beyond the last column. -/
def right (shift : Nat) (cursor : Cursor) : Cursor :=
  let x := cursor.x + width shift
  { cursor with x := if 16 ≤ x then x - width shift else x }

/-- Back to the start of a cell: a shift to the right and one to the left. -/
def realign (shift : Nat) (cursor : Cursor) : Cursor :=
  { cursor with x := cursor.x / width shift * width shift }

/-- It stands at the start of a cell. -/
structure OnPage (shift : Nat) (cursor : Cursor) : Prop where
  aligned : width shift ∣ cursor.x
  first : 0 ≤ cursor.x
  last : cursor.x + width shift ≤ 16
  top : 0 ≤ cursor.y
  bottom : cursor.y ≤ 15

/-- The cursor starts on the page, at its first cell, for cells of up to a whole line. -/
theorem start_onPage {shift : Nat} (fits : shift ≤ 4) : start.OnPage shift :=
  ⟨dvd_zero _, le_refl _, room fits (dvd_zero _) (by decide), le_refl _, by decide⟩

section Moves

variable {shift : Nat} {cursor : Cursor}

/-- Going up stays on the page: the first line is the end. -/
theorem up_onPage (onPage : cursor.OnPage shift) : cursor.up.OnPage shift := by
  have bottom := onPage.bottom
  rw [up]
  split
  · next below =>
    refine ⟨onPage.aligned, onPage.first, onPage.last, ?_, ?_⟩
    · simp only
      omega
    · simp only
      omega
  · exact onPage

/-- Going down stays on the page: the last line is the end. -/
theorem down_onPage (onPage : cursor.OnPage shift) : cursor.down.OnPage shift := by
  have top := onPage.top
  rw [down]
  split
  · next above =>
    refine ⟨onPage.aligned, onPage.first, onPage.last, ?_, ?_⟩
    · simp only
      omega
    · simp only
      omega
  · exact onPage

/-- Going left stays on the page: the first cell of a line is the end. -/
theorem left_onPage (fits : shift ≤ 4) (onPage : cursor.OnPage shift) :
    (cursor.left shift).OnPage shift := by
  have positive := width_pos shift
  have last := onPage.last
  simp only [left]
  split
  · have corner := start_onPage fits
    exact ⟨corner.aligned, corner.first, corner.last, onPage.top, onPage.bottom⟩
  · next inside =>
    refine ⟨dvd_sub onPage.aligned (dvd_refl _), ?_, ?_, onPage.top, onPage.bottom⟩
    · simp only
      omega
    · simp only
      omega

/-- Going right stays on the page: the last cell of a line is the end. -/
theorem right_onPage (fits : shift ≤ 4) (onPage : cursor.OnPage shift) :
    (cursor.right shift).OnPage shift := by
  have positive := width_pos shift
  have first := onPage.first
  simp only [right]
  split
  · rw [Int.add_sub_cancel]
    exact onPage
  · next inside =>
    have aligned : width shift ∣ cursor.x + width shift := dvd_add onPage.aligned (dvd_refl _)
    have last := room fits aligned (by omega)
    refine ⟨aligned, ?_, last, onPage.top, onPage.bottom⟩
    simp only
    omega

/-- The four ways of moving over a page. -/
inductive Move (shift : Nat) (cursor : Cursor) : Cursor → Prop where
  | up : Move shift cursor cursor.up
  | down : Move shift cursor cursor.down
  | left : Move shift cursor (cursor.left shift)
  | right : Move shift cursor (cursor.right shift)

/-- So every move of the cursor does. This is the step of the invariant that the cursor is on the
page. -/
theorem Move.onPage (fits : shift ≤ 4) (onPage : cursor.OnPage shift) {moved : Cursor}
    (move : Move shift cursor moved) : moved.OnPage shift := by
  cases move with
  | up => exact up_onPage onPage
  | down => exact down_onPage onPage
  | left => exact left_onPage fits onPage
  | right => exact right_onPage fits onPage

/-- From a page with cells of another width, the cursor comes to a cell of the new width. -/
theorem realign_onPage {other : Nat} (fits : shift ≤ 4) (onPage : cursor.OnPage other) :
    (cursor.realign shift).OnPage shift := by
  have positive := width_pos shift
  have others := width_pos other
  have inside := onPage.last
  have aligned : width shift ∣ cursor.x / width shift * width shift := dvd_mul_left _ _
  have down : cursor.x / width shift * width shift ≤ cursor.x := Int.ediv_mul_le _ (by omega)
  have last := room fits aligned (by omega)
  refine ⟨aligned, ?_, last, onPage.top, onPage.bottom⟩
  exact mul_nonneg (Int.ediv_nonneg onPage.first (le_of_lt positive)) (le_of_lt positive)

/-- The cell's bytes are inside the page of 256 bytes, the last one as well. -/
theorem offset_bounds (onPage : cursor.OnPage shift) :
    0 ≤ cursor.offset ∧ cursor.offset + width shift ≤ 256 := by
  obtain ⟨_, first, last, top, bottom⟩ := onPage
  unfold offset
  constructor
  · omega
  · omega

/-- The offset of the cursor is a multiple of the width of a cell, so the bytes of a cell are those
of one access. -/
theorem offset_aligned (fits : shift ≤ 4) (onPage : cursor.OnPage shift) :
    width shift ∣ cursor.offset :=
  dvd_add (dvd_mul_of_dvd_right (width_dvd fits) _) onPage.aligned

end Moves

end Cursor

/-- The columns that a loop over a line goes through. -/
def columns (shift : Nat) : List Nat := List.range' 0 (16 / 2 ^ shift) (2 ^ shift)

/-- The lines and columns of all cells, in the order in which they are shown. -/
def cells (shift : Nat) : List (Nat × Nat) :=
  (List.range 16).flatMap fun row => (columns shift).map fun column => (row, column)

section Cells

variable {shift : Nat} (fits : shift ≤ 4)

include fits

/-- A line has a cell at each multiple of the width below sixteen, and at no other column. -/
theorem mem_columns (column : Nat) : column ∈ columns shift ↔ 2 ^ shift ∣ column ∧ column < 16 := by
  have positive : 0 < 2 ^ shift := by positivity
  have line : 2 ^ shift * (16 / 2 ^ shift) = 16 :=
    Nat.mul_div_cancel' (by rw [show 16 = 2 ^ 4 by rfl]; exact pow_dvd_pow 2 fits)
  rw [columns, List.mem_range']
  constructor
  · rintro ⟨i, small, rfl⟩
    refine ⟨by rw [Nat.zero_add]; exact dvd_mul_right _ _, ?_⟩
    rw [Nat.zero_add, ← line]
    exact Nat.mul_lt_mul_of_pos_left small positive
  · rintro ⟨⟨i, rfl⟩, inside⟩
    refine ⟨i, ?_, (Nat.zero_add _).symm⟩
    rw [← line] at inside
    exact Nat.lt_of_mul_lt_mul_left inside

/-- The cells of a page are those of its sixteen lines, at these columns. -/
theorem mem_cells (cell : Nat × Nat) :
    cell ∈ cells shift ↔ cell.1 < 16 ∧ 2 ^ shift ∣ cell.2 ∧ cell.2 < 16 := by
  simp only [cells, List.mem_flatMap, List.mem_range, List.mem_map, mem_columns fits]
  constructor
  · rintro ⟨row, inside, column, held, rfl⟩
    exact ⟨inside, held⟩
  · rintro ⟨inside, held⟩
    exact ⟨cell.1, inside, cell.2, held, rfl⟩

omit fits in
/-- No cell is listed twice. So a cell is found by its place. -/
theorem cells_nodup : (cells shift).Nodup := by
  have positive : 0 < 2 ^ shift := by positivity
  have distinct : (columns shift).Nodup := List.nodup_range' (2 ^ shift) positive
  refine List.nodup_flatMap.mpr ⟨fun row _ => distinct.map fun _ _ same => (Prod.mk.inj same).2, ?_⟩
  refine List.nodup_range.imp fun {first second} apart => ?_
  rintro cell member other
  obtain ⟨_, _, rfl⟩ := List.mem_map.mp member
  obtain ⟨_, _, same⟩ := List.mem_map.mp other
  exact apart (Prod.mk.inj same).1.symm

/-- Exactly one of the cells that are shown is at the cursor. -/
theorem cells_at {cursor : Cursor} (onPage : cursor.OnPage shift) :
    (cells shift).filter (fun cell => decide ((cell.1 : Int) = cursor.y ∧ (cell.2 : Int) = cursor.x)) =
      [(cursor.y.toNat, cursor.x.toNat)] := by
  obtain ⟨aligned, first, last, top, bottom⟩ := onPage
  have positive := width_pos shift
  have member : (cursor.y.toNat, cursor.x.toNat) ∈ cells shift := by
    refine (mem_cells fits _).mpr ⟨by simp only; omega, ?_, by simp only; omega⟩
    have natural : ((2 ^ shift : Nat) : Int) ∣ (cursor.x.toNat : Int) := by
      rw [Int.toNat_of_nonneg first]
      exact_mod_cast aligned
    exact Int.natCast_dvd_natCast.mp natural
  have only : ∀ cell ∈ cells shift,
      decide ((cell.1 : Int) = cursor.y ∧ (cell.2 : Int) = cursor.x) =
        (cell == (cursor.y.toNat, cursor.x.toNat)) := by
    rintro ⟨row, column⟩ _
    rw [Bool.eq_iff_iff, decide_eq_true_iff, beq_iff_eq, Prod.mk.injEq]
    omega
  rw [List.filter_congr only, List.filter_beq, List.count_eq_one_of_mem cells_nodup member]
  rfl

end Cells

end Lfdk.HexPages
