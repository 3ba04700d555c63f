import Lfdk.EditorWrites
import Lfdk.HexText
import Lfdk.MemoryReads

/-!
# What the cells of a page show

A page is printed from a buffer of 256 bytes. Where the buffer holds a part of a memory, each
cell shows the word of its width at its place there, lowest byte first. Storing a value of
the width of the cells at the place of one cell changes what this cell shows and nothing
else: cells are aligned, so they do not overlap.
-/

namespace Lfdk.HexEditors

open HexPages ByteMemory MemoryAccess

/-- The word of so many bytes at a place of a memory, as a value on the screen. -/
def wordAt (memory : Memory) (place count : Nat) : BitVec 32 :=
  (load (8 * count) memory place).setWidth 32

/-- The bits of a word in memory are those of its bytes, the lower bytes first. -/
theorem getLsbD_wordAt (memory : Memory) (place count bit : Nat) (inside : bit < 32) :
    (wordAt memory place count).getLsbD bit =
      (decide (bit < 8 * count) && (memory (place + bit / 8)).getLsbD (bit % 8)) := by
  rw [wordAt, BitVec.getLsbD_setWidth, decide_eq_true inside, Bool.true_and]
  by_cases small : bit < 8 * count
  · rw [getLsbD_load _ _ _ small, decide_eq_true small, Bool.true_and]
  · rw [BitVec.getLsbD_of_ge _ _ (by omega), decide_eq_false small, Bool.false_and]

/-- Two digits for each byte: the numbers of both sizes are equally many. -/
theorem digits_power (count : Nat) : 16 ^ (2 * count) = 2 ^ (8 * count) := by
  have sixteen : (16 : Nat) = 2 ^ 4 := rfl
  rw [sixteen, ← Nat.pow_mul]
  congr 1
  omega

/-- A word has no more digits than its bytes. -/
theorem wordAt_small (memory : Memory) (place count : Nat) :
    (wordAt memory place count).toNat < 16 ^ (2 * count) := by
  rw [digits_power, wordAt, BitVec.toNat_setWidth]
  exact (Nat.mod_le _ _).trans_lt (BitVec.isLt _)

/-- The bytes of a buffer, put together one by one, are the word at their place. -/
theorem bytesAt_wordAt (massBuf : Vector (BitVec 8) 256) (offset count : Nat) :
    bytesAt massBuf offset count = wordAt (contents massBuf) offset count := by
  have loop : ∀ start, (List.range' start count).foldr
      (fun i (value : BitVec 32) =>
        value <<< 8 ||| (massBuf[offset + i]?.getD 0).setWidth 32) 0 =
        wordAt (contents massBuf) (offset + start) count := by
    intro start
    induction count generalizing start with
    | zero =>
      apply BitVec.eq_of_getLsbD_eq
      intro bit inside
      rw [getLsbD_wordAt _ _ _ _ inside]
      simp
    | succ count inductionHypothesis =>
      apply BitVec.eq_of_getLsbD_eq
      intro bit inside
      rw [List.range'_succ, List.foldr_cons, inductionHypothesis (start + 1), BitVec.getLsbD_or,
        BitVec.getLsbD_shiftLeft, getLsbD_wordAt _ _ _ _ inside, decide_eq_true inside,
        Bool.true_and, BitVec.getLsbD_setWidth, decide_eq_true inside, Bool.true_and]
      by_cases low : bit < 8
      · have quotient : bit / 8 = 0 := by omega
        have remainder : bit % 8 = bit := by omega
        simp [low, quotient, remainder, contents]
        omega
      · have quotient : offset + (start + 1) + (bit - 8) / 8 = offset + start + bit / 8 := by omega
        have remainder : (bit - 8) % 8 = bit % 8 := by omega
        have smaller : bit - 8 < 32 := by omega
        have beyond : 8 ≤ bit := by omega
        have cut : decide (bit - 8 < 8 * count) = decide (bit < 8 * (count + 1)) :=
          decide_eq_decide.mpr (by omega)
        rw [getLsbD_wordAt _ _ _ _ smaller, quotient, remainder, cut,
          BitVec.getLsbD_of_ge _ _ beyond]
        simp [low]
  have whole := loop 0
  rw [Nat.add_zero, ← List.range_eq_range'] at whole
  exact whole

/-- A page of a memory on the screen, with the value that is typed, if one is, in the cell at
the cursor. -/
def shownPage (shift : Nat) (typing : Bool) (cursor : Cursor) (wbuf : BitVec 32) (memory : Memory)
    (page : Nat) : List Cell :=
  (HexPages.cells shift).map fun place =>
    let here : Bool := decide (cursor.y = place.1 ∧ cursor.x = place.2)
    if typing && here then ⟨place.1, place.2, .yellowRed, lowBytes wbuf (2 ^ shift)⟩
    else
      ⟨place.1, place.2, if !typing && here then .blackYellow else .whiteBlue,
        wordAt memory (page + 16 * place.1 + place.2) (2 ^ shift)⟩

/-- Words at equal bytes are equal, wherever the bytes stand. -/
theorem wordAt_congr {memory other : Memory} {place number count : Nat}
    (same : ∀ i < count, memory (place + i) = other (number + i)) :
    wordAt memory place count = wordAt other number count := by
  apply BitVec.eq_of_getLsbD_eq
  intro bit inside
  rw [getLsbD_wordAt _ _ _ _ inside, getLsbD_wordAt _ _ _ _ inside]
  by_cases small : bit < 8 * count
  · rw [same (bit / 8) (by omega)]
  · rw [decide_eq_false small, Bool.false_and, Bool.false_and]

/-- A buffer that holds a page of a memory is printed as that page. -/
theorem printCells_shown {shift : Nat} (fits : shift ≤ 4) {typing browsing : Bool}
    (modes : typing = false → browsing = true) (cursor : Cursor) (wbuf : BitVec 32)
    (massBuf : Vector (BitVec 8) 256) (memory : Memory) (page : Nat)
    (held : ∀ index < 256, contents massBuf index = memory (page + index)) :
    printCells shift typing browsing cursor wbuf massBuf =
      shownPage shift typing cursor wbuf memory page := by
  rw [printCells, shownPage]
  apply List.map_congr_left
  rintro ⟨row, column⟩ member
  obtain ⟨low, aligned, narrow⟩ := (mem_cells fits (row, column)).mp member
  have last : column + 2 ^ shift ≤ 16 := by
    have whole : width shift ∣ (column : Int) := by
      rw [width]
      exact_mod_cast aligned
    have wide := room fits whole (by exact_mod_cast narrow)
    rw [width] at wide
    exact_mod_cast wide
  have word : bytesAt massBuf (row * 16 + column) (2 ^ shift) =
      wordAt memory (page + 16 * row + column) (2 ^ shift) := by
    rw [bytesAt_wordAt]
    apply wordAt_congr
    intro i small
    rw [held (row * 16 + column + i) (by omega)]
    congr 1
    omega
  rw [cellAt]
  simp only [word]
  cases typing with
  | true => cases decide (cursor.y = row ∧ cursor.x = column) <;> simp
  | false => simp [modes rfl]

/-- A value that fits the width and was stored at a place is the word there. -/
theorem wordAt_store (memory : Memory) (place count : Nat) (value : BitVec 32)
    (fits : value.toNat < 2 ^ (8 * count)) :
    wordAt (store count value place memory) place count = value := by
  apply BitVec.eq_of_getLsbD_eq
  intro bit inside
  rw [getLsbD_wordAt _ _ _ _ inside]
  by_cases low : bit < 8 * count
  · have bits := RegisterBits.getLsbD_byte (bit / 8) value (bit % 8) (by omega)
    have whole : 8 * (bit / 8) + bit % 8 = bit := by omega
    rw [store_inside _ _ _ _ (by omega), bits, whole, decide_eq_true low, Bool.true_and]
  · rw [decide_eq_false low, Bool.false_and, BitVec.getLsbD, Nat.testBit_lt_two_pow]
    exact fits.trans_le (Nat.pow_le_pow_right (by decide) (by omega))

/-- A word apart from what was stored is as before. -/
theorem wordAt_store_apart (memory : Memory) (place other count : Nat) (value : BitVec 32)
    (apart : other + count ≤ place ∨ place + count ≤ other) :
    wordAt (store count value place memory) other count = wordAt memory other count :=
  wordAt_congr fun i _ => store_outside _ _ _ _ (by omega)

/-- A word stored where it was read changes nothing. -/
theorem store_wordAt (memory : Memory) (place count : Nat) (small : count ≤ 4) :
    store count (wordAt memory place count) place memory = memory := by
  funext other
  by_cases inside : place ≤ other ∧ other < place + count
  · obtain ⟨number, rfl⟩ := Nat.exists_eq_add_of_le inside.1
    rw [store_inside _ _ _ _ (by omega)]
    apply BitVec.eq_of_getLsbD_eq
    intro bit low
    have quotient : (8 * number + bit) / 8 = number := by omega
    have remainder : (8 * number + bit) % 8 = bit := by omega
    rw [RegisterBits.getLsbD_byte _ _ _ low, getLsbD_wordAt _ _ _ _ (by omega), quotient, remainder,
      decide_eq_true (by omega), Bool.true_and]
  · exact store_outside _ _ _ _ (by omega)

/-- Multiples of the width that are not equal are at least the width apart. -/
theorem multiples_apart {count first second : Nat} (aligned : count ∣ first)
    (other : count ∣ second) (different : first ≠ second) :
    first + count ≤ second ∨ second + count ≤ first := by
  rcases Nat.lt_or_gt_of_ne different with less | more
  · have rest : count ∣ second - first := Nat.dvd_sub other aligned
    have least := Nat.le_of_dvd (by omega) rest
    omega
  · have rest : count ∣ first - second := Nat.dvd_sub aligned other
    have least := Nat.le_of_dvd (by omega) rest
    omega

/-- Two places of a page with cells of this width, when they are not the same, do not
overlap. -/
theorem places_apart {shift : Nat} (fits : shift ≤ 4) {place : Nat × Nat}
    (member : place ∈ HexPages.cells shift) {cursor : Cursor} (onPage : cursor.OnPage shift)
    (elsewhere : ¬ (cursor.y = place.1 ∧ cursor.x = place.2)) (page : Nat) :
    page + 16 * place.1 + place.2 + 2 ^ shift ≤ page + cursor.offset.toNat ∨
      page + cursor.offset.toNat + 2 ^ shift ≤ page + 16 * place.1 + place.2 := by
  obtain ⟨low, aligned, narrow⟩ := (mem_cells fits place).mp member
  obtain ⟨onCell, first, last, top, bottom⟩ := onPage
  obtain ⟨x, column⟩ := Int.eq_ofNat_of_zero_le first
  obtain ⟨y, row⟩ := Int.eq_ofNat_of_zero_le top
  have line : 2 ^ shift ∣ 16 := Nat.pow_dvd_pow 2 fits
  rw [width] at onCell last
  rw [column] at onCell last
  have cellColumn : 2 ^ shift ∣ x := by exact_mod_cast onCell
  have cellEnd : x + 2 ^ shift ≤ 16 := by exact_mod_cast last
  have offset : cursor.offset.toNat = 16 * y + x := by
    rw [Cursor.offset, row, column]
    omega
  have different : 16 * place.1 + place.2 ≠ 16 * y + x := by
    intro same
    apply elsewhere
    rw [row, column]
    constructor
    · omega
    · omega
  have placed : 2 ^ shift ∣ 16 * place.1 + place.2 :=
    dvd_add (dvd_mul_of_dvd_left line _) aligned
  have pointed : 2 ^ shift ∣ 16 * y + x := dvd_add (dvd_mul_of_dvd_left line _) cellColumn
  have apart := multiples_apart placed pointed different
  rw [offset]
  omega

end Lfdk.HexEditors
