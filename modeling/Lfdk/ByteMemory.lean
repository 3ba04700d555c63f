import Lfdk.RegisterBits

/-!
# Memory as bytes

A memory gives a byte at every address. A word lies at consecutive addresses, its
lowest byte first, and loading and storing it are the two directions of one
correspondence: a word is at a place exactly when each of its bytes is.

A buffer is filled by a loop that reads one byte after another from somewhere. When
each read delivers a known byte, whatever the reads do to the state besides, the
buffer holds these bytes.
-/

namespace Lfdk.ByteMemory

open RegisterBits

universe u
variable {σ : Type u} {w : Nat}

/-- A byte at every address. -/
abbrev Memory := Nat → BitVec 8

/-- The word at an address, lowest byte first. -/
def load (w : Nat) (memory : Memory) (start : Nat) : BitVec w :=
  ofBits fun bit => (memory (start + bit / 8)).getLsbD (bit % 8)

/-- The memory after the low bytes of a word were stored at an address. -/
def store (count : Nat) (word : BitVec w) (start : Nat) (memory : Memory) : Memory := fun place =>
  if start ≤ place ∧ place < start + count then byte (place - start) word else memory place

/-- The bits of a word are those of the bytes it is loaded from. -/
theorem getLsbD_load (memory : Memory) (start bit : Nat) (inside : bit < w) :
    (load w memory start).getLsbD bit = (memory (start + bit / 8)).getLsbD (bit % 8) := by
  rw [load, getLsbD_ofBits _ _ inside]

/-- A whole byte of a word is the byte it is loaded from. -/
theorem byte_load (memory : Memory) (start number : Nat) (inside : 8 * number + 8 ≤ w) :
    byte number (load w memory start) = memory (start + number) := by
  apply BitVec.eq_of_getLsbD_eq
  intro offset small
  have quotient : (8 * number + offset) / 8 = number := by omega
  have remainder : (8 * number + offset) % 8 = offset := by omega
  rw [byte, BitVec.getLsbD_extractLsb', getLsbD_load _ _ _ (by omega), quotient, remainder]
  simp [small]

/-- Words of whole bytes are equal when their bytes are, so equality of words is checked byte by
byte. -/
theorem eq_of_bytes (whole : 8 ∣ w) (word other : BitVec w)
    (same : ∀ number < w / 8, byte number word = byte number other) : word = other := by
  obtain ⟨count, rfl⟩ := whole
  apply BitVec.eq_of_getLsbD_eq
  intro bit inside
  exact (byte_eq_iff (bit / 8) word other).mp (same (bit / 8) (by omega)) bit rfl

/-- A word is at an address exactly when each of its bytes is at its place. -/
theorem load_eq_iff (whole : 8 ∣ w) (memory : Memory) (start : Nat) (word : BitVec w) :
    load w memory start = word ↔
      ∀ number < w / 8, memory (start + number) = byte number word := by
  constructor
  · intro loaded number inside
    rw [← loaded, byte_load memory start number (by omega)]
  · intro same
    apply eq_of_bytes whole
    intro number inside
    rw [byte_load memory start number (by omega)]
    exact same number inside

/-- Two loads agree exactly when the bytes under them do, whatever the rest of the two memories is.
-/
theorem load_eq_load_iff (whole : 8 ∣ w) (memory other : Memory) (start place : Nat) :
    load w memory start = load w other place ↔
      ∀ number < w / 8, memory (start + number) = other (place + number) := by
  rw [load_eq_iff whole]
  constructor
  · intro same number inside
    rw [same number inside, byte_load other place number (by omega)]
  · intro same number inside
    rw [same number inside, byte_load other place number (by omega)]

/-- A store puts each byte of the word at its place, the lowest at the first. -/
theorem store_inside {count : Nat} (word : BitVec w) (start : Nat) (memory : Memory) (number : Nat)
    (inside : number < count) :
    store count word start memory (start + number) = byte number word := by
  have within : start ≤ start + number ∧ start + number < start + count := by omega
  rw [store, if_pos within, Nat.add_sub_cancel_left]

/-- A store leaves every byte outside the places it writes alone. -/
theorem store_outside {count : Nat} (word : BitVec w) (start : Nat) (memory : Memory) (place : Nat)
    (outside : place < start ∨ start + count ≤ place) :
    store count word start memory place = memory place := by
  rw [store, if_neg (by omega)]

/-- Only the bytes that are stored matter: a store of `count` bytes cannot tell a word from the same
word cut to a width that holds them. -/
theorem store_cut {count : Nat} (word : BitVec w) (part : Nat) (fits : 8 * count ≤ part)
    (start : Nat) (memory : Memory) :
    store count (word.setWidth part) start memory = store count word start memory := by
  funext place
  unfold store
  refine ite_congr rfl (fun within => ?_) (fun _ => rfl)
  apply BitVec.eq_of_getLsbD_eq
  intro offset small
  have inside : 8 * (place - start) + offset < part := by omega
  simp [byte, BitVec.getLsbD_extractLsb', inside]

/-- What was stored is loaded again, as long as the width is a number of whole bytes. -/
theorem load_store (whole : 8 ∣ w) (word : BitVec w) (start : Nat) (memory : Memory) :
    load w (store (w / 8) word start memory) start = word :=
  (load_eq_iff whole _ _ _).mpr (store_inside word start memory)

/-- Fill a buffer with `count` bytes from byte `i` on. -/
def fillBytes (read : Nat → σ → BitVec 8 × σ) :
    Nat → Nat → Vector (BitVec 8) 256 → σ → Vector (BitVec 8) 256 × σ
  | 0, _, massBuf, state => (massBuf, state)
  | count + 1, i, massBuf, state =>
    let (value, state) := read i state
    fillBytes read count (i + 1) (massBuf.setIfInBounds i value) state

section Loops

variable {read : Nat → σ → BitVec 8 × σ}

/-- What every read keeps, the loop keeps; the induction is on the number of bytes left. -/
theorem fillBytes_keeps (Holds : σ → Prop)
    (kept : ∀ i state, Holds state → Holds (read i state).2) (count i : Nat)
    (massBuf : Vector (BitVec 8) 256) (state : σ) (start : Holds state) :
    Holds (fillBytes read count i massBuf state).2 := by
  induction count generalizing i massBuf state with
  | zero => exact start
  | succ count inductionHypothesis => exact inductionHypothesis _ _ _ (kept i state start)

/-- Bytes outside the part that is filled stay as they are, and the others are what the
reads deliver. -/
theorem fillBytes_get (Holds : σ → Prop) (value : Nat → BitVec 8)
    (kept : ∀ i state, Holds state → Holds (read i state).2)
    (delivers : ∀ i state, Holds state → (read i state).1 = value i) (count i : Nat)
    (massBuf : Vector (BitVec 8) 256) (state : σ) (start : Holds state) (index : Nat)
    (inside : index < 256) :
    (fillBytes read count i massBuf state).1[index] =
      if i ≤ index ∧ index < i + count then value index else massBuf[index] := by
  induction count generalizing i massBuf state with
  | zero =>
    rw [if_neg (by omega)]
    rfl
  | succ count inductionHypothesis =>
    have step := inductionHypothesis (i + 1) (massBuf.setIfInBounds i (read i state).1)
      (read i state).2 (kept i state start)
    have unfolded : fillBytes read (count + 1) i massBuf state =
        fillBytes read count (i + 1) (massBuf.setIfInBounds i (read i state).1)
          (read i state).2 := rfl
    rw [unfolded, step, delivers i state start, Vector.getElem_setIfInBounds]
    by_cases here : i = index
    · subst here
      rw [if_neg (by omega), if_pos rfl, if_pos (by omega)]
    · rw [if_neg here]
      by_cases later : i + 1 ≤ index ∧ index < i + 1 + count
      · rw [if_pos later, if_pos (by omega)]
      · rw [if_neg later, if_neg (by omega)]

/-- A whole buffer: where every read delivers its value from any state that holds, the buffer holds
the 256 values. -/
theorem fillBytes_all (Holds : σ → Prop) (value : Nat → BitVec 8)
    (kept : ∀ i state, Holds state → Holds (read i state).2)
    (delivers : ∀ i state, Holds state → (read i state).1 = value i)
    (massBuf : Vector (BitVec 8) 256) (state : σ) (start : Holds state) (index : Nat)
    (inside : index < 256) : (fillBytes read 256 0 massBuf state).1[index] = value index := by
  rw [fillBytes_get Holds value kept delivers 256 0 massBuf state start index inside,
    if_pos (by omega)]

end Loops

end Lfdk.ByteMemory
