import Mathlib.Tactic

/-!
# Register bits that react to writes

A device register is written as a whole, and each of its bits decides for itself
what a written value does: it takes the value, ignores it, or is cleared when a
one is written. Software that changes part of a register reads the whole of it,
splices the new part in and writes the whole back.

Writing a bit's own value back is harmless unless the bit is set and cleared by
ones. So the bytes next to a spliced part survive exactly when no such bit is
among them, whatever the part and the register hold.
-/

namespace Lfdk.RegisterBits

/-- What a bit does with a value written to it. -/
inductive BitKind where
  | readWrite
  | readOnly
  | writeOneToClear
deriving DecidableEq, Repr

/-- The bit after a write. -/
def BitKind.next : BitKind → Bool → Bool → Bool
  | .readWrite, _, new => new
  | .readOnly, old, _ => old
  | .writeOneToClear, old, new => old && !new

/-- Only a set bit that ones clear is changed by writing its own value. -/
theorem next_self_iff (kind : BitKind) (old : Bool) :
    kind.next old old = old ↔ ¬ (kind = .writeOneToClear ∧ old = true) := by
  cases kind <;> cases old <;> simp [BitKind.next]

variable {w : Nat}

/-- The word with the given bits. -/
def ofBits (bits : Nat → Bool) : BitVec w := BitVec.ofNat w (Nat.ofBits fun bit : Fin w => bits bit)

/-- A register that is made of bits has these bits. -/
theorem getLsbD_ofBits (bits : Nat → Bool) (bit : Nat) (inside : bit < w) :
    (ofBits bits : BitVec w).getLsbD bit = bits bit := by
  rw [ofBits, BitVec.getLsbD_ofNat, Nat.testBit_ofBits_lt _ _ inside]
  simp [inside]

/-- The register after a write, bit by bit. -/
def written (kinds : Nat → BitKind) (old new : BitVec w) : BitVec w :=
  ofBits fun bit => (kinds bit).next (old.getLsbD bit) (new.getLsbD bit)

/-- Each bit of a register that is written is what its kind makes of the old and the new bit. -/
theorem getLsbD_written (kinds : Nat → BitKind) (old new : BitVec w) (bit : Nat)
    (inside : bit < w) :
    (written kinds old new).getLsbD bit =
      (kinds bit).next (old.getLsbD bit) (new.getLsbD bit) := by
  rw [written, getLsbD_ofBits _ _ inside]

/-- Replace `count` bits from bit `start` on by the low bits of a part. -/
def splice (start count : Nat) (part old : BitVec w) : BitVec w :=
  ofBits fun bit =>
    if start ≤ bit ∧ bit < start + count then part.getLsbD (bit - start) else old.getLsbD bit

/-- A splice has the bits of the part in its range and the old ones elsewhere. -/
theorem getLsbD_splice (start count : Nat) (part old : BitVec w) (bit : Nat)
    (inside : bit < w) :
    (splice start count part old).getLsbD bit =
      if start ≤ bit ∧ bit < start + count then part.getLsbD (bit - start)
      else old.getLsbD bit := by
  rw [splice, getLsbD_ofBits _ _ inside]

/-- Clearing a lane with a shifted mask and or-ing the masked part in splices
the part into the lane. -/
theorem mask_splice (start count : Nat) (mask part old : BitVec w)
    (low : ∀ bit < w, mask.getLsbD bit = decide (bit < count)) :
    old &&& ~~~(mask <<< start) ||| (part &&& mask) <<< start = splice start count part old := by
  apply BitVec.eq_of_getLsbD_eq
  intro bit inside
  rw [getLsbD_splice _ _ _ _ _ inside]
  simp only [BitVec.getLsbD_or, BitVec.getLsbD_and, BitVec.getLsbD_not, BitVec.getLsbD_shiftLeft,
    inside, decide_true, Bool.true_and]
  by_cases below : bit < start
  · have outside : ¬ (start ≤ bit ∧ bit < start + count) := by omega
    simp [below, outside]
  · rw [low (bit - start) (by omega)]
    by_cases lane : bit - start < count
    · have within : start ≤ bit ∧ bit < start + count := by omega
      simp [below, lane, within]
    · have outside : ¬ (start ≤ bit ∧ bit < start + count) := by omega
      simp [below, lane, outside]

/-- The byte of a word with the given number. -/
def byte (number : Nat) (word : BitVec w) : BitVec 8 := word.extractLsb' (8 * number) 8

/-- A byte agrees in two words when its eight bits do; the bits are numbered through the word. -/
theorem byte_eq_iff (number : Nat) (word other : BitVec w) :
    byte number word = byte number other ↔
      ∀ bit, bit / 8 = number → word.getLsbD bit = other.getLsbD bit := by
  constructor
  · intro same bit within
    have located : 8 * number + (bit - 8 * number) = bit := by omega
    have equal := congrArg (fun value => BitVec.getLsbD value (bit - 8 * number)) same
    simpa [byte, BitVec.getLsbD_extractLsb', located, show bit - 8 * number < 8 by omega]
      using equal
  · intro same
    apply BitVec.eq_of_getLsbD_eq
    intro offset inside
    rw [byte, byte, BitVec.getLsbD_extractLsb', BitVec.getLsbD_extractLsb',
      same (8 * number + offset) (by omega)]

/-- The bits of a byte of a word are eight of the word, from eight times its number on. -/
theorem getLsbD_byte (number : Nat) (word : BitVec w) (bit : Nat) (small : bit < 8) :
    (byte number word).getLsbD bit = word.getLsbD (8 * number + bit) := by
  rw [byte, BitVec.getLsbD_extractLsb']
  simp [small]

/-- Bytes of a spliced lane come from the part, the others from the old word. -/
theorem byte_splice (lane count : Nat) (part old : BitVec w) (number : Nat)
    (inside : 8 * number + 8 ≤ w) :
    byte number (splice (8 * lane) (8 * count) part old) =
      if lane ≤ number ∧ number < lane + count then byte (number - lane) part
      else byte number old := by
  apply BitVec.eq_of_getLsbD_eq
  intro bit small
  rw [getLsbD_byte _ _ _ small, getLsbD_splice _ _ _ _ _ (by omega)]
  by_cases within : lane ≤ number ∧ number < lane + count
  · have moved : 8 * number + bit - 8 * lane = 8 * (number - lane) + bit := by omega
    rw [if_pos (by omega), if_pos within, getLsbD_byte _ _ _ small, moved]
  · rw [if_neg (by omega), if_neg within, getLsbD_byte _ _ _ small]

/-- Shifting a word by whole bytes renumbers its bytes, by the number of bytes it is shifted. -/
theorem byte_shift (lane : Nat) (word : BitVec w) (number : Nat) :
    byte number (word >>> (8 * lane)) = byte (lane + number) word := by
  apply BitVec.eq_of_getLsbD_eq
  intro bit small
  have moved : 8 * lane + (8 * number + bit) = 8 * (lane + number) + bit := by omega
  rw [getLsbD_byte _ _ _ small, getLsbD_byte _ _ _ small, BitVec.getLsbD_ushiftRight, moved]

/-- Cutting a word to its low bytes clears the others, and keeps those. -/
theorem byte_cut (count : Nat) (word : BitVec w) (number : Nat) (inside : 8 * number + 8 ≤ w) :
    byte number ((word.setWidth (8 * count)).setWidth w) =
      if number < count then byte number word else 0 := by
  apply BitVec.eq_of_getLsbD_eq
  intro bit small
  have wide : 8 * number + bit < w := by omega
  rw [getLsbD_byte _ _ _ small, BitVec.getLsbD_setWidth, BitVec.getLsbD_setWidth]
  by_cases kept : number < count
  · have low : 8 * number + bit < 8 * count := by omega
    rw [if_pos kept, getLsbD_byte _ _ _ small]
    simp [wide, low]
  · have high : ¬ 8 * number + bit < 8 * count := by omega
    rw [if_neg kept]
    simp [high]

/-- A word has no bytes beyond its width: they are zero. -/
theorem byte_beyond (number : Nat) (word : BitVec w) (beyond : w ≤ 8 * number) :
    byte number word = 0 := by
  apply BitVec.eq_of_getLsbD_eq
  intro bit small
  rw [getLsbD_byte _ _ _ small, BitVec.getLsbD_of_ge _ _ (by omega)]
  simp

/-- After a write, bytes with a given property all keep their value exactly when
each of their bits does. -/
theorem bytes_kept_iff (Chosen : Nat → Prop) (kinds : Nat → BitKind) (old new : BitVec w) :
    (∀ number, Chosen number → byte number (written kinds old new) = byte number old) ↔
      ∀ bit < w, Chosen (bit / 8) →
        (kinds bit).next (old.getLsbD bit) (new.getLsbD bit) = old.getLsbD bit := by
  constructor
  · intro kept bit inside chosen
    have same := (byte_eq_iff _ _ _).mp (kept (bit / 8) chosen) bit rfl
    rwa [getLsbD_written kinds old new bit inside] at same
  · intro kept number chosen
    apply (byte_eq_iff _ _ _).mpr
    intro bit within
    by_cases inside : bit < w
    · rw [getLsbD_written kinds old new bit inside]
      exact kept bit inside (within ▸ chosen)
    · rw [BitVec.getLsbD_of_ge _ _ (by omega), BitVec.getLsbD_of_ge _ _ (by omega)]

end Lfdk.RegisterBits
