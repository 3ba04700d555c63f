import Lfdk.TypedDigits

/-!
# The digits on the screen

The editors print a value with `%2.2X`, `%4.4X` or `%8.8X`: two digits for each of its bytes,
the highest first, in capital letters. These are digits that can be typed, and typing them
into a field with so many places gives the value again.
-/

namespace Lfdk.HexEditors

open DigitRegister

/-- The character of a digit. -/
def hexCharacter (digit : Nat) : BitVec 32 :=
  if digit < 10 then BitVec.ofNat 32 (0x30 + digit) else BitVec.ofNat 32 (0x37 + digit)

/-- The text of a value in so many digits. -/
def hexText : Nat → Nat → List (BitVec 32)
  | 0, _ => []
  | digits + 1, value => hexText digits (value / 16) ++ [hexCharacter (value % 16)]

/-- Each of the sixteen characters is a digit for the editors, and stands for the number it was made
from. -/
theorem hexCharacter_typed :
    ∀ digit < 16, isxdigit (hexCharacter digit) = true ∧
      (hexValue (hexCharacter digit) : Nat) = digit := by
  decide

/-- All characters of a text are digits, as `isxdigit` has it, by induction on their number. -/
theorem hexText_digits (digits value : Nat) : ∀ key ∈ hexText digits value, isxdigit key = true := by
  induction digits generalizing value with
  | zero => exact fun key member => absurd member List.not_mem_nil
  | succ digits inductionHypothesis =>
    intro key member
    rcases List.mem_append.mp member with front | last
    · exact inductionHypothesis (value / 16) key front
    · rw [List.mem_singleton.mp last]
      exact (hexCharacter_typed (value % 16) (Nat.mod_lt _ (by decide))).1

/-- A text of digits has as many characters as it was asked for. -/
theorem hexText_length (digits value : Nat) : (hexText digits value).length = digits := by
  induction digits generalizing value with
  | zero => rfl
  | succ digits inductionHypothesis =>
    rw [hexText, List.length_append, inductionHypothesis]
    rfl

/-- A text that is typed gives its value. The induction takes the lowest digit off, which is
typed last. -/
theorem hexText_typed (places digits value : Nat) (room : digits ≤ places)
    (small : value < 16 ^ digits) : (typed places (hexText digits value)).value = value := by
  induction digits generalizing value with
  | zero =>
    have zero : value = 0 := by omega
    rw [zero]
    rfl
  | succ digits inductionHypothesis =>
    have smaller : value / 16 < 16 ^ digits := by
      rw [Nat.pow_succ] at small
      omega
    have front := inductionHypothesis (value / 16) (by omega) smaller
    have whole : 16 ^ (digits + 1) ≤ 16 ^ places := Nat.pow_le_pow_right (by decide) room
    obtain ⟨digit, last⟩ := hexCharacter_typed (value % 16) (Nat.mod_lt _ (by decide))
    have back : hexCharacter (value % 16) ≠ keyBackspace := fun same =>
      xdigit_other digit (by simp [same])
    rw [hexText, typed, List.foldl_append, List.foldl_cons, List.foldl_nil, typeInto, if_neg back]
    change ((typed places (hexText digits (value / 16))).push _).value = value
    rw [Register.value_push _ _ (by omega), front, last, Nat.mod_eq_of_lt (by omega)]
    omega

/-- Values with the same text are equal, as long as both fit its digits. -/
theorem hexText_inj {digits value other : Nat} (small : value < 16 ^ digits)
    (less : other < 16 ^ digits) (same : hexText digits value = hexText digits other) :
    value = other := by
  rw [← hexText_typed digits digits value (le_refl _) small, same,
    hexText_typed digits digits other (le_refl _) less]

end Lfdk.HexEditors
