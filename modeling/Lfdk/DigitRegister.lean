import Mathlib.Data.Nat.Digits.Defs

/-!
# Registers of digits

A register has a number of places for digits of some base. Digits are shifted in from the
right; the oldest is lost when there is no place for it. The newest can be taken back.

The digits have a value, the newest being the lowest. Shifting one in multiplies the value by
the base, keeps what there are places for, and adds the digit. Taking one back divides it.
-/

namespace Lfdk.DigitRegister

/-- The digits in a register, the newest first. -/
structure Register (base places : Nat) where
  digits : List (Fin base)
  bounded : digits.length ≤ places

namespace Register

variable {base places : Nat}

def empty : Register base places := ⟨[], Nat.zero_le places⟩

/-- Shift a digit in. -/
def push (digit : Fin base) (register : Register base places) : Register base places :=
  ⟨(digit :: register.digits).take places, List.length_take_le places _⟩

/-- Take the newest digit back. -/
def pop (register : Register base places) : Register base places :=
  ⟨register.digits.tail, (List.tail_sublist _).length_le.trans register.bounded⟩

/-- The number that the digits stand for. -/
def value (register : Register base places) : Nat :=
  Nat.ofDigits base (register.digits.map Fin.val)

/-- The values of digits are below the base. The lemmas about numbers and their digits in Mathlib
ask for this. -/
theorem small (digits : List (Fin base)) : ∀ digit ∈ digits.map Fin.val, digit < base := by
  intro digit member
  obtain ⟨found, _, rfl⟩ := List.mem_map.mp member
  exact found.isLt

/-- An empty register has the value 0, which is where typing starts. -/
@[simp] theorem value_empty : (empty : Register base places).value = 0 := rfl

/-- A register holds no number beyond its places: its digits are at most so many, and each is below
the base. -/
theorem value_lt (register : Register base places) (radix : 1 < base) :
    register.value < base ^ places := by
  have length : (register.digits.map Fin.val).length ≤ places := by
    rw [List.length_map]
    exact register.bounded
  have fits := Nat.ofDigits_lt_base_pow_length radix (small register.digits)
  exact fits.trans_le (Nat.pow_le_pow_right (Nat.zero_lt_of_lt radix) length)

/-- The digit that is shifted in stands beside those that are kept. -/
theorem value_push (digit : Fin base) (register : Register base places) (room : 0 < places) :
    (register.push digit).value = base * register.value % base ^ places + digit := by
  obtain ⟨more, rfl⟩ := Nat.exists_eq_succ_of_ne_zero room.ne'
  have positive : 0 < base := Nat.zero_lt_of_lt digit.isLt
  have kept := Nat.ofDigits_mod_pow_eq_ofDigits_take more positive
    (register.digits.map Fin.val) (small register.digits)
  calc (register.push digit).value
      = Nat.ofDigits base ((digit : Nat) :: (register.digits.map Fin.val).take more) := by
        rw [← List.map_take]
        rfl
    _ = digit + base * (register.value % base ^ more) := by
        rw [Nat.ofDigits_cons, ← kept]
        rfl
    _ = base * register.value % base ^ (more + 1) + digit := by
        rw [Nat.pow_succ', Nat.mul_mod_mul_left, Nat.add_comm]

/-- Taking off the last digit divides the value by the base, as backspace does it with a shift. -/
theorem value_pop (register : Register base places) (radix : 0 < base) :
    register.pop.value = register.value / base := by
  rw [value, value, pop, List.map_tail,
    Nat.ofDigits_div_eq_ofDigits_tail radix _ (small register.digits)]

end Register

end Lfdk.DigitRegister
