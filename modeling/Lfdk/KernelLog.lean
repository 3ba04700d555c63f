import Mathlib.Data.List.TakeWhile
import Lfdk.Runs

/-!
# The log of the driver

A program writes to the device file to have a text put into the kernel log. `lfdd_write`
copies the bytes into `k_log_buf` and prints the buffer as a string. The buffer is the same
for all calls, and nothing ends the string: not the driver, which copies as many bytes as
there are, up to 512, and clears nothing.

So what is printed is what the call wrote exactly when the copied bytes hold the end of the
string, or what earlier calls have left behind them says the same as what was not copied.
-/

namespace Lfdk.KernelLog

open Runs

/-- `k_log_buf` -/
abbrev LogBuffer := Vector (BitVec 8) 512

/-- The buffer when the driver is loaded. -/
def LogBuffer.zero : LogBuffer := Vector.replicate 512 0

/-- A call of `write(2)`: what stands in memory from its pointer on, and its length. -/
structure Write where
  content : Nat → BitVec 8
  len : BitVec 64

/-- The first bytes of a call. -/
def Write.bytes (write : Write) (count : Nat) : List (BitVec 8) :=
  (List.range count).map write.content

/-- `copy_len`, an `int` that is compared with a `size_t`. -/
def copyLen (len : BitVec 64) : Nat :=
  let copyLen := (len.setWidth 32).signExtend 64
  if 512 ≤ copyLen.toNat then 512 else copyLen.toNat

/-- `pr_info("%s", k_log_buf)`, which gives nothing when it reads on behind the buffer. -/
def prInfo (buffer : LogBuffer) : Option (List (BitVec 8)) :=
  if buffer.toList.contains 0 then some (buffer.toList.takeWhile (· ≠ 0)) else none

/-- `copy_from_user(k_log_buf, buf, copy_len)`, when it copies everything. -/
def copyFromUser (write : Write) (buffer : LogBuffer) : LogBuffer :=
  Vector.ofFn fun place =>
    if (place : Nat) < copyLen write.len then write.content place else buffer.get place

/-- `lfdd_write`: what it prints, and what it leaves in the buffer. -/
def lfddWrite (write : Write) (buffer : LogBuffer) : Option (List (BitVec 8)) × LogBuffer :=
  (prInfo (copyFromUser write buffer), copyFromUser write buffer)

/-- The text of a call: its bytes up to the first zero byte or to its end, and no more than
511 of them. -/
def Write.text (write : Write) : List (BitVec 8) :=
  ((write.bytes write.len.toNat).takeWhile (· ≠ 0)).take 511

/-- The string ends in the bytes that are copied, or behind them the buffer holds a string
that is the rest of the text. -/
def Ends (write : Write) (buffer : LogBuffer) : Prop :=
  let copied := copyLen write.len
  0 ∈ write.bytes copied ∨
    (0 ∈ buffer.toList.drop copied ∧
      (buffer.toList.drop copied).takeWhile (· ≠ 0) =
        (((write.bytes write.len.toNat).drop copied).takeWhile (· ≠ 0)).take (511 - copied))

section Strings

/-- A string ends before what follows it: with its end among the bytes, nothing behind them is read.
-/
theorem takeWhile_ended {bytes : List (BitVec 8)} (ended : 0 ∈ bytes) (behind : List (BitVec 8)) :
    (bytes ++ behind).takeWhile (· ≠ 0) = bytes.takeWhile (· ≠ 0) := by
  induction bytes with
  | nil => exact absurd ended List.not_mem_nil
  | cons first bytes inductionHypothesis =>
    rw [List.cons_append, List.takeWhile_cons, List.takeWhile_cons]
    by_cases zero : first = 0
    · rw [if_neg (by simpa using zero), if_neg (by simpa using zero)]
    · have later : 0 ∈ bytes := (List.mem_cons.mp ended).resolve_left fun same => zero same.symm
      rw [if_pos (by simpa using zero), if_pos (by simpa using zero), inductionHypothesis later]

/-- A string that has not ended goes on with what follows, up to the first end in that. -/
theorem takeWhile_open {bytes : List (BitVec 8)} (open_ : 0 ∉ bytes) (behind : List (BitVec 8)) :
    (bytes ++ behind).takeWhile (· ≠ 0) = bytes ++ behind.takeWhile (· ≠ 0) := by
  apply List.takeWhile_append_of_pos
  intro byte member
  exact decide_eq_true fun zero => open_ (zero ▸ member)

/-- A string is shorter than the bytes it ends in, by its end at least. -/
theorem takeWhile_shorter {bytes : List (BitVec 8)} (ended : 0 ∈ bytes) :
    (bytes.takeWhile (· ≠ 0)).length < bytes.length := by
  have most := (List.takeWhile_sublist (p := (· ≠ 0)) (l := bytes)).length_le
  refine Nat.lt_of_le_of_ne most fun same => ?_
  have all : bytes.takeWhile (· ≠ 0) = bytes :=
    (List.takeWhile_sublist _).eq_of_length same
  rw [List.takeWhile_eq_self_iff] at all
  exact absurd (all 0 ended) (by decide)

end Strings

/-- The bytes that are copied: as many as there are in the low 32 bits of the length, and no
more than the buffer has. -/
theorem copyLen_eq (len : BitVec 64) : copyLen len = min (len.toNat % 2 ^ 32) 512 := by
  have low : (len.setWidth 32).toNat = len.toNat % 2 ^ 32 := BitVec.toNat_setWidth _ _
  have small : ((len.setWidth 32).setWidth 64).toNat = len.toNat % 2 ^ 32 := by
    rw [BitVec.toNat_setWidth, low]
    omega
  have wide : ((len.setWidth 32).signExtend 64).toNat =
      len.toNat % 2 ^ 32 + if (len.setWidth 32).msb then 2 ^ 64 - 2 ^ 32 else 0 := by
    rw [BitVec.toNat_signExtend, small]
  rw [copyLen]
  simp only [wide]
  cases negative : (len.setWidth 32).msb with
  | false =>
    rw [if_neg Bool.false_ne_true]
    split
    · omega
    · omega
  | true =>
    have high := BitVec.msb_eq_decide (len.setWidth 32)
    rw [negative, low] at high
    have far := of_decide_eq_true high.symm
    rw [if_pos rfl, if_pos (by omega)]
    omega

section OneCall

variable (write : Write) (buffer : LogBuffer)

/-- No more is copied than the buffer has, and no more than was written. -/
theorem copyLen_le : copyLen write.len ≤ 512 ∧ copyLen write.len ≤ write.len.toNat := by
  rw [copyLen_eq]
  omega

/-- A byte of the buffer is the writer's where the copy reaches, and is what it was behind that. -/
theorem copyFromUser_byte (place : Nat) (inside : place < 512) :
    (copyFromUser write buffer)[place] =
      if place < copyLen write.len then write.content place else buffer[place] :=
  Vector.getElem_ofFn ..

/-- The buffer after the copy: the bytes written as far as they are copied, and behind them what was
there before. -/
theorem copyFromUser_toList :
    (copyFromUser write buffer).toList =
      write.bytes (copyLen write.len) ++ buffer.toList.drop (copyLen write.len) := by
  have bound := (copyLen_le write).1
  apply List.ext_getElem
  · simp only [Vector.length_toList, List.length_append, Write.bytes, List.length_map,
      List.length_range, List.length_drop]
    omega
  · intro place first second
    have inside : place < 512 := by simpa using first
    have size : (write.bytes (copyLen write.len)).length = copyLen write.len := by
      rw [Write.bytes, List.length_map, List.length_range]
    rw [Vector.getElem_toList, copyFromUser_byte]
    by_cases copied : place < copyLen write.len
    · rw [if_pos copied, List.getElem_append_left (by omega)]
      simp [Write.bytes]
    · rw [if_neg copied, List.getElem_append_right (by omega), List.getElem_drop,
        Vector.getElem_toList]
      congr 1
      omega

/-- The bytes of the call that are copied, and the others behind them, which the log never has. -/
theorem bytes_split :
    write.bytes write.len.toNat =
      write.bytes (copyLen write.len) ++
        (write.bytes write.len.toNat).drop (copyLen write.len) := by
  have bound := (copyLen_le write).2
  have front : (write.bytes write.len.toNat).take (copyLen write.len) =
      write.bytes (copyLen write.len) := by
    rw [Write.bytes, Write.bytes, ← List.map_take, List.take_range, Nat.min_eq_left bound]
  rw [← front, List.take_append_drop]

/-- A buffer that holds the end of a string is printed up to it. -/
theorem prInfo_ended {buffer : LogBuffer} (ended : 0 ∈ buffer.toList) :
    prInfo buffer = some (buffer.toList.takeWhile (· ≠ 0)) :=
  if_pos (List.contains_iff_mem.mpr ended)

/-- A buffer without a zero is not terminated. What is logged of it is left undefined. -/
theorem prInfo_open {buffer : LogBuffer} (open_ : 0 ∉ buffer.toList) : prInfo buffer = none :=
  if_neg fun ended => open_ (List.contains_iff_mem.mp ended)

/-- What is printed is the text of the call exactly when the string ends as it should. -/
theorem lfddWrite_exact_iff :
    (lfddWrite write buffer).1 = some write.text ↔ Ends write buffer := by
  have bound := (copyLen_le write).1
  have size : (write.bytes (copyLen write.len)).length = copyLen write.len := by
    rw [Write.bytes, List.length_map, List.length_range]
  have printed : (lfddWrite write buffer).1 = prInfo (copyFromUser write buffer) := by
    simp only [lfddWrite]
  have bytes := copyFromUser_toList write buffer
  have text : write.text = ((write.bytes (copyLen write.len) ++
      (write.bytes write.len.toNat).drop (copyLen write.len)).takeWhile (· ≠ 0)).take 511 := by
    rw [← bytes_split, Write.text]
  unfold Ends
  rw [printed, text]
  by_cases ended : 0 ∈ write.bytes (copyLen write.len)
  · have string : 0 ∈ (copyFromUser write buffer).toList := by
      rw [bytes]
      exact List.mem_append_left _ ended
    have shorter := takeWhile_shorter ended
    rw [prInfo_ended string, bytes, takeWhile_ended ended, takeWhile_ended ended,
      List.take_of_length_le (by omega)]
    exact iff_of_true rfl (Or.inl ended)
  · have behind : 0 ∈ (copyFromUser write buffer).toList ↔
        0 ∈ buffer.toList.drop (copyLen write.len) := by
      rw [bytes, List.mem_append, or_iff_right ended]
    simp only [ended, false_or]
    by_cases string : 0 ∈ buffer.toList.drop (copyLen write.len)
    · have room : copyLen write.len ≤ 511 := by
        by_contra full
        rw [List.drop_of_length_le (by rw [Vector.length_toList]; omega)] at string
        exact absurd string List.not_mem_nil
      rw [prInfo_ended (behind.mpr string), bytes, takeWhile_open ended, takeWhile_open ended,
        Option.some.injEq, List.take_append, List.take_of_length_le (by omega), size,
        List.append_cancel_left_eq]
      simp only [string, true_and]
    · rw [prInfo_open fun member => string (behind.mp member)]
      exact iff_of_false (by simp) fun both => string both.1

end OneCall

/-- For a call of less than 4 GiB, the zero byte that ends the string is among those that are
copied, or it is the byte behind them. -/
theorem ends_iff_short (write : Write) (buffer : LogBuffer) (short : write.len.toNat < 2 ^ 32) :
    Ends write buffer ↔ 0 ∈ write.bytes (copyLen write.len) ∨
      buffer.toList[copyLen write.len]? = some 0 := by
  have count := copyLen_eq write.len
  have bound := (copyLen_le write).1
  have nothing : (511 - copyLen write.len) = 0 ∨
      (write.bytes write.len.toNat).drop (copyLen write.len) = [] := by
    by_cases full : copyLen write.len = 512
    · left
      omega
    · right
      rw [List.drop_eq_nil_iff, Write.bytes, List.length_map, List.length_range]
      omega
  have rest : (((write.bytes write.len.toNat).drop (copyLen write.len)).takeWhile (· ≠ 0)).take
      (511 - copyLen write.len) = [] := by
    rcases nothing with none | none
    · rw [none, List.take_zero]
    · rw [none, List.takeWhile_nil, List.take_nil]
  unfold Ends
  simp only [rest]
  refine or_congr_right ?_
  rw [← List.head?_drop]
  cases behind : buffer.toList.drop (copyLen write.len) with
  | nil => simp
  | cons first others =>
    rw [List.head?_cons, Option.some.injEq, List.takeWhile_cons]
    by_cases zero : first = 0
    · rw [if_neg (by simpa using zero), zero]
      exact iff_of_true ⟨List.mem_cons_self, rfl⟩ rfl
    · rw [if_pos (by simpa using zero)]
      exact iff_of_false (fun both => List.cons_ne_nil _ _ both.2) zero

/-- Calls of the device file, from the driver's load on, print what they write exactly as long
as the string of each call ends as it should. -/
theorem log_exact_iff (writes : List Write) :
    (∀ stage ∈ stages lfddWrite writes LogBuffer.zero, stage.output = some stage.input.text) ↔
      ∀ stage ∈ stages lfddWrite writes LogBuffer.zero, Ends stage.input stage.before := by
  apply stages_iff lfddWrite (fun _ => True) Ends
    (fun stage => stage.output = some stage.input.text)
  · trivial
  · intro write _ buffer _
    simp only [lfddWrite_exact_iff]
  · intro write _ buffer _ _
    trivial

/-- Calls that write the end of their string are printed, whatever was written before. -/
theorem terminated_writes_exact (writes : List Write)
    (terminated : ∀ write ∈ writes, 0 ∈ write.bytes (copyLen write.len)) :
    ∀ stage ∈ stages lfddWrite writes LogBuffer.zero,
      stage.output = some stage.input.text := by
  intro stage member
  obtain ⟨listed, ran⟩ := stages_are_steps lfddWrite writes LogBuffer.zero stage member
  have printed := (lfddWrite_exact_iff stage.input stage.before).mpr
    (Or.inl (terminated _ listed))
  rw [ran] at printed
  exact printed

/-- `AB`, without a zero byte. -/
def longerText : Write := ⟨fun place => [0x41, 0x42].getD place 0x20, 2⟩

/-- `C`, likewise. -/
def shorterText : Write := ⟨fun _ => 0x43, 1⟩

/-- The second call prints `CB`: its text is `C` without an end, and the `B` of the first call is
still behind it. -/
theorem log_keeps_tail :
    outputs lfddWrite [longerText, shorterText] LogBuffer.zero =
        [some [0x41, 0x42], some [0x43, 0x42]] ∧
      shorterText.text = [0x43] ∧
      ¬ ∀ stage ∈ stages lfddWrite [longerText, shorterText] LogBuffer.zero,
        stage.output = some stage.input.text := by
  have printed : outputs lfddWrite [longerText, shorterText] LogBuffer.zero =
      [some [0x41, 0x42], some [0x43, 0x42]] := by
    decide +kernel
  have text : shorterText.text = [0x43] := by decide
  refine ⟨printed, text, fun exact_ => ?_⟩
  rw [stages_cons, stages_cons, List.forall_mem_cons, List.forall_mem_cons] at exact_
  simp only [outputs, stages_cons, stages_nil, List.map_cons, List.map_nil, List.cons.injEq,
    and_true] at printed
  have second := exact_.2.1
  simp only [printed.2, text] at second
  exact absurd second (by decide)

end Lfdk.KernelLog
