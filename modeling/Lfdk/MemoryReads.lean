import Lfdk.MemoryRange

/-!
# Reads of different widths

The 256-byte read and the three single-width reads look at the same memory. Inside the
range of the check they see the same bytes, and a word or a dword is made of the first
bytes of the 256.

Outside the range the ways part. The bulk read shows the memory of a device, or 256 bytes
of ones where there is nothing to show. The single-width reads answer with one constant,
`0xff`, whatever their width is, so a word and a dword have ones in their lowest byte
only. The two agree there only on a device whose memory happens to hold that constant.
-/

namespace Lfdk.MemoryAccess

open ByteMemory HexEditors

variable (platform : MemPlatform)

/-- The bytes of a buffer. -/
def contents (massBuf : Vector (BitVec 8) 256) : Memory := fun index => massBuf[index]?.getD 0

/-- Inside the buffer the contents are its bytes; behind it they count as zero. -/
theorem contents_get (massBuf : Vector (BitVec 8) 256) (index : Nat) (small : index < 256) :
    contents massBuf index = massBuf[index] := by
  rw [contents, Vector.getElem?_eq_getElem small]
  rfl

/-- The bytes that the 256-byte read delivers. -/
def delivered (pmem : LfddSpace) (machine : MemMachine) : Memory :=
  contents (lfddMemRead256byte platform pmem machine).1.massBuf

/-- The single-width reads at an address give the first bytes that the 256-byte read gives,
and ones when it gives nothing but ones. -/
structure ReadsAgree (pmem : LfddSpace) (machine : MemMachine) : Prop where
  byte : (lfddMemReadByte platform pmem.addr machine).1 = load 8 (delivered platform pmem machine) 0
  word :
    (lfddMemReadWord platform pmem.addr machine).1 = load 16 (delivered platform pmem machine) 0
  dword :
    (lfddMemReadDword platform pmem.addr machine).1 = load 32 (delivered platform pmem machine) 0
  unreadable : (∀ index < 256, delivered platform pmem machine index = 0xff) →
    (lfddMemReadByte platform pmem.addr machine).1 = 0xff ∧
    (lfddMemReadWord platform pmem.addr machine).1 = 0xffff ∧
    (lfddMemReadDword platform pmem.addr machine).1 = 0xffffffff

section Delivered

variable {platform} (pmem : LfddSpace) (machine : MemMachine)

/-- Inside the range the bulk read delivers the memory from the address on, 256 bytes of it. -/
theorem delivered_inside (inside : outside platform pmem.addr = false) (index : Nat)
    (small : index < 256) :
    delivered platform pmem machine index = machine.memory (pmem.addr.toNat + index) := by
  obtain ⟨bytes, _⟩ := direct_loop pmem.addr.toNat pmem.massBuf machine
  rw [delivered, lfddMemRead256byte, inside, contents_get _ _ small]
  exact bytes index small

/-- Outside the range it delivers the memory of what can be mapped. -/
theorem delivered_mapped (refused : outside platform pmem.addr = true)
    (mapped : platform.ioremapSucceeds pmem.addr.toNat = true) (index : Nat) (small : index < 256) :
    delivered platform pmem machine index = machine.memory (pmem.addr.toNat + index) := by
  obtain ⟨bytes, _⟩ := mapped_loop pmem.addr.toNat pmem.massBuf
    (machine.ioremap platform pmem.addr.toNat).2
  have succeeded : (machine.ioremap platform pmem.addr.toNat).1 = true := mapped
  rw [delivered, lfddMemRead256byte, refused, if_pos rfl, contents_get _ _ small]
  simp only [succeeded, if_true]
  exact bytes index small

/-- What cannot be mapped is shown as ones, in all 256 places. -/
theorem delivered_unmapped (refused : outside platform pmem.addr = true)
    (unmapped : platform.ioremapSucceeds pmem.addr.toNat = false) (index : Nat)
    (small : index < 256) : delivered platform pmem machine index = 0xff := by
  have failed : (machine.ioremap platform pmem.addr.toNat).1 = false := unmapped
  rw [delivered, lfddMemRead256byte, refused, if_pos rfl, contents_get _ _ small]
  simp only [failed, Bool.false_eq_true, if_false]
  exact Vector.getElem_replicate small

end Delivered

/-- Equal loads show ones together: where the bytes are ones, the word read from them is the
constant the refused reads return. -/
theorem load_ones {w : Nat} (whole : 8 ∣ w) (fits : w ≤ 8 * 256) (bytes : Memory)
    (ones : ∀ index < 256, bytes index = 0xff) (word : BitVec w)
    (filled : ∀ number < w / 8, RegisterBits.byte number word = 0xff) : load w bytes 0 = word := by
  rw [load_eq_iff whole]
  intro number small
  rw [Nat.zero_add, filled number small]
  exact ones number (by omega)

/-- A word whose lowest byte alone has ones, loaded from such bytes. -/
theorem load_lowest {w : Nat} (whole : 8 ∣ w) (bytes : Memory) (lowest : bytes 0 = 0xff)
    (rest : ∀ index, 1 ≤ index → index < w / 8 → bytes index = 0) (word : BitVec w)
    (low : RegisterBits.byte 0 word = 0xff)
    (high : ∀ number < w / 8, 1 ≤ number → RegisterBits.byte number word = 0) :
    load w bytes 0 = word := by
  rw [load_eq_iff whole]
  intro number small
  rw [Nat.zero_add]
  rcases Nat.eq_zero_or_pos number with rfl | positive
  · rw [low, lowest]
  · rw [high number small positive, rest number positive small]

/-- The clause about unreadable addresses follows from the others, since ones are loaded where there
are ones. -/
theorem ReadsAgree.of_loads {platform : MemPlatform} {pmem : LfddSpace} {machine : MemMachine}
    (byte : (lfddMemReadByte platform pmem.addr machine).1 =
      load 8 (delivered platform pmem machine) 0)
    (word : (lfddMemReadWord platform pmem.addr machine).1 =
      load 16 (delivered platform pmem machine) 0)
    (dword : (lfddMemReadDword platform pmem.addr machine).1 =
      load 32 (delivered platform pmem machine) 0) : ReadsAgree platform pmem machine where
  byte := byte
  word := word
  dword := dword
  unreadable := by
    intro ones
    refine ⟨?_, ?_, ?_⟩
    · exact byte.trans (load_ones (by decide) (by decide) _ ones _ (by decide))
    · exact word.trans (load_ones (by decide) (by decide) _ ones _ (by decide))
    · exact dword.trans (load_ones (by decide) (by decide) _ ones _ (by decide))

/-- Inside the range all reads see the same bytes, and so they agree. -/
theorem reads_agree_inside (pmem : LfddSpace) (machine : MemMachine)
    (inside : outside platform pmem.addr = false) : ReadsAgree platform pmem machine := by
  have shown := delivered_inside pmem machine inside
  have same : ∀ w, 8 ∣ w → w ≤ 32 →
      load w machine.memory pmem.addr.toNat = load w (delivered platform pmem machine) 0 := by
    intro w whole fits
    rw [load_eq_load_iff whole]
    intro number small
    rw [Nat.zero_add, shown number (by omega)]
  apply ReadsAgree.of_loads
  · rw [lfddMemReadByte_inside platform inside]
    exact same 8 (by decide) (by decide)
  · rw [lfddMemReadWord_inside platform inside]
    exact same 16 (by decide) (by decide)
  · rw [lfddMemReadDword_inside platform inside]
    exact same 32 (by decide) (by decide)

/-- Outside the range they agree when the bulk read happens to deliver the constant. -/
theorem reads_agree_outside (pmem : LfddSpace) (machine : MemMachine)
    (refused : outside platform pmem.addr = true) :
    ReadsAgree platform pmem machine ↔
      delivered platform pmem machine 0 = 0xff ∧
        ∀ index, 1 ≤ index → index < 4 → delivered platform pmem machine index = 0 := by
  have single : (lfddMemReadByte platform pmem.addr machine).1 = 0xff := by
    rw [lfddMemReadByte, memRead_outside platform refused]
  have double : (lfddMemReadWord platform pmem.addr machine).1 = 0xff := by
    rw [lfddMemReadWord, memRead_outside platform refused]
  have quadruple : (lfddMemReadDword platform pmem.addr machine).1 = 0xff := by
    rw [lfddMemReadDword, memRead_outside platform refused]
  constructor
  · intro agrees
    have bytes := (load_eq_iff (by decide) _ _ _).mp (quadruple.symm.trans agrees.dword).symm
    constructor
    · have zero := bytes 0 (by decide)
      exact zero
    · intro index positive small
      have shown := bytes index (by omega)
      rw [Nat.zero_add] at shown
      rw [shown]
      interval_cases index <;> decide
  · rintro ⟨lowest, rest⟩
    apply ReadsAgree.of_loads
    · rw [single]
      exact (load_lowest (by decide) _ lowest (fun index positive small =>
        rest index positive (by omega)) _ (by decide) (by decide)).symm
    · rw [double]
      exact (load_lowest (by decide) _ lowest (fun index positive small =>
        rest index positive (by omega)) _ (by decide) (by decide)).symm
    · rw [quadruple]
      exact (load_lowest (by decide) _ lowest (fun index positive small =>
        rest index positive (by omega)) _ (by decide) (by decide)).symm

/-- The reads of different widths agree exactly inside the range of the check, and outside it
on memory of a device that begins with the four bytes of the constant. -/
theorem reads_agree_iff
    (ram : ∀ start, platform.ioremapSucceeds start = true ↔ platform.highMemory.toNat ≤ start)
    (pmem : LfddSpace) (machine : MemMachine) :
    ReadsAgree platform pmem machine ↔
      (pmem.addr.toNat + 256 < platform.highMemory.toNat ∧
        pmem.addr.toNat + 256 < 0xffffffff) ∨
      (platform.highMemory.toNat ≤ pmem.addr.toNat ∧
        machine.memory pmem.addr.toNat = 0xff ∧
        ∀ offset, 1 ≤ offset → offset < 4 → machine.memory (pmem.addr.toNat + offset) = 0) := by
  cases checked : outside platform pmem.addr with
  | false =>
    have within := (outside_iff platform pmem.addr).mp checked
    exact ⟨fun _ => .inl within, fun _ => reads_agree_inside platform pmem machine checked⟩
  | true =>
    have beyond : ¬ (pmem.addr.toNat + 256 < platform.highMemory.toNat ∧
        pmem.addr.toNat + 256 < 0xffffffff) := by
      rw [← outside_iff, checked]
      decide
    rw [reads_agree_outside platform pmem machine checked, or_iff_right beyond]
    by_cases above : platform.highMemory.toNat ≤ pmem.addr.toNat
    · have shown := delivered_mapped pmem machine checked ((ram _).mpr above)
      rw [shown 0 (by decide), Nat.add_zero, and_iff_right above]
      refine and_congr_right fun _ => ?_
      constructor
      · intro rest offset positive small
        rw [← shown offset (by omega)]
        exact rest offset positive small
      · intro rest offset positive small
        rw [shown offset (by omega)]
        exact rest offset positive small
    · have unmapped : platform.ioremapSucceeds pmem.addr.toNat = false :=
        Bool.eq_false_iff.mpr fun mapped => above ((ram _).mp mapped)
      have ones := delivered_unmapped pmem machine checked unmapped
      constructor
      · rintro ⟨_, rest⟩
        have zero := rest 1 (by decide) (by decide)
        rw [ones 1 (by decide)] at zero
        exact absurd zero (by decide)
      · rintro ⟨mapped, _⟩
        exact absurd mapped above

/-- A machine with 64 KiB of RAM, where `ioremap` maps everything else. -/
def smallRam : MemPlatform := ⟨0x10000, fun start => decide (0x10000 ≤ start)⟩

/-- The four reads at the start of RAM agree, the bulk read being one of them. -/
theorem first_bytes_agree :
    ReadsAgree smallRam ⟨0, 0, Vector.replicate 256 0⟩ ⟨fun place => BitVec.ofNat 8 place, []⟩ :=
  (reads_agree_iff smallRam (fun start => by simp [smallRam]) _ _).mpr (.inl (by decide))

/-- In the last 256 bytes of RAM, the bulk read shows nothing but ones, and the word read
gives `0x00ff`. -/
theorem last_block_disagrees :
    (∀ start, smallRam.ioremapSucceeds start = true ↔ smallRam.highMemory.toNat ≤ start) ∧
    (∀ index < 256, delivered smallRam ⟨0xff80, 0, Vector.replicate 256 0⟩
      ⟨fun _ => 0x5a, []⟩ index = 0xff) ∧
    (lfddMemReadWord smallRam 0xff80 ⟨fun _ => 0x5a, []⟩).1 = 0x00ff ∧
    ¬ ReadsAgree smallRam ⟨0xff80, 0, Vector.replicate 256 0⟩ ⟨fun _ => 0x5a, []⟩ := by
  have refused : outside smallRam 0xff80 = true := by decide
  have word : (lfddMemReadWord smallRam 0xff80 ⟨fun _ => 0x5a, []⟩).1 = 0x00ff := by
    rw [lfddMemReadWord, memRead_outside smallRam refused]
  have ones : ∀ index < 256, delivered smallRam ⟨0xff80, 0, Vector.replicate 256 0⟩
      ⟨fun _ => 0x5a, []⟩ index = 0xff :=
    delivered_unmapped _ _ refused (by decide)
  refine ⟨fun start => by simp [smallRam], ones, word, fun agrees => ?_⟩
  obtain ⟨_, allOnes, _⟩ := agrees.unreadable ones
  exact absurd (word.symm.trans allOnes) (by decide)

end Lfdk.MemoryAccess
