import Lfdk.RegisterBytes

/-!
# Reading back what was written

In a space whose registers keep what is written to them, a value that was written should be
read back at the same register, and byte by byte at the registers it covers. The reads take
their byte lane from two bits of the address. The byte write does the same, and the dword
write is refused unless both are zero.

The word write takes its lane from one bit. At an odd register it writes the word one
register below, and the byte above it stays as it was. Such a word is read back only if its
two bytes are equal and the byte above happened to hold the same value; at the last register
of a dword the read delivers a zero in place of that byte.
-/

namespace Lfdk

open RegisterBits

universe u
variable {σ : Type u} (platform : Platform σ)

/-- The read of the same width. -/
def Operation.readBack : Operation → Operation
  | .writeByte => .readByte
  | .writeWord => .readWord
  | .writeDword => .readDword
  | other => other

/-- After a write, the value is read back at its register, and its bytes are read back one by
one at the registers from there on. -/
structure ReadsBack (request : Request) (width : Nat) (machine : Machine σ) : Prop where
  whole : (serve platform ⟨request.operation.readBack, request.pci⟩
      (serve platform request machine).2).1.value =
    some (BitVec.ofNat 32 (request.pci.buf.toNat % 2 ^ (8 * width)))
  bytes : ∀ number < width,
    (serve platform (request.byteAt number) (serve platform request machine).2).1.value =
      some ((byte number request.pci.buf).setWidth 32)

/-- The lane that a write replaces. -/
def Request.lane (request : Request) : Nat :=
  match request.operation with
  | .writeWord => request.pci.reg.toNat % 4 / 2 * 2
  | _ => request.pci.reg.toNat % 4

/-- The lane of the word write is the even byte at or below the address, as bit 0 of it is not used.
-/
theorem word_lane_toNat (addr : BitVec 32) : (addr &&& 0x2).toNat = addr.toNat % 4 / 2 * 2 := by
  have lanes : ∀ low : BitVec 32, low.toNat < 4 → (low &&& 0x2).toNat = low.toNat / 2 * 2 := by
    intro low small
    obtain zero | one | two | three :
        low.toNat = 0 ∨ low.toNat = 1 ∨ low.toNat = 2 ∨ low.toNat = 3 := by omega
    · rw [BitVec.toNat_and, zero]
      rfl
    · rw [BitVec.toNat_and, one]
      rfl
    · rw [BitVec.toNat_and, two]
      rfl
    · rw [BitVec.toNat_and, three]
      rfl
  have inside : addr &&& 0x2 = (addr &&& 0x3) &&& 0x2 := by
    rw [BitVec.and_assoc]
    rfl
  have low : (addr &&& 0x3).toNat = addr.toNat % 4 := lane_toNat addr
  rw [inside, lanes _ (by omega), low]

/-- An accepted dword write is for the first register of a dword. -/
theorem dword_write_lane (pci : LfddPcix) (paged : 4096 ∣ pci.phyBase.toNat)
    (accepted : Request.refused platform ⟨.writeDword, pci⟩ = false) : pci.reg.toNat % 4 = 0 := by
  have aligned : pci.addr &&& 0x3 = 0 := by
    by_contra misaligned
    have refused := (Request.refused_iff platform ⟨.writeDword, pci⟩).mpr (.inl ⟨rfl, misaligned⟩)
    rw [accepted] at refused
    cases refused
  have low := addr_lane pci paged
  rw [aligned] at low
  exact low.symm

/-- Every write splices its value into its lane, whichever of the three operations it is. -/
theorem written_lane (request : Request) (width : Nat)
    (writes : request.operation.width = some width) (paged : 4096 ∣ request.pci.phyBase.toNat)
    (accepted : request.refused platform = false) (dword : BitVec 32) :
    request.written dword =
      some (splice (8 * request.lane) (8 * width) request.pci.buf dword) := by
  have lane := addr_lane request.pci paged
  rw [lane_toNat] at lane
  obtain ⟨operation, pci⟩ := request
  cases operation with
  | writeByte =>
    obtain rfl := Option.some.inj writes
    exact written_splice ⟨.writeByte, pci⟩ 1 rfl (one_dvd _) paged dword
  | writeWord =>
    obtain rfl := Option.some.inj writes
    have low : ∀ bit < 32, (0xffff : BitVec 32).getLsbD bit = decide (bit < 8 * 2) := by decide
    have eight : (8 : BitVec 32).toNat = 8 := rfl
    have amount : ((pci.addr &&& 0x2) * 8).toNat = 8 * (pci.reg.toNat % 4 / 2 * 2) := by
      rw [BitVec.toNat_mul, word_lane_toNat, eight]
      simp only at lane
      omega
    simp only [Request.written, mergeLane, BitVec.shiftLeft_eq', amount, Request.lane]
    rw [mask_splice _ _ _ _ _ low]
  | writeDword =>
    obtain rfl := Option.some.inj writes
    have aligned := dword_write_lane platform pci paged accepted
    exact written_splice ⟨.writeDword, pci⟩ 4 rfl (Nat.dvd_of_mod_eq_zero aligned) paged dword
  | readByte | readWord | readDword | read256byte => cases writes

section Reads

variable (request : Request) (count : Nat) (inside : request.pci.reg.toNat + count < request.space)
  (paged : 4096 ∣ request.pci.phyBase.toNat)

/-- An accepted write has passed the check of its address. -/
theorem write_checked (width : Nat) (writes : request.operation.width = some width)
    (accepted : request.refused platform = false) :
    invalidMmio platform request.pci (addrAlighBuf request.pci.addr) = false := by
  obtain ⟨operation, pci⟩ := request
  cases operation with
  | writeByte | writeWord => exact accepted
  | writeDword =>
    simp only [Request.refused, Bool.or_eq_false_iff] at accepted
    exact accepted.2
  | readByte | readWord | readDword | read256byte => cases writes

/-- The read of the same width passes that check too. -/
theorem readBack_accepted (width : Nat) (writes : request.operation.width = some width)
    (accepted : request.refused platform = false) :
    Request.refused platform ⟨request.operation.readBack, request.pci⟩ = false := by
  have checked := write_checked platform request width writes accepted
  obtain ⟨operation, pci⟩ := request
  cases operation with
  | writeByte | writeWord | writeDword => exact checked
  | readByte | readWord | readDword | read256byte => cases writes

include inside paged

/-- And so does the read of a byte of the same dword. -/
theorem byteAt_accepted (width : Nat) (writes : request.operation.width = some width)
    (accepted : request.refused platform = false)
    (within : (request.pci.reg.toNat + count) / 4 = request.pci.reg.toNat / 4) :
    (request.byteAt count).refused platform = false := by
  have next := byteAt_addr request count inside paged
  have lane := addr_lane request.pci paged
  rw [lane_toNat] at lane
  have block : addrAlighBuf (request.byteAt count).pci.addr = addrAlighBuf request.pci.addr := by
    rw [← BitVec.toNat_inj, addrAlighBuf_toNat, addrAlighBuf_toNat, next]
    omega
  have checked := write_checked platform request width writes accepted
  have same : (request.byteAt count).refused platform =
      invalidMmio platform request.pci (addrAlighBuf (request.byteAt count).pci.addr) := rfl
  rw [same, block, checked]

end Reads

/-- The low bytes of a value are all that is left of it by the remainder, and the bytes above are
zero. -/
theorem byte_modulo (value : BitVec 32) (width number : Nat) (small : number < 4) :
    byte number (BitVec.ofNat 32 (value.toNat % 2 ^ (8 * width))) =
      if number < width then byte number value else 0 := by
  have cut : BitVec.ofNat 32 (value.toNat % 2 ^ (8 * width)) =
      (value.setWidth (8 * width)).setWidth 32 := by
    rw [← BitVec.toNat_inj, BitVec.toNat_ofNat, BitVec.toNat_setWidth, BitVec.toNat_setWidth]
  rw [cut, byte_cut _ _ _ (by omega)]

/-- An answer that shows some bytes, and zeros above them, is the low bytes of a value exactly
when it shows these. -/
theorem answer_eq_iff (answer value : BitVec 32) (width : Nat) (narrow : width ≤ 4)
    (shown : Nat → BitVec 8)
    (bytes : ∀ number < 4, byte number answer = if number < width then shown number else 0) :
    some answer = some (BitVec.ofNat 32 (value.toNat % 2 ^ (8 * width))) ↔
      ∀ number < width, shown number = byte number value := by
  rw [Option.some.injEq]
  constructor
  · intro same number small
    have left := bytes number (by omega)
    have right := byte_modulo value width number (by omega)
    rw [if_pos small] at left right
    rw [← left, same, right]
  · intro same
    apply ByteMemory.eq_of_bytes (by decide)
    intro number inside
    rw [bytes number (by omega), byte_modulo _ _ _ (by omega)]
    split
    · next small => exact same number small
    · rfl

/-- A write is for a byte at least and a dword at most. -/
theorem width_bounds {operation : Operation} {width : Nat}
    (writes : operation.width = some width) : 0 < width ∧ width ≤ 4 := by
  cases operation with
  | writeByte | writeWord | writeDword =>
    obtain rfl := Option.some.inj writes
    decide
  | readByte | readWord | readDword | read256byte => cases writes

section Served

variable {platform} (registers : ReadWrite platform)
  (succeeds : ∀ call, platform.ioremapSucceeds call = true) (request : Request) (width : Nat)
  (writes : request.operation.width = some width) (paged : 4096 ∣ request.pci.phyBase.toNat)
  (accepted : request.refused platform = false) (machine : Machine σ)
  (consistent : machine.Consistent) (unmapped : machine.phy2virtMem = none)

/-- The dword of the register after the write. -/
def Request.spliced (platform : Platform σ) (request : Request) (width : Nat) (device : σ) :
    BitVec 32 :=
  splice (8 * request.lane) (8 * width) request.pci.buf (request.pci.dwordAt platform device)

include succeeds writes paged accepted consistent unmapped

/-- The state after an accepted write: the dword of the device has the value spliced in, and an MMIO
write leaves a page mapped. -/
theorem serve_write :
    (serve platform request machine).2.device =
        request.pci.withDword platform machine.device
          (request.spliced platform width machine.device) ∧
      (request.IsMmio → (serve platform request machine).2.Paged) := by
  have single : request.operation ≠ .read256byte := by
    intro bulk
    rw [bulk] at writes
    cases writes
  have cache : request.IsMmio → machine.Paged := by
    intro _
    refine ⟨consistent, fun start remembered => ?_⟩
    rw [Machine.window, unmapped] at remembered
    exact absurd remembered (Option.not_mem_none start)
  obtain ⟨_, device, after⟩ := serve_single platform succeeds request machine single accepted cache
  rw [written_lane platform request width writes paged accepted] at device
  exact ⟨device, after⟩

include registers

/-- The read of the same width answers with the bytes from the register on. -/
theorem whole_iff (room : request.pci.reg.toNat + width ≤ request.space) :
    (serve platform ⟨request.operation.readBack, request.pci⟩
        (serve platform request machine).2).1.value =
        some (BitVec.ofNat 32 (request.pci.buf.toNat % 2 ^ (8 * width))) ↔
      ∀ number < width,
        byte (request.pci.reg.toNat % 4 + number) (request.spliced platform width machine.device) =
          byte number request.pci.buf := by
  obtain ⟨device, after⟩ := serve_write succeeds request width writes paged accepted machine
    consistent unmapped
  have single : request.operation.readBack ≠ .read256byte := by
    intro bulk
    cases operation : request.operation <;> rw [operation] at bulk writes <;> cases bulk
    cases writes
  have checked := readBack_accepted platform request width writes accepted
  obtain ⟨value, _⟩ := serve_single platform succeeds ⟨request.operation.readBack, request.pci⟩
    (serve platform request machine).2 single checked after
  obtain ⟨positive, narrow⟩ := width_bounds writes
  have first : (request.byteAt 0).pci = request.pci := by simp [Request.byteAt]
  have dword : request.pci.dwordAt platform (serve platform request machine).2.device =
      request.spliced platform width machine.device := by
    have same := dwordAt_same registers request 0 (by omega) paged machine.device
      (request.spliced platform width machine.device) rfl
    rw [first] at same
    rw [device, same]
  simp only [dword] at value
  rw [value]
  generalize request.spliced platform width machine.device = spliced
  have bytewise := fun answer => answer_eq_iff answer request.pci.buf width narrow fun number =>
    byte (request.pci.reg.toNat % 4 + number) spliced
  obtain ⟨operation, pci⟩ := request
  cases operation with
  | writeByte =>
    obtain rfl := Option.some.inj writes
    simp only [Operation.readBack]
    rw [readByte_answer pci paged]
    apply bytewise
    intro number small
    have extended : (byte (pci.reg.toNat % 4) spliced).setWidth 32 =
        ((spliced >>> (8 * (pci.reg.toNat % 4))).setWidth (8 * 1)).setWidth 32 := by
      congr 1
    rw [extended, byte_cut _ _ _ (by omega), byte_shift]
  | writeWord =>
    obtain rfl := Option.some.inj writes
    simp only [Operation.readBack]
    rw [readWord_answer pci paged]
    apply bytewise
    intro number small
    have cut := byte_cut 2 (spliced >>> (8 * (pci.reg.toNat % 4))) number (by omega)
    rw [byte_shift] at cut
    exact cut
  | writeDword =>
    obtain rfl := Option.some.inj writes
    have lane := dword_write_lane platform pci paged accepted
    simp only [Operation.readBack, Request.answer]
    apply bytewise
    intro number small
    rw [if_pos small, lane, Nat.zero_add]
  | readByte | readWord | readDword | read256byte => cases writes

/-- A byte read in the dword that was written answers with its byte. -/
theorem byte_within (room : request.pci.reg.toNat + width ≤ request.space) (number : Nat)
    (small : number < width) (within : request.pci.reg.toNat % 4 + number < 4) :
    (serve platform (request.byteAt number) (serve platform request machine).2).1.value =
      some ((byte (request.pci.reg.toNat % 4 + number)
        (request.spliced platform width machine.device)).setWidth 32) := by
  obtain ⟨device, after⟩ := serve_write succeeds request width writes paged accepted machine
    consistent unmapped
  have inside : request.pci.reg.toNat + number < request.space := by omega
  have reg := byteAt_reg request number inside
  have lane : (request.byteAt number).pci.reg.toNat % 4 = request.pci.reg.toNat % 4 + number := by
    omega
  have checked := byteAt_accepted platform request number inside paged width writes accepted
    (by omega)
  obtain ⟨value, _⟩ := serve_single platform succeeds (request.byteAt number)
    (serve platform request machine).2 (by simp [Request.byteAt]) checked after
  have dword := dwordAt_same registers request number inside paged machine.device
    (request.spliced platform width machine.device) (by omega)
  rw [value, device, dword, ← lane]
  exact readByte_answer (request.byteAt number).pci paged _ _

/-- A byte read in the next dword answers with the byte that was there before the write. -/
theorem byte_beyond_dword (room : request.pci.reg.toNat + width ≤ request.space) (number : Nat)
    (small : number < width) (beyond : 4 ≤ request.pci.reg.toNat % 4 + number)
    (checked : (request.byteAt number).refused platform = false) :
    (serve platform (request.byteAt number) (serve platform request machine).2).1.value =
      some (((request.byteAt number).pci.registerByte platform machine.device).setWidth 32) := by
  obtain ⟨device, after⟩ := serve_write succeeds request width writes paged accepted machine
    consistent unmapped
  have inside : request.pci.reg.toNat + number < request.space := by omega
  obtain ⟨value, _⟩ := serve_single platform succeeds (request.byteAt number)
    (serve platform request machine).2 (by simp [Request.byteAt]) checked after
  have dword := dwordAt_other registers request number inside paged machine.device
    (request.spliced platform width machine.device) (by omega)
  rw [value, device, dword]
  exact readByte_answer (request.byteAt number).pci paged _ _

/-- A write whose lane is the lane of its register is read back. -/
theorem aligned_reads_back (room : request.pci.reg.toNat + width ≤ request.space)
    (aligned : width ∣ request.pci.reg.toNat) : ReadsBack platform request width machine := by
  have fits := lane_fits request width writes aligned
  have lane : request.lane = request.pci.reg.toNat % 4 := by
    obtain ⟨operation, pci⟩ := request
    cases operation with
    | writeWord =>
      obtain rfl := Option.some.inj writes
      simp only [Request.lane] at aligned ⊢
      omega
    | writeByte | writeDword | readByte | readWord | readDword | read256byte => rfl
  have bytes : ∀ number < width,
      byte (request.pci.reg.toNat % 4 + number) (request.spliced platform width machine.device) =
        byte number request.pci.buf := by
    intro number small
    rw [Request.spliced, lane, byte_splice _ _ _ _ _ (by omega), if_pos (by omega),
      Nat.add_sub_cancel_left]
  constructor
  · exact (whole_iff registers succeeds request width writes paged accepted machine consistent
      unmapped room).mpr bytes
  · intro number small
    rw [byte_within registers succeeds request width writes paged accepted machine consistent
      unmapped room number small (by omega), bytes number small]

end Served

section OddWords

variable {platform} (registers : ReadWrite platform)
  (succeeds : ∀ call, platform.ioremapSucceeds call = true) (pci : LfddPcix)
  (paged : 4096 ∣ pci.phyBase.toNat)
  (accepted : Request.refused platform ⟨.writeWord, pci⟩ = false) (machine : Machine σ)
  (consistent : machine.Consistent) (unmapped : machine.phy2virtMem = none)
  (room : pci.reg.toNat + 2 ≤ Request.space ⟨.writeWord, pci⟩)

include registers succeeds paged accepted consistent unmapped room

/-- A word at the second register of a dword: the lane below it is written. -/
theorem second_register_iff (second : pci.reg.toNat % 4 = 1) :
    ReadsBack platform ⟨.writeWord, pci⟩ 2 machine ↔
      byte 0 pci.buf = byte 1 pci.buf ∧
        (Request.byteAt ⟨.writeWord, pci⟩ 1).pci.registerByte platform machine.device =
          byte 1 pci.buf := by
  have whole := whole_iff registers succeeds ⟨.writeWord, pci⟩ 2 rfl paged accepted machine
    consistent unmapped room
  have bytes := byte_within registers succeeds ⟨.writeWord, pci⟩ 2 rfl paged accepted machine
    consistent unmapped room
  have reg := byteAt_reg ⟨.writeWord, pci⟩ 1 (by simp only; omega)
  have old : (Request.byteAt ⟨.writeWord, pci⟩ 1).pci.registerByte platform machine.device =
      byte 2 (pci.dwordAt platform machine.device) := by
    have shared := dwordAt_shared platform ⟨.writeWord, pci⟩ 1 (by simp only; omega) paged
      (by simp only; omega) machine.device
    have place : (Request.byteAt ⟨.writeWord, pci⟩ 1).pci.reg.toNat % 4 = 2 := by
      simp only at reg
      omega
    rw [LfddPcix.registerByte, shared, place]
  have lane : Request.lane ⟨.writeWord, pci⟩ = 0 := by
    simp only [Request.lane, second]
  have first : byte 1 (Request.spliced platform ⟨.writeWord, pci⟩ 2 machine.device) =
      byte 1 pci.buf := by
    rw [Request.spliced, lane, byte_splice _ _ _ _ _ (by decide), if_pos (by decide)]
  have next : byte 2 (Request.spliced platform ⟨.writeWord, pci⟩ 2 machine.device) =
      byte 2 (pci.dwordAt platform machine.device) := by
    rw [Request.spliced, lane, byte_splice _ _ _ _ _ (by decide), if_neg (by decide)]
  simp only [second] at whole bytes
  rw [old]
  constructor
  · rintro ⟨answer, -⟩
    have shown := whole.mp answer
    have low := shown 0 (by decide)
    have high := shown 1 (by decide)
    rw [first] at low
    rw [next] at high
    exact ⟨low.symm, high⟩
  · rintro ⟨equal, kept⟩
    have shown : ∀ number < 2,
        byte (1 + number) (Request.spliced platform ⟨.writeWord, pci⟩ 2 machine.device) =
          byte number pci.buf := by
      intro number small
      obtain rfl | rfl : number = 0 ∨ number = 1 := by omega
      · rw [first, equal]
      · rw [next, kept]
    refine ⟨whole.mpr shown, fun number small => ?_⟩
    rw [bytes number small (by omega), shown number small]

/-- A word at the last register of a dword: the lane below it is written, and the byte above it
lies in the next dword. -/
theorem last_register_iff (last : pci.reg.toNat % 4 = 3) :
    ReadsBack platform ⟨.writeWord, pci⟩ 2 machine ↔
      byte 0 pci.buf = 0 ∧ byte 1 pci.buf = 0 ∧
        (Request.byteAt ⟨.writeWord, pci⟩ 1).refused platform = false ∧
        (Request.byteAt ⟨.writeWord, pci⟩ 1).pci.registerByte platform machine.device = 0 := by
  have whole := whole_iff registers succeeds ⟨.writeWord, pci⟩ 2 rfl paged accepted machine
    consistent unmapped room
  have within := byte_within registers succeeds ⟨.writeWord, pci⟩ 2 rfl paged accepted machine
    consistent unmapped room 0 (by decide) (by simp only; omega)
  have beyond := byte_beyond_dword registers succeeds ⟨.writeWord, pci⟩ 2 rfl paged accepted machine
    consistent unmapped room 1 (by decide) (by simp only; omega)
  have lane : Request.lane ⟨.writeWord, pci⟩ = 2 := by
    simp only [Request.lane, last]
  have first : byte 3 (Request.spliced platform ⟨.writeWord, pci⟩ 2 machine.device) =
      byte 1 pci.buf := by
    rw [Request.spliced, lane, byte_splice _ _ _ _ _ (by decide), if_pos (by decide)]
  have next : byte 4 (Request.spliced platform ⟨.writeWord, pci⟩ 2 machine.device) = 0 :=
    byte_beyond _ _ (by decide)
  simp only [last] at whole within
  constructor
  · rintro ⟨answer, bytes⟩
    have shown := whole.mp answer
    have low := shown 0 (by decide)
    have high := shown 1 (by decide)
    rw [first] at low
    rw [next] at high
    have above := bytes 1 (by decide)
    refine ⟨low.symm.trans high.symm, high.symm, ?_⟩
    cases checked : (Request.byteAt ⟨.writeWord, pci⟩ 1).refused platform with
    | true =>
      -- a refused read answers with ones, and the byte is zero
      rw [serve_refused platform _ _ checked, ← high] at above
      exact absurd (Option.some.inj above) (by decide)
    | false =>
      rw [beyond checked, extended_inj, ← high] at above
      exact ⟨rfl, above⟩
  · rintro ⟨low, high, checked, kept⟩
    have shown : ∀ number < 2,
        byte (3 + number) (Request.spliced platform ⟨.writeWord, pci⟩ 2 machine.device) =
          byte number pci.buf := by
      intro number small
      obtain rfl | rfl : number = 0 ∨ number = 1 := by omega
      · rw [first, low, high]
      · rw [next, high]
    refine ⟨whole.mpr shown, fun number small => ?_⟩
    obtain rfl | rfl : number = 0 ∨ number = 1 := by omega
    · rw [within, shown 0 (by decide)]
    · rw [beyond checked, kept, high]

end OddWords

/-- What is written is read back, unless it is a word at an odd register. There its two bytes
must be equal, the byte above must hold the same value already, and at the last register of a
dword that value must be zero and its register must be one that can be read. -/
theorem reads_back_iff (registers : ReadWrite platform)
    (succeeds : ∀ call, platform.ioremapSucceeds call = true) (request : Request) (width : Nat)
    (writes : request.operation.width = some width) (paged : 4096 ∣ request.pci.phyBase.toNat)
    (room : request.pci.reg.toNat + width ≤ request.space) (machine : Machine σ)
    (consistent : machine.Consistent) (unmapped : machine.phy2virtMem = none) :
    (request.refused platform = false → ReadsBack platform request width machine) ↔
      (request.refused platform = false → request.operation = .writeWord →
        request.pci.reg.toNat % 2 = 1 →
        byte 0 request.pci.buf = byte 1 request.pci.buf ∧
          (request.byteAt 1).pci.registerByte platform machine.device =
            byte 1 request.pci.buf ∧
          (request.pci.reg.toNat % 4 = 3 →
            byte 1 request.pci.buf = 0 ∧ (request.byteAt 1).refused platform = false)) := by
  refine forall_congr' fun accepted => ?_
  obtain ⟨operation, pci⟩ := request
  have aligned : width ∣ pci.reg.toNat → ReadsBack platform ⟨operation, pci⟩ width machine :=
    aligned_reads_back registers succeeds ⟨operation, pci⟩ width writes paged accepted machine
      consistent unmapped room
  cases operation with
  | writeByte =>
    obtain rfl := Option.some.inj writes
    exact ⟨fun _ word => (by cases word), fun _ => aligned (one_dvd _)⟩
  | writeDword =>
    obtain rfl := Option.some.inj writes
    exact ⟨fun _ word => (by cases word),
      fun _ => aligned (Nat.dvd_of_mod_eq_zero (dword_write_lane platform pci paged accepted))⟩
  | writeWord =>
    obtain rfl := Option.some.inj writes
    simp only [true_implies]
    by_cases odd : pci.reg.toNat % 2 = 1
    · simp only [odd, true_implies]
      by_cases last : pci.reg.toNat % 4 = 3
      · rw [last_register_iff registers succeeds pci paged accepted machine consistent unmapped room
          last]
        simp only [last, true_implies]
        constructor
        · rintro ⟨low, high, checked, kept⟩
          exact ⟨low.trans high.symm, kept.trans high.symm, high, checked⟩
        · rintro ⟨equal, kept, high, checked⟩
          exact ⟨equal.trans high, high, checked, kept.trans high⟩
      · rw [second_register_iff registers succeeds pci paged accepted machine consistent unmapped
          room (by omega)]
        constructor
        · rintro ⟨equal, kept⟩
          exact ⟨equal, kept, fun third => absurd third last⟩
        · rintro ⟨equal, kept, _⟩
          exact ⟨equal, kept⟩
    · exact ⟨fun _ isOdd => absurd isOdd odd, fun _ => aligned (by omega)⟩
  | readByte | readWord | readDword | read256byte => cases writes

/-- Through a mapping, the word at register 2 is read back. -/
theorem even_word_read_back :
    let platform := bytePlatform 0x80000000 fun _ => true
    let request : Request := ⟨.writeWord, .atRegister 2 0xe0000000 0x1234⟩
    request.refused platform = false ∧
      ReadsBack platform request 2 (Machine.loaded ⟨fun _ => 0, fun _ => 0⟩ 0) := by
  intro platform request
  have accepted : request.refused platform = false := by decide +kernel
  refine ⟨accepted, ?_⟩
  exact (reads_back_iff _ (bytes_readWrite 0x80000000 fun _ => true) (fun _ => rfl)
    ⟨.writeWord, .atRegister 2 0xe0000000 0x1234⟩ 2 rfl (by decide) (by decide)
    (Machine.loaded ⟨fun _ => 0, fun _ => 0⟩ 0) (Machine.loaded_consistent _ _) rfl).mpr
    (fun _ _ odd => absurd odd (by decide)) accepted

/-- Through the ports, the word 0x1234 written at register 1 reads back as 0x0012. -/
theorem odd_word_misplaced :
    let platform := bytePlatform 0x80000000 fun _ => true
    let request : Request := ⟨.writeWord, .atRegister 1 0 0x1234⟩
    let machine : Machine Contents := Machine.loaded ⟨fun _ => 0, fun _ => 0⟩ 0
    request.refused platform = false ∧
      (serve platform ⟨.readWord, request.pci⟩ (serve platform request machine).2).1.value =
        some 0x0012 ∧
      ¬ (request.refused platform = false → ReadsBack platform request 2 machine) := by
  intro platform request machine
  have answer : (serve platform ⟨.readWord, request.pci⟩
      (serve platform request machine).2).1.value = some 0x0012 := by decide +kernel
  refine ⟨by decide +kernel, answer, fun back => ?_⟩
  have whole := (back (by decide +kernel)).whole
  exact absurd (answer.symm.trans whole) (by decide +kernel)

end Lfdk
