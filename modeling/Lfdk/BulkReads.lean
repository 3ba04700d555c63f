import Lfdk.RegisterBytes

/-!
# The bulk read and the byte reads

The bulk read takes 64 dwords from its address on, byte by byte in order. Through the ports
the chip ignores the two low bits of each address that is selected, so the buffer begins
with the first byte of the addressed dword. Through MMIO the bulk read takes what lies in the
mapped block from its start on, and if it maps a block itself, that block begins at the
address, aligned or not. A byte read that follows finds the block mapped and looks in it at
the offset that its address has in an aligned block.

So the two agree for all contents only where no offset is lost: at a register that is a
multiple of a dword through the ports, and at one that is a multiple of the block through
MMIO, with no other block mapped over it.
-/

namespace Lfdk

open RegisterBits Runs

universe u
variable {σ : Type u} (platform : Platform σ)

/-- One dword stored in the buffer: its four bytes stand at the index given, the lowest first, and
all other bytes of the buffer stay. -/
theorem storeDword_get (massBuf : Vector (BitVec 8) 256) (i : Nat) (value : BitVec 32)
    (index : Nat) (small : index < 256) :
    (storeDword massBuf i value)[index] =
      if i ≤ index ∧ index < i + 4 then byte (index - i) value else massBuf[index] := by
  have zero : value.setWidth 8 = byte 0 value := rfl
  have one : (value >>> 8).setWidth 8 = byte 1 value := rfl
  have two : (value >>> 16).setWidth 8 = byte 2 value := rfl
  have three : (value >>> 24).setWidth 8 = byte 3 value := rfl
  simp only [storeDword, Vector.getElem_setIfInBounds, zero, one, two, three]
  by_cases inside : i ≤ index ∧ index < i + 4
  · rw [if_pos inside]
    obtain rfl | rfl | rfl | rfl :
        index = i ∨ index = i + 1 ∨ index = i + 2 ∨ index = i + 3 := by omega
    · simp
    · simp
    · simp
    · simp
  · rw [if_neg inside, if_neg (by omega), if_neg (by omega), if_neg (by omega), if_neg (by omega)]

/-- A buffer filled with dwords, one after another: the loop's `count` dwords cover `4 * count`
bytes from `i` on, and the rest of the buffer stays. By induction on the count. -/
theorem fillDwords_get (dword : Nat → BitVec 32) (count i : Nat)
    (massBuf : Vector (BitVec 8) 256) (index : Nat) (small : index < 256) :
    (fillDwords dword count i massBuf)[index] =
      if i ≤ index ∧ index < i + 4 * count then
        byte ((index - i) % 4) (dword (i + (index - i) / 4 * 4))
      else massBuf[index] := by
  induction count generalizing i massBuf with
  | zero =>
    rw [if_neg (by omega)]
    rfl
  | succ count inductionHypothesis =>
    rw [fillDwords, inductionHypothesis, storeDword_get]
    by_cases later : i + 4 ≤ index ∧ index < i + 4 + 4 * count
    · have lane : (index - (i + 4)) % 4 = (index - i) % 4 := by omega
      have place : i + 4 + (index - (i + 4)) / 4 * 4 = i + (index - i) / 4 * 4 := by omega
      rw [if_pos later, if_pos (by omega), lane, place]
    · rw [if_neg later]
      by_cases now : i ≤ index ∧ index < i + 4
      · have lane : (index - i) % 4 = index - i := by omega
        have place : i + (index - i) / 4 * 4 = i := by omega
        rw [if_pos now, if_pos (by omega), lane, place]
      · rw [if_neg now, if_neg (by omega)]

/-- The whole buffer: with 64 dwords from the start, no byte of the old contents is left. -/
theorem fillDwords_all (dword : Nat → BitVec 32) (massBuf : Vector (BitVec 8) 256) (index : Nat)
    (small : index < 256) :
    (fillDwords dword 64 0 massBuf)[index] = byte (index % 4) (dword (index / 4 * 4)) := by
  rw [fillDwords_get dword 64 0 massBuf index small, if_pos (by omega), Nat.sub_zero, Nat.zero_add]

/-- Every request keeps the driver's two globals in step with the mapping table. -/
theorem serve_keeps_consistent (request : Request) (machine : Machine σ)
    (consistent : machine.Consistent) : (serve platform request machine).2.Consistent := by
  by_cases ports : request.pci.phyBase = 0
  · cases refused : request.refused platform with
    | true =>
      rw [serve_refused platform request machine refused]
      exact consistent
    | false =>
      have unmapped : mapBlock platform request.pci request.block machine.cleared =
          machine.cleared := by
        rw [mapBlock, if_pos ports]
      obtain ⟨device, recorded, accessed, _⟩ := access_ports platform machine.cleared request ports
      rw [serve_accepted platform request machine refused, unmapped, accessed]
      exact consistent
  · exact serve_consistent platform request machine consistent ports

/-- In every state that requests lead to, the globals are in step. -/
theorem reachable_consistent (history : List Request) (device : σ) (configAddress : BitVec 32) :
    (final (serve platform) history (Machine.loaded device configAddress)).Consistent :=
  final_invariant (serve platform) Machine.Consistent history _
    (Machine.loaded_consistent device configAddress)
    fun request _ machine consistent => serve_keeps_consistent platform request machine consistent

/-- The bulk read of a structure. -/
def LfddPcix.bulk (pci : LfddPcix) : Request := ⟨.read256byte, pci⟩

/-- After the bulk read, each byte of the buffer that is inside the function's space is what a
byte read at its register returns. -/
def BulkAgrees (pci : LfddPcix) (machine : Machine σ) : Prop :=
  ∀ (index : Nat) (small : index < 256), pci.reg.toNat + index < pci.bulk.space →
    (serve platform (pci.bulk.byteAt index) (serve platform pci.bulk machine).2).1.value =
      some (((serve platform pci.bulk machine).1.request.massBuf[index]).setWidth 32)

section Bytes

variable (highMemory : BitVec 64) (ioremapSucceeds : Nat → Bool) (contents : Contents)

/-- A byte of a dword that the MMIO window delivers is the byte of physical memory at that place. -/
theorem byte_memoryRead (place lane : Nat) (small : lane < 4) :
    byte lane ((bytePlatform highMemory ioremapSucceeds).memoryRead contents place) =
      contents.memory (place + lane) :=
  ByteMemory.byte_load contents.memory place lane (by omega)

/-- A byte of the dword that a port address selects is the byte of configuration space at that lane
of it. -/
theorem byte_configRead (select : BitVec 32) (lane : Nat) (small : lane < 4) :
    byte lane ((bytePlatform highMemory ioremapSucceeds).configRead contents select) =
      contents.config (select.toNat / 4 * 4 + lane) :=
  ByteMemory.byte_load contents.config (select.toNat / 4 * 4) lane (by omega)

variable (machine : Machine Contents) (pci : LfddPcix)

section Ports

variable (ports : pci.phyBase = 0)

include ports

/-- No port request is refused for its address: the range check is made for a request with an MMIO
base only. -/
theorem bulk_ports_accepted : pci.bulk.refused (bytePlatform highMemory ioremapSucceeds) = false :=
  invalidMmio_ports _ pci _ ports

/-- Through the ports, the buffer begins with the first byte of the addressed dword. -/
theorem bulk_ports (index : Nat) (small : index < 256) :
    (serve (bytePlatform highMemory ioremapSucceeds) pci.bulk machine).1.request.massBuf[index] =
      machine.device.config (pci.addr.toNat / 4 * 4 + index) := by
  obtain ⟨result, _⟩ := serve_ports _ pci.bulk machine ports
    (bulk_ports_accepted highMemory ioremapSucceeds pci ports)
  have buffer := congrArg Prod.snd result
  have bound := merged_bound pci
  have address := addr_ports pci ports
  have place : (pci.addr + BitVec.ofNat 32 (index / 4 * 4)).toNat =
      pci.addr.toNat + index / 4 * 4 := by
    rw [BitVec.toNat_add, BitVec.toNat_ofNat]
    omega
  have offset : (pci.addr.toNat + index / 4 * 4) / 4 * 4 + index % 4 =
      pci.addr.toNat / 4 * 4 + index := by omega
  simp only [Reply.result, Request.answer, LfddPcix.bulk] at buffer
  simp only [LfddPcix.bulk, buffer]
  rw [fillDwords_all _ _ _ small, byte_configRead _ _ _ _ _ (by omega), place, offset]

/-- After it, a byte read answers with the byte of its register. -/
theorem byte_after_ports (succeeds : ∀ call, ioremapSucceeds call = true) (index : Nat)
    (inside : pci.reg.toNat + index < pci.bulk.space) :
    (serve (bytePlatform highMemory ioremapSucceeds) (pci.bulk.byteAt index)
        (serve (bytePlatform highMemory ioremapSucceeds) pci.bulk machine).2).1.value =
      some ((machine.device.config (pci.addr.toNat + index)).setWidth 32) := by
  have paged : 4096 ∣ pci.phyBase.toNat := by
    rw [ports]
    exact Nat.dvd_zero _
  obtain ⟨_, device⟩ := serve_ports _ pci.bulk machine ports
    (bulk_ports_accepted highMemory ioremapSucceeds pci ports)
  have kept : (serve (bytePlatform highMemory ioremapSucceeds) pci.bulk machine).2.device =
      machine.device := device
  have further : (pci.bulk.byteAt index).pci.phyBase = 0 := ports
  have next := byteAt_addr pci.bulk index inside paged
  have lane := addr_lane (pci.bulk.byteAt index).pci paged
  rw [lane_toNat] at lane
  obtain ⟨value, _⟩ := serve_single (bytePlatform highMemory ioremapSucceeds) succeeds
    (pci.bulk.byteAt index) (serve (bytePlatform highMemory ioremapSucceeds) pci.bulk machine).2
    (by simp [Request.byteAt]) (invalidMmio_ports _ _ _ further) (fun mmio => absurd further mmio)
  have answer := readByte_answer (pci.bulk.byteAt index).pci paged
    ((pci.bulk.byteAt index).pci.dwordAt (bytePlatform highMemory ioremapSucceeds)
      machine.device) fun _ => 0
  have place : (pci.bulk.byteAt index).pci.addr.toNat / 2 ^ 2 * 2 ^ 2 / 4 * 4 +
      (pci.bulk.byteAt index).pci.reg.toNat % 4 = pci.addr.toNat + index := by
    rw [next] at lane ⊢
    simp only [LfddPcix.bulk] at lane ⊢
    omega
  rw [value, kept]
  refine answer.trans ?_
  rw [LfddPcix.dwordAt, if_pos further, byte_configRead _ _ _ _ _ (by omega), selected_dword,
    dword_toNat, place]

end Ports

section Mmio

variable (mmio : pci.phyBase ≠ 0) (succeeds : ∀ call, ioremapSucceeds call = true)
  (consistent : machine.Consistent)
  (accepted : pci.bulk.refused (bytePlatform highMemory ioremapSucceeds) = false)

include mmio succeeds consistent accepted

/-- Through a mapping, the buffer is what lies in the block from its start on. -/
theorem bulk_mmio (index : Nat) (small : index < 256) :
    (serve (bytePlatform highMemory ioremapSucceeds) pci.bulk machine).1.request.massBuf[index] =
      machine.device.memory
        (SlotCache.serve 256 machine.window ⟨pci.addr.toNat, pci.addr.toNat⟩ + index) := by
  obtain ⟨result, _⟩ := serve_mmio _ pci.bulk machine consistent mmio accepted (.inr (succeeds _))
  have buffer := congrArg Prod.snd result
  have offset : ∀ start, start + index / 4 * 4 + index % 4 = start + index := by omega
  simp only [Reply.result, Request.answer, LfddPcix.bulk] at buffer
  simp only [LfddPcix.bulk, buffer]
  rw [fillDwords_all _ _ _ small, byte_memoryRead _ _ _ _ _ (by omega), offset]
  rfl

/-- After it, a byte read looks in that block while its address lies there, at the offset that
the address has in an aligned block. -/
theorem byte_after_mmio (paged : 4096 ∣ pci.phyBase.toNat) (index : Nat)
    (inside : pci.reg.toNat + index < pci.bulk.space)
    (readable : (pci.bulk.byteAt index).refused (bytePlatform highMemory ioremapSucceeds) = false) :
    (serve (bytePlatform highMemory ioremapSucceeds) (pci.bulk.byteAt index)
        (serve (bytePlatform highMemory ioremapSucceeds) pci.bulk machine).2).1.value =
      some ((machine.device.memory
        (if SlotCache.Hits 256
            (SlotCache.serve 256 machine.window ⟨pci.addr.toNat, pci.addr.toNat⟩)
            (pci.addr.toNat + index) then
          SlotCache.serve 256 machine.window ⟨pci.addr.toNat, pci.addr.toNat⟩ +
            (pci.addr.toNat + index) % 256
        else pci.addr.toNat + index)).setWidth 32) := by
  have mapped : pci.bulk.Mapped (bytePlatform highMemory ioremapSucceeds) machine :=
    .inr (succeeds _)
  obtain ⟨_, device⟩ := serve_mmio _ pci.bulk machine consistent mmio accepted mapped
  obtain ⟨after, windowed, _⟩ := serve_mapped _ pci.bulk machine consistent mmio accepted mapped
  have kept : (serve (bytePlatform highMemory ioremapSucceeds) pci.bulk machine).2.device =
      machine.device := device
  have window : (serve (bytePlatform highMemory ioremapSucceeds) pci.bulk machine).2.window =
      some (SlotCache.serve 256 machine.window ⟨pci.addr.toNat, pci.addr.toNat⟩) := windowed
  obtain ⟨result, _⟩ := serve_mmio _ (pci.bulk.byteAt index)
    (serve (bytePlatform highMemory ioremapSucceeds) pci.bulk machine).2 after mmio readable
    (.inr (succeeds _))
  rw [window, kept] at result
  generalize SlotCache.serve 256 machine.window ⟨pci.addr.toNat, pci.addr.toNat⟩ = start at result ⊢
  have next := byteAt_addr pci.bulk index inside paged
  have lane := addr_lane (pci.bulk.byteAt index).pci paged
  have offset := dwordOffset_toNat (pci.bulk.byteAt index).pci.addr
  have aligned := addrAlighBuf_toNat (pci.bulk.byteAt index).pci.addr
  rw [lane_toNat] at lane
  rw [next] at lane offset aligned
  have answer := readByte_answer (pci.bulk.byteAt index).pci paged
    ((bytePlatform highMemory ioremapSucceeds).memoryRead machine.device
      (SlotCache.serve 256 (some start) (pci.bulk.byteAt index).demand +
        (dwordOffset (pci.bulk.byteAt index).pci.addr).toNat)) fun _ => 0
  have value := congrArg Prod.fst result
  have own : (pci.bulk.byteAt index).demand.own = (pci.addr.toNat + index) / 2 ^ 8 * 2 ^ 8 := aligned
  have address : (pci.bulk.byteAt index).demand.address = pci.addr.toNat + index := next
  refine value.trans ((answer_value _ _ _ _).trans (answer.trans ?_))
  rw [byte_memoryRead _ _ _ _ _ (by omega)]
  congr 3
  simp only [LfddPcix.bulk] at lane offset own address ⊢
  rw [offset, SlotCache.serve, own, address]
  split
  · omega
  · omega

end Mmio

end Bytes

/-- Two places hold the same byte in every memory only if they are one place. -/
theorem same_place (place other : Nat)
    (same : ∀ memory : ByteMemory.Memory, memory place = memory other) : place = other := by
  by_contra apart
  have differs := same fun tested => if tested = place then 1 else 0
  rw [if_pos rfl, if_neg fun equal => apart equal.symm] at differs
  exact absurd differs (by decide)

section Agreement

variable (highMemory : BitVec 64) (ioremapSucceeds : Nat → Bool)
  (succeeds : ∀ call, ioremapSucceeds call = true) (machine : Machine Contents) (pci : LfddPcix)
  (inside : pci.reg.toNat < pci.bulk.space)

include succeeds inside

/-- Through the ports they agree from the first register of a dword on. -/
theorem ports_agree_iff (ports : pci.phyBase = 0) :
    (∀ contents, BulkAgrees (bytePlatform highMemory ioremapSucceeds) pci
        { machine with device := contents }) ↔ 4 ∣ pci.reg.toNat := by
  have bulk := fun contents =>
    bulk_ports highMemory ioremapSucceeds { machine with device := contents } pci ports
  have single := fun contents =>
    byte_after_ports highMemory ioremapSucceeds { machine with device := contents } pci ports
      succeeds
  have paged : 4096 ∣ pci.phyBase.toNat := by
    rw [ports]
    exact Nat.dvd_zero _
  have lane := addr_lane pci paged
  rw [lane_toNat] at lane
  constructor
  · intro agrees
    have same := same_place (pci.addr.toNat + 0) (pci.addr.toNat / 4 * 4 + 0) fun memory => by
      have first := agrees ⟨memory, memory⟩ 0 (by decide) inside
      rw [bulk _ 0 (by decide), single _ 0 inside] at first
      exact (extended_inj _ _).mp first
    omega
  · intro aligned contents index small within
    have place : pci.addr.toNat / 4 * 4 + index = pci.addr.toNat + index := by omega
    rw [single _ index within, bulk _ index small, place]

/-- Through MMIO they agree from the first register of a block on, unless another block is
mapped over it. -/
theorem mmio_agree_iff (mmio : pci.phyBase ≠ 0) (paged : 4096 ∣ pci.phyBase.toNat)
    (consistent : machine.Consistent)
    (accepted : pci.bulk.refused (bytePlatform highMemory ioremapSucceeds) = false)
    (readable : ∀ index < 256, pci.reg.toNat + index < pci.bulk.space →
      (pci.bulk.byteAt index).refused (bytePlatform highMemory ioremapSucceeds) = false) :
    (∀ contents, BulkAgrees (bytePlatform highMemory ioremapSucceeds) pci
        { machine with device := contents }) ↔
      256 ∣ pci.reg.toNat ∧ ∀ start ∈ machine.window,
        SlotCache.Hits 256 start pci.addr.toNat → start = pci.addr.toNat := by
  have bulk := fun contents =>
    bulk_mmio highMemory ioremapSucceeds { machine with device := contents } pci mmio succeeds
      consistent accepted
  have single := fun contents index within =>
    byte_after_mmio highMemory ioremapSucceeds { machine with device := contents } pci mmio succeeds
      consistent accepted paged index within
  have window : ∀ contents : Contents,
      ({ machine with device := contents } : Machine Contents).window = machine.window :=
    fun _ => rfl
  simp only [window] at bulk single
  have low : pci.addr.toNat % 2 ^ 8 = pci.reg.toNat % 2 ^ 8 := by
    obtain ⟨pages, multiple⟩ := paged
    rw [LfddPcix.addr, BitVec.toNat_setWidth, calPcixAddr_mmio pci mmio, multiple]
    omega
  have space : pci.bulk.space = 2 ^ 12 := if_neg mmio
  have own := SlotCache.serve_own_forall_iff 256 machine.window ⟨pci.addr.toNat, pci.addr.toNat⟩
  have served := SlotCache.serve_own_or_hits 256 machine.window ⟨pci.addr.toNat, pci.addr.toNat⟩
  simp only at own served
  rw [← own]
  generalize SlotCache.serve 256 machine.window ⟨pci.addr.toNat, pci.addr.toNat⟩ = start at *
  constructor
  · intro agrees
    have placed : ∀ index < 256, pci.reg.toNat + index < pci.bulk.space →
        (if SlotCache.Hits 256 start (pci.addr.toNat + index) then
          start + (pci.addr.toNat + index) % 256 else pci.addr.toNat + index) = start + index := by
      intro index small within
      apply same_place
      intro memory
      have shown := agrees ⟨memory, memory⟩ index small within
      rw [bulk _ index small, single _ index within (readable index small within)] at shown
      exact (extended_inj _ _).mp shown
    have first := placed 0 (by decide) inside
    have hit : SlotCache.Hits 256 start (pci.addr.toNat + 0) := by
      unfold SlotCache.Hits at served ⊢
      omega
    rw [if_pos hit] at first
    have aligned : pci.reg.toNat % 2 ^ 8 = 0 := by omega
    refine ⟨Nat.dvd_of_mod_eq_zero aligned, ?_⟩
    -- beyond the end of a block that starts lower, the byte read maps the address itself
    by_contra other
    unfold SlotCache.Hits at hit
    have after := placed (start + 256 - pci.addr.toNat) (by omega) (by omega)
    have missed : ¬ SlotCache.Hits 256 start
        (pci.addr.toNat + (start + 256 - pci.addr.toNat)) := by
      unfold SlotCache.Hits
      omega
    rw [if_neg missed] at after
    omega
  · rintro ⟨aligned, rfl⟩ contents index small within
    have hit : SlotCache.Hits 256 pci.addr.toNat (pci.addr.toNat + index) := by
      rw [SlotCache.Hits]
      omega
    have offset : (pci.addr.toNat + index) % 256 = index := by omega
    rw [single _ index within (readable index small within), bulk _ index small, if_pos hit, offset]

end Agreement

/-- For all contents, the bulk read and the byte reads after it agree exactly when the register
is beyond the function's space; or it is the first of a dword, through the ports; or it is the
first of a block, through MMIO, and no block that starts elsewhere is mapped over it. -/
theorem bulk_agrees_iff (highMemory : BitVec 64) (ioremapSucceeds : Nat → Bool)
    (succeeds : ∀ call, ioremapSucceeds call = true) (history : List Request)
    (device : Contents) (configAddress : BitVec 32) (pci : LfddPcix)
    (paged : 4096 ∣ pci.phyBase.toNat)
    (accepted : pci.bulk.refused (bytePlatform highMemory ioremapSucceeds) = false)
    (readable : ∀ index < 256, pci.reg.toNat + index < pci.bulk.space →
      (pci.bulk.byteAt index).refused (bytePlatform highMemory ioremapSucceeds) = false) :
    let platform := bytePlatform highMemory ioremapSucceeds
    let machine := final (serve platform) history (Machine.loaded device configAddress)
    (∀ contents, BulkAgrees platform pci { machine with device := contents }) ↔
      pci.bulk.space ≤ pci.reg.toNat ∨
      (pci.phyBase = 0 ∧ 4 ∣ pci.reg.toNat) ∨
      (pci.phyBase ≠ 0 ∧ 256 ∣ pci.reg.toNat ∧
        ∀ start ∈ machine.window, SlotCache.Hits 256 start pci.addr.toNat →
          start = pci.addr.toNat) := by
  intro platform machine
  have consistent : machine.Consistent :=
    reachable_consistent platform history device configAddress
  by_cases inside : pci.reg.toNat < pci.bulk.space
  · rw [or_iff_right (by omega)]
    by_cases ports : pci.phyBase = 0
    · rw [ports_agree_iff highMemory ioremapSucceeds succeeds machine pci inside ports]
      simp [ports]
    · rw [mmio_agree_iff highMemory ioremapSucceeds succeeds machine pci inside ports paged
        consistent accepted readable]
      rw [or_iff_right (fun both => ports both.1), and_iff_right ports]
  · refine ⟨fun _ => .inl (by omega), fun _ contents index small within => ?_⟩
    omega

/-- Through the ports, from register 4 on, the bulk read and the single reads agree: the register is
the first of its dword. -/
theorem aligned_bulk_agrees :
    BulkAgrees (bytePlatform 0x80000000 fun _ => true) (.atRegister 4 0 0)
      (Machine.loaded ⟨fun place => BitVec.ofNat 8 place, fun _ => 0⟩ 0) :=
  (bulk_agrees_iff 0x80000000 (fun _ => true) (fun _ => rfl) [] ⟨fun _ => 0, fun _ => 0⟩ 0
    (.atRegister 4 0 0) (by decide) (invalidMmio_ports _ _ _ rfl)
    (fun _ _ _ => invalidMmio_ports _ _ _ rfl)).mpr (.inr (.inl ⟨rfl, by decide⟩))
    ⟨fun place => BitVec.ofNat 8 place, fun _ => 0⟩

/-- From register 0x10 on, with nothing mapped before, the bulk read maps a block that begins
there. The byte read of that register looks 0x10 bytes into the block. -/
theorem bulk_read_shifted :
    let platform := bytePlatform 0x80000000 fun _ => true
    let pci := LfddPcix.atRegister 0x10 0xe0000000 0
    let machine : Machine Contents :=
      Machine.loaded ⟨fun _ => 0, fun place => BitVec.ofNat 8 place⟩ 0
    pci.bulk.refused platform = false ∧ (pci.bulk.byteAt 0).refused platform = false ∧
      (serve platform pci.bulk machine).1.request.massBuf.get 0 = 0x10 ∧
      (serve platform (pci.bulk.byteAt 0) (serve platform pci.bulk machine).2).1.value =
        some 0x20 ∧
      ¬ BulkAgrees platform pci machine := by
  intro platform pci machine
  have accepted : pci.bulk.refused platform = false := by decide +kernel
  have readable : (pci.bulk.byteAt 0).refused platform = false := by decide +kernel
  have buffer : (serve platform pci.bulk machine).1.request.massBuf.get 0 = 0x10 := by
    decide +kernel
  have answer : (serve platform (pci.bulk.byteAt 0) (serve platform pci.bulk machine).2).1.value =
      some 0x20 := by
    decide +kernel
  refine ⟨accepted, readable, buffer, answer, fun agrees => ?_⟩
  have same := agrees 0 (by decide) (by decide +kernel)
  have first : (serve platform pci.bulk machine).1.request.massBuf.get 0 = 0x20 := by
    rw [answer] at same
    exact ((extended_inj 0x20 _).mp same).symm
  exact absurd (buffer.symm.trans first) (by decide)

end Lfdk
