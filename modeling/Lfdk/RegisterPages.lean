import Lfdk.BulkReads
import Lfdk.DriverCalls
import Lfdk.EcamEquivalence
import Lfdk.MemoryReads

/-!
# A page of registers through the driver

A bulk read at the start of a page takes 256 bytes of a function's registers. Through the ports
there is one page, through MMIO there are sixteen. What the buffer then holds are the
registers as they are, as long as the mapped block is a whole page too: a block that begins
elsewhere could be hit by the address and show other registers.

Single accesses map whole pages, and so do bulk reads of pages. So if all requests are of
these two kinds, whole pages are mapped at any time.
-/

namespace Lfdk

open RegisterBits ByteMemory MemoryAccess

universe u
variable {σ : Type u} (platform : Platform σ)

section Records

/-- The mapping phase does not look at the record of accesses, so it does the same with an empty
one. -/
theorem mapBlock_cleared (pci : LfddPcix) (block : BitVec 32) (machine : Machine σ) :
    (mapBlock platform pci block machine.cleared).cleared =
      (mapBlock platform pci block machine).cleared := by
  have mapped : ∀ machine other : Machine σ, machine.cleared = other.cleared →
      (remap platform block machine).cleared = (remap platform block other).cleared := by
    intro machine other same
    simp only [Machine.cleared, Machine.mk.injEq] at same
    obtain ⟨device, configAddress, live, calls, _, _, _⟩ := same
    simp only [remap, ioremap, calls]
    split
    · simp [Machine.cleared, Machine.logged, device, configAddress, live]
    · simp [Machine.cleared, Machine.logged, device, configAddress, live]
  have pointer : machine.cleared.phy2virtMem = machine.phy2virtMem := rfl
  have start : machine.cleared.phyMapStartAddr = machine.phyMapStartAddr := rfl
  by_cases ports : pci.phyBase = 0
  · rw [mapBlock, mapBlock, if_pos ports, if_pos ports]
    rfl
  · rw [mapBlock, mapBlock, if_neg ports, if_neg ports, pointer, start]
    cases machine.phy2virtMem with
    | none => exact mapped _ _ rfl
    | some mapping =>
      by_cases missed : outRange (pci.addr.setWidth 64) machine.phyMapStartAddr
          (lfddMassbufSize.setWidth 64) = true
      · simp only [if_pos missed]
        exact mapped _ _ rfl
      · simp only [if_neg missed]
        rfl

/-- And neither does the access phase, whose answer and state are those it has with an empty record.
-/
theorem access_cleared (request : Request) (machine : Machine σ) :
    (request.access platform machine.cleared).1 = (request.access platform machine).1 ∧
      (request.access platform machine.cleared).2.cleared =
        (request.access platform machine).2.cleared := by
  obtain ⟨operation, pci⟩ := request
  by_cases ports : pci.phyBase = 0
  · cases operation with
    | readByte | readWord | readDword =>
      simp only [Request.access, readAccess_ports platform pci _ ports]
      exact ⟨rfl, rfl⟩
    | writeByte | writeWord =>
      simp only [Request.access, mergeAccess_ports platform pci _ _ _ ports]
      exact ⟨trivial, rfl⟩
    | writeDword =>
      simp only [Request.access, dwordAccess_ports platform pci _ ports]
      exact ⟨trivial, rfl⟩
    | read256byte =>
      simp only [Request.access, bulkAccess_ports platform pci _ ports]
      exact ⟨rfl, rfl⟩
  · cases operation with
    | readByte | readWord | readDword =>
      simp only [Request.access, readAccess_mmio platform pci _ ports]
      exact ⟨rfl, rfl⟩
    | writeByte | writeWord =>
      simp only [Request.access, mergeAccess_mmio platform pci _ _ _ ports]
      exact ⟨trivial, rfl⟩
    | writeDword =>
      simp only [Request.access, dwordAccess_mmio platform pci _ ports]
      exact ⟨trivial, rfl⟩
    | read256byte =>
      simp only [Request.access, bulkAccess_mmio platform pci _ ports]
      exact ⟨rfl, rfl⟩

/-- So an operation does the same with any record, and only adds its accesses to it. -/
theorem perform_serve (request : Request) (machine : Machine σ) :
    (perform platform request machine).1 = (serve platform request machine).1 ∧
      (perform platform request machine).2.cleared =
        (serve platform request machine).2.cleared := by
  rw [serve, perform_phases, perform_phases]
  split
  · exact ⟨rfl, rfl⟩
  · obtain ⟨reply, left⟩ := access_cleared platform request
      (mapBlock platform request.pci request.block machine)
    obtain ⟨other, right⟩ := access_cleared platform request
      (mapBlock platform request.pci request.block machine.cleared)
    rw [mapBlock_cleared] at other right
    exact ⟨reply.symm.trans other, left.symm.trans right⟩

/-- The request that a command of the driver performs. The buffer of a bulk read is cleared
first. -/
def performed (operation : Operation) (pci : LfddPcix) : Request :=
  match operation with
  | .read256byte => ⟨.read256byte, { pci with massBuf := Vector.replicate 256 0 }⟩
  | operation => ⟨operation, pci⟩

/-- The request that is performed has the place and the base of the caller's one. -/
theorem performed_pci (operation : Operation) (pci : LfddPcix) :
    (performed operation pci).operation = operation ∧
      (performed operation pci).pci.addr = pci.addr ∧
        (performed operation pci).pci.phyBase = pci.phyBase := by
  cases operation <;> exact ⟨rfl, rfl, rfl⟩

/-- A command of the device file does to the machine what the function behind it does. -/
theorem lfddIoctl_performs (operation : Operation) (pci : LfddPcix) (machine : Machine σ) :
    (lfddIoctl platform operation pci machine).2.2 =
      (perform platform (performed operation pci) machine).2 := by
  cases operation <;> rfl

end Records

section Blocks

/-- A request asks for a block that its address lies in, as the cache requires of its demands. -/
theorem demand_covered (request : Request) :
    SlotCache.Hits 256 request.demand.own request.demand.address := by
  have aligned := addrAlighBuf_toNat request.pci.addr
  obtain ⟨operation, pci⟩ := request
  cases operation with
  | read256byte =>
    change pci.addr.toNat ≤ pci.addr.toNat ∧ pci.addr.toNat < pci.addr.toNat + 256
    omega
  | readByte | readWord | readDword | writeByte | writeWord | writeDword =>
    change (addrAlighBuf pci.addr).toNat ≤ pci.addr.toNat ∧
      pci.addr.toNat < (addrAlighBuf pci.addr).toNat + 256
    simp only at aligned
    omega

/-- A command that maps a whole page, if it maps a block at all. -/
def MapsPage (operation : Operation) (pci : LfddPcix) : Prop :=
  operation = .read256byte → pci.phyBase ≠ 0 → 256 ∣ pci.addr.toNat

/-- Its block is one of whole pages, where the request maps a page. -/
theorem performed_own (operation : Operation) (pci : LfddPcix) (page : MapsPage operation pci)
    (mmio : pci.phyBase ≠ 0) : 256 ∣ (performed operation pci).demand.own := by
  have aligned := addrAlighBuf_toNat pci.addr
  cases operation with
  | read256byte => exact page rfl mmio
  | readByte | readWord | readDword | writeByte | writeWord | writeDword =>
    change 256 ∣ (addrAlighBuf pci.addr).toNat
    omega

variable (succeeds : ∀ call, platform.ioremapSucceeds call = true)

include succeeds

/-- A request for whole pages leaves whole pages mapped, so the next one finds its page or maps it.
-/
theorem serve_paged (request : Request) (machine : Machine σ) (paged : machine.Paged)
    (whole : request.IsMmio → 256 ∣ request.demand.own) :
    (serve platform request machine).2.Paged := by
  obtain ⟨consistent, aligned⟩ := paged
  refine ⟨serve_keeps_consistent platform request machine consistent, ?_⟩
  by_cases ports : request.pci.phyBase = 0
  · obtain ⟨_, keeps, _⟩ := serve_framed platform request machine
    obtain ⟨pointer, start⟩ := keeps ports
    simp only at pointer start
    intro block mapped
    rw [Machine.window, pointer, start] at mapped
    exact aligned block mapped
  · cases refused : request.refused platform with
    | true =>
      rw [serve_refused platform request machine refused]
      exact aligned
    | false =>
      obtain ⟨_, windowed, _⟩ :=
        serve_mapped platform request machine consistent ports refused (.inr (succeeds _))
      have own := SlotCache.serve_aligned 256 machine.window request.demand aligned (whole ports)
        (demand_covered request)
      intro block mapped
      rw [windowed, own] at mapped
      obtain rfl := Option.some.inj mapped
      exact whole ports

/-- So does a command, if the block it maps is a page. -/
theorem lfddIoctl_paged (operation : Operation) (pci : LfddPcix) (machine : Machine σ)
    (paged : machine.Paged) (page : MapsPage operation pci) :
    (lfddIoctl platform operation pci machine).2.2.Paged := by
  obtain ⟨_, base, mmio⟩ := performed_pci operation pci
  have served := serve_paged platform succeeds (performed operation pci) machine paged fun based =>
    performed_own operation pci page (by rw [← mmio]; exact based)
  have same := (perform_serve platform (performed operation pci) machine).2
  have blocks : (perform platform (performed operation pci) machine).2.cleared.Paged := by
    rw [same]
    exact ⟨served.consistent, served.aligned⟩
  rw [lfddIoctl_performs]
  exact ⟨blocks.consistent, blocks.aligned⟩

end Blocks

section Pages

/-- A request for a page that its function has: one page through the ports, and sixteen
through the window. -/
structure NamesPage (ecam : BitVec 64) (pci : LfddPcix) : Prop where
  ports : pci.phyBase = 0 → pci.reg = 0
  mmio : pci.phyBase ≠ 0 → pci.phyBase = ecam ∧ 256 ∣ pci.reg.toNat ∧ pci.reg.toNat + 256 ≤ 0x1000

variable (kinds : RegisterKinds) (ecam highMemory : BitVec 64) (ioremapSucceeds : Nat → Bool)
  (window : EcamWindow ecam) (pci : LfddPcix) (names : NamesPage ecam pci)

include window names

/-- A request that names a page maps a page, whatever its operation is. -/
theorem NamesPage.mapsPage (operation : Operation) : MapsPage operation pci := by
  intro _ based
  obtain ⟨same, page, room⟩ := names.mmio based
  obtain ⟨pages, aligned⟩ := window.aligned
  rw [addr_mmio pci based (by rw [same]; exact window.fits), same]
  omega

variable (machine : Machine ConfigSpace) (paged : machine.Paged)
  (succeeds : ∀ call, ioremapSucceeds call = true) (aboveRam : highMemory.toNat ≤ ecam.toNat)
  (below : ecam.toNat + 2 ^ 28 < 2 ^ 32)

include paged succeeds aboveRam below

/-- The bulk read of a page fills its buffer with the dwords of the function, whatever the
method. -/
theorem page_filled :
    ∃ dword, (serve (registerPlatform kinds ecam.toNat highMemory ioremapSucceeds) pci.bulk
        machine).1.request.massBuf = fillDwords dword 64 0 pci.massBuf ∧
      ∀ offset < 256, dword offset =
        machine.device pci.function ((pci.reg.toNat + offset) / 4) := by
  have bound := function_bound pci
  by_cases ports : pci.phyBase = 0
  · have first : pci.reg.toNat = 0 := by
      rw [names.ports ports]
      rfl
    obtain ⟨result, _⟩ := serve_ports (registerPlatform kinds ecam.toNat highMemory ioremapSucceeds)
      pci.bulk machine ports (invalidMmio_ports _ _ _ ports)
    have buffer := congrArg Prod.snd result
    simp only [Reply.result, Request.answer, LfddPcix.bulk] at buffer
    refine ⟨_, buffer, fun offset inside => ?_⟩
    have address : (pci.addr + BitVec.ofNat 32 offset).toNat =
        2 ^ 31 + pci.function * 2 ^ 8 + offset := by
      have base := addr_ports pci ports
      rw [merged_low pci (by omega), first] at base
      rw [BitVec.toNat_add, BitVec.toNat_ofNat, base]
      omega
    have selected : (pci.addr + BitVec.ofNat 32 offset).toNat / 2 ^ 8 % 2 ^ 16 = pci.function := by
      rw [address]
      omega
    have dword : (pci.addr + BitVec.ofNat 32 offset).toNat % 2 ^ 8 / 4 = offset / 4 := by
      rw [address]
      omega
    simp only [registerPlatform, selected, first, Nat.zero_add]
    exact congrArg (machine.device pci.function) dword
  · obtain ⟨same, page, room⟩ := names.mmio ports
    have address : pci.addr.toNat = ecam.toNat + pci.function * 2 ^ 12 + pci.reg.toNat := by
      rw [addr_mmio pci ports (by rw [same]; exact window.fits), same]
      omega
    have accepted : pci.bulk.refused
        (registerPlatform kinds ecam.toNat highMemory ioremapSucceeds) = false := by
      have exceeded : ¬ (pci.addr + lfddMassbufSize).setWidth 64 ≤ highMemory := by
        have size : lfddMassbufSize.toNat = 256 := by decide
        rw [BitVec.le_def, BitVec.toNat_setWidth, BitVec.toNat_add, size, address]
        omega
      change (decide (pci.phyBase ≠ 0) &&
        decide ((pci.addr + lfddMassbufSize).setWidth 64 ≤ highMemory)) = false
      rw [decide_eq_false exceeded, Bool.and_false]
    obtain ⟨result, _⟩ := serve_mmio (registerPlatform kinds ecam.toNat highMemory ioremapSucceeds)
      pci.bulk machine paged.consistent ports accepted (.inr (succeeds _))
    have own : SlotCache.serve 256 machine.window pci.bulk.demand = pci.addr.toNat :=
      SlotCache.serve_aligned 256 machine.window pci.bulk.demand paged.aligned
        (names.mapsPage ecam window pci .read256byte rfl ports) (demand_covered pci.bulk)
    have buffer := congrArg Prod.snd result
    simp only [Reply.result, Request.answer, LfddPcix.bulk] at buffer own
    rw [own] at buffer
    refine ⟨_, buffer, fun offset inside => ?_⟩
    have place : pci.addr.toNat + offset =
        ecam.toNat + pci.function * 2 ^ 12 + (pci.reg.toNat + offset) := by omega
    rw [place]
    exact registers_memoryRead kinds ecam.toNat highMemory ioremapSucceeds machine.device
      pci.function (pci.reg.toNat + offset) bound (by omega)

/-- So what the command delivers are the registers of the function as they are. -/
theorem page_read (index : Nat) (small : index < 256) :
    contents (lfddIoctl (registerPlatform kinds ecam.toNat highMemory ioremapSucceeds)
        .read256byte pci machine).2.1.massBuf index =
      machine.device.byte pci.function (pci.reg.toNat + index) := by
  have aligned : 4 ∣ pci.reg.toNat := by
    by_cases ports : pci.phyBase = 0
    · rw [names.ports ports]
      exact Nat.dvd_zero 4
    · obtain ⟨_, page, _⟩ := names.mmio ports
      omega
  obtain ⟨dword, buffer, dwords⟩ := page_filled kinds ecam highMemory ioremapSucceeds window
    { pci with massBuf := Vector.replicate 256 0 } ⟨names.ports, names.mmio⟩ machine paged succeeds
    aboveRam below
  have reply := (perform_serve (registerPlatform kinds ecam.toNat highMemory ioremapSucceeds)
    (LfddPcix.bulk { pci with massBuf := Vector.replicate 256 0 }) machine).1
  have place : (pci.reg.toNat + index) / 4 = (pci.reg.toNat + index / 4 * 4) / 4 := by omega
  have lane : (pci.reg.toNat + index) % 4 = index % 4 := by omega
  rw [contents_get _ _ small, ConfigSpace.byte, place, lane]
  change (perform _ (LfddPcix.bulk { pci with massBuf := Vector.replicate 256 0 })
    machine).1.request.massBuf[index] = _
  simp only [reply, buffer]
  rw [fillDwords_all _ _ _ small, dwords _ (by omega)]
  rfl

end Pages

end Lfdk
