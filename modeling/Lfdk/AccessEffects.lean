import Lfdk.PciRequests

/-!
# What an access phase does

The locked part of every operation is evaluated here for both methods. The port
method saves the address port, selects, accesses the data port and restores; the
MMIO method accesses dwords through the mapping it finds. The two summaries at
the end are all that later arguments need to know.
-/

namespace Lfdk

universe u
variable {σ : Type u} (platform : Platform σ) (ppci : LfddPcix) (machine : Machine σ)

/-- Through the ports a dword is read with its address in CF8, which then holds again what it held
before. This is one of the two cases that all claims about reads go through. -/
theorem readAccess_ports (ports : ppci.phyBase = 0) :
    readAccess platform ppci machine =
      (platform.configRead machine.device ppci.selected,
        machine.logged [.inl .pciAddr, .outl ppci.selected .pciAddr, .inl .pciData,
          .outl machine.configAddress .pciAddr]) := by
  simp [readAccess, ports, inl, outl, Machine.logged]

/-- Through the window a dword is read where the mapped block has it, with one load, and nothing but
the log of accesses changes. -/
theorem readAccess_mmio (mmio : ppci.phyBase ≠ 0) :
    readAccess platform ppci machine =
      (machine.load platform machine.phy2virtMem (dwordOffset ppci.addr).toNat,
        machine.logged [.readl machine.phy2virtMem
          (machine.place machine.phy2virtMem (dwordOffset ppci.addr).toNat)]) := by
  rw [readAccess, if_neg mmio, readl]

/-- Through the ports a byte or word is merged into the dword that was read, and the dword is
written back under the same address. -/
theorem mergeAccess_ports (lane mask : BitVec 32) (ports : ppci.phyBase = 0) :
    mergeAccess lane mask platform ppci machine =
      let merged := mergeLane lane mask ppci.addr ppci.buf
        (platform.configRead machine.device ppci.selected)
      { machine with
        device := platform.configWrite machine.device ppci.selected merged }.logged
        [.inl .pciAddr, .outl ppci.selected .pciAddr, .inl .pciData, .outl merged .pciData,
          .outl machine.configAddress .pciAddr] := by
  simp [mergeAccess, ports, inl, outl, Machine.logged]

/-- Through the window the dword is loaded, merged and stored at one place of the mapped block. The
ports are not touched. -/
theorem mergeAccess_mmio (lane mask : BitVec 32) (mmio : ppci.phyBase ≠ 0) :
    mergeAccess lane mask platform ppci machine =
      let offset := (dwordOffset ppci.addr).toNat
      let merged := mergeLane lane mask ppci.addr ppci.buf
        (machine.load platform machine.phy2virtMem offset)
      { machine with
        device := machine.stored platform merged machine.phy2virtMem offset }.logged
        [.readl machine.phy2virtMem (machine.place machine.phy2virtMem offset),
          .writel merged machine.phy2virtMem (machine.place machine.phy2virtMem offset)] := by
  rw [mergeAccess, if_neg mmio]
  simp [readl, writel, Machine.logged, Machine.stored, Machine.place]

/-- A dword is written through the ports without a read before it. The address that the device sees
is the caller's own one, with its low bits. -/
theorem dwordAccess_ports (ports : ppci.phyBase = 0) :
    dwordAccess platform ppci machine =
      { machine with
        device := platform.configWrite machine.device ppci.addr ppci.buf }.logged
        [.inl .pciAddr, .outl ppci.addr .pciAddr, .outl ppci.buf .pciData,
          .outl machine.configAddress .pciAddr] := by
  simp [dwordAccess, ports, inl, outl, Machine.logged]

/-- Through the window a dword is stored at its place of the mapped block, and the ports are not
touched. -/
theorem dwordAccess_mmio (mmio : ppci.phyBase ≠ 0) :
    dwordAccess platform ppci machine =
      let offset := (dwordOffset ppci.addr).toNat
      { machine with
        device := machine.stored platform ppci.buf machine.phy2virtMem offset }.logged
        [.writel ppci.buf machine.phy2virtMem
          (machine.place machine.phy2virtMem offset)] := by
  rw [dwordAccess, if_neg mmio, writel]

/-- Fill a buffer with `count` dwords from byte `i` on. -/
def fillDwords (dword : Nat → BitVec 32) :
    Nat → Nat → Vector (BitVec 8) 256 → Vector (BitVec 8) 256
  | 0, _, massBuf => massBuf
  | count + 1, i, massBuf => fillDwords dword count (i + 4) (storeDword massBuf i (dword i))

/-- A loop over the mapping reads dword after dword and changes nothing. -/
theorem readDwords_mmio (count i : Nat) (massBuf : Vector (BitVec 8) 256)
    (mmio : ppci.phyBase ≠ 0) :
    readDwords platform ppci count i massBuf machine =
      (fillDwords (machine.load platform machine.phy2virtMem) count i massBuf,
        machine.logged ((List.range' i count 4).map fun offset =>
          .readl machine.phy2virtMem (machine.place machine.phy2virtMem offset))) := by
  induction count generalizing i massBuf machine with
  | zero => simp [readDwords, fillDwords]
  | succ count inductionHypothesis =>
    have rest := inductionHypothesis
      (machine.logged [.readl machine.phy2virtMem (machine.place machine.phy2virtMem i)])
      (i + 4) (storeDword massBuf i (machine.load platform machine.phy2virtMem i))
    rw [readDwords, if_neg mmio]
    simpa [readl, fillDwords, List.range'_succ, Machine.load, Machine.place] using rest

/-- A loop over the ports leaves only the address port changed, and fills the buffer with the dwords
that the device shows at its addresses. -/
theorem readDwords_ports (count i : Nat) (massBuf : Vector (BitVec 8) 256)
    (ports : ppci.phyBase = 0) :
    ∃ last, readDwords platform ppci count i massBuf machine =
      (fillDwords (fun offset =>
          platform.configRead machine.device (ppci.addr + BitVec.ofNat 32 offset)) count i massBuf,
        { machine with configAddress := last }.logged ((List.range' i count 4).flatMap fun offset =>
          [.outl (ppci.addr + BitVec.ofNat 32 offset) .pciAddr, .inl .pciData])) := by
  induction count generalizing i massBuf machine with
  | zero => exact ⟨machine.configAddress, by simp [readDwords, fillDwords, Machine.logged]⟩
  | succ count inductionHypothesis =>
    obtain ⟨last, rest⟩ := inductionHypothesis
      ({ machine with configAddress := ppci.addr + BitVec.ofNat 32 i }.logged
        [.outl (ppci.addr + BitVec.ofNat 32 i) .pciAddr, .inl .pciData])
      (i + 4) (storeDword massBuf i
        (platform.configRead machine.device (ppci.addr + BitVec.ofNat 32 i)))
    refine ⟨last, ?_⟩
    rw [readDwords, if_pos ports]
    simpa [inl, outl, fillDwords, List.range'_succ, Machine.logged] using rest

/-- The 256 bytes of a page are those of 64 loads from the mapped block, in order, whatever the
buffer held before. -/
theorem bulkAccess_mmio (mmio : ppci.phyBase ≠ 0) :
    bulkAccess platform ppci machine =
      ({ ppci with massBuf :=
          fillDwords (machine.load platform machine.phy2virtMem) 64 0 ppci.massBuf },
        machine.logged ((List.range' 0 64 4).map fun offset =>
          .readl machine.phy2virtMem (machine.place machine.phy2virtMem offset))) := by
  rw [bulkAccess, if_neg mmio, readDwords_mmio platform ppci machine _ _ _ mmio]

/-- Through the ports they are those of 64 dwords, each read under an address of its own, and CF8 is
as before afterwards. -/
theorem bulkAccess_ports (ports : ppci.phyBase = 0) :
    bulkAccess platform ppci machine =
      let dword := fun offset =>
        platform.configRead machine.device (ppci.addr + BitVec.ofNat 32 offset)
      ({ ppci with massBuf := fillDwords dword 64 0 ppci.massBuf },
        machine.logged (.inl .pciAddr :: (List.range' 0 64 4).flatMap (fun offset =>
          [.outl (ppci.addr + BitVec.ofNat 32 offset) .pciAddr, .inl .pciData]) ++
          [.outl machine.configAddress .pciAddr])) := by
  obtain ⟨last, loop⟩ := readDwords_ports platform ppci
    (machine.logged [.inl .pciAddr]) 64 0 ppci.massBuf ports
  rw [bulkAccess, if_pos ports]
  dsimp only [inl]
  rw [loop]
  simp [outl, Machine.logged]

namespace Request

/-- The offsets into the mapping that an MMIO access phase touches, in order. -/
def offsets (request : Request) : List Nat :=
  let offset := (dwordOffset request.pci.addr).toNat
  match request.operation with
  | .writeByte | .writeWord => [offset, offset]
  | .read256byte => List.range' 0 64 4
  | _ => [offset]

/-- The values a port access phase selects before it touches the data port. -/
def selectedAddresses (request : Request) : List (BitVec 32) :=
  let pci := request.pci
  match request.operation with
  | .writeByte | .writeWord => [pci.selected, pci.selected]
  | .writeDword => [pci.addr]
  | .read256byte => (List.range' 0 64 4).map fun offset => pci.addr + BitVec.ofNat 32 offset
  | _ => [pci.selected]

end Request

/-- The bulk loop selects its addresses one by one, and reads the data port once under each of them.
-/
theorem selections_bulk (selected : Option (BitVec 32)) (offsets : List Nat)
    (addr last : BitVec 32) :
    selections selected ((offsets.flatMap fun offset =>
        [.outl (addr + BitVec.ofNat 32 offset) .pciAddr, .inl .pciData]) ++
        [.outl last .pciAddr]) =
      offsets.map fun offset => some (addr + BitVec.ofNat 32 offset) := by
  induction offsets generalizing selected with
  | nil => rfl
  | cons offset rest inductionHypothesis =>
    simp only [List.flatMap_cons, List.cons_append, List.nil_append, List.map_cons,
      selections_select, selections_read, inductionHypothesis]

/-- An MMIO access phase changes at most the device, and what it records is
exactly its dword accesses through the mapping it found. A read changes nothing. -/
theorem access_mmio (request : Request) (mmio : request.pci.phyBase ≠ 0) :
    ∃ device recorded,
      (request.access platform machine).2 =
        { machine with device := device }.logged recorded ∧
      (request.operation.isRead → device = machine.device) ∧
      (∀ event ∈ recorded, event.IsMemory) ∧
      places recorded = request.offsets.map (machine.place machine.phy2virtMem) := by
  obtain ⟨operation, pci⟩ := request
  cases operation <;>
    simp only [Request.access, readAccess_mmio platform pci machine mmio,
      mergeAccess_mmio platform pci machine _ _ mmio, dwordAccess_mmio platform pci machine mmio,
      bulkAccess_mmio platform pci machine mmio, Operation.isRead, Request.offsets]
  case read256byte =>
    refine ⟨machine.device, _, rfl, fun _ => rfl, ?_, ?_⟩
    · simp [Event.IsMemory]
    · simp [places, List.filterMap_map]
  all_goals
    refine ⟨_, _, rfl, by simp, ?_, ?_⟩
    · simp [Event.IsMemory]
    · rfl

/-- A port access phase changes at most the device, ends with the address port
it began with, and touches the data port under the listed addresses only. A read
changes nothing. -/
theorem access_ports (request : Request) (ports : request.pci.phyBase = 0) :
    ∃ device recorded,
      (request.access platform machine).2 =
        { machine with device := device }.logged recorded ∧
      (request.operation.isRead → device = machine.device) ∧
      (∀ event ∈ recorded, event.IsPort) ∧
      selections none recorded = request.selectedAddresses.map some := by
  obtain ⟨operation, pci⟩ := request
  cases operation <;>
    simp only [Request.access, readAccess_ports platform pci machine ports,
      mergeAccess_ports platform pci machine _ _ ports,
      dwordAccess_ports platform pci machine ports,
      bulkAccess_ports platform pci machine ports, Operation.isRead, Request.selectedAddresses]
  case read256byte =>
    refine ⟨machine.device, _, rfl, fun _ => rfl, ?_, ?_⟩
    · intro event member
      simp only [List.cons_append, List.mem_cons, List.mem_append, List.mem_flatMap,
        List.not_mem_nil, or_false] at member
      rcases member with rfl | ⟨offset, _, rfl | rfl⟩ | rfl <;> trivial
    · simp only [List.cons_append, selections_save, selections_bulk, List.map_map, Function.comp_def]
  all_goals
    refine ⟨_, _, rfl, by simp, ?_, ?_⟩
    · simp [Event.IsPort]
    · rfl

end Lfdk
