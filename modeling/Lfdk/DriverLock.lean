import Lfdk.AccessFrames
import Lfdk.LockedSections
import Lfdk.MemoryWrites

/-!
# The lock of the driver

All functions of the driver share one spin lock, `lfdd_lock`. The functions on ports take it
around their accesses, so do the functions that write memory, and so do those on
configuration space. Here each of them is written out as the steps it takes: the lock, one
access after another, the release. Alone, these steps are the functions of the other modules.

So processes that make such calls at the same time, in any interleaving of these steps, are
served as if one call were made after the other. In particular no call sees the
configuration address of another one, and no write to memory is lost.

Not all calls are of this kind. The functions that read memory do not take the lock, and
those on configuration space that are handed a base map its block before they take it. Calls
on the ports of configuration space would meet the calls that use these ports, and are left
out as well.
-/

namespace Lfdk.DriverLock

open LockedSections DeviceFile MemoryAccess PortAccess HexEditors ByteMemory

universe u v w
variable {σ : Type u} {δ : Type v} {μ : Type w} {ρ : Type*}

section ConfigurationPorts

variable (platform : Platform σ) (ppci : LfddPcix)

/-- The steps of a single-width read through the ports. -/
def readSteps (answer : BitVec 32 → ρ) : Code (Machine σ) ρ :=
  .lock <| .perform (inl platform .pciAddr) fun origIdx =>
    .effect (outl platform ppci.selected .pciAddr) <|
    .perform (inl platform .pciData) fun value =>
    .effect (outl platform origIdx .pciAddr) <|
    .unlock (.done (answer value))

/-- The steps of a byte or word write. -/
def mergeSteps (lane mask : BitVec 32) (answer : ρ) : Code (Machine σ) ρ :=
  .lock <| .perform (inl platform .pciAddr) fun origIdx =>
    .effect (outl platform ppci.selected .pciAddr) <|
    .perform (inl platform .pciData) fun temp =>
    .effect (outl platform (mergeLane lane mask ppci.addr ppci.buf temp) .pciData) <|
    .effect (outl platform origIdx .pciAddr) <|
    .unlock (.done answer)

/-- The steps of a dword write, which is refused before the lock is taken. -/
def dwordSteps (answer : ρ) : Code (Machine σ) ρ :=
  if ppci.addr &&& 0x3 ≠ 0 then .pause (.done answer)
  else
    .lock <| .perform (inl platform .pciAddr) fun origIdx =>
      .effect (outl platform ppci.addr .pciAddr) <|
      .effect (outl platform ppci.buf .pciData) <|
      .effect (outl platform origIdx .pciAddr) <|
      .unlock (.done answer)

/-- The loop of the bulk read with `count` dwords left, and what comes after it. -/
def readDwordsSteps (origIdx : BitVec 32) (answer : Vector (BitVec 8) 256 → ρ) :
    Nat → Nat → Vector (BitVec 8) 256 → Code (Machine σ) ρ
  | 0, _, massBuf => .effect (outl platform origIdx .pciAddr) (.unlock (.done (answer massBuf)))
  | count + 1, i, massBuf =>
    .effect (outl platform (ppci.addr + BitVec.ofNat 32 i) .pciAddr) <|
    .perform (inl platform .pciData) fun value =>
    readDwordsSteps origIdx answer count (i + 4) (storeDword massBuf i value)

/-- The steps of the bulk read. -/
def bulkSteps (answer : Vector (BitVec 8) 256 → ρ) : Code (Machine σ) ρ :=
  .lock <| .perform (inl platform .pciAddr) fun origIdx =>
    readDwordsSteps platform ppci origIdx answer 64 0 ppci.massBuf

/-- The steps of a call on configuration space through the ports. -/
def pciSteps (operation : Operation) (answer : LfddPcix → ρ) : Code (Machine σ) ρ :=
  match operation with
  | .readByte => readSteps platform ppci fun value =>
    answer { ppci with
      buf := (((value >>> ((ppci.addr &&& 0x03) * 8)) &&& 0xff).setWidth 8).setWidth 32 }
  | .readWord => readSteps platform ppci fun value =>
    answer { ppci with
      buf := (((value >>> ((ppci.addr &&& 0x03) * 8)) &&& 0xffff).setWidth 16).setWidth 32 }
  | .readDword => readSteps platform ppci fun value => answer { ppci with buf := value }
  | .writeByte => mergeSteps platform ppci 0x03 0xff (answer ppci)
  | .writeWord => mergeSteps platform ppci 0x02 0xffff (answer ppci)
  | .writeDword => dwordSteps platform ppci (answer ppci)
  | .read256byte =>
    let ppci := { ppci with massBuf := Vector.replicate 256 0 }
    bulkSteps platform ppci fun massBuf => answer { ppci with massBuf := massBuf }

end ConfigurationPorts

section Ports

/-- A loop of reads under the lock, with `count` bytes left from byte `i` on. -/
def fillSteps {τ : Type*} (read : Nat → τ → BitVec 8 × τ) (answer : Vector (BitVec 8) 256 → ρ) :
    Nat → Nat → Vector (BitVec 8) 256 → Code τ ρ
  | 0, _, massBuf => .unlock (.done (answer massBuf))
  | count + 1, i, massBuf =>
    .perform (read i) fun value =>
    fillSteps read answer count (i + 1) (massBuf.setIfInBounds i value)

variable (ports : PortDevices δ) (pio : LfddSpace)

/-- The steps of a single read of a port. -/
def inputSteps (width : Nat) (answer : BitVec width → ρ) : Code (PortMachine δ) ρ :=
  .lock <| .perform (portInput ports width pio.addr) fun value => .unlock (.done (answer value))

/-- The steps of a write to a port. -/
def outputSteps (width : Nat) (value : BitVec width) (answer : ρ) : Code (PortMachine δ) ρ :=
  .lock <| .effect (portOutput ports width value pio.addr) <| .unlock (.done answer)

/-- The steps of a call on ports. -/
def ioSteps (operation : Operation) (answer : LfddSpace → ρ) : Code (PortMachine δ) ρ :=
  let pio := prepared operation pio
  match operation with
  | .readByte => inputSteps ports pio 8 fun value => answer { pio with buf := value.setWidth 32 }
  | .readWord => inputSteps ports pio 16 fun value => answer { pio with buf := value.setWidth 32 }
  | .readDword => inputSteps ports pio 32 fun value => answer { pio with buf := value }
  | .writeByte => outputSteps ports pio 8 (pio.buf.setWidth 8) (answer pio)
  | .writeWord => outputSteps ports pio 16 (pio.buf.setWidth 16) (answer pio)
  | .writeDword => outputSteps ports pio 32 pio.buf (answer pio)
  | .read256byte =>
    .lock <| fillSteps (fun i => portInput ports 8 (pio.addr + BitVec.ofNat 32 i))
      (fun massBuf => answer { pio with massBuf := massBuf }) 256 0 pio.massBuf

end Ports

section MemoryWrites

variable (platform : MemPlatform) (pmem : LfddSpace)

/-- The steps of a byte or word write, which is refused before the lock is taken. -/
def memMergeSteps (width : Nat) (mask : BitVec 32) (answer : ρ) : Code MemMachine ρ :=
  if outside platform pmem.addr then .pause (.done answer)
  else
    .lock <| .perform (MemMachine.fetch width pmem.addr.toNat) fun temp =>
      let temp := temp.setWidth 32 &&& ~~~mask
      let temp := temp ||| (pmem.buf &&& mask)
      .effect (MemMachine.assign (temp.setWidth width) pmem.addr.toNat) <|
      .unlock (.done answer)

/-- The steps of a dword write. -/
def memDwordSteps (answer : ρ) : Code MemMachine ρ :=
  if outside platform pmem.addr then .pause (.done answer)
  else
    .lock <| .effect (MemMachine.assign pmem.buf pmem.addr.toNat) <| .unlock (.done answer)

end MemoryWrites

section Alone

variable (platform : Platform σ) (ppci : LfddPcix) (answer : LfddPcix → ρ)

/-- The loop of the bulk read, alone: stepped without interruption, it does what the loop of the
driver does in one go. -/
theorem readDwordsSteps_alone (viaPorts : ppci.phyBase = 0) (origIdx : BitVec 32)
    (then_ : Vector (BitVec 8) 256 → ρ) (count i : Nat) (massBuf : Vector (BitVec 8) 256)
    (machine : Machine σ) :
    (readDwordsSteps platform ppci origIdx then_ count i massBuf).alone machine =
      (then_ (readDwords platform ppci count i massBuf machine).1,
        outl platform origIdx .pciAddr (readDwords platform ppci count i massBuf machine).2) := by
  induction count generalizing i massBuf machine with
  | zero => rfl
  | succ count inductionHypothesis =>
    rw [readDwordsSteps, Code.alone_effect, Code.alone_perform, inductionHypothesis, readDwords,
      if_pos viaPorts]

/-- The steps of a call through the ports are, alone, the function of the driver. -/
theorem pciSteps_alone (viaPorts : ppci.phyBase = 0) (operation : Operation)
    (machine : Machine σ) :
    (pciSteps platform ppci operation answer).alone machine =
      (answer (Lfdk.lfddIoctl platform operation ppci machine).2.1,
        (Lfdk.lfddIoctl platform operation ppci machine).2.2) := by
  have checked : ∀ block, invalidMmio platform ppci block = false := fun block =>
    invalidMmio_ports platform ppci block viaPorts
  have unmapped : ∀ block, mapBlock platform ppci block machine = machine := fun block =>
    if_pos viaPorts
  cases operation with
  | readByte | readWord | readDword =>
    simp only [Lfdk.lfddIoctl, lfddPcixReadByte, lfddPcixReadWord, lfddPcixReadDword, readSingle,
      checked, unmapped, readAccess, if_pos viaPorts, Bool.false_eq_true, if_false]
    rfl
  | writeByte | writeWord =>
    simp only [Lfdk.lfddIoctl, lfddPcixWriteByte, lfddPcixWriteWord, writeMerged, checked, unmapped,
      mergeAccess, if_pos viaPorts, Bool.false_eq_true, if_false]
    rfl
  | writeDword =>
    simp only [pciSteps, dwordSteps, Lfdk.lfddIoctl, lfddPcixWriteDword, checked, unmapped,
      dwordAccess, if_pos viaPorts, Bool.false_eq_true, or_false]
    split
    · rfl
    · rfl
  | read256byte =>
    have same : invalidMmio platform { ppci with massBuf := Vector.replicate 256 0 }
        (LfddPcix.addr { ppci with massBuf := Vector.replicate 256 0 }) = false :=
      invalidMmio_ports platform _ _ viaPorts
    have still : ∀ block, mapBlock platform { ppci with massBuf := Vector.replicate 256 0 } block
        machine = machine := fun block => if_pos viaPorts
    have loop := readDwordsSteps_alone platform { ppci with massBuf := Vector.replicate 256 0 }
      viaPorts (inl platform .pciAddr machine).1
      (fun massBuf => answer { ppci with massBuf := massBuf }) 64 0 (Vector.replicate 256 0)
      (inl platform .pciAddr machine).2
    simp only [pciSteps, bulkSteps, Lfdk.lfddIoctl, lfddPcixRead256byte, same, still, bulkAccess,
      if_pos viaPorts, Bool.false_eq_true, if_false, Code.alone, Code.alone_perform, loop]

/-- The loop of reads under the lock, alone, fills the buffer as the loop of the driver does. -/
theorem fillSteps_alone {τ : Type*} (read : Nat → τ → BitVec 8 × τ)
    (then_ : Vector (BitVec 8) 256 → ρ) (count i : Nat) (massBuf : Vector (BitVec 8) 256)
    (state : τ) :
    (fillSteps read then_ count i massBuf).alone state =
      (then_ (fillBytes read count i massBuf state).1,
        (fillBytes read count i massBuf state).2) := by
  induction count generalizing i massBuf state with
  | zero => rfl
  | succ count inductionHypothesis =>
    rw [fillSteps, Code.alone_perform, inductionHypothesis, fillBytes]

/-- The steps of a call on ports are, alone, the function of the driver. -/
theorem ioSteps_alone (ports : PortDevices δ) (pio : LfddSpace) (then_ : LfddSpace → ρ)
    (operation : Operation) (machine : PortMachine δ) :
    (ioSteps ports pio operation then_).alone machine =
      (then_ (portPerform ports operation (prepared operation pio) machine).1,
        (portPerform ports operation (prepared operation pio) machine).2) := by
  cases operation with
  | read256byte =>
    simp only [ioSteps, Code.alone]
    exact fillSteps_alone _ _ 256 0 _ machine
  | readByte | readWord | readDword | writeByte | writeWord | writeDword => rfl

/-- The steps of a write to memory. Reads are no calls of this kind. -/
def memSteps (platform : MemPlatform) (pmem : LfddSpace) (operation : Operation) (then_ : ρ) :
    Code MemMachine ρ :=
  match operation with
  | .writeByte => memMergeSteps platform pmem 8 0xff then_
  | .writeWord => memMergeSteps platform pmem 16 0xffff then_
  | .writeDword => memDwordSteps platform pmem then_
  | .readByte | .readWord | .readDword | .read256byte => .pause (.done then_)

/-- Alone, the steps of a merging write do to memory what the write does at once. -/
theorem memMergeSteps_alone (platform : MemPlatform) (pmem : LfddSpace) (width : Nat)
    (mask : BitVec 32) (value : ρ) (machine : MemMachine) :
    (memMergeSteps platform pmem width mask value).alone machine =
      (value, memMerge width mask platform pmem.buf pmem.addr machine) := by
  rw [memMergeSteps, memMerge]
  split
  · rfl
  · rfl

/-- So do the steps of a write of a dword, which is made in one access. -/
theorem memDwordSteps_alone (platform : MemPlatform) (pmem : LfddSpace) (value : ρ)
    (machine : MemMachine) :
    (memDwordSteps platform pmem value).alone machine =
      (value, lfddMemWriteDword platform pmem.buf pmem.addr machine) := by
  rw [memDwordSteps, lfddMemWriteDword]
  split
  · rfl
  · rfl

/-- They are, alone, the function of the driver: the steps of a memory write leave what `memPerform`
leaves. -/
theorem memSteps_alone (platform : MemPlatform) (pmem : LfddSpace) (then_ : LfddSpace → ρ)
    (operation : Operation) (write : operation.isRead = false) (machine : MemMachine) :
    (memSteps platform pmem operation (then_ pmem)).alone machine =
      (then_ (memPerform platform operation (prepared operation pmem) machine).1,
        (memPerform platform operation (prepared operation pmem) machine).2) := by
  have other : operation ≠ .read256byte := by
    rintro rfl
    exact absurd write (by decide)
  have plain : prepared operation pmem = pmem := if_neg other
  rw [plain]
  cases operation with
  | writeByte => simp only [memSteps, memPerform, lfddMemWriteByte, memMergeSteps_alone]
  | writeWord => simp only [memSteps, memPerform, lfddMemWriteWord, memMergeSteps_alone]
  | writeDword => simp only [memSteps, memPerform, memDwordSteps_alone]
  | readByte | readWord | readDword | read256byte => exact absurd write (by decide)

end Alone

section Calls

/-- What is behind configuration space, as a part of the devices. -/
def pciPart : Part (Devices σ δ) (Machine σ) where
  get := Devices.pci
  put := fun pci devices => { devices with pci := pci }
  get_put := fun _ _ => rfl
  put_put := fun _ _ _ => rfl
  put_get := fun _ => rfl

/-- Physical memory. -/
def memPart : Part (Devices σ δ) MemMachine where
  get := Devices.mem
  put := fun mem devices => { devices with mem := mem }
  get_put := fun _ _ => rfl
  put_put := fun _ _ _ => rfl
  put_get := fun _ => rfl

/-- What is behind the ports. -/
def ioPart : Part (Devices σ δ) (PortMachine δ) where
  get := Devices.io
  put := fun io devices => { devices with io := io }
  get_put := fun _ _ => rfl
  put_put := fun _ _ _ => rfl
  put_get := fun _ => rfl

/-- A call that does all it does under the lock, on devices of its own: one on configuration
space through the ports, one on ports apart from those of configuration space, or a write to
memory. A call on configuration space with a base is none of them, since it maps its block
before it takes the lock, and neither is a read of memory, which does not take it. -/
inductive LockedCall where
  | pci (operation : Operation) (ppci : LfddPcix) (viaPorts : ppci.phyBase = 0)
  | io (operation : Operation) (pio : LfddSpace) (spares : SparesConfig operation pio.addr)
  | mem (operation : Operation) (pmem : LfddSpace) (write : operation.isRead = false)

/-- The structure of a caller after a call. -/
inductive Answer where
  | pci (ppci : LfddPcix)
  | space (space : LfddSpace)
deriving DecidableEq, Repr

variable (system : System σ δ μ)

/-- The steps of a call. -/
def steps : LockedCall → Code (Devices σ δ) Answer
  | .pci operation ppci _ => (pciSteps system.platform ppci operation .pci).within pciPart
  | .io operation pio _ => (ioSteps system.ports pio operation .space).within ioPart
  | .mem operation pmem _ =>
    (memSteps system.memPlatform pmem operation (.space pmem)).within memPart

/-- A call as the driver's functions make it. -/
def serve (call : LockedCall) (devices : Devices σ δ) : Answer × Devices σ δ :=
  match call with
  | .pci operation ppci _ =>
    let done := pciBody system operation ppci devices.pci
    (.pci done.1, { devices with pci := done.2 })
  | .io operation pio _ =>
    let done := ioBody system operation pio devices.io
    (.space done.1, { devices with io := done.2 })
  | .mem operation pmem _ =>
    let done := memBody system operation pmem devices.mem
    (.space done.1, { devices with mem := done.2 })

/-- The longest section is that of the bulk read of ports: 256 reads and the release. -/
def longest : Nat := 257

section Sections

/-- The loop of the bulk read is in the section, two steps for each dword and two at the end. -/
theorem readDwordsSteps_section (platform : Platform σ) (ppci : LfddPcix) (origIdx : BitVec 32)
    (answer : Vector (BitVec 8) 256 → ρ) (count i : Nat) (massBuf : Vector (BitVec 8) 256) :
    (readDwordsSteps platform ppci origIdx answer count i massBuf).Section (2 * count + 2) := by
  induction count generalizing i massBuf with
  | zero => exact .act (by decide : 1 < 2) fun _ => .unlock (by decide)
  | succ count inductionHypothesis =>
    have two : 2 * count + 3 < 2 * (count + 1) + 2 := by omega
    have one : 2 * count + 2 < 2 * count + 3 := by omega
    exact .act two fun _ => .act one fun _ => inductionHypothesis _ _

/-- The other loop too, one step for each byte and one at the end. -/
theorem fillSteps_section {τ : Type*} (read : Nat → τ → BitVec 8 × τ)
    (answer : Vector (BitVec 8) 256 → ρ) (count i : Nat) (massBuf : Vector (BitVec 8) 256) :
    (fillSteps read answer count i massBuf).Section (count + 1) := by
  induction count generalizing i massBuf with
  | zero => exact .unlock (by decide)
  | succ count inductionHypothesis =>
    exact .act (Nat.lt_succ_self _) fun _ => inductionHypothesis _ _

/-- A call for configuration space is answered without the lock, where its check fails, or is one
section under the lock with no more steps than the longest one. -/
theorem pciSteps_single (platform : Platform σ) (ppci : LfddPcix) (operation : Operation)
    (answer : LfddPcix → ρ) : (pciSteps platform ppci operation answer).Single longest := by
  cases operation with
  | readByte | readWord | readDword =>
    exact .locked <| .act (by decide : 4 < 257) fun _ => .act (by decide : 3 < 4) fun _ =>
      .act (by decide : 2 < 3) fun _ => .act (by decide : 1 < 2) fun _ => .unlock (by decide)
  | writeByte | writeWord =>
    exact .locked <| .act (by decide : 5 < 257) fun _ => .act (by decide : 4 < 5) fun _ =>
      .act (by decide : 3 < 4) fun _ => .act (by decide : 2 < 3) fun _ =>
      .act (by decide : 1 < 2) fun _ => .unlock (by decide)
  | writeDword =>
    simp only [pciSteps, dwordSteps]
    split
    · exact .refused _
    · exact .locked <| .act (by decide : 4 < 257) fun _ => .act (by decide : 3 < 4) fun _ =>
        .act (by decide : 2 < 3) fun _ => .act (by decide : 1 < 2) fun _ => .unlock (by decide)
  | read256byte =>
    exact .locked <| .act (by decide : 2 * 64 + 2 < 257) fun _ =>
      readDwordsSteps_section platform _ _ _ 64 0 _

/-- So is a call for ports. The bulk read of them is the longest section. -/
theorem ioSteps_single (ports : PortDevices δ) (pio : LfddSpace) (operation : Operation)
    (answer : LfddSpace → ρ) : (ioSteps ports pio operation answer).Single longest := by
  cases operation with
  | readByte | readWord | readDword | writeByte | writeWord | writeDword =>
    exact .locked <| .act (by decide : 1 < 257) fun _ => .unlock (by decide)
  | read256byte => exact .locked (fillSteps_section _ _ 256 0 _)

/-- So is a write to memory, which loads and stores one dword under the lock. -/
theorem memSteps_single (platform : MemPlatform) (pmem : LfddSpace) (operation : Operation)
    (answer : ρ) : (memSteps platform pmem operation answer).Single longest := by
  have merge : ∀ width mask, (memMergeSteps platform pmem width mask answer).Single longest := by
    intro width mask
    rw [memMergeSteps]
    split
    · exact .refused _
    · exact .locked <| .act (by decide : 2 < 257) fun _ => .act (by decide : 1 < 2) fun _ =>
        .unlock (by decide)
  cases operation with
  | writeByte => exact merge 8 0xff
  | writeWord => exact merge 16 0xffff
  | writeDword =>
    rw [memSteps, memDwordSteps]
    split
    · exact .refused _
    · exact .locked <| .act (by decide : 1 < 257) fun _ => .unlock (by decide)
  | readByte | readWord | readDword | read256byte => exact .refused _

/-- Each call is one section or none, and alone it is what the functions of the driver do. -/
theorem steps_implement : Implements longest (steps system) (serve system) where
  single := by
    intro call
    cases call with
    | pci operation ppci viaPorts => exact (pciSteps_single _ _ _ _).within pciPart
    | io operation pio spares => exact (ioSteps_single _ _ _ _).within ioPart
    | mem operation pmem write => exact (memSteps_single _ _ _ _).within memPart
  alone := by
    intro call devices
    cases call with
    | pci operation ppci viaPorts =>
      rw [steps, Code.alone_within, pciSteps_alone _ _ _ viaPorts]
      rfl
    | io operation pio spares =>
      rw [steps, Code.alone_within, ioSteps_alone]
      rfl
    | mem operation pmem write =>
      rw [steps, Code.alone_within, memSteps_alone _ _ _ _ write]
      rfl

end Sections

end Calls

end Lfdk.DriverLock
