import Mathlib.Tactic

/-!
# The machine behind the driver

The driver reaches hardware in two ways: through the configuration ports, where
a 32-bit address port selects what the data port shows, and through `ioremap`ed
blocks of physical memory. A platform says what a dword read or write does at
either side; no assumption is made about the device behind it.

The kernel's side of `ioremap` is a table from mapping to physical start.
Mappings are numbered by the call that returned them, so a mapping that was
released can never be confused with a later one. Which calls succeed is a
parameter of the platform.

Every access is recorded. An access through no mapping, or through a mapping
that has been released, reaches no physical place; its record says so, and the
value it delivers is left to the platform.
-/

namespace Lfdk

universe u
variable {σ : Type u}

/-- The hardware and the kernel services the driver relies on. The state `σ`
holds everything a device or a memory cell may remember. -/
structure Platform (σ : Type u) where
  /-- the dword at the data port while the address port holds this value -/
  configRead : σ → BitVec 32 → BitVec 32
  configWrite : σ → BitVec 32 → BitVec 32 → σ
  /-- the dword at a physical address -/
  memoryRead : σ → Nat → BitVec 32
  memoryWrite : σ → Nat → BitVec 32 → σ
  /-- what a read through no live mapping delivers -/
  strayRead : σ → BitVec 32
  /-- `virt_to_phys(high_memory)` -/
  highMemory : BitVec 64
  /-- whether the given call of `ioremap` returns a mapping -/
  ioremapSucceeds : Nat → Bool

/-- `LFDD_PCI_ADDR_PORT` (0xcf8) and `LFDD_PCI_DATA_PORT` (0xcfc). -/
inductive Port where
  | pciAddr
  | pciData
deriving DecidableEq, Repr

/-- What the driver did, with the physical place an access reached. -/
inductive Event where
  | inl (port : Port)
  | outl (value : BitVec 32) (port : Port)
  | ioremap (start : Nat) (mapping : Option Nat)
  | iounmap (mapping : Nat)
  | readl (mapping : Option Nat) (place : Option Nat)
  | writel (value : BitVec 32) (mapping : Option Nat) (place : Option Nat)
deriving DecidableEq, Repr

/-- The hardware, the kernel's mapping table, the driver's two globals and the
record of accesses. -/
structure Machine (σ : Type u) where
  device : σ
  configAddress : BitVec 32
  live : Nat → Option Nat
  ioremapCalls : Nat
  phy2virtMem : Option Nat
  phyMapStartAddr : BitVec 64
  events : List Event

namespace Machine

/-- The state right after the module was loaded. -/
def loaded (device : σ) (configAddress : BitVec 32) : Machine σ where
  device := device
  configAddress := configAddress
  live := fun _ => none
  ioremapCalls := 0
  phy2virtMem := none
  phyMapStartAddr := 0
  events := []

/-- Append to the record of accesses. -/
def logged (machine : Machine σ) (recorded : List Event) : Machine σ :=
  { machine with events := machine.events ++ recorded }

/-- Recording accesses leaves the device as it is. The lemmas about `logged` say so for each field,
so that no proof has to unfold it. -/
@[simp] theorem logged_device (machine : Machine σ) (recorded : List Event) :
    (machine.logged recorded).device = machine.device := rfl

/-- The address port is not changed by the record of accesses to it. -/
@[simp] theorem logged_configAddress (machine : Machine σ) (recorded : List Event) :
    (machine.logged recorded).configAddress = machine.configAddress := rfl

/-- Neither is what is mapped: the record of accesses is no part of a mapping. -/
@[simp] theorem logged_live (machine : Machine σ) (recorded : List Event) :
    (machine.logged recorded).live = machine.live := rfl

/-- The number of calls of `ioremap` is not changed, on which its success depends. -/
@[simp] theorem logged_ioremapCalls (machine : Machine σ) (recorded : List Event) :
    (machine.logged recorded).ioremapCalls = machine.ioremapCalls := rfl

/-- The pointer to the mapped block is not changed by recording accesses. -/
@[simp] theorem logged_phy2virtMem (machine : Machine σ) (recorded : List Event) :
    (machine.logged recorded).phy2virtMem = machine.phy2virtMem := rfl

/-- The address of the mapped block is not changed by it either. -/
@[simp] theorem logged_phyMapStartAddr (machine : Machine σ) (recorded : List Event) :
    (machine.logged recorded).phyMapStartAddr = machine.phyMapStartAddr := rfl

/-- The new accesses stand behind those that were recorded before, so the record is in the order of
time. -/
@[simp] theorem logged_events (machine : Machine σ) (recorded : List Event) :
    (machine.logged recorded).events = machine.events ++ recorded := rfl

/-- Accesses that are recorded one part after the other are recorded as one. -/
@[simp] theorem logged_logged (machine : Machine σ) (first second : List Event) :
    (machine.logged first).logged second = machine.logged (first ++ second) := by
  simp [logged]

/-- Recording no accesses changes nothing, the record included. -/
@[simp] theorem logged_nil (machine : Machine σ) : machine.logged [] = machine := by
  simp [logged]

/-- Start a fresh record. -/
def cleared (machine : Machine σ) : Machine σ := { machine with events := [] }

/-- Forgetting the recorded accesses leaves the device as it is. The lemmas about `cleared` are
those about `logged`. -/
@[simp] theorem cleared_device (machine : Machine σ) : machine.cleared.device = machine.device := rfl

/-- It leaves the address port as it is, with what was last written to it. -/
@[simp] theorem cleared_configAddress (machine : Machine σ) :
    machine.cleared.configAddress = machine.configAddress := rfl

/-- It leaves what is mapped, and where. -/
@[simp] theorem cleared_live (machine : Machine σ) : machine.cleared.live = machine.live := rfl

/-- It leaves the number of calls of `ioremap`, so the next one succeeds or fails as it would have.
-/
@[simp] theorem cleared_ioremapCalls (machine : Machine σ) :
    machine.cleared.ioremapCalls = machine.ioremapCalls := rfl

/-- It leaves the pointer to the mapped block, which the driver keeps between requests. -/
@[simp] theorem cleared_phy2virtMem (machine : Machine σ) :
    machine.cleared.phy2virtMem = machine.phy2virtMem := rfl

/-- It leaves the address of the mapped block, with which the driver compares the next one. -/
@[simp] theorem cleared_phyMapStartAddr (machine : Machine σ) :
    machine.cleared.phyMapStartAddr = machine.phyMapStartAddr := rfl

/-- No accesses are left in the record, which is what makes it that of one request. -/
@[simp] theorem cleared_events (machine : Machine σ) : machine.cleared.events = [] := rfl

/-- The physical address at an offset into a mapping, if the mapping is live. -/
def place (machine : Machine σ) (mapping : Option Nat) (offset : Nat) : Option Nat :=
  (mapping.bind machine.live).map (· + offset)

/-- Where an offset of a mapping is in physical memory does not depend on the record. -/
@[simp] theorem logged_place (machine : Machine σ) (recorded : List Event)
    (mapping : Option Nat) (offset : Nat) :
    (machine.logged recorded).place mapping offset = machine.place mapping offset := rfl

end Machine

variable (platform : Platform σ)

/-- `inl` at a configuration port. -/
def inl (port : Port) (machine : Machine σ) : BitVec 32 × Machine σ :=
  match port with
  | .pciAddr => (machine.configAddress, machine.logged [.inl port])
  | .pciData => (platform.configRead machine.device machine.configAddress,
      machine.logged [.inl port])

/-- `outl` at a configuration port. -/
def outl (value : BitVec 32) (port : Port) (machine : Machine σ) : Machine σ :=
  match port with
  | .pciAddr => { machine with configAddress := value }.logged [.outl value port]
  | .pciData => { machine with
      device := platform.configWrite machine.device machine.configAddress value }.logged
        [.outl value port]

/-- `ioremap` of one block. The new mapping is named by the number of the call. -/
def ioremap (start : Nat) (machine : Machine σ) : Option Nat × Machine σ :=
  let call := machine.ioremapCalls
  if platform.ioremapSucceeds call then
    (some call, { machine with
      ioremapCalls := call + 1
      live := Function.update machine.live call (some start) }.logged [.ioremap start (some call)])
  else
    (none, { machine with ioremapCalls := call + 1 }.logged [.ioremap start none])

/-- `iounmap` of a mapping. -/
def iounmap (mapping : Nat) (machine : Machine σ) : Machine σ :=
  { machine with live := Function.update machine.live mapping none }.logged [.iounmap mapping]

/-- What a read at an offset into a mapping delivers. -/
def Machine.load (mapping : Option Nat) (offset : Nat) (machine : Machine σ) : BitVec 32 :=
  match machine.place mapping offset with
  | some physical => platform.memoryRead machine.device physical
  | none => platform.strayRead machine.device

/-- The device after a write at an offset into a mapping. -/
def Machine.stored (value : BitVec 32) (mapping : Option Nat) (offset : Nat)
    (machine : Machine σ) : σ :=
  match machine.place mapping offset with
  | some physical => platform.memoryWrite machine.device physical value
  | none => machine.device

/-- `readl` at an offset into a mapping. -/
def readl (mapping : Option Nat) (offset : Nat) (machine : Machine σ) : BitVec 32 × Machine σ :=
  (machine.load platform mapping offset,
    machine.logged [.readl mapping (machine.place mapping offset)])

/-- `writel` at an offset into a mapping. -/
def writel (value : BitVec 32) (mapping : Option Nat) (offset : Nat) (machine : Machine σ) :
    Machine σ :=
  { machine with device := machine.stored platform value mapping offset }.logged
    [.writel value mapping (machine.place mapping offset)]

/-- A platform that answers every read alike and remembers nothing. -/
def Platform.constant (dword : BitVec 32) (highMemory : BitVec 64)
    (ioremapSucceeds : Nat → Bool) : Platform Unit where
  configRead := fun _ _ => dword
  configWrite := fun device _ _ => device
  memoryRead := fun _ _ => dword
  memoryWrite := fun device _ _ => device
  strayRead := fun _ => dword
  highMemory := highMemory
  ioremapSucceeds := ioremapSucceeds

end Lfdk
