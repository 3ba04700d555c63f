import Lfdk.MemoryAccess
import Lfdk.PortAccess

/-!
# The device file

This is the `ioctl` of `lfdd.c`. A command number packs a direction, the size of a structure,
a letter and a number; `lfdd.h` makes one for each operation on each of three spaces. The
driver compares a command with those it knows, one after another, and calls the function of
the first that matches. Of the operations on ports it knows three.

The structure comes from the caller's memory and goes back to it, and either copy may stop
short: the kernel says how many bytes it did not copy. A caller's memory is a parameter,
with the structures as they lie in it.
-/

namespace Lfdk.DeviceFile

open MemoryAccess PortAccess HexEditors

universe u v w
variable {σ : Type u} {δ : Type v} {μ : Type w}

section Commands

/-- What the operations of a command work on. -/
inductive Space where
  | pci
  | mem
  | io
deriving DecidableEq, Repr

/-- The size of `struct lfdd_pcix_t`, of `struct lfdd_mem_t` and of `struct lfdd_io_t`. -/
def Space.size : Space → Nat
  | .pci => 280
  | .mem | .io => 264

/-- The numbers of the operations, from `PCI_READ_BYTE` to `IO_READ_256BYTE`. -/
def number : Space → Operation → Nat
  | .pci, .readByte => 0
  | .pci, .readWord => 1
  | .pci, .readDword => 2
  | .pci, .writeByte => 3
  | .pci, .writeWord => 4
  | .pci, .writeDword => 5
  | .pci, .read256byte => 6
  | .mem, .readByte => 7
  | .mem, .readWord => 8
  | .mem, .readDword => 9
  | .mem, .writeByte => 10
  | .mem, .writeWord => 11
  | .mem, .writeDword => 12
  | .mem, .read256byte => 13
  | .io, .readByte => 14
  | .io, .readWord => 15
  | .io, .readDword => 16
  | .io, .writeByte => 17
  | .io, .writeWord => 18
  | .io, .writeDword => 19
  | .io, .read256byte => 20

/-- `IOC_MAGIC`, the letter L. -/
def iocMagic : Nat := 0x4c

/-- `_IOC` -/
def ioc (direction magic number size : Nat) : BitVec 32 :=
  BitVec.ofNat 32 direction <<< 30 ||| BitVec.ofNat 32 magic <<< 8 ||| BitVec.ofNat 32 number |||
    BitVec.ofNat 32 size <<< 16

/-- `_IOR` -/
def ior (magic number size : Nat) : BitVec 32 := ioc 2 magic number size

/-- `_IOW` -/
def iow (magic number size : Nat) : BitVec 32 := ioc 1 magic number size

/-- The commands, from `LFDD_PCI_READ_BYTE` to `LFDD_IO_READ_256BYTE`. -/
def command (space : Space) (operation : Operation) : BitVec 32 :=
  if operation.isRead then ior iocMagic (number space operation) space.size
  else iow iocMagic (number space operation) space.size

/-- The cases of the `switch`, in order. -/
def switchCases : List (Space × Operation) :=
  [(.pci, .read256byte), (.pci, .readByte), (.pci, .readWord), (.pci, .readDword),
    (.pci, .writeByte), (.pci, .writeWord), (.pci, .writeDword),
    (.mem, .read256byte), (.mem, .readByte), (.mem, .readWord), (.mem, .readDword),
    (.mem, .writeByte), (.mem, .writeWord), (.mem, .writeDword),
    (.io, .read256byte), (.io, .writeByte), (.io, .readByte)]

/-- The case that a command is dispatched to. -/
def dispatch (cmd : BitVec 32) : Option (Space × Operation) :=
  switchCases.find? fun entry => decide (cmd = command entry.1 entry.2)

end Commands

/-- The structures of one size in a caller's memory: what `copy_from_user` gets there and
`copy_to_user` leaves there, and how many bytes each of them does not copy. -/
structure UserCopy (μ : Type w) (ρ : Type) (size : Nat) where
  fromLeft : μ → Nat
  fromUser : μ → ρ
  toLeft : μ → Nat
  toUser : ρ → μ → μ
  fromLeft_le : ∀ user, fromLeft user ≤ size
  toLeft_le : ∀ user, toLeft user ≤ size

/-- Copies at a valid address. -/
def UserCopy.valid {ρ : Type} (size : Nat) (get : μ → ρ) (put : ρ → μ → μ) : UserCopy μ ρ size where
  fromLeft := fun _ => 0
  fromUser := get
  toLeft := fun _ => 0
  toUser := put
  fromLeft_le := fun _ => Nat.zero_le size
  toLeft_le := fun _ => Nat.zero_le size

/-- What the driver runs on. -/
structure System (σ : Type u) (δ : Type v) (μ : Type w) where
  platform : Platform σ
  memPlatform : MemPlatform
  ports : PortDevices δ
  pcix : UserCopy μ LfddPcix Space.pci.size
  mem : UserCopy μ LfddSpace Space.mem.size
  io : UserCopy μ LfddSpace Space.io.size

/-- A caller's memory that holds one structure of each kind. -/
structure UserData where
  pcix : LfddPcix
  mem : LfddSpace
  io : LfddSpace
deriving DecidableEq, Repr

/-- A caller that hands over valid addresses. -/
def System.attached (platform : Platform σ) (memPlatform : MemPlatform) (ports : PortDevices δ) :
    System σ δ UserData where
  platform := platform
  memPlatform := memPlatform
  ports := ports
  pcix := .valid _ UserData.pcix fun after user => { user with pcix := after }
  mem := .valid _ UserData.mem fun after user => { user with mem := after }
  io := .valid _ UserData.io fun after user => { user with io := after }

/-- What is behind the driver. -/
structure Devices (σ : Type u) (δ : Type v) where
  pci : Machine σ
  mem : MemMachine
  io : PortMachine δ

/-- The devices and the memory of the caller. -/
structure Kernel (σ : Type u) (δ : Type v) (μ : Type w) where
  user : μ
  devices : Devices σ δ

/-- `EFAULT` -/
def efault : Int := 14

/-- `EINVAL` -/
def einval : Int := 22

/-- One case of the `switch`: the structure is copied, the function runs, and what it leaves
in the structure is copied back unless the operation is a write. -/
def serveCase {ρ : Type} {size : Nat} {α : Type u} (copy : UserCopy μ ρ size)
    (operation : Operation) (body : ρ → α → ρ × α) (user : μ) (device : α) : Int × μ × α :=
  if copy.fromLeft user ≠ 0 then (-efault, user, device)
  else
    let done := body (copy.fromUser user) device
    if operation.isRead then ((copy.toLeft user : Int), copy.toUser done.1 user, done.2)
    else (0, user, done.2)

/-- The `memset` before a read of 256 bytes. -/
def prepared (operation : Operation) (request : LfddSpace) : LfddSpace :=
  if operation = .read256byte then { request with massBuf := Vector.replicate 256 0 } else request

variable (system : System σ δ μ)

/-- The function of a case on configuration space. -/
def pciBody (operation : Operation) (ppci : LfddPcix) (machine : Machine σ) :
    LfddPcix × Machine σ :=
  (Lfdk.lfddIoctl system.platform operation ppci machine).2

/-- The function of a case on memory. -/
def memBody (operation : Operation) (pmem : LfddSpace) (machine : MemMachine) :
    LfddSpace × MemMachine :=
  memPerform system.memPlatform operation (prepared operation pmem) machine

/-- The function of a case on ports. -/
def ioBody (operation : Operation) (pio : LfddSpace) (machine : PortMachine δ) :
    LfddSpace × PortMachine δ :=
  portPerform system.ports operation (prepared operation pio) machine

/-- `lfdd_ioctl` -/
def lfddIoctl (cmd : BitVec 32) (kernel : Kernel σ δ μ) : Int × Kernel σ δ μ :=
  let devices := kernel.devices
  match dispatch cmd with
  | none => (-einval, kernel)
  | some (.pci, operation) =>
    let (ret, user, pci) :=
      serveCase system.pcix operation (pciBody system operation) kernel.user devices.pci
    (ret, ⟨user, { devices with pci := pci }⟩)
  | some (.mem, operation) =>
    let (ret, user, mem) :=
      serveCase system.mem operation (memBody system operation) kernel.user devices.mem
    (ret, ⟨user, { devices with mem := mem }⟩)
  | some (.io, operation) =>
    let (ret, user, io) :=
      serveCase system.io operation (ioBody system operation) kernel.user devices.io
    (ret, ⟨user, { devices with io := io }⟩)

end Lfdk.DeviceFile
