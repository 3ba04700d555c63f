import Lfdk.ByteMemory
import Lfdk.HexEditors

/-!
# The seven physical memory operations

This is the `libmem.c` of the driver. Each operation gets a 32-bit physical address and
makes the same range check: at least 256 bytes must lie between the address and the end
of the 32-bit space, and between the address and the end of RAM. An address that passes
is used through the kernel's direct map of RAM. For the others the single-width reads
have a constant, the writes do nothing, and the 256-byte read tries `ioremap`.

Physical memory is a byte at every address, RAM below `virt_to_phys(high_memory)` and
memory of devices above it. Which blocks `ioremap` maps is a parameter. Every access is
recorded with the bytes it touches.
-/

namespace Lfdk.MemoryAccess

open ByteMemory HexEditors

variable {w : Nat}

/-- The kernel services that `libmem.c` relies on. -/
structure MemPlatform where
  /-- `virt_to_phys(high_memory)` -/
  highMemory : BitVec 64
  /-- whether `ioremap` of the 256 bytes from this address on gives a mapping -/
  ioremapSucceeds : Nat → Bool

/-- What an operation did. -/
inductive MemEvent where
  /-- a pointer of the direct map was read -/
  | fetched (start count : Nat)
  /-- a pointer of the direct map was written -/
  | assigned (start count : Nat)
  | ioremap (start : Nat) (succeeded : Bool)
  | readb (place : Nat)
  | iounmap (start : Nat)
deriving DecidableEq, Repr

/-- Physical memory and the record of accesses. -/
structure MemMachine where
  memory : Memory
  events : List MemEvent

namespace MemMachine

/-- Append to the record of accesses. -/
def logged (machine : MemMachine) (recorded : List MemEvent) : MemMachine :=
  { machine with events := machine.events ++ recorded }

/-- Recording accesses leaves memory as it is, byte by byte. -/
@[simp] theorem logged_memory (machine : MemMachine) (recorded : List MemEvent) :
    (machine.logged recorded).memory = machine.memory := rfl

/-- The new accesses stand behind those that were recorded before, in the order in which they were
made. -/
@[simp] theorem logged_events (machine : MemMachine) (recorded : List MemEvent) :
    (machine.logged recorded).events = machine.events ++ recorded := rfl

/-- Start a fresh record. -/
def cleared (machine : MemMachine) : MemMachine := { machine with events := [] }

/-- Forgetting the recorded accesses leaves memory as it is, so a record can begin anywhere. -/
@[simp] theorem cleared_memory (machine : MemMachine) :
    machine.cleared.memory = machine.memory := rfl

/-- No accesses are left in the record, so what is in it later is of the next call. -/
@[simp] theorem cleared_events (machine : MemMachine) : machine.cleared.events = [] := rfl

/-- Read a pointer `phys_to_virt` gave. -/
def fetch (w : Nat) (start : Nat) (machine : MemMachine) : BitVec w × MemMachine :=
  (load w machine.memory start, machine.logged [.fetched start (w / 8)])

/-- Write a pointer `phys_to_virt` gave. -/
def assign (value : BitVec w) (start : Nat) (machine : MemMachine) : MemMachine :=
  { machine with memory := store (w / 8) value start machine.memory }.logged [.assigned start (w / 8)]

/-- `ioremap` of 256 bytes. -/
def ioremap (platform : MemPlatform) (start : Nat) (machine : MemMachine) : Bool × MemMachine :=
  let succeeded := platform.ioremapSucceeds start
  (succeeded, machine.logged [.ioremap start succeeded])

/-- `readb` of a byte of a mapped block. -/
def readb (place : Nat) (machine : MemMachine) : BitVec 8 × MemMachine :=
  (machine.memory place, machine.logged [.readb place])

/-- `iounmap` -/
def iounmap (start : Nat) (machine : MemMachine) : MemMachine := machine.logged [.iounmap start]

end MemMachine

/-- The range check of all operations, made with wrapping 32-bit arithmetic. -/
def outside (platform : MemPlatform) (addr : BitVec 32) : Bool :=
  decide (0xffffffff - addr ≤ lfddMassbufSize) ||
    decide (platform.highMemory ≤ (addr + lfddMassbufSize).setWidth 64)

/-- A single-width read: its answer outside the range and the part of the value that it
returns are what the three reads differ in. -/
def memRead (refusal : BitVec w) (part : BitVec 32 → BitVec w) (platform : MemPlatform)
    (addr : BitVec 32) (machine : MemMachine) : BitVec w × MemMachine :=
  if outside platform addr then (refusal, machine)
  else
    let (value, machine) := machine.fetch w addr.toNat
    (part (value.setWidth 32), machine)

/-- `lfdd_mem_read_byte` -/
def lfddMemReadByte : MemPlatform → BitVec 32 → MemMachine → BitVec 8 × MemMachine :=
  memRead 0xff fun value => (value &&& 0xff).setWidth 8

/-- `lfdd_mem_read_word` -/
def lfddMemReadWord : MemPlatform → BitVec 32 → MemMachine → BitVec 16 × MemMachine :=
  memRead 0xff fun value => (value &&& 0xffff).setWidth 16

/-- `lfdd_mem_read_dword` -/
def lfddMemReadDword : MemPlatform → BitVec 32 → MemMachine → BitVec 32 × MemMachine :=
  memRead 0xff fun value => value

/-- A write that merges the value with what the pointer holds, under the lock. -/
def memMerge (w : Nat) (mask : BitVec 32) (platform : MemPlatform) (value addr : BitVec 32)
    (machine : MemMachine) : MemMachine :=
  if outside platform addr then machine
  else
    let (temp, machine) := machine.fetch w addr.toNat
    let temp := temp.setWidth 32 &&& ~~~mask
    let temp := temp ||| (value &&& mask)
    machine.assign (temp.setWidth w) addr.toNat

/-- `lfdd_mem_write_byte` -/
def lfddMemWriteByte : MemPlatform → BitVec 32 → BitVec 32 → MemMachine → MemMachine :=
  memMerge 8 0xff

/-- `lfdd_mem_write_word` -/
def lfddMemWriteWord : MemPlatform → BitVec 32 → BitVec 32 → MemMachine → MemMachine :=
  memMerge 16 0xffff

/-- `lfdd_mem_write_dword`, which does not read first. -/
def lfddMemWriteDword (platform : MemPlatform) (value addr : BitVec 32) (machine : MemMachine) :
    MemMachine :=
  if outside platform addr then machine
  else machine.assign value addr.toNat

/-- `lfdd_mem_read_256byte` -/
def lfddMemRead256byte (platform : MemPlatform) (pmem : LfddSpace) (machine : MemMachine) :
    LfddSpace × MemMachine :=
  if outside platform pmem.addr then
    let (virtmem, machine) := machine.ioremap platform pmem.addr.toNat
    if virtmem then
      let filled := fillBytes (fun i => MemMachine.readb (pmem.addr.toNat + i)) 256 0
        pmem.massBuf machine
      ({ pmem with massBuf := filled.1 }, filled.2.iounmap pmem.addr.toNat)
    else ({ pmem with massBuf := Vector.replicate 256 0xff }, machine)
  else
    let filled := fillBytes (fun i => MemMachine.fetch 8 (pmem.addr.toNat + i)) 256 0
      pmem.massBuf machine
    ({ pmem with massBuf := filled.1 }, filled.2)

/-- The operations, with the caller's structure as the driver leaves it. -/
def memPerform (platform : MemPlatform) (operation : Operation) (pmem : LfddSpace)
    (machine : MemMachine) : LfddSpace × MemMachine :=
  match operation with
  | .readByte =>
    let read := lfddMemReadByte platform pmem.addr machine
    ({ pmem with buf := read.1.setWidth 32 }, read.2)
  | .readWord =>
    let read := lfddMemReadWord platform pmem.addr machine
    ({ pmem with buf := read.1.setWidth 32 }, read.2)
  | .readDword =>
    let read := lfddMemReadDword platform pmem.addr machine
    ({ pmem with buf := read.1 }, read.2)
  | .writeByte => (pmem, lfddMemWriteByte platform pmem.buf pmem.addr machine)
  | .writeWord => (pmem, lfddMemWriteWord platform pmem.buf pmem.addr machine)
  | .writeDword => (pmem, lfddMemWriteDword platform pmem.buf pmem.addr machine)
  | .read256byte => lfddMemRead256byte platform pmem machine

/-- The command for a page is the bulk read, which checks the range for itself. -/
theorem memPerform_read256byte (platform : MemPlatform) (pmem : LfddSpace) (machine : MemMachine) :
    memPerform platform .read256byte pmem machine = lfddMemRead256byte platform pmem machine := rfl

end Lfdk.MemoryAccess
