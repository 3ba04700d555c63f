import Lfdk.ByteMemory
import Lfdk.HexEditors

/-!
# The seven port operations

This is the `libio.c` of the driver. A port number is cut to 16 bits by the instruction
that uses it. A read may change the device behind the port, and no assumption is made
about what it delivers.
-/

namespace Lfdk.PortAccess

open ByteMemory HexEditors

universe u
variable {δ : Type u}

/-- `inb`, `inw` and `inl`, `outb`, `outw` and `outl`, by their width. -/
structure PortDevices (δ : Type u) where
  input : (width : Nat) → BitVec 16 → δ → BitVec width × δ
  output : (width : Nat) → BitVec width → BitVec 16 → δ → δ

/-- Ports with nothing behind them. -/
def PortDevices.absent : PortDevices Unit where
  input := fun width _ device => (BitVec.allOnes width, device)
  output := fun _ _ _ device => device

/-- What an operation did. -/
inductive PortEvent where
  | input (width : Nat) (port : BitVec 16)
  | output (width : Nat) (port : BitVec 16)
deriving DecidableEq, Repr

/-- The devices and the record of accesses. -/
structure PortMachine (δ : Type u) where
  device : δ
  events : List PortEvent

/-- The ports `CF8h` to `CFFh`, behind which the configuration registers are. The devices here
are those behind the other ports. -/
def configPort (port : BitVec 16) : Bool := decide (0xcf8 ≤ port ∧ port ≤ 0xcff)

/-- An operation at a port that uses none of them. -/
def SparesConfig (operation : Operation) (addr : BitVec 32) : Prop :=
  ∀ offset < operation.length,
    configPort ((addr + BitVec.ofNat 32 offset).setWidth 16) = false

instance (operation : Operation) (addr : BitVec 32) : Decidable (SparesConfig operation addr) :=
  inferInstanceAs (Decidable (∀ offset < operation.length, _))

variable (ports : PortDevices δ)

/-- A read, under the lock. -/
def portInput (width : Nat) (addr : BitVec 32) (machine : PortMachine δ) :
    BitVec width × PortMachine δ :=
  let port := addr.setWidth 16
  let (value, device) := ports.input width port machine.device
  (value, ⟨device, machine.events ++ [.input width port]⟩)

/-- A write, under the lock. -/
def portOutput (width : Nat) (value : BitVec width) (addr : BitVec 32)
    (machine : PortMachine δ) : PortMachine δ :=
  let port := addr.setWidth 16
  ⟨ports.output width value port machine.device, machine.events ++ [.output width port]⟩

/-- `lfdd_io_read_byte` -/
def lfddIoReadByte : BitVec 32 → PortMachine δ → BitVec 8 × PortMachine δ := portInput ports 8

/-- `lfdd_io_read_word` -/
def lfddIoReadWord : BitVec 32 → PortMachine δ → BitVec 16 × PortMachine δ := portInput ports 16

/-- `lfdd_io_read_dword` -/
def lfddIoReadDword : BitVec 32 → PortMachine δ → BitVec 32 × PortMachine δ := portInput ports 32

/-- `lfdd_io_write_byte` -/
def lfddIoWriteByte : BitVec 8 → BitVec 32 → PortMachine δ → PortMachine δ := portOutput ports 8

/-- `lfdd_io_write_word` -/
def lfddIoWriteWord : BitVec 16 → BitVec 32 → PortMachine δ → PortMachine δ := portOutput ports 16

/-- `lfdd_io_write_dword` -/
def lfddIoWriteDword : BitVec 32 → BitVec 32 → PortMachine δ → PortMachine δ := portOutput ports 32

/-- `lfdd_io_read_256byte` -/
def lfddIoRead256byte (pio : LfddSpace) (machine : PortMachine δ) : LfddSpace × PortMachine δ :=
  let filled := fillBytes (fun i => portInput ports 8 (pio.addr + BitVec.ofNat 32 i)) 256 0
    pio.massBuf machine
  ({ pio with massBuf := filled.1 }, filled.2)

/-- The operations, with the caller's structure as the driver leaves it. -/
def portPerform (operation : Operation) (pio : LfddSpace) (machine : PortMachine δ) :
    LfddSpace × PortMachine δ :=
  match operation with
  | .readByte =>
    let read := lfddIoReadByte ports pio.addr machine
    ({ pio with buf := read.1.setWidth 32 }, read.2)
  | .readWord =>
    let read := lfddIoReadWord ports pio.addr machine
    ({ pio with buf := read.1.setWidth 32 }, read.2)
  | .readDword =>
    let read := lfddIoReadDword ports pio.addr machine
    ({ pio with buf := read.1 }, read.2)
  | .writeByte => (pio, lfddIoWriteByte ports (pio.buf.setWidth 8) pio.addr machine)
  | .writeWord => (pio, lfddIoWriteWord ports (pio.buf.setWidth 16) pio.addr machine)
  | .writeDword => (pio, lfddIoWriteDword ports pio.buf pio.addr machine)
  | .read256byte => lfddIoRead256byte ports pio machine

/-- The loop of the bulk read uses one port for each turn it makes, in order. -/
theorem fill_events (addr : BitVec 32) (count i : Nat) (massBuf : Vector (BitVec 8) 256)
    (machine : PortMachine δ) :
    (fillBytes (fun i => portInput ports 8 (addr + BitVec.ofNat 32 i)) count i massBuf
        machine).2.events =
      machine.events ++ (List.range' i count).map fun index =>
        PortEvent.input 8 ((addr + BitVec.ofNat 32 index).setWidth 16) := by
  induction count generalizing i massBuf machine with
  | zero =>
    rw [List.range'_zero, List.map_nil, List.append_nil]
    rfl
  | succ count inductionHypothesis =>
    have turn := inductionHypothesis (i + 1)
      (massBuf.setIfInBounds i (portInput ports 8 (addr + BitVec.ofNat 32 i) machine).1)
      (portInput ports 8 (addr + BitVec.ofNat 32 i) machine).2
    rw [fillBytes]
    refine turn.trans ?_
    rw [portInput, List.range'_succ, List.map_cons, List.append_assoc]
    rfl

/-- A write uses one port and a read of one value too; the bulk read uses 256 ports, and their
numbers wrap in 16 bits. -/
theorem portPerform_events (operation : Operation) (pio : LfddSpace) (machine : PortMachine δ) :
    (portPerform ports operation pio machine).2.events =
      machine.events ++
        match operation with
        | .read256byte => (List.range 256).map fun index =>
            PortEvent.input 8 ((pio.addr + BitVec.ofNat 32 index).setWidth 16)
        | .readByte | .readWord | .readDword =>
            [.input (8 * operation.length) (pio.addr.setWidth 16)]
        | .writeByte | .writeWord | .writeDword =>
            [.output (8 * operation.length) (pio.addr.setWidth 16)] := by
  cases operation with
  | read256byte =>
    rw [portPerform, lfddIoRead256byte, List.range_eq_range']
    exact fill_events ports pio.addr 256 0 pio.massBuf machine
  | readByte | readWord | readDword | writeByte | writeWord | writeDword => rfl

end Lfdk.PortAccess
