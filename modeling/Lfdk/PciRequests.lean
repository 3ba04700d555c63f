import Lfdk.PciAccess

/-!
# Requests and what one request can do

A request names one of the seven operations and its argument. Every operation is
a refusal, or a mapping phase followed by an access phase; the access phases are
evaluated here once and for all, for both methods, so that later arguments never
open a function of the source again.

The port method ends with the address port it started with. The MMIO method does
nothing but dword accesses through the mapping it finds. Reads leave the device
as it was.
-/

namespace Lfdk

universe u
variable {σ : Type u}

/-- The seven `lfdd_pcix_*` operations. -/
inductive Operation where
  | readByte
  | readWord
  | readDword
  | writeByte
  | writeWord
  | writeDword
  | read256byte
deriving DecidableEq, Repr

/-- The operations that are meant to change nothing. -/
def Operation.isRead : Operation → Bool
  | .readByte | .readWord | .readDword | .read256byte => true
  | .writeByte | .writeWord | .writeDword => false

structure Request where
  operation : Operation
  pci : LfddPcix
deriving DecidableEq, Repr

/-- What the caller gets back: its structure, and a value unless the operation
returns none. Values are extended to 32 bits, as the caller stores them. -/
structure Reply where
  request : LfddPcix
  value : Option (BitVec 32)
deriving DecidableEq, Repr

variable (platform : Platform σ)

/-- Run the operation a request names. -/
def perform (request : Request) (machine : Machine σ) : Reply × Machine σ :=
  let pci := request.pci
  match request.operation with
  | .readByte =>
    let (value, machine) := lfddPcixReadByte platform pci machine
    (⟨pci, some (value.setWidth 32)⟩, machine)
  | .readWord =>
    let (value, machine) := lfddPcixReadWord platform pci machine
    (⟨pci, some (value.setWidth 32)⟩, machine)
  | .readDword =>
    let (value, machine) := lfddPcixReadDword platform pci machine
    (⟨pci, some value⟩, machine)
  | .writeByte => (⟨pci, none⟩, lfddPcixWriteByte platform pci machine)
  | .writeWord => (⟨pci, none⟩, lfddPcixWriteWord platform pci machine)
  | .writeDword => (⟨pci, none⟩, lfddPcixWriteDword platform pci machine)
  | .read256byte =>
    let (pci, machine) := lfddPcixRead256byte platform pci machine
    (⟨pci, none⟩, machine)

/-- Run a request with a fresh record, so that the record afterwards is exactly
what this request did. -/
def serve (request : Request) (machine : Machine σ) : Reply × Machine σ :=
  perform platform request machine.cleared

/-- The RAM check lets every port request pass, since such a request has no MMIO base. -/
theorem invalidMmio_ports (pci : LfddPcix) (block : BitVec 32) (ports : pci.phyBase = 0) :
    invalidMmio platform pci block = false := by
  simp [invalidMmio, ports]

namespace Request

/-- The block an operation checks and maps. -/
def block (request : Request) : BitVec 32 :=
  match request.operation with
  | .read256byte => request.pci.addr
  | _ => addrAlighBuf request.pci.addr

/-- The test at the head of each operation. -/
def refused (request : Request) : Bool :=
  match request.operation with
  | .writeDword =>
    decide (request.pci.addr &&& 0x3 ≠ 0) || invalidMmio platform request.pci request.block
  | _ => invalidMmio platform request.pci request.block

/-- A request is refused exactly if it is a dword at an address that is no multiple of four, or its
block cannot be mapped. -/
theorem refused_iff (request : Request) :
    request.refused platform = true ↔
      (request.operation = .writeDword ∧ request.pci.addr &&& 0x3 ≠ 0) ∨
        invalidMmio platform request.pci request.block = true := by
  obtain ⟨operation, pci⟩ := request
  cases operation <;> simp [refused]

/-- The answer to a refused request. -/
def refusal (request : Request) : Reply :=
  match request.operation with
  | .readByte => ⟨request.pci, some 0xff⟩
  | .readWord => ⟨request.pci, some 0xffff⟩
  | .readDword => ⟨request.pci, some (~~~0)⟩
  | _ => ⟨request.pci, none⟩

/-- The part of an operation that runs under the lock. -/
def access (request : Request) (machine : Machine σ) : Reply × Machine σ :=
  let pci := request.pci
  match request.operation with
  | .readByte =>
    let (value, machine) := readAccess platform pci machine
    (⟨pci, some ((((value >>> ((pci.addr &&& 0x03) * 8)) &&& 0xff).setWidth 8).setWidth 32)⟩,
      machine)
  | .readWord =>
    let (value, machine) := readAccess platform pci machine
    (⟨pci, some ((((value >>> ((pci.addr &&& 0x03) * 8)) &&& 0xffff).setWidth 16).setWidth 32)⟩,
      machine)
  | .readDword =>
    let (value, machine) := readAccess platform pci machine
    (⟨pci, some value⟩, machine)
  | .writeByte => (⟨pci, none⟩, mergeAccess 0x03 0xff platform pci machine)
  | .writeWord => (⟨pci, none⟩, mergeAccess 0x02 0xffff platform pci machine)
  | .writeDword => (⟨pci, none⟩, dwordAccess platform pci machine)
  | .read256byte =>
    let (pci, machine) := bulkAccess platform pci machine
    (⟨pci, none⟩, machine)

end Request

/-- Every operation of the source is its refusal, or its mapping phase followed
by its access phase. -/
theorem perform_phases (request : Request) (machine : Machine σ) :
    perform platform request machine =
      if request.refused platform then (request.refusal, machine)
      else request.access platform (mapBlock platform request.pci request.block machine) := by
  obtain ⟨operation, pci⟩ := request
  cases operation <;>
    simp only [perform, Request.refused, Request.refusal, Request.access, Request.block,
      lfddPcixReadByte, lfddPcixReadWord, lfddPcixReadDword, readSingle, lfddPcixWriteByte,
      lfddPcixWriteWord, writeMerged, lfddPcixWriteDword, lfddPcixRead256byte,
      Bool.or_eq_true, decide_eq_true_eq] <;>
    split <;> rename_i test <;> simp [test]

/-- The physical places an access record reaches, in order. -/
def places (events : List Event) : List (Option Nat) :=
  events.filterMap fun
    | .readl _ place => some place
    | .writel _ _ place => some place
    | _ => none

/-- The places of more accesses are those of the first ones and those of the others. -/
@[simp] theorem places_append (first second : List Event) :
    places (first ++ second) = places first ++ places second := List.filterMap_append

/-- The value in the address port at each access to the data port, as far as the
record itself set it. -/
def selections : Option (BitVec 32) → List Event → List (Option (BitVec 32))
  | _, [] => []
  | _, .outl value .pciAddr :: rest => selections (some value) rest
  | selected, .inl .pciData :: rest => selected :: selections selected rest
  | selected, .outl _ .pciData :: rest => selected :: selections selected rest
  | selected, _ :: rest => selections selected rest

/-- Without accesses nothing is selected, whatever was selected before. -/
@[simp] theorem selections_nil (selected : Option (BitVec 32)) : selections selected [] = [] := rfl

/-- Reading the address port selects nothing and leaves what was selected. -/
@[simp] theorem selections_save (selected : Option (BitVec 32)) (rest : List Event) :
    selections selected (.inl .pciAddr :: rest) = selections selected rest := rfl

/-- Writing it selects an address for the accesses that follow, and forgets the one before. -/
@[simp] theorem selections_select (selected : Option (BitVec 32)) (value : BitVec 32)
    (rest : List Event) :
    selections selected (.outl value .pciAddr :: rest) = selections (some value) rest := rfl

/-- A read of the data port is made under the selected address, -/
@[simp] theorem selections_read (selected : Option (BitVec 32)) (rest : List Event) :
    selections selected (.inl .pciData :: rest) = selected :: selections selected rest := rfl

/-- and so is a write through the data port, at the address selected last. -/
@[simp] theorem selections_write (selected : Option (BitVec 32)) (value : BitVec 32)
    (rest : List Event) :
    selections selected (.outl value .pciData :: rest) = selected :: selections selected rest := rfl

/-- An access through a mapping. -/
def Event.IsMemory : Event → Prop
  | .readl _ _ | .writel _ _ _ => True
  | _ => False

/-- An access to a port. -/
def Event.IsPort : Event → Prop
  | .inl _ | .outl _ _ => True
  | _ => False

end Lfdk
