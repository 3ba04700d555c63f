import Lfdk.PciRequests
import Lfdk.PciAddress

/-!
# The driver as the user program calls it

The program reaches the driver through `ioctl`. A call names an operation and hands
over a structure; it succeeds or not, and the driver leaves its answer in the
structure. What the hardware behind the driver remembers is a state of its own.

The commands for configuration space are answered by `lfdd_ioctl` with the operations
of the driver. A word that is read through the ports is the addressed half of the
dword that the data port shows.
-/

namespace Lfdk

universe u v
variable {σ : Type u}

/-- `ioctl` for one kind of request: whether it succeeds, and what it leaves in the
caller's structure. -/
abbrev Ioctl (ρ : Type u) (δ : Type v) := Operation → ρ → δ → Bool × ρ × δ

/-- The number of bytes that an operation reads or writes. -/
def Operation.length : Operation → Nat
  | .readByte | .writeByte => 1
  | .readWord | .writeWord => 2
  | .readDword | .writeDword => 4
  | .read256byte => 256

/-- The configuration-space commands of `lfdd_ioctl`, with both copies complete. -/
def lfddIoctl (platform : Platform σ) : Ioctl LfddPcix (Machine σ) :=
  fun operation pci machine =>
    match operation with
    | .read256byte =>
      let (pci, machine) :=
        lfddPcixRead256byte platform { pci with massBuf := Vector.replicate 256 0 } machine
      (true, pci, machine)
    | .readByte =>
      let (value, machine) := lfddPcixReadByte platform pci machine
      (true, { pci with buf := value.setWidth 32 }, machine)
    | .readWord =>
      let (value, machine) := lfddPcixReadWord platform pci machine
      (true, { pci with buf := value.setWidth 32 }, machine)
    | .readDword =>
      let (value, machine) := lfddPcixReadDword platform pci machine
      (true, { pci with buf := value }, machine)
    | .writeByte => (true, pci, lfddPcixWriteByte platform pci machine)
    | .writeWord => (true, pci, lfddPcixWriteWord platform pci machine)
    | .writeDword => (true, pci, lfddPcixWriteDword platform pci machine)

end Lfdk
