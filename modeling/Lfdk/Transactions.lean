import Lfdk.AccessFrames
import Lfdk.PciAddress

/-!
# A request as a transaction on dwords

Forgetting how a dword is reached, an accepted request reads the dword its
address lies in, or 64 consecutive ones, gives an answer computed from them, and
writes at most one dword back. The answer and the dword written are pure
functions of the request; the method only decides which register of the device
is read and written.
-/

namespace Lfdk

universe u
variable {σ : Type u} (platform : Platform σ)

/-- What the caller sees of a reply: the value and the bulk buffer. -/
def Reply.result (reply : Reply) : Option (BitVec 32) × Vector (BitVec 8) 256 :=
  (reply.value, reply.request.massBuf)

namespace Request

/-- The answer of an accepted request, from its dword or its 64 dwords. -/
def answer (request : Request) (dword : BitVec 32) (page : Nat → BitVec 32) :
    Option (BitVec 32) × Vector (BitVec 8) 256 :=
  let pci := request.pci
  match request.operation with
  | .readByte =>
    (some ((((dword >>> ((pci.addr &&& 0x03) * 8)) &&& 0xff).setWidth 8).setWidth 32), pci.massBuf)
  | .readWord =>
    (some ((((dword >>> ((pci.addr &&& 0x03) * 8)) &&& 0xffff).setWidth 16).setWidth 32),
      pci.massBuf)
  | .readDword => (some dword, pci.massBuf)
  | .read256byte => (none, fillDwords page 64 0 pci.massBuf)
  | _ => (none, pci.massBuf)

/-- The dword a write puts in place of the old one. -/
def written (request : Request) (dword : BitVec 32) : Option (BitVec 32) :=
  let pci := request.pci
  match request.operation with
  | .writeByte => some (mergeLane 0x03 0xff pci.addr pci.buf dword)
  | .writeWord => some (mergeLane 0x02 0xffff pci.addr pci.buf dword)
  | .writeDword => some pci.buf
  | _ => none

end Request

/-- An accepted dword write through the ports has an aligned address. -/
theorem dword_write_selected (request : Request) (ports : request.pci.phyBase = 0)
    (accepted : request.refused platform = false) (dword : request.operation = .writeDword) :
    request.pci.addr = request.pci.selected := by
  have aligned : request.pci.addr &&& 0x3 = 0 := by
    by_contra misaligned
    have refused := (request.refused_iff platform).mpr (Or.inl ⟨dword, misaligned⟩)
    rw [accepted] at refused
    cases refused
  have low : request.pci.addr.toNat % 2 ^ 2 = 0 := by
    rw [← lane_toNat, aligned]
    rfl
  rw [← BitVec.toNat_inj, addr_ports _ ports, selected_ports _ ports]
  rw [addr_ports _ ports] at low
  omega

/-- Through the ports, a request is a transaction on the selected register. -/
theorem serve_ports (request : Request) (machine : Machine σ) (ports : request.pci.phyBase = 0)
    (accepted : request.refused platform = false) :
    (serve platform request machine).1.result =
        request.answer (platform.configRead machine.device request.pci.selected)
          (fun offset => platform.configRead machine.device
            (request.pci.addr + BitVec.ofNat 32 offset)) ∧
      (serve platform request machine).2.device =
        (request.written (platform.configRead machine.device request.pci.selected)).elim
          machine.device (platform.configWrite machine.device request.pci.selected) := by
  have dword := dword_write_selected platform request ports accepted
  rw [serve_accepted platform request machine accepted, mapBlock, if_pos ports]
  obtain ⟨operation, pci⟩ := request
  cases operation with
  | readByte | readWord | readDword =>
    simp only [Request.access, readAccess_ports platform pci _ ports]
    exact ⟨rfl, rfl⟩
  | writeByte | writeWord =>
    simp only [Request.access, mergeAccess_ports platform pci _ _ _ ports]
    exact ⟨rfl, rfl⟩
  | writeDword =>
    have same : pci.addr = pci.selected := dword rfl
    simp only [Request.access, dwordAccess_ports platform pci _ ports, ← same]
    exact ⟨rfl, rfl⟩
  | read256byte =>
    simp only [Request.access, bulkAccess_ports platform pci _ ports]
    exact ⟨rfl, rfl⟩

/-- Reading through a consistent mapping reads physical memory, at the offset into the block. -/
theorem load_window (machine : Machine σ) (consistent : machine.Consistent) (start offset : Nat)
    (windowed : machine.window = some start) :
    machine.load platform machine.phy2virtMem offset =
      platform.memoryRead machine.device (start + offset) := by
  rw [Machine.load, Machine.place_window machine consistent, windowed]
  rfl

/-- Writing through a consistent mapping writes physical memory, at the offset into the block. -/
theorem stored_window (machine : Machine σ) (consistent : machine.Consistent)
    (start offset : Nat) (value : BitVec 32) (windowed : machine.window = some start) :
    machine.stored platform value machine.phy2virtMem offset =
      platform.memoryWrite machine.device (start + offset) value := by
  rw [Machine.stored, Machine.place_window machine consistent, windowed]
  rfl

/-- Through a mapping, a request is a transaction on the physical dwords of the
block it is served. -/
theorem serve_mmio (request : Request) (machine : Machine σ) (consistent : machine.Consistent)
    (mmio : request.IsMmio) (accepted : request.refused platform = false)
    (mapped : request.Mapped platform machine) :
    let start := SlotCache.serve 256 machine.window request.demand
    let place := start + (dwordOffset request.pci.addr).toNat
    (serve platform request machine).1.result =
        request.answer (platform.memoryRead machine.device place)
          (fun offset => platform.memoryRead machine.device (start + offset)) ∧
      (serve platform request machine).2.device =
        (request.written (platform.memoryRead machine.device place)).elim
          machine.device (platform.memoryWrite machine.device place) := by
  intro start place
  obtain ⟨_, _, _, found, windowed, _, _⟩ :=
    mapBlock_serves platform request machine.cleared consistent mmio mapped
  obtain ⟨_, _, _, device, _⟩ :=
    mapBlock_frame platform request.pci request.block machine.cleared
  rw [serve_accepted platform request machine accepted]
  generalize mapBlock platform request.pci request.block machine.cleared = ready at *
  have load : ∀ offset, ready.load platform ready.phy2virtMem offset =
      platform.memoryRead machine.device (start + offset) := by
    intro offset
    rw [load_window platform ready found start offset windowed, device]
    rfl
  have stored : ∀ offset value, ready.stored platform value ready.phy2virtMem offset =
      platform.memoryWrite machine.device (start + offset) value := by
    intro offset value
    rw [stored_window platform ready found start offset value windowed, device]
    rfl
  obtain ⟨operation, pci⟩ := request
  cases operation with
  | readByte | readWord | readDword =>
    simp only [Request.access, readAccess_mmio platform pci ready mmio, load]
    exact ⟨rfl, device⟩
  | writeByte | writeWord =>
    simp only [Request.access, mergeAccess_mmio platform pci ready _ _ mmio, load, stored]
    exact ⟨rfl, rfl⟩
  | writeDword =>
    simp only [Request.access, dwordAccess_mmio platform pci ready mmio, stored]
    exact ⟨rfl, rfl⟩
  | read256byte =>
    simp only [Request.access, bulkAccess_mmio platform pci ready mmio, load]
    exact ⟨rfl, device⟩

end Lfdk
