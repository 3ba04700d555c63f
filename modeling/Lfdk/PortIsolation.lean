import Lfdk.AccessEffects
import Lfdk.MappingCache
import Lfdk.PciAddress

/-!
# Which PCI function a port request reaches

The data port shows a register of the function in bits 23 to 8 of the address
port. A request stays with its own function as long as the high byte of its
register number adds no bit to the function number, and, for the bulk read, as
long as its 64 consecutive dwords do not run out of the 256 bytes of the
function.
-/

namespace Lfdk

universe u
variable {σ : Type u} (platform : Platform σ)

/-- The address selects the function the request names. -/
def SelectsOwn (pci : LfddPcix) (selected : BitVec 32) : Prop :=
  selected.extractLsb' 16 8 = pci.bus ∧
    selected.extractLsb' 11 5 = pci.dev.setWidth 5 ∧
    selected.extractLsb' 8 3 = pci.func.setWidth 3

instance (pci : LfddPcix) (selected : BitVec 32) : Decidable (SelectsOwn pci selected) :=
  inferInstanceAs (Decidable (_ ∧ _ ∧ _))

/-- The three fields of an address are the digits of its function number. -/
theorem selectsOwn_iff (pci : LfddPcix) (selected : BitVec 32) :
    SelectsOwn pci selected ↔ selected.toNat / 2 ^ 8 % 2 ^ 16 = pci.function := by
  have bus := pci.bus.isLt
  simp only [SelectsOwn, ← BitVec.toNat_inj, BitVec.extractLsb'_toNat, Nat.shiftRight_eq_div_pow,
    BitVec.toNat_setWidth, LfddPcix.function]
  omega

/-- The request's port accesses stay with its own function: it is the dword
write that is refused for its alignment, or the high byte of the register number
is part of the function number and a bulk read starts in the first dword. -/
def StaysOwn (request : Request) : Prop :=
  (request.operation = .writeDword ∧ request.pci.reg.toNat % 4 ≠ 0) ∨
    (request.pci.merged = request.pci.function ∧
      (request.operation = .read256byte → request.pci.reg.toNat % 2 ^ 8 < 4))

instance (request : Request) : Decidable (StaysOwn request) :=
  inferInstanceAs (Decidable (_ ∨ _))

/-- A single-width address selects the function itself exactly if the merged number is that of the
function, so that no bit of the register was or-ed into it. -/
theorem selectsOwn_single (pci : LfddPcix) (ports : pci.phyBase = 0) :
    SelectsOwn pci pci.selected ↔ pci.merged = pci.function := by
  have bound := merged_bound pci
  rw [selectsOwn_iff, selected_ports pci ports]
  omega

/-- The bulk read's addresses all select the function exactly when it is the
merged one and the last dword, 252 bytes on, does not carry out of the page. -/
theorem selectsOwn_bulk (pci : LfddPcix) (ports : pci.phyBase = 0) :
    (∀ offset ∈ List.range' 0 64 4, SelectsOwn pci (pci.addr + BitVec.ofNat 32 offset)) ↔
      pci.merged = pci.function ∧ pci.reg.toNat % 2 ^ 8 < 4 := by
  have bound := merged_bound pci
  have address := addr_ports pci ports
  have shifted : ∀ offset < 256, (pci.addr + BitVec.ofNat 32 offset).toNat =
      2 ^ 31 + pci.merged * 2 ^ 8 + pci.reg.toNat % 2 ^ 8 + offset := by
    intro offset small
    rw [BitVec.toNat_add, BitVec.toNat_ofNat, address]
    omega
  constructor
  · intro own
    have first := own 0 (by decide)
    have last := own 252 (by decide)
    rw [selectsOwn_iff, shifted _ (by decide)] at first last
    omega
  · rintro ⟨same, low⟩ offset member
    obtain ⟨step, below, rfl⟩ := List.mem_range'.mp member
    rw [selectsOwn_iff, shifted _ (by omega)]
    omega

/-- The dword write is refused exactly when its register number is not aligned. -/
theorem refused_ports (request : Request) (ports : request.pci.phyBase = 0) :
    request.refused platform = true ↔
      request.operation = .writeDword ∧ request.pci.reg.toNat % 4 ≠ 0 := by
  have unchecked := invalidMmio_ports platform request.pci request.block ports
  have low : (request.pci.addr &&& 0x3 ≠ 0) ↔ request.pci.reg.toNat % 4 ≠ 0 := by
    rw [ne_eq, ne_eq, ← BitVec.toNat_inj, lane_toNat, addr_ports _ ports]
    simp only [BitVec.ofNat_eq_ofNat, BitVec.toNat_ofNat]
    omega
  rw [Request.refused_iff, unchecked, low]
  simp

/-- A port request selects its own function at every access to the data port if
and only if it stays with its own function. -/
theorem port_isolation_iff (request : Request) (ports : request.pci.phyBase = 0)
    (machine : Machine σ) :
    (∀ selected ∈ selections none (serve platform request machine).2.events,
        ∃ address, selected = some address ∧ SelectsOwn request.pci address) ↔
      StaysOwn request := by
  have refusal := refused_ports platform request ports
  cases refused : request.refused platform with
  | true =>
    rw [serve_refused platform request machine refused]
    simp [StaysOwn, refusal.mp refused]
  | false =>
    have aligned : ¬ (request.operation = .writeDword ∧ request.pci.reg.toNat % 4 ≠ 0) := by
      rw [← refusal, refused]
      decide
    obtain ⟨device, recorded, accessed, _, _, selected⟩ :=
      access_ports platform
        (mapBlock platform request.pci request.block machine.cleared) request ports
    have unmapped : mapBlock platform request.pci request.block machine.cleared =
        machine.cleared := by
      rw [mapBlock, if_pos ports]
    have events : (serve platform request machine).2.events = recorded := by
      rw [serve_accepted platform request machine refused, accessed, unmapped]
      simp
    rw [events, selected]
    simp only [StaysOwn, aligned, false_or, List.forall_mem_map, Option.some.injEq,
      exists_eq_left']
    obtain ⟨operation, pci⟩ := request
    have single := selectsOwn_single pci ports
    have bulk := selectsOwn_bulk pci ports
    cases operation with
    | read256byte => simpa [Request.selectedAddresses] using bulk
    | writeDword =>
      have dword : pci.reg.toNat % 4 = 0 := by simpa using aligned
      have same : pci.addr = pci.selected := by
        rw [← BitVec.toNat_inj, addr_ports pci ports, selected_ports pci ports]
        omega
      simpa [Request.selectedAddresses, same] using single
    | readByte | readWord | readDword | writeByte | writeWord =>
      simpa [Request.selectedAddresses] using single

/-- A register number below 0x100 never leaves the function, except in a bulk
read that starts after the first dword. -/
theorem low_register_stays (request : Request) (low : request.pci.reg.toNat < 2 ^ 8)
    (start : request.operation = .read256byte → request.pci.reg.toNat < 4) :
    StaysOwn request := by
  refine Or.inr ⟨merged_low request.pci low, fun bulk => ?_⟩
  have first := start bulk
  omega

/-- A word write to the Command register selects its own function, as the register's number is below
0x100. -/
theorem command_write_isolated :
    let request : Request := ⟨.writeWord, .atRegister 0x04 0 7⟩
    let platform := Platform.constant 0x12345678 0x80000000 fun _ => true
    ∀ selected ∈ selections none
        (serve platform request (Machine.loaded () 0)).2.events,
      ∃ address, selected = some address ∧ SelectsOwn request.pci address :=
  (port_isolation_iff (Platform.constant 0x12345678 0x80000000 fun _ => true)
    ⟨.writeWord, .atRegister 0x04 0 7⟩ (by decide) (Machine.loaded () 0)).mpr (by decide +kernel)

/-- A byte read of register 0x100 of function 0 selects function 1. -/
theorem extended_register_escapes :
    let request : Request := ⟨.readByte, .atRegister 0x100 0 0⟩
    let platform := Platform.constant 0x12345678 0x80000000 fun _ => true
    ¬ ∀ selected ∈ selections none
        (serve platform request (Machine.loaded () 0)).2.events,
      ∃ address, selected = some address ∧ SelectsOwn request.pci address := by
  intro request platform isolated
  obtain ⟨address, same, own⟩ := isolated (some 0x80000100) (by decide +kernel)
  obtain rfl := Option.some.inj same
  exact absurd own (by decide)

end Lfdk
