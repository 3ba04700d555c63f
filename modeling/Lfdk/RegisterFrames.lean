import Lfdk.ConfigSpace
import Lfdk.MappedPlaces
import Lfdk.Transactions

/-!
# What a write does to the bytes next to it

A byte or word write reads the whole dword, splices its part in and writes the
whole dword back. The bytes outside the part get their own value back, which is
no change for a read/write or read-only bit, and clears a set bit that is cleared
by ones. A part whose register number is beyond the registers its method can
address lands on a register of a lower number, and there even the part itself is
a change the request did not ask for.
-/

namespace Lfdk

open RegisterBits

/-- The number of bytes a write replaces. -/
def Operation.width : Operation → Option Nat
  | .writeByte => some 1
  | .writeWord => some 2
  | .writeDword => some 4
  | .readByte | .readWord | .readDword | .read256byte => none

namespace Request

/-- The function whose register an access reaches. -/
def targetFunction (request : Request) : Nat :=
  if request.pci.phyBase = 0 then request.pci.merged else request.pci.function

/-- The number of bytes of a function that the method can address. -/
def space (request : Request) : Nat := if request.pci.phyBase = 0 then 2 ^ 8 else 2 ^ 12

/-- The dword of the function that an access reaches. -/
def targetDword (request : Request) : Nat := request.pci.reg.toNat % request.space / 4

end Request

/-- The access reaches the register it computed: an MMIO request names the
window's base and is served its own block. -/
structure ReachesWindow {σ : Type} (platform : Platform σ) (ecam : BitVec 64) (request : Request)
    (machine : Machine σ) : Prop where
  window : EcamWindow ecam
  base : request.pci.phyBase = ecam
  consistent : machine.Consistent
  mapped : request.Mapped platform machine
  own : SlotCache.serve 256 machine.window request.demand = request.demand.own

/-- The write spares its neighbours: no bit of the target dword outside the lane
is a set bit that ones clear. And if the register number is beyond the space of
the method, so that the lane is itself not the one the request names, the value
written leaves every bit of the lane as it is. -/
def Spares (kinds : RegisterKinds) (space : ConfigSpace) (request : Request) (width : Nat) :
    Prop :=
  (∀ bit < 32, request.pci.reg.toNat % 4 ≤ bit / 8 ∧
        bit / 8 < request.pci.reg.toNat % 4 + width ∨
      ¬ (kinds request.targetFunction request.targetDword bit = .writeOneToClear ∧
        (space request.targetFunction request.targetDword).getLsbD bit = true)) ∧
    (request.space ≤ request.pci.reg.toNat →
      ∀ offset < 8 * width,
        (kinds request.targetFunction request.targetDword
            (8 * (request.pci.reg.toNat % 4) + offset)).next
          ((space request.targetFunction request.targetDword).getLsbD
            (8 * (request.pci.reg.toNat % 4) + offset)) (request.pci.buf.getLsbD offset) =
          (space request.targetFunction request.targetDword).getLsbD
            (8 * (request.pci.reg.toNat % 4) + offset))

instance (kinds : RegisterKinds) (space : ConfigSpace) (request : Request) (width : Nat) :
    Decidable (Spares kinds space request width) :=
  inferInstanceAs (Decidable (_ ∧ _))

/-- The bytes the request names. -/
def Request.Names (request : Request) (width function number : Nat) : Prop :=
  function = request.pci.function ∧ request.pci.reg.toNat ≤ number ∧
    number < request.pci.reg.toNat + width

/-- The word write's lane mask leaves bit 0 out, which an even lane has clear. -/
theorem even_lane (addr : BitVec 32) (even : 2 ∣ (addr &&& 0x3).toNat) :
    addr &&& 0x2 = addr &&& 0x3 := by
  have inside : addr &&& 0x2 = (addr &&& 0x3) &&& 0x2 := by
    rw [BitVec.and_assoc]
    rfl
  have bound := lane_toNat addr
  have lanes : addr &&& 0x3 = 0 ∨ addr &&& 0x3 = 2 := by
    simp only [← BitVec.toNat_inj, BitVec.ofNat_eq_ofNat, BitVec.toNat_ofNat] at even bound ⊢
    omega
  rw [inside]
  rcases lanes with zero | two
  · rw [zero]
    rfl
  · rw [two]
    rfl

/-- An aligned write splices its value into the dword at the register's lane. -/
theorem written_splice (request : Request) (width : Nat)
    (writes : request.operation.width = some width) (aligned : width ∣ request.pci.reg.toNat)
    (base : 4096 ∣ request.pci.phyBase.toNat) (dword : BitVec 32) :
    request.written dword =
      some (splice (8 * (request.pci.reg.toNat % 4)) (8 * width) request.pci.buf dword) := by
  obtain ⟨operation, pci⟩ := request
  have lane : (pci.addr &&& 0x3).toNat = pci.reg.toNat % 2 ^ 2 := addr_lane pci base
  have shift : ∀ offset : BitVec 32, offset.toNat = pci.reg.toNat % 2 ^ 2 →
      (offset * 8).toNat = 8 * (pci.reg.toNat % 4) := by
    intro offset same
    have eight : (8 : BitVec 32).toNat = 8 := by decide
    rw [BitVec.toNat_mul, same, eight]
    omega
  cases operation with
  | writeByte =>
    obtain rfl := Option.some.inj writes
    have low : ∀ bit < 32, (0xff : BitVec 32).getLsbD bit = decide (bit < 8 * 1) := by decide
    simp only [Request.written, mergeLane, BitVec.shiftLeft_eq', shift _ lane]
    rw [mask_splice _ _ _ _ _ low]
  | writeWord =>
    obtain rfl := Option.some.inj writes
    have low : ∀ bit < 32, (0xffff : BitVec 32).getLsbD bit = decide (bit < 8 * 2) := by decide
    have halved : 2 ∣ pci.reg.toNat := aligned
    have even : pci.addr &&& 0x2 = pci.addr &&& 0x3 := even_lane pci.addr (by omega)
    simp only [Request.written, mergeLane, BitVec.shiftLeft_eq', even, shift _ lane]
    rw [mask_splice _ _ _ _ _ low]
  | writeDword =>
    obtain rfl := Option.some.inj writes
    have first : pci.reg.toNat % 4 = 0 := Nat.mod_eq_zero_of_dvd aligned
    simp only [Request.written, first, Option.some.injEq]
    apply BitVec.eq_of_getLsbD_eq
    intro bit inside
    rw [getLsbD_splice _ _ _ _ _ inside, if_pos (by omega)]
    rfl
  | readByte | readWord | readDword | read256byte => cases writes

/-- The lane of an aligned write lies in one dword, so the write changes one dword only. -/
theorem lane_fits (request : Request) (width : Nat)
    (writes : request.operation.width = some width) (aligned : width ∣ request.pci.reg.toNat) :
    request.pci.reg.toNat % 4 + width ≤ 4 := by
  obtain ⟨operation, pci⟩ := request
  cases operation <;> cases writes <;> simp only at aligned ⊢ <;> omega

/-- A byte of the target dword is named exactly when it is in the lane and the
register number lies in the space of the method. -/
theorem names_target_iff (request : Request) (width : Nat)
    (writes : request.operation.width = some width) (aligned : width ∣ request.pci.reg.toNat)
    (number : Nat) (inside : number < 4) :
    request.Names width request.targetFunction (4 * request.targetDword + number) ↔
      request.pci.reg.toNat < request.space ∧ request.pci.reg.toNat % 4 ≤ number ∧
        number < request.pci.reg.toNat % 4 + width := by
  have spaceAligned : request.space = 2 ^ 8 ∨ request.space = 2 ^ 12 := by
    rw [Request.space]
    split <;> simp
  have own : request.pci.reg.toNat < request.space →
      request.targetFunction = request.pci.function := by
    intro low
    rw [Request.targetFunction]
    split
    · next ports =>
      rw [Request.space, if_pos ports] at low
      exact merged_low request.pci low
    · rfl
  have fits := lane_fits request width writes aligned
  rw [Request.Names, Request.targetDword]
  constructor
  · rintro ⟨_, after, before⟩
    rcases spaceAligned with space | space <;> rw [space] at after before ⊢ <;> omega
  · rintro ⟨low, after, before⟩
    refine ⟨own low, ?_⟩
    rw [Nat.mod_eq_of_lt low]
    omega

section Registers

variable (kinds : RegisterKinds) (ecam : BitVec 64) (highMemory : BitVec 64)
  (ioremapSucceeds : Nat → Bool)

variable (request : Request) (machine : Machine ConfigSpace) (width : Nat)
  (writes : request.operation.width = some width) (aligned : width ∣ request.pci.reg.toNat)

include writes aligned

/-- Through the ports, an accepted write splices into the target dword. -/
theorem write_device_ports (ports : request.pci.phyBase = 0)
    (accepted : request.refused
      (registerPlatform kinds ecam.toNat highMemory ioremapSucceeds) = false) :
    (serve (registerPlatform kinds ecam.toNat highMemory ioremapSucceeds) request
        machine).2.device =
      machine.device.write kinds request.targetFunction request.targetDword
        (splice (8 * (request.pci.reg.toNat % 4)) (8 * width) request.pci.buf
          (machine.device request.targetFunction request.targetDword)) := by
  have base : 4096 ∣ request.pci.phyBase.toNat := by
    rw [ports]
    exact Nat.dvd_zero _
  obtain ⟨_, device⟩ := serve_ports _ request machine ports accepted
  have bound := merged_bound request.pci
  have function : request.pci.selected.toNat / 2 ^ 8 % 2 ^ 16 = request.targetFunction := by
    rw [selected_ports _ ports, Request.targetFunction, if_pos ports]
    omega
  have dword : request.pci.selected.toNat % 2 ^ 8 / 4 = request.targetDword := by
    rw [selected_ports _ ports, Request.targetDword, Request.space, if_pos ports]
    omega
  rw [device, written_splice request width writes aligned base]
  simp only [registerPlatform, Option.elim_some, function, dword]

/-- Through an exact mapping, an accepted write splices into the target dword. -/
theorem write_device_mmio (mmio : request.IsMmio)
    (reaches : ReachesWindow (registerPlatform kinds ecam.toNat highMemory ioremapSucceeds) ecam
      request machine)
    (accepted : request.refused
      (registerPlatform kinds ecam.toNat highMemory ioremapSucceeds) = false) :
    (serve (registerPlatform kinds ecam.toNat highMemory ioremapSucceeds) request
        machine).2.device =
      machine.device.write kinds request.targetFunction request.targetDword
        (splice (8 * (request.pci.reg.toNat % 4)) (8 * width) request.pci.buf
          (machine.device request.targetFunction request.targetDword)) := by
  obtain ⟨window, base, consistent, mapped, own⟩ := reaches
  have paged : 4096 ∣ request.pci.phyBase.toNat := base ▸ window.aligned
  obtain ⟨_, device⟩ := serve_mmio _ request machine consistent mmio accepted mapped
  have bound := function_bound request.pci
  have block : request.demand.own = (addrAlighBuf request.pci.addr).toNat := by
    obtain ⟨operation, pci⟩ := request
    cases operation <;> first | rfl | cases writes
  have place : SlotCache.serve 256 machine.window request.demand +
      (dwordOffset request.pci.addr).toNat =
        ecam.toNat + request.pci.function * 2 ^ 12 +
          request.pci.reg.toNat % 2 ^ 12 / 4 * 4 := by
    obtain ⟨pages, multiple⟩ := window.aligned
    rw [own, block, block_add_offset, dword_toNat, addr_mmio _ mmio (base ▸ window.fits), base]
    omega
  have function : request.targetFunction = request.pci.function := if_neg mmio
  have dword : request.targetDword = request.pci.reg.toNat % 2 ^ 12 / 4 * 4 / 4 := by
    rw [Request.targetDword, Request.space, if_neg mmio]
    omega
  rw [device, written_splice request width writes aligned paged, place, Option.elim_some,
    registers_memoryRead _ _ _ _ _ _ _ bound (by omega),
    registers_memoryWrite _ _ _ _ _ _ _ _ bound (by omega), function, dword]

end Registers

/-- An aligned write leaves every byte it does not name as it was if and only if
it is refused or spares its neighbours. -/
theorem write_frame_iff (kinds : RegisterKinds) (ecam highMemory : BitVec 64)
    (ioremapSucceeds : Nat → Bool) (request : Request) (machine : Machine ConfigSpace)
    (width : Nat) (writes : request.operation.width = some width)
    (aligned : width ∣ request.pci.reg.toNat)
    (reaches : request.IsMmio → ReachesWindow
      (registerPlatform kinds ecam.toNat highMemory ioremapSucceeds) ecam request machine) :
    let platform := registerPlatform kinds ecam.toNat highMemory ioremapSucceeds
    (∀ function number, ¬ request.Names width function number →
        (serve platform request machine).2.device.byte function number =
          machine.device.byte function number) ↔
      request.refused platform = true ∨ Spares kinds machine.device request width := by
  intro platform
  cases refused : request.refused platform with
  | true =>
    rw [serve_refused platform request machine refused]
    simp
  | false =>
    have named := names_target_iff request width writes aligned
    have fits := lane_fits request width writes aligned
    have device : (serve platform request machine).2.device =
        machine.device.write kinds request.targetFunction request.targetDword
          (splice (8 * (request.pci.reg.toNat % 4)) (8 * width) request.pci.buf
            (machine.device request.targetFunction request.targetDword)) := by
      by_cases ports : request.pci.phyBase = 0
      · exact write_device_ports kinds ecam highMemory ioremapSucceeds request machine width writes
          aligned ports refused
      · exact write_device_mmio kinds ecam highMemory ioremapSucceeds request machine width writes
          aligned ports (reaches ports) refused
    rw [device, ConfigSpace.write_keeps_iff, Spares]
    simp only [Bool.false_eq_true, false_or]
    constructor
    · intro kept
      refine ⟨fun bit inside => or_iff_not_imp_left.mpr fun outside => ?_,
        fun beyond offset small => ?_⟩
      · have unnamed : ¬ request.Names width request.targetFunction
            (4 * request.targetDword + bit / 8) := by
          rw [named _ (by omega)]
          exact fun lane => outside lane.2
        have same := kept bit inside unnamed
        rw [getLsbD_splice _ _ _ _ _ inside, if_neg (by omega)] at same
        exact (next_self_iff _ _).mp same
      · have inside : 8 * (request.pci.reg.toNat % 4) + offset < 32 := by omega
        have unnamed : ¬ request.Names width request.targetFunction
            (4 * request.targetDword + (8 * (request.pci.reg.toNat % 4) + offset) / 8) := by
          rw [named _ (by omega)]
          exact fun lane => absurd lane.1 (Nat.not_lt.mpr beyond)
        have same := kept _ inside unnamed
        rwa [getLsbD_splice _ _ _ _ _ inside, if_pos (by omega), Nat.add_sub_cancel_left] at same
    · rintro ⟨neighbours, lane⟩ bit inside unnamed
      rw [named _ (by omega)] at unnamed
      rw [getLsbD_splice _ _ _ _ _ inside]
      split
      · next within =>
        have beyond : request.space ≤ request.pci.reg.toNat := by
          by_contra low
          exact unnamed ⟨by omega, by omega, by omega⟩
        have spared := lane beyond (bit - 8 * (request.pci.reg.toNat % 4)) (by omega)
        rwa [Nat.add_sub_cancel' within.1] at spared
      · exact (next_self_iff _ _).mpr ((neighbours bit inside).resolve_left (by omega))

/-- Register kinds of a header: the high half of dword 1 is a status register
whose bits ones clear, everything else is read/write. -/
def statusKinds : RegisterKinds := fun _ dword bit =>
  if dword = 1 ∧ 16 ≤ bit then .writeOneToClear else .readWrite

/-- With no status bit set, a byte write to the Command register through a
mapping is a frame. -/
theorem quiet_command_write_framed :
    let platform := registerPlatform statusKinds 0xe0000000 0x80000000 fun _ => true
    let space : ConfigSpace := fun _ _ => 0x00000007
    let request : Request := ⟨.writeByte, .atRegister 0x04 0xe0000000 6⟩
    ∀ function number, ¬ request.Names 1 function number →
      (serve platform request (Machine.loaded space 0)).2.device.byte function number =
        space.byte function number :=
  (write_frame_iff statusKinds 0xe0000000 0x80000000 (fun _ => true)
    ⟨.writeByte, .atRegister 0x04 0xe0000000 6⟩ (Machine.loaded (fun _ _ => 0x00000007) 0) 1
    rfl (by decide) (fun _ => ⟨⟨by decide, by decide, by decide⟩, rfl,
      Machine.loaded_consistent _ _, Or.inr rfl, rfl⟩)).mpr (Or.inr (by decide +kernel))

/-- With a status bit set, a byte write to the Command register through the ports
writes that bit back and so clears it, three bytes further on. -/
theorem command_write_clears_status :
    let platform := registerPlatform statusKinds 0xe0000000 0x80000000 fun _ => true
    let space : ConfigSpace := fun _ _ => 0x80000007
    let request : Request := ⟨.writeByte, .atRegister 0x04 0 6⟩
    ¬ ∀ function number, ¬ request.Names 1 function number →
      (serve platform request (Machine.loaded space 0)).2.device.byte function number =
        space.byte function number := by
  intro platform space request framed
  have status := framed 0 7 (by simp [Request.Names, request, LfddPcix.atRegister])
  exact absurd status (by decide +kernel)

end Lfdk
