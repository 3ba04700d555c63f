import Lfdk.MappedPlaces

/-!
# The address that is meant and the address that is used

The address of an MMIO request is a 64-bit sum of the base and the fields of the request.
The operations keep its low 32 bits, and everything they do afterwards, the alignment, the
RAM check, the mapping and the accesses, they do with those. Nothing compares them with the
sum. So a request that is not refused goes to the address that is meant exactly when that
address is below 4 GiB.
-/

namespace Lfdk

universe u
variable {σ : Type u} (platform : Platform σ)

/-- The 64-bit address that the fields of an MMIO request stand for. -/
def LfddPcix.fullAddress (pci : LfddPcix) : BitVec 64 :=
  pci.phyBase + (pci.bus.setWidth 64 <<< 20 ||| (pci.dev.setWidth 64 &&& 0x1f) <<< 15 |||
    (pci.func.setWidth 64 &&& 0x07) <<< 12 ||| (pci.reg.setWidth 64 &&& 0x0fff))

/-- The driver computes this address before it cuts it to the 32 bits it maps by. -/
theorem calPcixAddr_full (pci : LfddPcix) (mmio : pci.phyBase ≠ 0) :
    lfddCalPcixAddr pci = pci.fullAddress := by
  have fields : (((pci.bus.setWidth 64 &&& 0xff) <<< 5 ||| (pci.dev.setWidth 64 &&& 0x1f)) <<< 3 |||
      (pci.func.setWidth 64 &&& 0x07)) <<< 12 =
        pci.bus.setWidth 64 <<< 20 ||| (pci.dev.setWidth 64 &&& 0x1f) <<< 15 |||
          (pci.func.setWidth 64 &&& 0x07) <<< 12 := by
    have low : (pci.bus.setWidth 64 &&& 0xff : BitVec 64) = pci.bus.setWidth 64 := by
      apply BitVec.eq_of_toNat_eq
      have bound := pci.bus.isLt
      rw [show (0xff : BitVec 64) = BitVec.twoPow 64 8 - 1#64 by decide,
        Words.low_toNat _ (by decide), BitVec.toNat_setWidth]
      omega
    rw [low, BitVec.shiftLeft_or_distrib, BitVec.shiftLeft_or_distrib, BitVec.shiftLeft_or_distrib,
      ← BitVec.shiftLeft_add, ← BitVec.shiftLeft_add, ← BitVec.shiftLeft_add]
  rw [lfddCalPcixAddr, if_neg mmio, fields, LfddPcix.fullAddress, BitVec.add_comm]

/-- Cutting an address to 32 bits keeps it exactly when it fits. -/
theorem cut_eq_iff (address : BitVec 64) :
    (address.setWidth 32).setWidth 64 = address ↔ address.toNat < 2 ^ 32 := by
  rw [← BitVec.toNat_inj, BitVec.toNat_setWidth, BitVec.toNat_setWidth]
  have bound := address.isLt
  omega

/-- The block that an operation maps for an address is mapped, and the places it goes to are
those of the address: its dword, or the 64 dwords from it on. -/
def ReachesAddress (operation : Operation) (address : Nat) (events : List Event) : Prop :=
  match operation with
  | .read256byte =>
    (∃ mapping, Event.ioremap address (some mapping) ∈ events) ∧
      places events = (List.range' 0 64 4).map fun offset => some (address + offset)
  | _ =>
    (∃ mapping, Event.ioremap (address / 2 ^ 8 * 2 ^ 8) (some mapping) ∈ events) ∧
      places events ≠ [] ∧ ∀ place ∈ places events, place = some (address / 2 ^ 2 * 2 ^ 2)

/-- From a state without a mapping, an accepted request maps and reaches its cut address. -/
theorem serve_reaches (request : Request) (machine : Machine σ) (consistent : machine.Consistent)
    (unmapped : machine.phy2virtMem = none)
    (succeeds : platform.ioremapSucceeds machine.ioremapCalls = true) (mmio : request.IsMmio)
    (accepted : request.refused platform = false) :
    ReachesAddress request.operation request.pci.addr.toNat
      (serve platform request machine).2.events := by
  have none : machine.window = none := by rw [Machine.window, unmapped]; rfl
  have uncached : ¬ request.Cached machine := by
    rintro ⟨start, remembered, _⟩
    rw [none] at remembered
    exact Option.not_mem_none start remembered
  have mapped : request.Mapped platform machine := .inr succeeds
  obtain ⟨_, _, _, installs, missed⟩ :=
    serve_mapped platform request machine consistent mmio accepted mapped
  obtain ⟨mapping, recorded⟩ := missed uncached
  obtain ⟨_, _, present⟩ := installs _ _ recorded
  obtain ⟨installed, rfl⟩ := Option.ne_none_iff_exists'.mp present
  have own : SlotCache.serve 256 machine.window request.demand = request.demand.own := by
    rw [none]
    rfl
  have located := (located_iff platform request machine consistent mmio accepted mapped).mpr own
  obtain ⟨operation, pci⟩ := request
  cases operation with
  | read256byte => exact ⟨⟨installed, recorded⟩, located⟩
  | readByte | readWord | readDword | writeByte | writeWord | writeDword =>
    obtain ⟨nonempty, same⟩ := located
    refine ⟨⟨installed, ?_⟩, nonempty, ?_⟩
    · have start := addrAlighBuf_toNat pci.addr
      rw [← start]
      exact recorded
    · intro place member
      rw [same place member, dword_toNat]

/-- A request is refused, or the address it goes on with is the one that is meant: it keeps its
value, and without a mapping it is the address that is mapped and reached. -/
def Untruncated (request : Request) : Prop :=
  request.refused platform = true ∨
    request.pci.addr.setWidth 64 = request.pci.fullAddress ∧
      ∀ machine : Machine σ, machine.Consistent → machine.phy2virtMem = none →
        platform.ioremapSucceeds machine.ioremapCalls = true →
        ReachesAddress request.operation request.pci.fullAddress.toNat
          (serve platform request machine).2.events

/-- An address is used as it is meant exactly when the request is refused or the address lies
below 4 GiB. -/
theorem untruncated_iff (request : Request) (mmio : request.IsMmio) :
    Untruncated platform request ↔
      request.refused platform = true ∨ request.pci.fullAddress.toNat < 2 ^ 32 := by
  have cut : request.pci.addr = request.pci.fullAddress.setWidth 32 := by
    rw [LfddPcix.addr, calPcixAddr_full request.pci mmio]
  constructor
  · rintro (refused | ⟨same, _⟩)
    · exact .inl refused
    · rw [cut] at same
      exact .inr ((cut_eq_iff _).mp same)
  · rintro (refused | low)
    · exact .inl refused
    · by_cases refused : request.refused platform = true
      · exact .inl refused
      · have same : request.pci.addr.setWidth 64 = request.pci.fullAddress := by
          rw [cut]
          exact (cut_eq_iff _).mpr low
        refine .inr ⟨same, fun machine consistent unmapped succeeds => ?_⟩
        rw [← same, widened_toNat]
        exact serve_reaches platform request machine consistent unmapped succeeds mmio
          (by simpa using refused)

/-- A base below 4 GiB is passed on whole: the request maps and touches the places it names. -/
theorem low_base_untruncated :
    Untruncated (Platform.constant 0 0x80000000 fun _ => true)
      ⟨.readByte, .atRegister 0x10 0xe0000000 0⟩ :=
  (untruncated_iff _ ⟨.readByte, .atRegister 0x10 0xe0000000 0⟩
    (by simp [Request.IsMmio, LfddPcix.atRegister])).mpr (.inr (by decide))

/-- A base above 4 GiB is not refused. The block at 0xe0000000 is mapped and read in place of
the one at 0x1e0000000. -/
theorem high_base_truncated :
    let platform := Platform.constant 0 0x80000000 fun _ => true
    let request : Request := ⟨.readByte, .atRegister 0 0x1e0000000 0⟩
    request.refused platform = false ∧ request.pci.fullAddress = 0x1e0000000 ∧
      Event.ioremap 0xe0000000 (some 0) ∈
        (serve platform request (Machine.loaded () 0)).2.events ∧
      places (serve platform request (Machine.loaded () 0)).2.events = [some 0xe0000000] ∧
      ¬ Untruncated platform request := by
  intro platform request
  refine ⟨by decide +kernel, by decide +kernel, by decide +kernel, by decide +kernel, ?_⟩
  rintro (refused | ⟨same, _⟩)
  · exact absurd refused (by decide +kernel)
  · exact absurd same (by decide +kernel)

end Lfdk
