import Lfdk.ConfigSpace
import Lfdk.Transactions

/-!
# The port method and the MMIO method agree

When the window at an MMIO base exposes the registers the ports show, a request
is the same transaction by either method: the block it maps begins at its
function's page, the dword at its offset is the selected register, and both
methods refuse the same requests. Runs of requests then return the same results
and leave the same device, although one of them replaces its mapping on the way.
-/

namespace Lfdk

open Runs

universe u
variable {σ : Type u} (platform : Platform σ)

/-- The same request with another base. -/
def LfddPcix.withBase (pci : LfddPcix) (base : BitVec 64) : LfddPcix :=
  { pci with phyBase := base }

/-- The same request with another base. -/
def Request.withBase (request : Request) (base : BitVec 64) : Request :=
  ⟨request.operation, request.pci.withBase base⟩

/-- A request to the first 256 bytes of a function; a bulk read takes them all. -/
def Request.InHeader (request : Request) : Prop :=
  request.pci.reg.toNat < 2 ^ 8 ∧ (request.operation = .read256byte → request.pci.reg = 0)

/-- Filling a buffer depends on the dwords it is filled with only. -/
theorem fillDwords_congr (dword other : Nat → BitVec 32) (count i : Nat)
    (massBuf : Vector (BitVec 8) 256)
    (same : ∀ offset ∈ List.range' i count 4, dword offset = other offset) :
    fillDwords dword count i massBuf = fillDwords other count i massBuf := by
  induction count generalizing i massBuf with
  | zero => rfl
  | succ count inductionHypothesis =>
    rw [List.range'_succ, List.forall_mem_cons] at same
    rw [fillDwords, fillDwords, same.1]
    exact inductionHypothesis (i + 4) _ same.2

section Base

variable (request : Request) (base : BitVec 64)

/-- Both forms of an address lie in the same lane of their dwords, as bases are multiples of a page.
-/
theorem withBase_lane (ecam : EcamWindow base) :
    (request.pci.withBase 0).addr &&& 0x3 = (request.pci.withBase base).addr &&& 0x3 := by
  rw [← BitVec.toNat_inj, addr_lane _ (by simp [LfddPcix.withBase]),
    addr_lane _ ecam.aligned]
  rfl

/-- The lane bits a word write looks at are among the two low ones. -/
theorem withBase_wordLane (ecam : EcamWindow base) :
    (request.pci.withBase 0).addr &&& 0x2 = (request.pci.withBase base).addr &&& 0x2 := by
  have inside : (0x2 : BitVec 32) = 0x3 &&& 0x2 := by decide
  rw [inside, ← BitVec.and_assoc, ← BitVec.and_assoc, withBase_lane request base ecam]

/-- The answer does not depend on the method: the lane of the dword is the same, and a bulk read
answers with the page alone. -/
theorem withBase_answer (ecam : EcamWindow base) (dword : BitVec 32)
    (page other : Nat → BitVec 32)
    (same : request.operation = .read256byte → ∀ offset ∈ List.range' 0 64 4,
      page offset = other offset) :
    (request.withBase 0).answer dword page = (request.withBase base).answer dword other := by
  have lane := withBase_lane request base ecam
  obtain ⟨operation, pci⟩ := request
  cases operation with
  | readByte | readWord =>
    simp only [Request.answer, Request.withBase, lane]
    rfl
  | readDword | writeByte | writeWord | writeDword => rfl
  | read256byte =>
    simp only [Request.answer, Request.withBase]
    rw [fillDwords_congr page other 64 0 _ (same rfl)]
    rfl

/-- The dword written back does not depend on the method, as the lane it is spliced into is the
same. -/
theorem withBase_written (ecam : EcamWindow base) (dword : BitVec 32) :
    (request.withBase 0).written dword = (request.withBase base).written dword := by
  have lane := withBase_lane request base ecam
  have wordLane := withBase_wordLane request base ecam
  obtain ⟨operation, pci⟩ := request
  cases operation with
  | writeByte =>
    simp only [Request.written, Request.withBase, mergeLane, lane]
    rfl
  | writeWord =>
    simp only [Request.written, Request.withBase, mergeLane, wordLane]
    rfl
  | readByte | readWord | readDword | writeDword | read256byte => rfl

/-- The MMIO form of the address: the base, the page of the function and the register inside it,
without any carry between them. -/
theorem withBase_addr (ecam : EcamWindow base) :
    (request.pci.withBase base).addr.toNat =
      base.toNat + request.pci.function * 2 ^ 12 + request.pci.reg.toNat % 2 ^ 12 :=
  addr_mmio (request.pci.withBase base) ecam.nonzero ecam.fits

/-- The block an MMIO request maps begins at its function's page, where its register is in the
header. -/
theorem withBase_block (ecam : EcamWindow base) (inHeader : request.InHeader) :
    (request.withBase base).block.toNat = base.toNat + request.pci.function * 2 ^ 12 := by
  have address := withBase_addr request base ecam
  obtain ⟨pages, aligned⟩ := ecam.aligned
  obtain ⟨operation, pci⟩ := request
  obtain ⟨low, start⟩ := inHeader
  cases operation with
  | read256byte =>
    have first : pci.reg.toNat = 0 := by simpa using congrArg BitVec.toNat (start rfl)
    simp only [Request.withBase, Request.block, address, first, Nat.zero_mod, Nat.add_zero]
  | readByte | readWord | readDword | writeByte | writeWord | writeDword =>
    simp only [Request.withBase, Request.block, addrAlighBuf_toNat, address]
    simp only at low ⊢
    omega

/-- A request is served its own page, because every cached block begins at a block
boundary. -/
theorem withBase_own (ecam : EcamWindow base) (inHeader : request.InHeader) (window : Option Nat)
    (aligned : ∀ start ∈ window, 256 ∣ start) :
    SlotCache.serve 256 window (request.withBase base).demand =
      base.toNat + request.pci.function * 2 ^ 12 := by
  have block := withBase_block request base ecam inHeader
  have address := withBase_addr request base ecam
  have low := inHeader.1
  obtain ⟨pages, multiple⟩ := ecam.aligned
  rw [SlotCache.serve_aligned 256 window (request.withBase base).demand aligned]
  · exact block
  · simp only [Request.demand, block]
    omega
  · simp only [SlotCache.Hits, Request.demand, block]
    simp only [Request.withBase, address]
    omega

/-- Both methods refuse the same requests: no block of the window lies in RAM, so
what is left is the alignment of a dword write. -/
theorem withBase_refused (ecam : EcamWindow base)
    (aboveRam : platform.highMemory.toNat ≤ base.toNat) (inHeader : request.InHeader) :
    (request.withBase 0).refused platform = (request.withBase base).refused platform := by
  have lane := withBase_lane request base ecam
  have block := withBase_block request base ecam inHeader
  have bound := function_bound request.pci
  have fits := ecam.fits
  have unchecked : invalidMmio platform (request.withBase 0).pci (request.withBase 0).block =
      false := invalidMmio_ports platform _ _ rfl
  have passed : invalidMmio platform (request.withBase base).pci (request.withBase base).block =
      false := by
    have size : lfddMassbufSize.toNat = 256 := by decide
    have exceeded : ¬ ((request.withBase base).block + lfddMassbufSize).setWidth 64 ≤
        platform.highMemory := by
      rw [BitVec.le_def, BitVec.toNat_setWidth, BitVec.toNat_add, size, block]
      omega
    simp [invalidMmio, exceeded]
  rw [Bool.eq_iff_iff, Request.refused_iff, Request.refused_iff, unchecked, passed]
  simp only [Request.withBase, lane]

/-- The dword at the request's offset in its function's page is the register the
ports select. -/
theorem withBase_register (ecam : EcamWindow base) (inHeader : request.InHeader) :
    ∃ register, register < 2 ^ 8 ∧ 4 ∣ register ∧
      (dwordOffset (request.pci.withBase base).addr).toNat = register ∧
      (request.pci.withBase 0).selected =
        BitVec.ofNat 32 (2 ^ 31 + request.pci.function * 2 ^ 8 + register) := by
  have address := withBase_addr request base ecam
  have bound := function_bound request.pci
  have low := inHeader.1
  obtain ⟨pages, aligned⟩ := ecam.aligned
  have offset : (dwordOffset (request.pci.withBase base).addr).toNat =
      request.pci.reg.toNat / 2 ^ 2 * 2 ^ 2 := by
    rw [dwordOffset_toNat, address]
    omega
  have merged : (request.pci.withBase 0).merged = request.pci.function :=
    merged_low (request.pci.withBase 0) low
  have selected : (request.pci.withBase 0).selected.toNat =
      2 ^ 31 + request.pci.function * 2 ^ 8 + request.pci.reg.toNat / 2 ^ 2 * 2 ^ 2 := by
    rw [selected_ports _ rfl, merged]
    simp only [LfddPcix.withBase]
    omega
  refine ⟨_, ?_, ⟨request.pci.reg.toNat / 2 ^ 2, by omega⟩, offset, ?_⟩
  · omega
  · rw [← BitVec.toNat_inj, selected, BitVec.toNat_ofNat]
    omega

/-- A bulk read selects the dwords of its function's page one by one. -/
theorem withBase_page (inHeader : request.InHeader) (bulk : request.operation = .read256byte)
    (offset : Nat) :
    (request.pci.withBase 0).addr + BitVec.ofNat 32 offset =
      BitVec.ofNat 32 (2 ^ 31 + request.pci.function * 2 ^ 8 + offset) := by
  have first : request.pci.reg.toNat = 0 := by
    simpa using congrArg BitVec.toNat (inHeader.2 bulk)
  have merged : (request.pci.withBase 0).merged = request.pci.function :=
    merged_low (request.pci.withBase 0) inHeader.1
  have address : (request.pci.withBase 0).addr.toNat =
      2 ^ 31 + request.pci.function * 2 ^ 8 := by
    rw [addr_ports _ rfl, merged]
    simp only [LfddPcix.withBase, first]
    omega
  rw [← BitVec.toNat_inj, BitVec.toNat_add, BitVec.toNat_ofNat, BitVec.toNat_ofNat, address]
  omega

end Base

/-- The port run and the MMIO run have the same device; the MMIO run's mapping
is in step and begins at a block boundary. -/
def SameDevice (left right : Machine σ) : Prop :=
  left.device = right.device ∧ right.Consistent ∧ ∀ start ∈ right.window, 256 ∣ start

/-- Serving a request with a given base, as the caller sees it. -/
def serveWith (base : BitVec 64) (request : Request) (machine : Machine σ) :
    (Option (BitVec 32) × Vector (BitVec 8) 256) × Machine σ :=
  let (reply, after) := serve platform (request.withBase base) machine
  (reply.result, after)

/-- One request returns the same result by either method and keeps the machines
related. The MMIO request is served its function's page, which shows the registers
the ports show. -/
theorem serveWith_agree (mapped : ∀ call, platform.ioremapSucceeds call = true)
    (base : BitVec 64) (ecam : EcamWindow base)
    (aboveRam : platform.highMemory.toNat ≤ base.toNat)
    (exposed : ExposesEcam platform base.toNat) (request : Request)
    (inHeader : request.InHeader) (left right : Machine σ) (same : SameDevice left right) :
    (serveWith platform 0 request left).1 = (serveWith platform base request right).1 ∧
      SameDevice (serveWith platform 0 request left).2
        (serveWith platform base request right).2 := by
  obtain ⟨device, consistent, aligned⟩ := same
  have mmio : (request.withBase base).IsMmio := ecam.nonzero
  have refusals := withBase_refused platform request base ecam aboveRam inHeader
  cases refused : (request.withBase base).refused platform with
  | true =>
    rw [refused] at refusals
    simp only [serveWith, serve_refused platform _ _ refused, serve_refused platform _ _ refusals]
    refine ⟨?_, device, consistent, aligned⟩
    obtain ⟨operation, pci⟩ := request
    cases operation <;> rfl
  | false =>
    rw [refused] at refusals
    have bound := function_bound request.pci
    have baseAligned := ecam.aligned
    have own := withBase_own request base ecam inHeader right.window aligned
    obtain ⟨leftResult, leftDevice⟩ := serve_ports platform (request.withBase 0) left rfl refusals
    obtain ⟨rightResult, rightDevice⟩ := serve_mmio platform (request.withBase base) right
      consistent mmio refused (Or.inr (mapped _))
    obtain ⟨found, windowed, _⟩ := serve_mapped platform (request.withBase base) right
      consistent mmio refused (Or.inr (mapped _))
    obtain ⟨register, small, dword, offset, selected⟩ :=
      withBase_register request base ecam inHeader
    have readSame : platform.configRead left.device (request.pci.withBase 0).selected =
        platform.memoryRead right.device
          (base.toNat + request.pci.function * 2 ^ 12 + register) := by
      rw [exposed.read _ _ _ bound small dword, device, selected]
    have writeSame : platform.configWrite left.device (request.pci.withBase 0).selected =
        platform.memoryWrite right.device
          (base.toNat + request.pci.function * 2 ^ 12 + register) := by
      funext value
      rw [exposed.write _ _ _ _ bound small dword, device, selected]
    simp only [Request.withBase] at leftResult leftDevice rightResult rightDevice own
    rw [own, offset] at rightResult rightDevice
    refine ⟨?_, ?_, found, ?_⟩
    · refine leftResult.trans (Eq.trans ?_ rightResult.symm)
      rw [readSame]
      refine withBase_answer request base ecam _ _ _ fun bulk page member => ?_
      obtain ⟨step, below, rfl⟩ := List.mem_range'.mp member
      rw [withBase_page request inHeader bulk, device,
        exposed.read _ _ _ bound (by omega) (by omega)]
    · refine leftDevice.trans (Eq.trans ?_ rightDevice.symm)
      rw [readSame, writeSame, device]
      rw [show (⟨request.operation, request.pci.withBase 0⟩ : Request) = request.withBase 0 from rfl,
        withBase_written request base ecam]
      rfl
    · intro start remembered
      have page : base.toNat + request.pci.function * 2 ^ 12 = start :=
        Option.some.inj ((windowed.trans (congrArg some own)).symm.trans remembered)
      omega

/-- Running any requests to the first 256 bytes of any functions with no base,
and running them with the base of an ECAM window, returns the same results
request by request and leaves the same device. -/
theorem methods_agree (mapped : ∀ call, platform.ioremapSucceeds call = true)
    (base : BitVec 64) (ecam : EcamWindow base)
    (aboveRam : platform.highMemory.toNat ≤ base.toNat)
    (exposed : ExposesEcam platform base.toNat) (device : σ) (configAddress : BitVec 32)
    (requests : List Request) (inHeader : ∀ request ∈ requests, request.InHeader) :
    outputs (serveWith platform 0) requests (Machine.loaded device configAddress) =
        outputs (serveWith platform base) requests (Machine.loaded device configAddress) ∧
      (final (serveWith platform 0) requests (Machine.loaded device configAddress)).device =
        (final (serveWith platform base) requests (Machine.loaded device configAddress)).device := by
  obtain ⟨results, same⟩ := simulation (serveWith platform 0) (serveWith platform base) SameDevice
    requests (Machine.loaded device configAddress) (Machine.loaded device configAddress)
    ⟨rfl, Machine.loaded_consistent device configAddress, by simp⟩
    (fun request inside left right related => serveWith_agree platform mapped base ecam
      aboveRam exposed request (inHeader request inside) left right related)
  exact ⟨results, same.1⟩

/-- Updating the Command register, reading an unaligned word and reading a page,
on a platform of read/write registers with its window at 0xe0000000. -/
theorem command_update_agrees :
    let platform := registerPlatform (fun _ _ _ => .readWrite) 0xe0000000 0x80000000 fun _ => true
    let space : ConfigSpace := fun _ _ => 0x00100007
    let requests : List Request :=
      [⟨.writeWord, .atRegister 0x04 0 0x0406⟩, ⟨.readWord, .atRegister 0x07 0 0⟩,
        ⟨.writeDword, .atRegister 0x11 0 0⟩, ⟨.read256byte, .atRegister 0 0 0⟩]
    outputs (serveWith platform 0) requests (Machine.loaded space 0) =
        outputs (serveWith platform 0xe0000000) requests (Machine.loaded space 0) ∧
      (final (serveWith platform 0) requests (Machine.loaded space 0)).device =
        (final (serveWith platform 0xe0000000) requests (Machine.loaded space 0)).device :=
  methods_agree (registerPlatform (fun _ _ _ => .readWrite) 0xe0000000 0x80000000 fun _ => true)
    (fun _ => rfl) 0xe0000000 ⟨by decide, by decide, by decide⟩ (by decide)
    (registers_exposed _ _ _ _) _ 0 _
    (by simp [Request.InHeader, LfddPcix.atRegister])

end Lfdk
