import Lfdk.AccessEffects
import Lfdk.Runs
import Lfdk.SlotCache
import Lfdk.Words

/-!
# The driver's mapping as a one-slot cache

`phy2virt_mem` and `phy_map_start_addr` hold one mapped block. In every state a
run can reach the pointer is null or names a live mapping of the block the start
says. Under that invariant the mapping phase is a demand on a one-slot cache,
and an access phase reaches the cached block at the offsets of its operation.

The invariant does not say that the cached block is the one a request asked for.
That is the subject of the modules built on this one.
-/

namespace Lfdk

universe u
variable {σ : Type u} (platform : Platform σ)

/-- A request that names an MMIO base. -/
def Request.IsMmio (request : Request) : Prop := request.pci.phyBase ≠ 0

/-- What a request asks of the cache: its own block, and the address tested. -/
def Request.demand (request : Request) : SlotCache.Demand :=
  ⟨request.block.toNat, request.pci.addr.toNat⟩

namespace Machine

/-- The physical start of the mapped block. -/
def window (machine : Machine σ) : Option Nat :=
  machine.phy2virtMem.map fun _ => machine.phyMapStartAddr.toNat

/-- As the module is loaded no block is mapped, so the first MMIO request is a miss. -/
@[simp] theorem loaded_window (device : σ) (configAddress : BitVec 32) :
    (loaded device configAddress).window = none := rfl

/-- The pointer is null or a live mapping of the block that starts where the
driver remembers, below 4 GiB. -/
def Consistent (machine : Machine σ) : Prop :=
  machine.phyMapStartAddr.toNat < 2 ^ 32 ∧
    ∀ mapping ∈ machine.phy2virtMem,
      machine.live mapping = some machine.phyMapStartAddr.toNat

/-- So the pointer and the address agree then, which is where the invariant starts. -/
theorem loaded_consistent (device : σ) (configAddress : BitVec 32) :
    (loaded device configAddress).Consistent := by
  simp [Consistent, loaded]

/-- In a consistent state an access through the pointer reaches the window. -/
theorem place_window (machine : Machine σ) (consistent : machine.Consistent) (offset : Nat) :
    machine.place machine.phy2virtMem offset = machine.window.map (· + offset) := by
  cases pointer : machine.phy2virtMem with
  | none => simp [place, window, pointer]
  | some mapping =>
    have live := consistent.2 mapping pointer
    simp [place, window, pointer, live]

end Machine

/-- A 32-bit address keeps its value in a 64-bit variable, so the driver's comparison is one of
numbers. -/
theorem widened_toNat (addr : BitVec 32) : (addr.setWidth 64).toNat = addr.toNat := by
  have bound := addr.isLt
  rw [BitVec.toNat_setWidth]
  omega

/-- The driver's hit test is the cache's, as long as the start is below 4 GiB. -/
theorem outRange_iff (addr : BitVec 32) (start : BitVec 64) (low : start.toNat < 2 ^ 32) :
    outRange (addr.setWidth 64) start (lfddMassbufSize.setWidth 64) = true ↔
      ¬ SlotCache.Hits 256 start.toNat addr.toNat := by
  have bound : addr.toNat < 2 ^ 32 := addr.isLt
  have size : (lfddMassbufSize.setWidth 64).toNat = 256 := by decide
  have wide := widened_toNat addr
  have ending : (start + lfddMassbufSize.setWidth 64).toNat = start.toNat + 256 := by
    rw [BitVec.toNat_add, size]
    omega
  simp only [outRange, Bool.or_eq_true, decide_eq_true_eq, BitVec.lt_def, BitVec.le_def, wide,
    ending, SlotCache.Hits]
  omega

/-- The cached block contains the request's address. -/
def Request.Cached (request : Request) (machine : Machine σ) : Prop :=
  ∃ start ∈ machine.window, SlotCache.Hits 256 start request.pci.addr.toNat

/-- A hit keeps the mapping: no `iounmap` and no `ioremap` is called, and the whole machine stays as
it is. -/
theorem mapBlock_cached (request : Request) (machine : Machine σ)
    (consistent : machine.Consistent) (cached : request.Cached machine) :
    mapBlock platform request.pci request.block machine = machine := by
  obtain ⟨start, windowed, hit⟩ := cached
  cases pointer : machine.phy2virtMem with
  | none => simp [Machine.window, pointer] at windowed
  | some mapping =>
    have same : machine.phyMapStartAddr.toNat = start := by
      simpa [Machine.window, pointer] using windowed
    have inside : outRange (request.pci.addr.setWidth 64) machine.phyMapStartAddr
        (lfddMassbufSize.setWidth 64) = false := by
      rw [Bool.eq_false_iff]
      intro outside
      rw [outRange_iff _ _ consistent.1, same] at outside
      exact outside hit
    rw [mapBlock, pointer]
    simp [inside]

/-- Releasing a mapping is no access, so it adds nothing to the places that a request touched. -/
theorem places_released (released : List Event)
    (releases : ∀ event ∈ released, ∃ old, event = Event.iounmap old) : places released = [] := by
  rw [places, List.filterMap_eq_nil_iff]
  intro event member
  obtain ⟨old, rfl⟩ := releases event member
  rfl

/-- A miss replaces the mapping: a mapping that was there is released, one call
of `ioremap` is made for the request's own block, and its result is kept whether
or not it is a mapping. -/
theorem mapBlock_missed (request : Request) (machine : Machine σ)
    (consistent : machine.Consistent) (mmio : request.IsMmio)
    (missed : ¬ request.Cached machine) :
    ∃ live released mapping,
      mapBlock platform request.pci request.block machine =
        { machine with
          live := live
          ioremapCalls := machine.ioremapCalls + 1
          phy2virtMem := mapping
          phyMapStartAddr := request.block.setWidth 64 }.logged
            (released ++ [Event.ioremap request.block.toNat mapping]) ∧
      mapping = (if platform.ioremapSucceeds machine.ioremapCalls then
        some machine.ioremapCalls else none) ∧
      (∀ installed ∈ mapping, live installed = some request.block.toNat) ∧
      ∀ event ∈ released, ∃ old, event = Event.iounmap old := by
  have replaced : ∃ before released, (∀ event ∈ released, ∃ old, event = Event.iounmap old) ∧
      mapBlock platform request.pci request.block machine =
        remap platform request.block ({ machine with live := before }.logged released) := by
    rcases Option.eq_none_or_eq_some machine.phy2virtMem with pointer | ⟨old, pointer⟩
    · have first : mapBlock platform request.pci request.block machine =
          remap platform request.block machine := by
        rw [mapBlock, if_neg mmio, pointer]
      exact ⟨machine.live, [], by simp, by rw [first, Machine.logged_nil]⟩
    · have outside : outRange (request.pci.addr.setWidth 64) machine.phyMapStartAddr
          (lfddMassbufSize.setWidth 64) = true := by
        rw [outRange_iff _ _ consistent.1]
        intro hit
        exact missed ⟨_, by simp [Machine.window, pointer], hit⟩
      have again : mapBlock platform request.pci request.block machine =
          remap platform request.block (iounmap old machine) := by
        rw [mapBlock, if_neg mmio, pointer]
        simp [outside]
      exact ⟨Function.update machine.live old none, [.iounmap old], by simp, again⟩
  obtain ⟨before, released, releases, replaced⟩ := replaced
  by_cases success : platform.ioremapSucceeds machine.ioremapCalls
  · refine ⟨Function.update before machine.ioremapCalls (some request.block.toNat), released,
      some machine.ioremapCalls, ?_, by simp [success], by simp, releases⟩
    rw [replaced]
    simp [remap, ioremap, success, Machine.logged]
  · refine ⟨before, released, none, ?_, by simp [success], by simp, releases⟩
    rw [replaced]
    simp [remap, ioremap, success, Machine.logged]

/-- A request whose block is mapped or can be mapped. -/
def Request.Mapped (request : Request) (machine : Machine σ) : Prop :=
  request.Cached machine ∨ platform.ioremapSucceeds machine.ioremapCalls = true

/-- The mapping phase refines the one-slot cache: when it has a mapping to use,
the block in effect is the one the cache serves. Its record holds no access, and
any block it maps is the request's own and is the one in effect. -/
theorem mapBlock_serves (request : Request) (machine : Machine σ)
    (consistent : machine.Consistent) (mmio : request.IsMmio)
    (mapped : request.Mapped platform machine) :
    ∃ recorded,
      (mapBlock platform request.pci request.block machine).events =
        machine.events ++ recorded ∧
      places recorded = [] ∧
      (mapBlock platform request.pci request.block machine).Consistent ∧
      (mapBlock platform request.pci request.block machine).window =
        some (SlotCache.serve 256 machine.window request.demand) ∧
      (∀ start mapping, Event.ioremap start mapping ∈ recorded →
        start = request.block.toNat ∧ mapping ≠ none ∧
          SlotCache.serve 256 machine.window request.demand = start) ∧
      (¬ request.Cached machine →
        ∃ mapping, Event.ioremap request.block.toNat mapping ∈ recorded) := by
  by_cases cached : request.Cached machine
  · obtain ⟨start, windowed, hit⟩ := cached
    refine ⟨[], ?_⟩
    rw [mapBlock_cached platform request machine consistent ⟨start, windowed, hit⟩]
    have remembered : machine.window = some start := windowed
    have kept : SlotCache.serve 256 (some start) request.demand = start := by
      simp [SlotCache.serve, Request.demand, hit]
    have cached : request.Cached machine := ⟨start, windowed, hit⟩
    simp [places, consistent, remembered, kept, cached]
  · have success := mapped.resolve_left cached
    obtain ⟨live, released, mapping, replaced, result, installed, releases⟩ :=
      mapBlock_missed platform request machine consistent mmio cached
    rw [if_pos success] at result
    have own : SlotCache.serve 256 machine.window request.demand = request.block.toNat := by
      cases windowed : machine.window with
      | none => rfl
      | some start =>
        have outside : ¬ SlotCache.Hits 256 start request.demand.address :=
          fun hit => cached ⟨start, windowed, hit⟩
        exact (SlotCache.serve_own_iff 256 start request.demand).mpr (Or.inr outside)
    have low := widened_toNat request.block
    have quiet := places_released released releases
    refine ⟨released ++ [.ioremap request.block.toNat mapping], ?_⟩
    rw [replaced, own]
    refine ⟨rfl, ?_, ⟨?_, ?_⟩, ?_, ?_, fun _ => ⟨mapping, by simp⟩⟩
    · rw [places_append, quiet]
      rfl
    · simpa [low] using request.block.isLt
    · simpa [low] using installed
    · simp [Machine.window, result, low]
    · intro start other member
      rcases List.mem_append.mp member with release | last
      · obtain ⟨old, impossible⟩ := releases _ release
        cases impossible
      · simp only [List.mem_singleton, Event.ioremap.injEq] at last
        exact ⟨last.1, by simp [last.2, result], last.1.symm⟩

/-- A refused request does nothing but return the value it is refused with; the record of accesses
is empty. -/
theorem serve_refused (request : Request) (machine : Machine σ)
    (refused : request.refused platform = true) :
    serve platform request machine = (request.refusal, machine.cleared) := by
  rw [serve, perform_phases, if_pos refused]

/-- A request that is not refused is its mapping phase and its access phase. -/
theorem serve_accepted (request : Request) (machine : Machine σ)
    (accepted : request.refused platform = false) :
    serve platform request machine =
      request.access platform
        (mapBlock platform request.pci request.block machine.cleared) := by
  rw [serve, perform_phases, if_neg (by simp [accepted])]

/-- Every operation accesses at least one dword, so an accepted request reaches its block. -/
theorem offsets_nonempty (request : Request) : request.offsets ≠ [] := by
  obtain ⟨operation, pci⟩ := request
  cases operation <;> simp [Request.offsets]

/-- An accepted MMIO request with a mapping to use reaches the block the cache
serves, at the offsets of its operation, and leaves that block mapped. -/
theorem serve_mapped (request : Request) (machine : Machine σ)
    (consistent : machine.Consistent) (mmio : request.IsMmio)
    (accepted : request.refused platform = false) (mapped : request.Mapped platform machine) :
    let start := SlotCache.serve 256 machine.window request.demand
    let after := (serve platform request machine).2
    after.Consistent ∧ after.window = some start ∧
      places after.events = request.offsets.map (fun offset => some (start + offset)) ∧
      (∀ block mapping, Event.ioremap block mapping ∈ after.events →
        block = request.block.toNat ∧ block = start ∧ mapping ≠ none) ∧
      (¬ request.Cached machine →
        ∃ mapping, Event.ioremap request.block.toNat mapping ∈ after.events) := by
  intro start after
  obtain ⟨mappingRecord, recorded, quiet, found, windowed, installs, missed⟩ :=
    mapBlock_serves platform request machine.cleared consistent mmio mapped
  obtain ⟨device, accessRecord, accessed, _, memory, reached⟩ :=
    access_mmio platform (mapBlock platform request.pci request.block machine.cleared)
      request mmio
  have result : after = _ := congrArg Prod.snd (serve_accepted platform request machine accepted)
  rw [accessed] at result
  have events : after.events = mappingRecord ++ accessRecord := by
    rw [result, Machine.logged_events, recorded]
    rfl
  rw [events, places_append, quiet, reached, List.nil_append]
  refine ⟨result ▸ found, result ▸ windowed, ?_, ?_, ?_⟩
  · apply List.map_congr_left
    intro offset _
    rw [Machine.place_window _ found, windowed]
    rfl
  · intro block mapping member
    rcases List.mem_append.mp member with mappedNow | accessedNow
    · obtain ⟨own, installed, same⟩ := installs block mapping mappedNow
      exact ⟨own, same.symm, installed⟩
    · exact absurd (memory _ accessedNow) (by simp [Event.IsMemory])
  · intro uncached
    obtain ⟨mapping, member⟩ := missed uncached
    exact ⟨mapping, List.mem_append_left _ member⟩

/-- An accepted MMIO request without a mapping to use calls `ioremap` in vain,
and then accesses the null pointer at every offset of its operation. -/
theorem serve_unmapped (request : Request) (machine : Machine σ)
    (consistent : machine.Consistent) (mmio : request.IsMmio)
    (accepted : request.refused platform = false) (unmapped : ¬ request.Mapped platform machine) :
    let after := (serve platform request machine).2
    after.Consistent ∧
      places after.events = request.offsets.map (fun _ => none) ∧
      Event.ioremap request.block.toNat none ∈ after.events := by
  intro after
  obtain ⟨uncached, failed⟩ := not_or.mp unmapped
  obtain ⟨live, released, mapping, replaced, result, _, releases⟩ :=
    mapBlock_missed platform request machine.cleared consistent mmio uncached
  rw [Machine.cleared_ioremapCalls, if_neg failed] at result
  obtain ⟨device, recorded, accessed, _, _, reached⟩ :=
    access_mmio platform (mapBlock platform request.pci request.block machine.cleared)
      request mmio
  have ended : after = _ := congrArg Prod.snd (serve_accepted platform request machine accepted)
  rw [accessed, replaced, result] at ended
  rw [replaced, result] at reached
  have quiet := places_released released releases
  have low : (request.block.setWidth 64).toNat < 2 ^ 32 := by
    rw [widened_toNat]
    exact request.block.isLt
  have events : after.events =
      (released ++ [.ioremap request.block.toNat none]) ++ recorded := by
    rw [ended]
    simp
  refine ⟨?_, ?_, by rw [events]; simp⟩
  · rw [ended]
    exact ⟨low, by simp⟩
  · rw [events, places_append, places_append, quiet, reached]
    exact List.map_congr_left fun _ _ => rfl

/-- Every MMIO request keeps the driver's two globals in step with the mapping
table, whatever `ioremap` answers. -/
theorem serve_consistent (request : Request) (machine : Machine σ)
    (consistent : machine.Consistent) (mmio : request.IsMmio) :
    (serve platform request machine).2.Consistent := by
  cases refused : request.refused platform with
  | true =>
    rw [serve_refused platform request machine refused]
    exact consistent
  | false =>
    by_cases mapped : request.Mapped platform machine
    · exact (serve_mapped platform request machine consistent mmio refused mapped).1
    · exact (serve_unmapped platform request machine consistent mmio refused mapped).1

end Lfdk
