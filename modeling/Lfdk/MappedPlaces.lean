import Lfdk.MappingCache
import Lfdk.PciAddress

/-!
# Where MMIO requests end up

A run of MMIO requests starts with no block mapped. What each accepted request
touches is decided by the block the one-slot cache serves it, so a property of
all places reached in a run becomes a property of the served blocks.

Three questions are settled for whole runs: whether every request reaches the
place it computed, whether any RAM is mapped or touched, and whether any access
goes through a null or released mapping. None of the three holds for every run;
each result gives the exact condition on the requests or on `ioremap`.
-/

namespace Lfdk

open Runs

universe u
variable {σ : Type u} (platform : Platform σ)

/-- The requests of a run that are not refused, as demands on the cache. -/
def demands (requests : List Request) : List SlotCache.Demand :=
  (requests.filter fun request => !request.refused platform).map Request.demand

/-- A judgement of accepted requests that depends only on the block they are
served holds throughout a run exactly when it holds of every block the cache
serves. A judgement may rely on what earlier judgements ensure of the cached
block; the induction hands it from one request to the next. -/
theorem run_refines (Good : Request → List Event → Prop)
    (Fits : SlotCache.Demand → Nat → Prop) (Sound : Option Nat → Prop)
    (ensured : ∀ demand start, Fits demand start → Sound (some start))
    (judged : ∀ (request : Request) (machine : Machine σ), machine.Consistent →
      Sound machine.window → request.IsMmio → request.refused platform = false →
      (Good request (serve platform request machine).2.events ↔
        Fits request.demand (SlotCache.serve 256 machine.window request.demand)))
    (mapped : ∀ call, platform.ioremapSucceeds call = true)
    (requests : List Request) (mmio : ∀ request ∈ requests, request.IsMmio)
    (machine : Machine σ) (consistent : machine.Consistent) (sound : Sound machine.window) :
    (∀ stage ∈ stages (serve platform) requests machine,
        stage.input.refused platform = false → Good stage.input stage.after.events) ↔
      List.Forall₂ Fits (demands platform requests)
        (SlotCache.starts 256 machine.window (demands platform requests)) := by
  induction requests generalizing machine with
  | nil => simp [demands, SlotCache.starts]
  | cons request rest inductionHypothesis =>
    have first : request.IsMmio := mmio request List.mem_cons_self
    have others : ∀ other ∈ rest, other.IsMmio :=
      fun other inside => mmio other (List.mem_cons_of_mem request inside)
    rw [stages_cons, List.forall_mem_cons]
    cases refused : request.refused platform with
    | true =>
      have idle := serve_refused platform request machine refused
      have listed : demands platform (request :: rest) = demands platform rest := by
        simp [demands, refused]
      rw [idle, listed]
      simp only [Bool.true_eq_false, false_implies, true_and]
      exact inductionHypothesis others machine.cleared consistent sound
    | false =>
      obtain ⟨found, windowed, _⟩ := serve_mapped platform request machine consistent first
        refused (Or.inr (mapped _))
      have head := judged request machine consistent sound first refused
      have listed : demands platform (request :: rest) =
          request.demand :: demands platform rest := by
        simp [demands, refused]
      rw [listed, SlotCache.starts, List.forall₂_cons]
      simp only [true_implies, head]
      apply and_congr_right
      intro fits
      have tail := inductionHypothesis others (serve platform request machine).2 found
        (windowed ▸ ensured _ _ fits)
      rw [windowed] at tail
      exact tail

/-- The accesses of a request reach exactly the place it computed: the dword its
address lies in, or for the bulk read the 256 bytes from its address on. -/
def Located (request : Request) (events : List Event) : Prop :=
  match request.operation with
  | .read256byte =>
    places events = (List.range' 0 64 4).map fun offset => some (request.pci.addr.toNat + offset)
  | _ =>
    places events ≠ [] ∧
      ∀ place ∈ places events, place = some (request.pci.addr &&& ~~~3).toNat

instance (request : Request) (events : List Event) : Decidable (Located request events) := by
  unfold Located
  split <;> infer_instance

/-- Accesses at the offsets of a request reach its place exactly when the block
they go through is the one it asks for. -/
theorem located_reached_iff (request : Request) (events : List Event) (start : Nat)
    (reached : places events = request.offsets.map fun offset => some (start + offset)) :
    Located request events ↔ start = request.demand.own := by
  obtain ⟨operation, pci⟩ := request
  have sum := block_add_offset pci.addr
  cases operation with
  | read256byte =>
    simp only [Located, reached, Request.offsets, Request.demand, Request.block]
    constructor
    · intro same
      have head := List.map_inj_left.mp same 0 (by decide)
      simpa using head
    · rintro rfl
      rfl
  | readByte | readWord | readDword | writeByte | writeWord | writeDword =>
    simp only [Located, reached, Request.offsets, Request.demand, Request.block]
    simp only [List.map_cons, List.map_nil, List.forall_mem_cons, List.not_mem_nil,
      false_implies, implies_true, and_true, and_self, ne_eq, reduceCtorEq, not_false_eq_true,
      true_and, Option.some.injEq]
    omega

/-- An accepted request reaches its place exactly when it is served its own
block. -/
theorem located_iff (request : Request) (machine : Machine σ) (consistent : machine.Consistent)
    (mmio : request.IsMmio) (accepted : request.refused platform = false)
    (mapped : request.Mapped platform machine) :
    Located request (serve platform request machine).2.events ↔
      SlotCache.serve 256 machine.window request.demand = request.demand.own := by
  obtain ⟨_, _, reached, _⟩ := serve_mapped platform request machine consistent mmio accepted mapped
  exact located_reached_iff request _ _ reached

/-- In a run of MMIO requests from module load, with `ioremap` always
succeeding, every request that is not refused reaches exactly the place it
computed if and only if no accepted request has its address inside the block of
the accepted request before it unless both ask for the same block. -/
theorem places_exact_iff (mapped : ∀ call, platform.ioremapSucceeds call = true)
    (device : σ) (configAddress : BitVec 32) (requests : List Request)
    (mmio : ∀ request ∈ requests, request.IsMmio) :
    (∀ stage ∈ stages (serve platform) requests (Machine.loaded device configAddress),
        stage.input.refused platform = false → Located stage.input stage.after.events) ↔
      List.IsChain (SlotCache.Compatible 256) (demands platform requests) := by
  rw [run_refines platform Located (fun demand start => demand.own = start) (fun _ => True)
    (fun _ _ _ => trivial)
    (fun request machine consistent _ isMmio accepted =>
      (located_iff platform request machine consistent isMmio accepted
        (Or.inr (mapped _))).trans eq_comm)
    mapped requests mmio _ (Machine.loaded_consistent device configAddress) trivial,
    ← SlotCache.starts_own_iff, ← List.forall₂_map_left_iff, List.forall₂_eq_eq_eq]
  exact eq_comm

/-- Reading a register, another one and then a page from its first byte on, with
a page on another bus between them: every request reaches its place. -/
theorem page_reads_located :
    let base : BitVec 64 := 0xe0000000
    let requests : List Request :=
      [⟨.readWord, .atRegister 0x34 base 0⟩, ⟨.writeByte, .atRegister 0x3c base 9⟩,
        ⟨.read256byte, .atRegister 0x100 base 0⟩, ⟨.read256byte, .atRegister 0 base 0⟩]
    let platform := Platform.constant 0x12345678 0x80000000 fun _ => true
    ∀ stage ∈ stages (serve platform) requests (Machine.loaded () 0),
      stage.input.refused platform = false → Located stage.input stage.after.events :=
  (places_exact_iff (Platform.constant 0x12345678 0x80000000 fun _ => true) (fun _ => rfl) () 0 _
    (by simp [Request.IsMmio, LfddPcix.atRegister])).mpr (by decide +kernel)

/-- A byte read maps the aligned block at 0xe0000000. The bulk read of the same
function from register 0x10 on then hits that block and reads from its start. -/
theorem bulk_read_misplaced :
    let base : BitVec 64 := 0xe0000000
    let requests : List Request :=
      [⟨.readByte, .atRegister 0 base 0⟩, ⟨.read256byte, .atRegister 0x10 base 0⟩]
    let platform := Platform.constant 0x12345678 0x80000000 fun _ => true
    ¬ ∀ stage ∈ stages (serve platform) requests (Machine.loaded () 0),
      stage.input.refused platform = false → Located stage.input stage.after.events := by
  decide +kernel

/-- No byte of a mapped block and no byte of an accessed dword lies below the
limit. -/
def RamFree (limit : Nat) (events : List Event) : Prop :=
  (∀ start mapping, Event.ioremap start mapping ∈ events →
    ∀ byte, start ≤ byte → byte < start + 256 → limit ≤ byte) ∧
  ∀ place, some place ∈ places events →
    ∀ byte, place ≤ byte → byte < place + 4 → limit ≤ byte

/-- While the cached block lies above the limit, an accepted request stays above
it exactly when the block it is served does. On a hit that is the cached block;
on a miss it is the block just mapped. -/
theorem ramFree_iff (limit : Nat) (request : Request) (machine : Machine σ)
    (consistent : machine.Consistent) (above : ∀ start ∈ machine.window, limit ≤ start)
    (mmio : request.IsMmio) (accepted : request.refused platform = false)
    (mapped : request.Mapped platform machine) :
    RamFree limit (serve platform request machine).2.events ↔
      limit ≤ SlotCache.serve 256 machine.window request.demand := by
  obtain ⟨_, _, reached, installs, missed⟩ :=
    serve_mapped platform request machine consistent mmio accepted mapped
  constructor
  · rintro ⟨blocks, _⟩
    by_cases cached : request.Cached machine
    · obtain ⟨start, windowed, hit⟩ := cached
      have remembered : machine.window = some start := windowed
      have kept : SlotCache.serve 256 machine.window request.demand = start := by
        rw [remembered]
        simp [SlotCache.serve, Request.demand, hit]
      rw [kept]
      exact above start windowed
    · obtain ⟨mapping, member⟩ := missed cached
      obtain ⟨_, same, _⟩ := installs _ mapping member
      rw [← same]
      exact blocks _ mapping member _ (Nat.le_refl _) (by omega)
  · intro served
    constructor
    · intro start mapping member byte after _
      obtain ⟨_, same, _⟩ := installs start mapping member
      omega
    · intro place member byte after _
      rw [reached] at member
      obtain ⟨offset, _, same⟩ := List.mem_map.mp member
      have equal : SlotCache.serve 256 machine.window request.demand + offset = place :=
        Option.some.inj same
      omega

/-- A single-width operation asks for the aligned block around its address, of 256 bytes as a page
of registers has. -/
theorem block_single (request : Request) (single : request.operation ≠ .read256byte) :
    request.block.toNat = request.pci.addr.toNat / 2 ^ 8 * 2 ^ 8 := by
  obtain ⟨operation, pci⟩ := request
  cases operation with
  | read256byte => exact absurd rfl single
  | readByte | readWord | readDword | writeByte | writeWord | writeDword =>
    exact addrAlighBuf_toNat pci.addr

/-- With a page-aligned limit the check keeps every single-width operation's
block above it. The sum in the check cannot have wrapped, since it would then be
zero; both sides are multiples of the block size, so the start is above too. -/
theorem single_width_above (request : Request) (paged : 4096 ∣ platform.highMemory.toNat)
    (mmio : request.IsMmio) (accepted : request.refused platform = false)
    (single : request.operation ≠ .read256byte) :
    platform.highMemory.toNat ≤ request.block.toNat := by
  have checked : invalidMmio platform request.pci request.block = false := by
    rw [Bool.eq_false_iff] at accepted ⊢
    exact fun invalid => accepted ((request.refused_iff platform).mpr (Or.inr invalid))
  have multiple := block_single request single
  have exceeded : platform.highMemory.toNat < (request.block.toNat + 256) % 2 ^ 32 := by
    have isMmio : request.pci.phyBase ≠ 0 := mmio
    have size : lfddMassbufSize.toNat = 256 := by decide
    simp only [invalidMmio, isMmio, ne_eq, not_false_eq_true, decide_true, Bool.true_and,
      decide_eq_false_iff_not, BitVec.le_def, BitVec.toNat_setWidth, BitVec.toNat_add, size,
      Nat.not_le] at checked
    omega
  have bound := request.block.isLt
  obtain ⟨pages, limit⟩ := paged
  omega

/-- In a run of MMIO requests from module load, with `ioremap` always succeeding
and RAM ending at a page boundary, no RAM is mapped or touched if and only if
every bulk read that is not refused starts at or above the end of RAM. -/
theorem ram_untouched_iff (mapped : ∀ call, platform.ioremapSucceeds call = true)
    (paged : 4096 ∣ platform.highMemory.toNat) (device : σ) (configAddress : BitVec 32)
    (requests : List Request) (mmio : ∀ request ∈ requests, request.IsMmio) :
    (∀ stage ∈ stages (serve platform) requests (Machine.loaded device configAddress),
        RamFree platform.highMemory.toNat stage.after.events) ↔
      ∀ request ∈ requests, request.operation = .read256byte →
        request.refused platform = false →
        platform.highMemory.toNat ≤ request.pci.addr.toNat := by
  have idle : ∀ stage ∈ stages (serve platform) requests (Machine.loaded device configAddress),
      stage.input.refused platform = true → stage.after.events = [] := by
    intro stage member refused
    obtain ⟨_, ran⟩ := stages_are_steps (serve platform) requests _ stage member
    have result := (serve_refused platform stage.input stage.before refused).symm.trans ran
    exact (congrArg (fun pair => pair.2.events) result).symm
  have acceptedOnly :
      (∀ stage ∈ stages (serve platform) requests (Machine.loaded device configAddress),
        RamFree platform.highMemory.toNat stage.after.events) ↔
      ∀ stage ∈ stages (serve platform) requests (Machine.loaded device configAddress),
        stage.input.refused platform = false →
          RamFree platform.highMemory.toNat stage.after.events := by
    refine forall₂_congr fun stage member => ⟨fun safe _ => safe, fun safe => ?_⟩
    cases refused : stage.input.refused platform with
    | true => simp [idle stage member refused, RamFree, places]
    | false => exact safe refused
  rw [acceptedOnly, run_refines platform
    (fun _ events => RamFree platform.highMemory.toNat events)
    (fun _ start => platform.highMemory.toNat ≤ start)
    (fun window => ∀ start ∈ window, platform.highMemory.toNat ≤ start)
    (fun _ _ safe => by simpa using safe)
    (fun request machine consistent above isMmio accepted => ramFree_iff platform _ request
      machine consistent above isMmio accepted (Or.inr (mapped _)))
    mapped requests mmio _ (Machine.loaded_consistent device configAddress)
    (by simp),
    SlotCache.forall_starts_iff, Machine.loaded_window, SlotCache.starts_above_iff 256 _ none _ (by simp) ?_]
  · constructor
    · intro above request inside bulk accepted
      have safe := above request.demand
        (List.mem_map_of_mem (List.mem_filter.mpr ⟨inside, by simp [accepted]⟩))
      simpa [Request.demand, Request.block, bulk] using safe
    · intro bulkAbove demand member
      obtain ⟨request, inside, rfl⟩ := List.mem_map.mp member
      obtain ⟨listed, accepted⟩ := List.mem_filter.mp inside
      have kept : request.refused platform = false := by simpa using accepted
      by_cases bulk : request.operation = .read256byte
      · simpa [Request.demand, Request.block, bulk] using bulkAbove request listed bulk kept
      · exact single_width_above platform request paged (mmio request listed) kept bulk
  · intro demand member below
    obtain ⟨request, inside, rfl⟩ := List.mem_map.mp member
    obtain ⟨listed, accepted⟩ := List.mem_filter.mp inside
    have kept : request.refused platform = false := by simpa using accepted
    by_cases bulk : request.operation = .read256byte
    · simp [Request.demand, Request.block, bulk]
    · have above := single_width_above platform request paged (mmio request listed) kept bulk
      exact absurd above (Nat.not_le_of_lt below)

/-- A bulk read of the page just above RAM touches no RAM. -/
theorem page_above_ram_untouched :
    let requests : List Request :=
      [⟨.read256byte, .atRegister 0x000 0x80000000 0⟩, ⟨.readByte, .atRegister 0xf04 0x7ffff000 0⟩]
    let platform := Platform.constant 0x12345678 0x80000000 fun _ => true
    ∀ stage ∈ stages (serve platform) requests (Machine.loaded () 0),
      RamFree platform.highMemory.toNat stage.after.events :=
  (ram_untouched_iff (Platform.constant 0x12345678 0x80000000 fun _ => true) (fun _ => rfl)
    (by decide) () 0 _ (by simp [Request.IsMmio, LfddPcix.atRegister])).mpr (by decide +kernel)

/-- RAM ends at 2 GiB. A bulk read from 0x7fffff04 passes the check, because its
last bytes lie above, and maps 252 bytes of RAM. -/
theorem bulk_read_maps_ram :
    let requests : List Request := [⟨.read256byte, .atRegister 0xf04 0x7ffff000 0⟩]
    let platform := Platform.constant 0x12345678 0x80000000 fun _ => true
    ¬ ∀ stage ∈ stages (serve platform) requests (Machine.loaded () 0),
      RamFree platform.highMemory.toNat stage.after.events := by
  intro requests platform safe
  have mapped := (safe _ List.mem_cons_self).1 0x7fffff04 (some 0) (by decide +kernel)
    0x7fffff04 (by decide) (by decide)
  exact absurd mapped (by decide)

/-- Every access goes through a live mapping, and a request whose `ioremap`
returned null makes no access. -/
def AccessesLive (events : List Event) : Prop :=
  none ∉ places events ∧
    ((∃ start, Event.ioremap start none ∈ events) → places events = [])

/-- In a run of MMIO requests from module load, under any pattern of `ioremap`
results, every access goes through a live mapping if and only if each request
that is not refused finds its address in the mapped block or has its own call of
`ioremap` succeed. -/
theorem accesses_live_iff (device : σ) (configAddress : BitVec 32) (requests : List Request)
    (mmio : ∀ request ∈ requests, request.IsMmio) :
    (∀ stage ∈ stages (serve platform) requests (Machine.loaded device configAddress),
        AccessesLive stage.after.events) ↔
      ∀ stage ∈ stages (serve platform) requests (Machine.loaded device configAddress),
        stage.input.refused platform = false → stage.input.Mapped platform stage.before := by
  apply forall₂_congr
  intro stage member
  obtain ⟨listed, consistent, ran⟩ := stages_invariant (serve platform) Machine.Consistent requests
    _ (Machine.loaded_consistent device configAddress)
    (fun request inside machine found =>
      serve_consistent platform request machine found (mmio request inside))
    stage member
  have isMmio : stage.input.IsMmio := mmio stage.input listed
  have after : (serve platform stage.input stage.before).2 = stage.after := congrArg Prod.snd ran
  rw [← after]
  cases refused : stage.input.refused platform with
  | true =>
    rw [serve_refused platform stage.input stage.before refused]
    simp [AccessesLive, places]
  | false =>
    simp only [true_implies]
    by_cases live : stage.input.Mapped platform stage.before
    · obtain ⟨_, _, reached, installs, _⟩ :=
        serve_mapped platform stage.input stage.before consistent isMmio refused live
      refine ⟨fun _ => live, fun _ => ⟨?_, ?_⟩⟩
      · simp [reached]
      · rintro ⟨start, failed⟩
        exact absurd rfl (installs start none failed).2.2
    · obtain ⟨_, reached, _⟩ :=
        serve_unmapped platform stage.input stage.before consistent isMmio refused live
      refine ⟨fun safe => ?_, fun mappedNow => absurd mappedNow live⟩
      have stray : none ∉ stage.input.offsets.map (fun _ => (none : Option Nat)) :=
        reached ▸ safe.1
      simp [offsets_nonempty] at stray

/-- A refused request makes no call of `ioremap`. The two reads that follow ask
for different blocks, both calls succeed, and all accesses are live. -/
theorem remapped_reads_live :
    let requests : List Request :=
      [⟨.readByte, .atRegister 0 0x1000 0⟩, ⟨.readByte, .atRegister 0 0xe0000000 0⟩,
        ⟨.readDword, .atRegister 0 0xf0000000 0⟩]
    let platform := Platform.constant 0x12345678 0x80000000 fun call => call < 2
    ∀ stage ∈ stages (serve platform) requests (Machine.loaded () 0),
      AccessesLive stage.after.events := by
  refine (accesses_live_iff (Platform.constant 0x12345678 0x80000000 fun call => call < 2) () 0 _
    (by simp [Request.IsMmio, LfddPcix.atRegister])).mpr ?_
  intro stage member _
  simp only [stages_cons, stages_nil, List.mem_cons, List.not_mem_nil, or_false] at member
  apply Or.inr
  rcases member with rfl | rfl | rfl <;> decide +kernel

/-- The first call of `ioremap` fails and the byte read dereferences null. -/
theorem read_through_null :
    let requests : List Request := [⟨.readByte, .atRegister 0 0xe0000000 0⟩]
    let platform := Platform.constant 0x12345678 0x80000000 fun _ => false
    ¬ ∀ stage ∈ stages (serve platform) requests (Machine.loaded () 0),
      AccessesLive stage.after.events := by
  intro requests platform safe
  exact (safe _ List.mem_cons_self).1 (by decide +kernel)

end Lfdk
