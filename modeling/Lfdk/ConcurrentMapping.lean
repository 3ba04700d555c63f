import Lfdk.AccessFrames
import Lfdk.MappedPlaces

/-!
# Concurrent requests and the shared mapping

The driver takes its lock after the mapping phase of a request, so the mapping
phase and the access phase are two steps between which any other request may run
either of its own. There is one request for each `ioctl` in flight, and a
schedule names the requests in the order in which they take their next step.

The mapping a request finds in its access phase is the one that the last mapping
phase of any request left. It is always live, but it is the block of whichever
request ran that phase.
-/

namespace Lfdk

open Runs

universe u
variable {σ : Type u} (platform : Platform σ) (requests : Nat → Request)

/-- How far a request has come. -/
inductive Phase where
  | waiting
  | mapped
  | done
deriving DecidableEq, Repr

/-- The machine and the progress of every request. -/
structure Driver (σ : Type u) where
  machine : Machine σ
  phases : Nat → Phase

/-- Every request waits, right after the module was loaded. -/
def Driver.loaded (device : σ) (configAddress : BitVec 32) : Driver σ :=
  ⟨Machine.loaded device configAddress, fun _ => .waiting⟩

/-- What follows a phase: a refused request has no further one. -/
def Request.nextPhase (request : Request) : Phase → Phase
  | .waiting => if request.refused platform then .done else .mapped
  | .mapped => .done
  | .done => .done

/-- One step of one request with a fresh record. The answer says whether it was
an access phase. -/
def advance (thread : Nat) (driver : Driver σ) : Bool × Driver σ :=
  let request := requests thread
  let machine := driver.machine.cleared
  let phases := Function.update driver.phases thread
    (request.nextPhase platform (driver.phases thread))
  match driver.phases thread with
  | .waiting =>
    (false, ⟨if request.refused platform then machine
      else mapBlock platform request.pci request.block machine, phases⟩)
  | .mapped => (true, ⟨(request.access platform machine).2, phases⟩)
  | .done => (false, ⟨machine, phases⟩)

/-- Before each access phase of the schedule, the mapping phase run last, by any
request, was for the block that the accessing request asks for. -/
def Undisturbed : List Nat → (Nat → Phase) → Option (BitVec 32) → Prop
  | [], _, _ => True
  | thread :: rest, phases, last =>
    let request := requests thread
    (phases thread = .mapped → last = some request.block) ∧
      Undisturbed rest
        (Function.update phases thread (request.nextPhase platform (phases thread)))
        (if phases thread = .waiting ∧ request.refused platform = false then some request.block
          else last)

instance Undisturbed.decidable : ∀ schedule phases last,
    Decidable (Undisturbed platform requests schedule phases last)
  | [], _, _ => isTrue trivial
  | _ :: rest, _, _ =>
    have := decidable rest
    inferInstanceAs (Decidable ((_ → _) ∧ _))

/-- The driver's mapping is the block of the last mapping phase, and a request
about to access has run one. -/
structure Tracks (driver : Driver σ) (last : Option (BitVec 32)) : Prop where
  consistent : driver.machine.Consistent
  window : driver.machine.window = last.map BitVec.toNat
  aligned : ∀ block ∈ last, 256 ∣ block.toNat
  begun : ∀ thread, driver.phases thread = .mapped → last ≠ none

/-- As the module is loaded nothing is mapped and nothing was unmapped, so the driver tracks the
empty mapping. -/
theorem loaded_tracks (device : σ) (configAddress : BitVec 32) :
    Tracks (Driver.loaded device configAddress) none where
  consistent := Machine.loaded_consistent device configAddress
  window := rfl
  aligned := by simp
  begun := by simp [Driver.loaded]

section Steps

variable (mapped : ∀ call, platform.ioremapSucceeds call = true)
  (mmio : ∀ thread, (requests thread).IsMmio)
  (single : ∀ thread, (requests thread).operation ≠ .read256byte)

include single in
/-- Blocks are aligned, so a hit keeps the request's own block in effect. -/
theorem mapBlock_own (thread : Nat) (machine : Machine σ)
    (aligned : ∀ start ∈ machine.window, 256 ∣ start) :
    SlotCache.serve 256 machine.window (requests thread).demand =
      (requests thread).block.toNat := by
  have block := block_single (requests thread) (single thread)
  apply SlotCache.serve_aligned 256 machine.window (requests thread).demand aligned
  · simp only [Request.demand]
    omega
  · simp only [SlotCache.Hits, Request.demand]
    omega

include mapped mmio single in
/-- Each step keeps the mapping that of the last mapping phase. Only a mapping
phase changes it, and that installs or keeps the request's own block. -/
theorem advance_tracks (thread : Nat) (driver : Driver σ) (last : Option (BitVec 32))
    (tracks : Tracks driver last) :
    Tracks (advance platform requests thread driver).2
      (if driver.phases thread = .waiting ∧ (requests thread).refused platform = false then
        some (requests thread).block else last) := by
  obtain ⟨consistent, window, aligned, begun⟩ := tracks
  have others : ∀ phase, phase ≠ .mapped → ∀ other,
      Function.update driver.phases thread phase other = .mapped → last ≠ none := by
    intro phase unmapped other reached
    by_cases same : other = thread
    · subst same
      rw [Function.update_self] at reached
      exact absurd reached unmapped
    · rw [Function.update_of_ne same] at reached
      exact begun other reached
  cases phase : driver.phases thread with
  | waiting =>
    cases refused : (requests thread).refused platform with
    | true =>
      simp only [advance, phase, Request.nextPhase, refused]
      exact ⟨consistent, window, aligned, others .done (by decide)⟩
    | false =>
      have starts : ∀ start ∈ driver.machine.cleared.window, 256 ∣ start := by
        intro start remembered
        obtain ⟨block, known, rfl⟩ := Option.mem_map.mp (window ▸ remembered)
        exact aligned block known
      obtain ⟨_, _, _, found, windowed, _⟩ := mapBlock_serves platform (requests thread)
        driver.machine.cleared consistent (mmio thread) (Or.inr (mapped _))
      rw [mapBlock_own requests single thread _ starts] at windowed
      have block := block_single (requests thread) (single thread)
      simp only [advance, phase, Request.nextPhase, refused]
      refine ⟨found, windowed, ?_, fun _ _ => by simp⟩
      intro other same
      obtain rfl := Option.some.inj same
      omega
  | mapped =>
    obtain ⟨device, recorded, accessed, _⟩ :=
      access_mmio platform driver.machine.cleared (requests thread) (mmio thread)
    simp only [advance, phase, Request.nextPhase, accessed]
    exact ⟨consistent, window, aligned, others .done (by decide)⟩
  | done =>
    simp only [advance, phase, Request.nextPhase]
    exact ⟨consistent, window, aligned, others .done (by decide)⟩

include mmio in
/-- An access phase reaches the request's place exactly when the last mapping
phase was for its block. The mapping itself is live either way. -/
theorem access_located_iff (thread : Nat) (driver : Driver σ) (last : Option (BitVec 32))
    (tracks : Tracks driver last) (ready : driver.phases thread = .mapped) :
    Located (requests thread) (advance platform requests thread driver).2.machine.events ↔
      last = some (requests thread).block := by
  obtain ⟨consistent, window, _, begun⟩ := tracks
  obtain ⟨block, rfl⟩ := Option.ne_none_iff_exists'.mp (begun thread ready)
  obtain ⟨device, recorded, accessed, _, _, reached⟩ :=
    access_mmio platform driver.machine.cleared (requests thread) (mmio thread)
  have events : (advance platform requests thread driver).2.machine.events = recorded := by
    simp [advance, ready, accessed]
  have through : places recorded =
      (requests thread).offsets.map fun offset => some (block.toNat + offset) := by
    rw [reached]
    apply List.map_congr_left
    intro offset _
    exact (Machine.place_window driver.machine.cleared consistent offset).trans
      (congrArg (Option.map (· + offset)) window)
  rw [events, located_reached_iff _ _ _ through, Option.some.injEq, ← BitVec.toNat_inj]
  rfl

include mapped mmio single in
/-- From any tracked state, all access phases of a schedule reach their places
exactly when the schedule is undisturbed. The induction is on the schedule and
carries the block of the last mapping phase along. -/
theorem schedule_located_iff (schedule : List Nat) (driver : Driver σ)
    (last : Option (BitVec 32)) (tracks : Tracks driver last) :
    (∀ stage ∈ stages (advance platform requests) schedule driver, stage.output = true →
        Located (requests stage.input) stage.after.machine.events) ↔
      Undisturbed platform requests schedule driver.phases last := by
  induction schedule generalizing driver last with
  | nil => simp [Undisturbed]
  | cons thread rest inductionHypothesis =>
    have next := advance_tracks platform requests mapped mmio single thread driver last tracks
    have phases : (advance platform requests thread driver).2.phases =
        Function.update driver.phases thread
          ((requests thread).nextPhase platform (driver.phases thread)) := by
      cases phase : driver.phases thread <;> simp [advance, phase]
    have accesses : (advance platform requests thread driver).1 = true ↔
        driver.phases thread = .mapped := by
      cases phase : driver.phases thread <;> simp [advance, phase]
    rw [stages_cons, List.forall_mem_cons, Undisturbed, inductionHypothesis _ _ next, phases]
    refine and_congr ?_ Iff.rfl
    simp only [accesses]
    exact forall_congr' fun ready =>
      access_located_iff platform requests mmio thread driver last tracks ready

end Steps

/-- For any number of concurrent single-width MMIO requests and any interleaving
of their phases, with `ioremap` always succeeding, every access phase goes
through a live mapping to the dword its own request computed if and only if,
before each access phase, the mapping phase run last was for the same block. -/
theorem concurrent_accesses_iff (mapped : ∀ call, platform.ioremapSucceeds call = true)
    (mmio : ∀ thread, (requests thread).IsMmio)
    (single : ∀ thread, (requests thread).operation ≠ .read256byte)
    (device : σ) (configAddress : BitVec 32) (schedule : List Nat) :
    (∀ stage ∈ stages (advance platform requests) schedule (Driver.loaded device configAddress),
        stage.output = true → Located (requests stage.input) stage.after.machine.events) ↔
      Undisturbed platform requests schedule (fun _ => .waiting) none :=
  schedule_located_iff platform requests mapped mmio single schedule _ none
    (loaded_tracks device configAddress)

/-- Requests for one block never disturb each other: whoever maps last maps the block that all of
them want. -/
theorem one_block_undisturbed (block : BitVec 32)
    (same : ∀ thread, (requests thread).block = block) (schedule : List Nat)
    (phases : Nat → Phase) (last : Option (BitVec 32))
    (begun : ∀ thread, phases thread = .mapped → last = some block) :
    Undisturbed platform requests schedule phases last := by
  induction schedule generalizing phases last with
  | nil => trivial
  | cons thread rest inductionHypothesis =>
    refine ⟨fun ready => (same thread).symm ▸ begun thread ready, inductionHypothesis _ _ ?_⟩
    intro other reached
    rw [same thread]
    split
    · rfl
    · next kept =>
      by_cases stepped : other = thread
      · subst stepped
        rw [Function.update_self] at reached
        cases phase : phases other <;>
          simp_all [Request.nextPhase]
      · rw [Function.update_of_ne stepped] at reached
        exact begun other reached

/-- A word write and any number of reads in one block, interleaved. -/
theorem shared_block_interleaved :
    let requests : Nat → Request := fun thread =>
      if thread = 0 then ⟨.writeWord, .atRegister 0x04 0xe0000000 7⟩
      else ⟨.readDword, .atRegister 0x10 0xe0000000 0⟩
    let platform := Platform.constant 0x12345678 0x80000000 fun _ => true
    ∀ stage ∈ stages (advance platform requests) [0, 1, 0, 2, 1, 2] (Driver.loaded () 0),
      stage.output = true → Located (requests stage.input) stage.after.machine.events := by
  intro requests platform
  have split : ∀ thread, requests thread = requests 0 ∨ requests thread = requests 1 := by
    intro thread
    by_cases first : thread = 0
    · exact Or.inl (by rw [first])
    · exact Or.inr (by simp [requests, first])
  refine (concurrent_accesses_iff platform requests (fun _ => rfl) ?_ ?_ () 0 _).mpr
    (by decide +kernel)
  · intro thread
    rcases split thread with same | same <;> rw [same] <;>
      simp [requests, Request.IsMmio, LfddPcix.atRegister]
  · intro thread
    rcases split thread with same | same <;> rw [same] <;> decide

/-- Request 0 maps its block, request 1 replaces the mapping by its own block, and
request 0 then reads the first byte of that one. -/
theorem stolen_mapping :
    let requests : Nat → Request := fun thread =>
      if thread = 0 then ⟨.readByte, .atRegister 0x00 0xe0000000 0⟩
      else ⟨.readByte, .atRegister 0x100 0xe0000000 0⟩
    let platform := Platform.constant 0x12345678 0x80000000 fun _ => true
    ¬ ∀ stage ∈ stages (advance platform requests) [0, 1, 0, 1] (Driver.loaded () 0),
      stage.output = true → Located (requests stage.input) stage.after.machine.events := by
  decide +kernel

end Lfdk
