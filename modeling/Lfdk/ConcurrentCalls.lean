import Lfdk.DriverLock
import Lfdk.MappingCache

/-!
# Processes that call the driver at the same time

A process makes its calls one after another, each as the answers so far suggest, and the
steps of all processes interleave in any order. The calls are those of `LockedCall`: on
configuration space through the ports, on ports apart from those of configuration space, and
writes to memory. Each is one section under the lock of the driver. What follows holds for all
processes that make only such calls, and for all interleavings.

The processes are served one call at a time, in an order in which they took the lock; that
order is the log of the calls. The lock never stays with a process for more than the steps
of the longest section, whatever the others do meanwhile. While it is free, the configuration
address is what it was before any call, and the record of port accesses shows the addresses of
the calls in the order of the log, nothing between them. Memory holds at each place what the
last call of the log wrote there.
-/

namespace Lfdk.DriverLock

open LockedSections DeviceFile MemoryAccess PortAccess HexEditors ByteMemory RegisterBits

universe u v w
variable {σ : Type u} {δ : Type v} {μ : Type w} {ρ : Type*}

section Addresses

/-- A record of accesses selects these addresses, whatever was selected before it, and leaves
what follows it to itself. -/
def SelectsAll (recorded : List Event) (addresses : List (BitVec 32)) : Prop :=
  ∀ selected rest, ∃ last,
    selections selected (recorded ++ rest) = addresses.map some ++ selections last rest

/-- No events select nothing, from any selected address on; the case from which the calls of a log
are put together. -/
theorem selectsAll_nil : SelectsAll [] [] := fun selected _ => ⟨selected, rfl⟩

/-- Selections of one part follow those of the other. So the events of calls are put together as the
calls are served. -/
theorem SelectsAll.append {first second : List Event} {earlier later : List (BitVec 32)}
    (begun : SelectsAll first earlier) (ended : SelectsAll second later) :
    SelectsAll (first ++ second) (earlier ++ later) := by
  intro selected rest
  obtain ⟨middle, front⟩ := begun selected (second ++ rest)
  obtain ⟨last, back⟩ := ended middle rest
  refine ⟨last, ?_⟩
  rw [List.append_assoc, front, back, List.map_append, List.append_assoc]

/-- What it selects is what the record shows, since nothing stands before it and nothing behind. -/
theorem SelectsAll.selections {recorded : List Event} {addresses : List (BitVec 32)}
    (all : SelectsAll recorded addresses) : selections none recorded = addresses.map some := by
  obtain ⟨last, shown⟩ := all none []
  rwa [List.append_nil, selections_nil, List.append_nil] at shown

/-- The addresses of a loop, one after the other: by induction on its offsets. -/
theorem selectsAll_loop (offsets : List Nat) (addr : BitVec 32) :
    SelectsAll (offsets.flatMap fun offset =>
        [.outl (addr + BitVec.ofNat 32 offset) .pciAddr, .inl .pciData])
      (offsets.map fun offset => addr + BitVec.ofNat 32 offset) := by
  induction offsets with
  | nil => exact selectsAll_nil
  | cons offset rest inductionHypothesis =>
    have first : SelectsAll [.outl (addr + BitVec.ofNat 32 offset) .pciAddr, .inl .pciData]
        [addr + BitVec.ofNat 32 offset] := fun _ _ => ⟨_, rfl⟩
    exact first.append inductionHypothesis

variable (platform : Platform σ)

/-- An access phase through the ports selects the addresses of its request, and ends with the
address it began with. -/
theorem access_selects (request : Request) (viaPorts : request.pci.phyBase = 0)
    (machine : Machine σ) :
    ∃ device recorded,
      (request.access platform machine).2 = { machine with device := device }.logged recorded ∧
        SelectsAll recorded request.selectedAddresses := by
  obtain ⟨operation, pci⟩ := request
  cases operation with
  | readByte | readWord | readDword =>
    simp only [Request.access, readAccess_ports platform pci machine viaPorts]
    exact ⟨machine.device, _, rfl, fun _ _ => ⟨_, rfl⟩⟩
  | writeByte | writeWord =>
    simp only [Request.access, mergeAccess_ports platform pci machine _ _ viaPorts]
    exact ⟨_, _, rfl, fun _ _ => ⟨_, rfl⟩⟩
  | writeDword =>
    simp only [Request.access, dwordAccess_ports platform pci machine viaPorts]
    exact ⟨_, _, rfl, fun _ _ => ⟨_, rfl⟩⟩
  | read256byte =>
    simp only [Request.access, bulkAccess_ports platform pci machine viaPorts]
    refine ⟨machine.device, _, rfl, ?_⟩
    have save : SelectsAll [.inl .pciAddr] [] := fun selected _ => ⟨selected, rfl⟩
    have restore : SelectsAll [.outl machine.configAddress .pciAddr] [] := fun _ _ => ⟨_, rfl⟩
    have loop := selectsAll_loop (List.range' 0 64 4) pci.addr
    have whole := (save.append loop).append restore
    rwa [List.nil_append, List.append_nil] at whole

/-- The addresses that a call selects. A dword write that is not aligned selects none. -/
def LockedCall.selected : LockedCall → List (BitVec 32)
  | .pci operation ppci _ =>
    if operation = .writeDword ∧ ppci.addr &&& 0x3 ≠ 0 then []
    else Request.selectedAddresses ⟨operation, ppci⟩
  | .io _ _ _ | .mem _ _ _ => []

/-- The configuration side of a call through the ports: its events select its addresses, and of the
machine the device alone is changed. -/
theorem pciCall_selects (operation : Operation) (ppci : LfddPcix) (viaPorts : ppci.phyBase = 0)
    (machine : Machine σ) :
    ∃ device recorded,
      (Lfdk.lfddIoctl platform operation ppci machine).2.2 =
          { machine with device := device }.logged recorded ∧
        SelectsAll recorded (LockedCall.selected (.pci operation ppci viaPorts)) := by
  obtain ⟨request, same, addresses, refused, ports⟩ : ∃ request : Request,
      (Lfdk.lfddIoctl platform operation ppci machine).2.2 = (perform platform request machine).2 ∧
        request.selectedAddresses = Request.selectedAddresses ⟨operation, ppci⟩ ∧
        (request.refused platform = true ↔
          operation = .writeDword ∧ ppci.addr &&& 0x3 ≠ 0) ∧
        request.pci.phyBase = 0 := by
    have open_ : ∀ block, invalidMmio platform ppci block = false := fun block =>
      invalidMmio_ports platform ppci block viaPorts
    cases operation with
    | readByte | readWord | readDword | writeByte | writeWord =>
      refine ⟨⟨_, ppci⟩, rfl, rfl, ?_, viaPorts⟩
      simp [Request.refused, open_]
    | writeDword =>
      refine ⟨⟨.writeDword, ppci⟩, rfl, rfl, ?_, viaPorts⟩
      simp [Request.refused, open_]
    | read256byte =>
      refine ⟨⟨.read256byte, { ppci with massBuf := Vector.replicate 256 0 }⟩, rfl, rfl, ?_,
        viaPorts⟩
      have accepted : Request.refused platform
          ⟨.read256byte, { ppci with massBuf := Vector.replicate 256 0 }⟩ = false :=
        invalidMmio_ports platform _ _ viaPorts
      rw [accepted]
      simp
  rw [same, perform_phases]
  by_cases misaligned : operation = .writeDword ∧ ppci.addr &&& 0x3 ≠ 0
  · rw [if_pos (refused.mpr misaligned), LockedCall.selected, if_pos misaligned]
    exact ⟨machine.device, [], by simp, selectsAll_nil⟩
  · rw [if_neg (fun refusal => misaligned (refused.mp refusal)), LockedCall.selected,
      if_neg misaligned, mapBlock, if_pos ports, ← addresses]
    exact access_selects platform request ports machine

end Addresses

section Bytes

/-- What a call writes to a place in memory. -/
def LockedCall.written (platform : MemPlatform) (place : Nat) : LockedCall → Option (BitVec 8)
  | .mem operation pmem _ =>
    if outside platform pmem.addr = false ∧ pmem.addr.toNat ≤ place ∧
        place < pmem.addr.toNat + operation.length then
      some (byte (place - pmem.addr.toNat) pmem.buf)
    else none
  | .pci _ _ _ | .io _ _ _ => none

/-- A call leaves at a place what it writes there, or what was there before. -/
theorem serve_memory (system : System σ δ μ) (call : LockedCall) (devices : Devices σ δ)
    (place : Nat) :
    (serve system call devices).2.mem.memory place =
      (call.written system.memPlatform place).getD (devices.mem.memory place) := by
  cases call with
  | pci operation ppci viaPorts => rfl
  | io operation pio spares => rfl
  | mem operation pmem write =>
    have other : operation ≠ .read256byte := by
      rintro rfl
      exact absurd write (by decide)
    have body : (serve system (.mem operation pmem write) devices).2.mem =
        (memPerform system.memPlatform operation pmem devices.mem).2 := by
      rw [serve, memBody, prepared, if_neg other]
    rw [body, LockedCall.written]
    cases checked : outside system.memPlatform pmem.addr with
    | true =>
      rw [(memPerform_outside system.memPlatform operation pmem checked devices.mem).2]
      simp
    | false =>
      rw [memPerform_memory system.memPlatform operation pmem checked devices.mem, write,
        if_neg Bool.false_ne_true, store]
      by_cases within : pmem.addr.toNat ≤ place ∧ place < pmem.addr.toNat + operation.length
      · rw [if_pos within, if_pos ⟨rfl, within⟩]
        rfl
      · rw [if_neg within, if_neg (fun inside => within inside.2)]
        rfl

end Bytes

section Interleavings

variable (system : System σ δ μ) (processes : Nat → Client LockedCall Answer ρ)
  (devices : Devices σ δ) (schedule : List Nat)

/-- Processes before their first call. -/
def begun : Serial Nat (Devices σ δ) LockedCall Answer ρ := ⟨devices, processes, []⟩

/-- The driver and the processes after they have taken these steps. -/
def interleaved : Threads Nat (Devices σ δ) ρ :=
  ((begun processes devices).threads (steps system)).run schedule

/-- The processes served one call at a time, in this order. -/
def oneByOne (order : List Nat) : Serial Nat (Devices σ δ) LockedCall Answer ρ :=
  (begun processes devices).run (serve system) order

/-- Any interleaving of calls on configuration space through the ports, on other ports and of
writes to memory serves them one at a time. With the section under way completed, the devices
and what every process has left to do are as after that service. While the lock is free this
holds of the devices as they are, and a process that has ended got the same answers. -/
theorem calls_serialised :
    ∃ order : List Nat, order.Sublist schedule ∧
      let after := interleaved system processes devices schedule
      let served := oneByOne system processes devices order
      after.settled = served.threads (steps system) ∧
        (after.holder = none → after.shared = served.shared) ∧
        ∀ process value, after.codes process = .done value →
          served.clients process = .stop value :=
  serialised (steps_implement system) (begun processes devices) schedule

/-- In any interleaving of such calls, a process that holds the lock releases it within 257
steps of its own, however many steps the others take between them. The devices, and what the
process goes on with, are then as if nothing but its own section had happened. -/
theorem lock_released (process : Nat)
    (holder : (interleaved system processes devices schedule).holder = some process)
    (more : List Nat) (enough : 257 ≤ more.count process) :
    ∃ front, front <+: more ∧ front.count process ≤ 257 ∧
      let held := interleaved system processes devices schedule
      let free := interleaved system processes devices (schedule ++ front)
      free.holder = none ∧ free.shared = held.settled.shared ∧
        free.codes process = held.settled.codes process :=
  released (steps_implement system) (begun processes devices) schedule process holder more enough

/-- A read of the status port of the keyboard. -/
def statusRead : LockedCall := .io .readByte ⟨0x64, 0, Vector.replicate 256 0⟩ (by decide)

/-- The first process is about to read a port and holds the lock, and another one runs in every
second step. -/
theorem reader_releases :
    let processes : Nat → Client LockedCall Answer Unit := fun _ =>
      .call statusRead fun _ => .stop ()
    let devices : Devices Unit Unit := ⟨Machine.loaded () 0, ⟨fun _ => 0, []⟩, ⟨(), []⟩⟩
    ∃ front, front <+: (List.replicate 257 [0, 1]).flatten ∧ front.count 1 ≤ 257 ∧
      (interleaved twoGigabytes processes devices ([1] ++ front)).holder = none := by
  intro processes devices
  have enough : 257 ≤ ((List.replicate 257 [0, 1]).flatten).count 1 := by
    rw [List.count_flatten, List.map_replicate, List.sum_replicate]
    decide
  obtain ⟨front, part, few, free, _⟩ :=
    lock_released twoGigabytes processes devices [1] 1 rfl _ enough
  exact ⟨front, part, few, free⟩

/-- The address port and the record of port accesses, after the calls of a log. -/
theorem oneByOne_addresses (order : List Nat) :
    let served := oneByOne system processes devices order
    served.shared.pci.configAddress = devices.pci.configAddress ∧
      ∃ recorded, served.shared.pci.events = devices.pci.events ++ recorded ∧
        SelectsAll recorded (served.log.flatMap fun entry => entry.2.selected) := by
  refine Serial.run_keeps (serve system) (fun log state =>
    state.pci.configAddress = devices.pci.configAddress ∧
      ∃ recorded, state.pci.events = devices.pci.events ++ recorded ∧
        SelectsAll recorded (log.flatMap fun entry => entry.2.selected)) ?_ order
    (begun processes devices) ⟨rfl, [], by simp [begun], selectsAll_nil⟩
  rintro log state ⟨address, recorded, events, selects⟩ process call
  rw [List.flatMap_append, List.flatMap_singleton]
  cases call with
  | pci operation ppci viaPorts =>
    obtain ⟨device, more, left, own⟩ :=
      pciCall_selects system.platform operation ppci viaPorts state.pci
    have machine : (serve system (.pci operation ppci viaPorts) state).2.pci =
        { state.pci with device := device }.logged more := left
    rw [machine]
    refine ⟨address, recorded ++ more, ?_, selects.append own⟩
    rw [Machine.logged_events, ← List.append_assoc, ← events]
  | io operation pio spares =>
    refine ⟨address, recorded, events, ?_⟩
    rwa [LockedCall.selected, List.append_nil]
  | mem operation pmem write =>
    refine ⟨address, recorded, events, ?_⟩
    rwa [LockedCall.selected, List.append_nil]

/-- In any interleaving of such calls, whenever the lock is free the configuration address is
the one from before all calls, and the data port was accessed under the addresses of the calls
on configuration space only, call by call in the order in which they are served. -/
theorem addresses_serialised :
    ∃ order : List Nat, order.Sublist schedule ∧
      let after := interleaved system processes devices schedule
      let served := oneByOne system processes devices order
      after.settled = served.threads (steps system) ∧
        (after.holder = none →
          after.shared.pci.configAddress = devices.pci.configAddress ∧
            ∃ recorded, after.shared.pci.events = devices.pci.events ++ recorded ∧
              selections none recorded =
                (served.log.flatMap fun entry => entry.2.selected).map some) := by
  obtain ⟨order, part, settled, shared, _⟩ :=
    serialised (steps_implement system) (begun processes devices) schedule
  refine ⟨order, part, settled, fun free => ?_⟩
  obtain ⟨address, recorded, events, selects⟩ :=
    oneByOne_addresses system processes devices order
  have same : (interleaved system processes devices schedule).shared =
      (oneByOne system processes devices order).shared := shared free
  rw [same]
  exact ⟨address, recorded, events, selects.selections⟩

/-- Memory after the calls of a log, one by one: a byte holds what the last call that covers it
wrote, or what it held at the start. -/
theorem oneByOne_memory (order : List Nat) (place : Nat) :
    let served := oneByOne system processes devices order
    served.shared.mem.memory place =
      (served.log.reverse.findSome? fun entry =>
        entry.2.written system.memPlatform place).getD (devices.mem.memory place) := by
  refine Serial.run_keeps (serve system) (fun log state =>
    state.mem.memory place = (log.reverse.findSome? fun entry =>
      entry.2.written system.memPlatform place).getD (devices.mem.memory place)) ?_ order
    (begun processes devices) rfl
  intro log state held process call
  rw [serve_memory, held, List.reverse_append, List.reverse_singleton, List.singleton_append,
    List.findSome?_cons]
  cases call.written system.memPlatform place with
  | none => rfl
  | some value => rfl

/-- In any interleaving of such calls, none of which reads memory or maps a block, whenever the
lock is free each byte of memory is what the last of the writes served that covers it stored
there, and is as before where none did: no write is lost, torn or made twice. -/
theorem memory_serialised :
    ∃ order : List Nat, order.Sublist schedule ∧
      let after := interleaved system processes devices schedule
      let served := oneByOne system processes devices order
      after.settled = served.threads (steps system) ∧
        (after.holder = none → ∀ place, after.shared.mem.memory place =
          (served.log.reverse.findSome? fun entry =>
            entry.2.written system.memPlatform place).getD (devices.mem.memory place)) := by
  obtain ⟨order, part, settled, shared, _⟩ :=
    serialised (steps_implement system) (begun processes devices) schedule
  refine ⟨order, part, settled, fun free place => ?_⟩
  have same : (interleaved system processes devices schedule).shared =
      (oneByOne system processes devices order).shared := shared free
  rw [same]
  exact oneByOne_memory system processes devices order place

end Interleavings

end Lfdk.DriverLock
