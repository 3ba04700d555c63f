import Lfdk.MemoryAccess

/-!
# What the memory operations touch

The range check is arithmetic on machine words, and an address passes it exactly when the
256 bytes from it on end below the end of RAM and short of the last bytes of the 32-bit
space. Every operation is evaluated here on both sides of the check, so that later
arguments speak of loads and stores only.

The bytes that are touched through the direct map are those of the operation's own width,
and all of them are RAM.
-/

namespace Lfdk.MemoryAccess

open ByteMemory HexEditors

variable {w : Nat} (platform : MemPlatform)

/-- What the range check asks for, as numbers: the whole buffer has to be below the end of RAM and
below 4 GiB. -/
theorem outside_iff (addr : BitVec 32) :
    outside platform addr = false ↔
      addr.toNat + 256 < platform.highMemory.toNat ∧ addr.toNat + 256 < 0xffffffff := by
  have size : lfddMassbufSize.toNat = 256 := rfl
  have small : addr.toNat < 2 ^ 32 := addr.isLt
  have left : (0xffffffff - addr).toNat = 0xffffffff - addr.toNat := by
    rw [BitVec.toNat_sub_of_le (BitVec.le_def.mpr (by simp; omega))]
    rfl
  have bound : ((addr + lfddMassbufSize).setWidth 64).toNat = (addr.toNat + 256) % 2 ^ 32 := by
    rw [BitVec.toNat_setWidth, BitVec.toNat_add, size]
    exact Nat.mod_eq_of_lt (by omega)
  rw [outside, Bool.or_eq_false_iff, decide_eq_false_iff_not, decide_eq_false_iff_not,
    BitVec.le_def, BitVec.le_def, left, bound, size]
  omega

/-- The masks keep a value that fits them, when all bits of its width are set in them. -/
theorem masked_value (mask : BitVec 32) (fits : w ≤ 32) (low : ∀ bit < w, mask.getLsbD bit = true)
    (value : BitVec w) : (value.setWidth 32 &&& mask).setWidth w = value := by
  apply BitVec.eq_of_getLsbD_eq
  intro bit inside
  have wide : bit < 32 := by omega
  simp [inside, wide, low bit inside]

/-- A merge under a mask replaces all that the pointer holds, when the mask covers the width of the
pointer. -/
theorem merged_value (mask : BitVec 32) (fits : w ≤ 32)
    (low : ∀ bit < w, mask.getLsbD bit = true) (temp : BitVec w) (value : BitVec 32) :
    ((temp.setWidth 32 &&& ~~~mask) ||| (value &&& mask)).setWidth w = value.setWidth w := by
  apply BitVec.eq_of_getLsbD_eq
  intro bit inside
  have wide : bit < 32 := by omega
  have set : mask[bit] = true := low bit inside
  simp [inside, wide, set]

section Inside

variable {addr : BitVec 32} (inside : outside platform addr = false) (machine : MemMachine)

include inside

/-- A read of the direct mapping that passes the range check gives the bytes at its address, and
fetches no others. -/
theorem memRead_inside (refusal : BitVec w) (part : BitVec 32 → BitVec w) :
    memRead refusal part platform addr machine =
      (part ((load w machine.memory addr.toNat).setWidth 32),
        machine.logged [.fetched addr.toNat (w / 8)]) := by
  rw [memRead, inside]
  rfl

/-- A byte that passes the check is the byte at the address. -/
theorem lfddMemReadByte_inside :
    lfddMemReadByte platform addr machine =
      (load 8 machine.memory addr.toNat, machine.logged [.fetched addr.toNat 1]) := by
  rw [lfddMemReadByte, memRead_inside platform inside,
    masked_value 0xff (by decide) (by decide)]

/-- A word that passes it has the two bytes from the address on, in little endian. -/
theorem lfddMemReadWord_inside :
    lfddMemReadWord platform addr machine =
      (load 16 machine.memory addr.toNat, machine.logged [.fetched addr.toNat 2]) := by
  rw [lfddMemReadWord, memRead_inside platform inside,
    masked_value 0xffff (by decide) (by decide)]

/-- A dword has the four bytes from the address on, read in one access. -/
theorem lfddMemReadDword_inside :
    lfddMemReadDword platform addr machine =
      (load 32 machine.memory addr.toNat, machine.logged [.fetched addr.toNat 4]) := by
  rw [lfddMemReadDword, memRead_inside platform inside, BitVec.setWidth_eq]

/-- A write that passes the check stores the low bytes of the value at the address. The bytes of the
dword that is merged around them keep their values. -/
theorem memMerge_inside (mask value : BitVec 32) (fits : w ≤ 32)
    (low : ∀ bit < w, mask.getLsbD bit = true) :
    memMerge w mask platform value addr machine =
      { machine with
        memory := store (w / 8) value addr.toNat machine.memory
        events := machine.events ++
          [.fetched addr.toNat (w / 8), .assigned addr.toNat (w / 8)] } := by
  have merged := merged_value mask fits low (load w machine.memory addr.toNat) value
  rw [memMerge, inside]
  simp only [MemMachine.fetch, MemMachine.assign, MemMachine.logged, merged, Bool.false_eq_true,
    if_false, List.append_assoc, List.cons_append, List.nil_append]
  rw [store_cut value w (by omega)]

/-- So a byte is stored at the address, though four bytes are fetched and stored for it. -/
theorem lfddMemWriteByte_inside (value : BitVec 32) :
    lfddMemWriteByte platform value addr machine =
      { machine with
        memory := store 1 value addr.toNat machine.memory
        events := machine.events ++ [.fetched addr.toNat 1, .assigned addr.toNat 1] } :=
  memMerge_inside platform inside machine 0xff value (by decide) (by decide)

/-- A word is stored at the address and behind it, after the word there was read. -/
theorem lfddMemWriteWord_inside (value : BitVec 32) :
    lfddMemWriteWord platform value addr machine =
      { machine with
        memory := store 2 value addr.toNat machine.memory
        events := machine.events ++ [.fetched addr.toNat 2, .assigned addr.toNat 2] } :=
  memMerge_inside platform inside machine 0xffff value (by decide) (by decide)

/-- A dword is stored there without a read before it, unlike a byte and a word. -/
theorem lfddMemWriteDword_inside (value : BitVec 32) :
    lfddMemWriteDword platform value addr machine =
      { machine with
        memory := store 4 value addr.toNat machine.memory
        events := machine.events ++ [.assigned addr.toNat 4] } := by
  rw [lfddMemWriteDword, inside]
  rfl

end Inside

/-- Outside the range the reads have their constant, and memory is not touched. -/
theorem memRead_outside {addr : BitVec 32} (refused : outside platform addr = true)
    (refusal : BitVec w) (part : BitVec 32 → BitVec w) (machine : MemMachine) :
    memRead refusal part platform addr machine = (refusal, machine) := by
  rw [memRead, refused]
  rfl

section Places

/-- The bytes an event touches through the direct map. -/
def MemEvent.direct : MemEvent → List Nat
  | .fetched start count | .assigned start count => List.range' start count
  | .ioremap _ _ | .readb _ | .iounmap _ => []

/-- The bytes that a record touches through the direct map. -/
def directPlaces (events : List MemEvent) : List Nat := events.flatMap MemEvent.direct

/-- The places of more accesses are those of the first ones and those of the others. -/
@[simp] theorem directPlaces_append (first second : List MemEvent) :
    directPlaces (first ++ second) = directPlaces first ++ directPlaces second :=
  List.flatMap_append

/-- The loop over a mapped block reads it and touches nothing through the direct map. -/
theorem mapped_loop (start : Nat) (massBuf : Vector (BitVec 8) 256) (machine : MemMachine) :
    let filled := fillBytes (fun i => MemMachine.readb (start + i)) 256 0 massBuf machine
    (∀ (index : Nat) (small : index < 256),
        filled.1[index] = machine.memory (start + index)) ∧
      filled.2.memory = machine.memory ∧
      directPlaces filled.2.events = directPlaces machine.events := by
  intro filled
  have kept : ∀ (i : Nat) (current : MemMachine),
      current.memory = machine.memory ∧
        directPlaces current.events = directPlaces machine.events →
      (MemMachine.readb (start + i) current).2.memory = machine.memory ∧
        directPlaces (MemMachine.readb (start + i) current).2.events =
          directPlaces machine.events := by
    intro i current holds
    refine ⟨holds.1, ?_⟩
    rw [MemMachine.readb, MemMachine.logged_events, directPlaces_append, holds.2]
    exact List.append_nil _
  have delivers : ∀ (i : Nat) (current : MemMachine),
      current.memory = machine.memory ∧
        directPlaces current.events = directPlaces machine.events →
      (MemMachine.readb (start + i) current).1 = machine.memory (start + i) := by
    intro i current holds
    rw [MemMachine.readb, holds.1]
  refine ⟨fun index small => ?_, ?_⟩
  · exact fillBytes_all _ (fun i => machine.memory (start + i)) kept delivers massBuf machine
      ⟨rfl, rfl⟩ index small
  · exact fillBytes_keeps (fun current => current.memory = machine.memory ∧
      directPlaces current.events = directPlaces machine.events) kept 256 0 massBuf machine
      ⟨rfl, rfl⟩

/-- The loop over the direct map reads it, byte for byte, and changes nothing. -/
theorem direct_loop (start : Nat) (massBuf : Vector (BitVec 8) 256) (machine : MemMachine) :
    let filled := fillBytes (fun i => MemMachine.fetch 8 (start + i)) 256 0 massBuf machine
    (∀ (index : Nat) (small : index < 256),
        filled.1[index] = machine.memory (start + index)) ∧
      filled.2.memory = machine.memory := by
  intro filled
  have kept : ∀ (i : Nat) (current : MemMachine), current.memory = machine.memory →
      (MemMachine.fetch 8 (start + i) current).2.memory = machine.memory :=
    fun _ _ holds => holds
  have delivers : ∀ (i : Nat) (current : MemMachine), current.memory = machine.memory →
      (MemMachine.fetch 8 (start + i) current).1 = machine.memory (start + i) := by
    intro i current holds
    rw [MemMachine.fetch, holds, load_eq_iff (by decide)]
    intro number small
    have first : number = 0 := by omega
    subst first
    apply BitVec.eq_of_getLsbD_eq
    intro bit inside
    simp [RegisterBits.byte, inside]
  refine ⟨fun index small => ?_, ?_⟩
  · exact fillBytes_all _ (fun i => machine.memory (start + i)) kept delivers massBuf machine rfl
      index small
  · exact fillBytes_keeps (fun current => current.memory = machine.memory) kept 256 0 massBuf
      machine rfl

/-- The loop over the direct map touches a byte for each turn it makes. -/
theorem direct_loop_places (start count i : Nat) (massBuf : Vector (BitVec 8) 256)
    (machine : MemMachine) (place : Nat) :
    place ∈ directPlaces
        (fillBytes (fun i => MemMachine.fetch 8 (start + i)) count i massBuf machine).2.events ↔
      place ∈ directPlaces machine.events ∨ start + i ≤ place ∧ place < start + i + count := by
  induction count generalizing i massBuf machine with
  | zero =>
    have none : ¬ (start + i ≤ place ∧ place < start + i + 0) := by omega
    rw [fillBytes, or_iff_left none]
  | succ count inductionHypothesis =>
    have one : place ∈ directPlaces [.fetched (start + i) (8 / 8)] ↔ place = start + i := by
      simp [directPlaces, MemEvent.direct]
    have turn := inductionHypothesis (i + 1)
      (massBuf.setIfInBounds i (MemMachine.fetch 8 (start + i) machine).1)
      (MemMachine.fetch 8 (start + i) machine).2
    rw [fillBytes]
    refine turn.trans ?_
    rw [MemMachine.fetch, MemMachine.logged_events, directPlaces_append, List.mem_append, one,
      or_assoc]
    refine or_congr_right ?_
    omega

end Places

/-- Outside the range nothing is touched through the direct map, and memory stays as it is. -/
theorem memPerform_outside (operation : Operation) (pmem : LfddSpace)
    (refused : outside platform pmem.addr = true) (machine : MemMachine) :
    directPlaces (memPerform platform operation pmem machine).2.events =
        directPlaces machine.events ∧
      (memPerform platform operation pmem machine).2.memory = machine.memory := by
  cases operation with
  | readByte => simp [memPerform, lfddMemReadByte, memRead_outside platform refused]
  | readWord => simp [memPerform, lfddMemReadWord, memRead_outside platform refused]
  | readDword => simp [memPerform, lfddMemReadDword, memRead_outside platform refused]
  | writeByte => simp [memPerform, lfddMemWriteByte, memMerge, refused]
  | writeWord => simp [memPerform, lfddMemWriteWord, memMerge, refused]
  | writeDword => simp [memPerform, lfddMemWriteDword, refused]
  | read256byte =>
    have mapping : directPlaces (machine.ioremap platform pmem.addr.toNat).2.events =
        directPlaces machine.events := by
      rw [MemMachine.ioremap, MemMachine.logged_events, directPlaces_append]
      exact List.append_nil _
    obtain ⟨_, memory, places⟩ := mapped_loop pmem.addr.toNat pmem.massBuf
      (machine.ioremap platform pmem.addr.toNat).2
    rw [memPerform_read256byte, lfddMemRead256byte, refused, if_pos rfl]
    cases succeeds : platform.ioremapSucceeds pmem.addr.toNat with
    | false => simp [MemMachine.ioremap, succeeds, directPlaces, MemEvent.direct]
    | true =>
      have mapped : (machine.ioremap platform pmem.addr.toNat).1 = true := succeeds
      simp only [mapped, if_true, MemMachine.iounmap, MemMachine.logged_events,
        MemMachine.logged_memory, directPlaces_append]
      refine ⟨?_, memory⟩
      rw [places, mapping]
      exact List.append_nil _

/-- Accesses that all touch the same bytes touch these, however many accesses there are. -/
theorem directPlaces_same (start count : Nat) (accesses : List MemEvent) (nonempty : accesses ≠ [])
    (same : ∀ access ∈ accesses, access.direct = List.range' start count) (place : Nat) :
    place ∈ directPlaces accesses ↔ start ≤ place ∧ place < start + count := by
  rw [directPlaces, List.mem_flatMap, ← List.mem_range'_1]
  constructor
  · rintro ⟨access, member, touched⟩
    rwa [same access member] at touched
  · intro within
    obtain ⟨access, member⟩ := List.exists_mem_of_ne_nil accesses nonempty
    exact ⟨access, member, by rwa [same access member]⟩

/-- Inside the range, all accesses of a single-width operation are to the bytes of its width.
A write stores the low bytes of its value, and a read changes nothing. -/
theorem memPerform_single (operation : Operation) (single : operation ≠ .read256byte)
    (pmem : LfddSpace) (inside : outside platform pmem.addr = false) (machine : MemMachine) :
    ∃ accesses : List MemEvent, accesses ≠ [] ∧
      (∀ access ∈ accesses,
        access.direct = List.range' pmem.addr.toNat operation.length) ∧
      (memPerform platform operation pmem machine).2 =
        { machine with
          memory := if operation.isRead then machine.memory
            else store operation.length pmem.buf pmem.addr.toNat machine.memory
          events := machine.events ++ accesses } := by
  have read : ∀ count, ∀ access ∈ [MemEvent.fetched pmem.addr.toNat count],
      access.direct = List.range' pmem.addr.toNat count := by simp [MemEvent.direct]
  have merge : ∀ count,
      ∀ access ∈ [MemEvent.fetched pmem.addr.toNat count, .assigned pmem.addr.toNat count],
        access.direct = List.range' pmem.addr.toNat count := by simp [MemEvent.direct]
  have write : ∀ count, ∀ access ∈ [MemEvent.assigned pmem.addr.toNat count],
      access.direct = List.range' pmem.addr.toNat count := by simp [MemEvent.direct]
  cases operation with
  | readByte =>
    refine ⟨_, List.cons_ne_nil _ _, read 1, ?_⟩
    rw [memPerform, lfddMemReadByte_inside platform inside]
    rfl
  | readWord =>
    refine ⟨_, List.cons_ne_nil _ _, read 2, ?_⟩
    rw [memPerform, lfddMemReadWord_inside platform inside]
    rfl
  | readDword =>
    refine ⟨_, List.cons_ne_nil _ _, read 4, ?_⟩
    rw [memPerform, lfddMemReadDword_inside platform inside]
    rfl
  | writeByte =>
    refine ⟨_, List.cons_ne_nil _ _, merge 1, ?_⟩
    rw [memPerform, lfddMemWriteByte_inside platform inside]
    rfl
  | writeWord =>
    refine ⟨_, List.cons_ne_nil _ _, merge 2, ?_⟩
    rw [memPerform, lfddMemWriteWord_inside platform inside]
    rfl
  | writeDword =>
    refine ⟨_, List.cons_ne_nil _ _, write 4, ?_⟩
    rw [memPerform, lfddMemWriteDword_inside platform inside]
    rfl
  | read256byte => exact absurd rfl single

/-- Inside the range an operation touches the bytes of its width, at its address, and no others. -/
theorem memPerform_places (operation : Operation) (pmem : LfddSpace)
    (inside : outside platform pmem.addr = false) (machine : MemMachine) (place : Nat) :
    place ∈ directPlaces (memPerform platform operation pmem machine.cleared).2.events ↔
      pmem.addr.toNat ≤ place ∧ place < pmem.addr.toNat + operation.length := by
  by_cases bulk : operation = .read256byte
  · subst bulk
    have loop := direct_loop_places pmem.addr.toNat 256 0 pmem.massBuf machine.cleared place
    rw [memPerform_read256byte, lfddMemRead256byte, inside]
    refine loop.trans ?_
    simp [directPlaces, Operation.length]
  · obtain ⟨accesses, nonempty, same, ran⟩ :=
      memPerform_single platform operation bulk pmem inside machine.cleared
    rw [ran]
    exact directPlaces_same pmem.addr.toNat operation.length accesses nonempty same place

/-- Inside the range a write stores the low bytes of its value, and a read changes nothing. -/
theorem memPerform_memory (operation : Operation) (pmem : LfddSpace)
    (inside : outside platform pmem.addr = false) (machine : MemMachine) :
    (memPerform platform operation pmem machine).2.memory =
      if operation.isRead then machine.memory
      else store operation.length pmem.buf pmem.addr.toNat machine.memory := by
  by_cases bulk : operation = .read256byte
  · subst bulk
    obtain ⟨_, memory⟩ := direct_loop pmem.addr.toNat pmem.massBuf machine
    rw [memPerform_read256byte, lfddMemRead256byte, inside]
    exact memory
  · obtain ⟨accesses, _, _, ran⟩ := memPerform_single platform operation bulk pmem inside machine
    rw [ran]

/-- Whatever an operation touches through the direct map is RAM: it touches exactly the bytes
of its width from the address on, the check's addition has not wrapped, and they lie below
the end of RAM. A write that touches nothing changes nothing. -/
theorem direct_accesses_inside (operation : Operation) (pmem : LfddSpace) (machine : MemMachine) :
    (directPlaces (memPerform platform operation pmem machine.cleared).2.events ≠ [] →
        (pmem.addr + lfddMassbufSize).toNat = pmem.addr.toNat + lfddMassbufSize.toNat ∧
        (∀ place,
          place ∈ directPlaces (memPerform platform operation pmem machine.cleared).2.events ↔
            pmem.addr.toNat ≤ place ∧ place < pmem.addr.toNat + operation.length) ∧
        ∀ place ∈ directPlaces (memPerform platform operation pmem machine.cleared).2.events,
          place < platform.highMemory.toNat) ∧
      (operation.isRead = false →
        directPlaces (memPerform platform operation pmem machine.cleared).2.events = [] →
        (memPerform platform operation pmem machine.cleared).2.memory = machine.memory) := by
  cases checked : outside platform pmem.addr with
  | true =>
    obtain ⟨places, memory⟩ := memPerform_outside platform operation pmem checked machine.cleared
    exact ⟨fun touched => absurd places touched, fun _ _ => memory⟩
  | false =>
    obtain ⟨ram, space⟩ := (outside_iff platform pmem.addr).mp checked
    have places := memPerform_places platform operation pmem checked machine
    have width : 0 < operation.length ∧ operation.length ≤ 256 := by
      cases operation <;> decide
    constructor
    · intro _
      refine ⟨?_, places, ?_⟩
      · rw [BitVec.toNat_add]
        exact Nat.mod_eq_of_lt (by change _ + 256 < _; omega)
      · intro place touched
        have within := (places place).mp touched
        omega
    · intro _ untouched
      have first := (places pmem.addr.toNat).mpr (by omega)
      rw [untouched] at first
      exact absurd first List.not_mem_nil

end Lfdk.MemoryAccess
