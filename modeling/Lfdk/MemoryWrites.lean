import Lfdk.MemoryReads
import Lfdk.ResultCodes

/-!
# Writes that can be seen

A write of memory through the device file reports success as soon as the structure could be
copied: the functions that write return nothing. They use the direct map only, so outside
the range of the check they do nothing, and the 256-byte read, which reaches memory of
devices through `ioremap`, shows what was there before.

So a write that reported success is visible when its address is in the range; elsewhere it
is visible only where there was nothing left to do.
-/

namespace Lfdk.DeviceFile

open MemoryAccess HexEditors ByteMemory RegisterBits

universe u v w
variable {σ : Type u} {δ : Type v} {μ : Type w} (system : System σ δ μ)

/-- Every operation on memory has its case in `lfdd_ioctl`, and its command leads to it. -/
theorem dispatch_mem (operation : Operation) :
    dispatch (command .mem operation) = some (.mem, operation) := by
  rw [dispatch_command]
  cases operation with
  | readByte | readWord | readDword => rfl
  | writeByte | writeWord | writeDword | read256byte => rfl

/-- With a complete structure, memory is what the function of the operation leaves. -/
theorem lfddIoctl_memory (operation : Operation) (kernel : Kernel σ δ μ)
    (copied : system.mem.fromLeft kernel.user = 0) :
    (lfddIoctl system (command .mem operation) kernel).2.devices.mem =
      (memBody system operation (system.mem.fromUser kernel.user) kernel.devices.mem).2 := by
  rw [lfddIoctl_mem system _ kernel operation (dispatch_mem operation)]
  exact serveCase_ran system.mem operation (memBody system operation) kernel.user
    kernel.devices.mem copied

/-- The bytes that a following 256-byte read delivers. -/
def shown (pmem : LfddSpace) (machine : MemMachine) : Memory :=
  contents (memBody system .read256byte pmem machine).1.massBuf

/-- They are delivered for the same address, whatever the buffer of the request held before. -/
theorem shown_delivered (pmem : LfddSpace) (machine : MemMachine) :
    ∃ request : LfddSpace, request.addr = pmem.addr ∧
      shown system pmem machine = delivered system.memPlatform request machine := by
  refine ⟨{ pmem with massBuf := Vector.replicate 256 0 }, rfl, ?_⟩
  rw [shown, delivered, memBody, prepared, if_pos rfl, memPerform_read256byte]

/-- The 256-byte read hands over these bytes, where both copies succeed, and its result is 0. -/
theorem read256byte_shown (kernel : Kernel σ δ μ) (copied : system.mem.fromLeft kernel.user = 0)
    (answered : system.mem.toLeft kernel.user = 0) :
    ∃ answer devices,
      lfddIoctl system (command .mem .read256byte) kernel =
        (0, ⟨system.mem.toUser answer kernel.user, devices⟩) ∧
      contents answer.massBuf =
        shown system (system.mem.fromUser kernel.user) kernel.devices.mem := by
  have served := serveCase_read system.mem .read256byte (memBody system .read256byte) kernel.user
    kernel.devices.mem rfl copied answered
  have called := lfddIoctl_mem system _ kernel .read256byte (dispatch_mem .read256byte)
  rw [served] at called
  exact ⟨_, _, called, rfl⟩

/-- A block that the 256-byte read can show. -/
def Readable (platform : MemPlatform) (start : Nat) : Prop :=
  (start + 256 < platform.highMemory.toNat ∧ start + 256 < 0xffffffff) ∨
    platform.ioremapSucceeds start = true

/-- A readable block is shown as it is, byte for byte. -/
theorem shown_readable (pmem : LfddSpace) (machine : MemMachine)
    (readable : Readable system.memPlatform pmem.addr.toNat) (index : Nat) (small : index < 256) :
    shown system pmem machine index = machine.memory (pmem.addr.toNat + index) := by
  obtain ⟨request, same, shows_⟩ := shown_delivered system pmem machine
  rw [← same] at readable ⊢
  rw [shows_]
  cases checked : outside system.memPlatform request.addr with
  | false => exact delivered_inside request machine checked index small
  | true =>
    have beyond : ¬ (request.addr.toNat + 256 < system.memPlatform.highMemory.toNat ∧
        request.addr.toNat + 256 < 0xffffffff) := by
      rw [← outside_iff, checked]
      decide
    exact delivered_mapped request machine checked (readable.resolve_left beyond) index small

/-- Any other block is shown as ones, since neither the direct map nor a mapping reaches it. -/
theorem shown_unreadable (pmem : LfddSpace) (machine : MemMachine)
    (unreadable : ¬ Readable system.memPlatform pmem.addr.toNat) (index : Nat)
    (small : index < 256) : shown system pmem machine index = 0xff := by
  obtain ⟨request, same, shows_⟩ := shown_delivered system pmem machine
  rw [← same, Readable, not_or, ← outside_iff, Bool.not_eq_false, Bool.not_eq_true] at unreadable
  rw [shows_]
  exact delivered_unmapped request machine unreadable.1 unreadable.2 index small

/-- After a call that stores the low bytes of a value at an address, memory holds them, the rest
of memory is as before, and every 256-byte read around them shows them. -/
structure Visible (operation : Operation) (kernel : Kernel σ δ μ) : Prop where
  bytes : ∀ number < operation.length,
    (lfddIoctl system (command .mem operation) kernel).2.devices.mem.memory
        ((system.mem.fromUser kernel.user).addr.toNat + number) =
      byte number (system.mem.fromUser kernel.user).buf
  others : ∀ place,
    place < (system.mem.fromUser kernel.user).addr.toNat ∨
      (system.mem.fromUser kernel.user).addr.toNat + operation.length ≤ place →
    (lfddIoctl system (command .mem operation) kernel).2.devices.mem.memory place =
      kernel.devices.mem.memory place
  shown : ∀ pmem : LfddSpace, pmem.addr.toNat ≤ (system.mem.fromUser kernel.user).addr.toNat →
    (system.mem.fromUser kernel.user).addr.toNat + operation.length ≤ pmem.addr.toNat + 256 →
    ∀ number < operation.length,
      shown system pmem (lfddIoctl system (command .mem operation) kernel).2.devices.mem
          ((system.mem.fromUser kernel.user).addr.toNat + number - pmem.addr.toNat) =
        byte number (system.mem.fromUser kernel.user).buf

section Outcomes

variable (operation : Operation) (kernel : Kernel σ δ μ)

/-- A write leaves in memory what `memPerform` leaves there, once its structure was copied. -/
theorem written_mem (write : operation.isRead = false)
    (copied : system.mem.fromLeft kernel.user = 0) :
    (lfddIoctl system (command .mem operation) kernel).2.devices.mem =
      (memPerform system.memPlatform operation (system.mem.fromUser kernel.user)
        kernel.devices.mem).2 := by
  have other : operation ≠ .read256byte := by
    rintro rfl
    exact absurd write (by decide)
  rw [lfddIoctl_memory system operation kernel copied, memBody, prepared, if_neg other]

/-- Inside the range a write is visible: memory has the value at its address and everywhere else
what it had, and every 256-byte read that covers these places shows it. -/
theorem visible_inside (write : operation.isRead = false)
    (copied : system.mem.fromLeft kernel.user = 0)
    (inside : outside system.memPlatform (system.mem.fromUser kernel.user).addr = false) :
    Visible system operation kernel := by
  have memory : (lfddIoctl system (command .mem operation) kernel).2.devices.mem.memory =
      store operation.length (system.mem.fromUser kernel.user).buf
        (system.mem.fromUser kernel.user).addr.toNat kernel.devices.mem.memory := by
    rw [written_mem system operation kernel write copied,
      memPerform_memory system.memPlatform operation _ inside, write]
    rfl
  have limits := (outside_iff _ _).mp inside
  constructor
  · intro number small
    rw [memory, store_inside _ _ _ _ small]
  · intro place apart
    rw [memory, store_outside _ _ _ _ apart]
  · intro pmem before after number small
    have window : Readable system.memPlatform pmem.addr.toNat := .inl (by omega)
    have located : pmem.addr.toNat +
        ((system.mem.fromUser kernel.user).addr.toNat + number - pmem.addr.toNat) =
          (system.mem.fromUser kernel.user).addr.toNat + number := by omega
    rw [shown_readable system pmem _ window _ (by omega), located, memory,
      store_inside _ _ _ _ small]

/-- Outside the range memory stays as it is, so the value has to be there already, and it has to
be shown around its place. -/
theorem visible_outside (write : operation.isRead = false)
    (copied : system.mem.fromLeft kernel.user = 0)
    (refused : outside system.memPlatform (system.mem.fromUser kernel.user).addr = true) :
    Visible system operation kernel ↔
      (∀ number < operation.length,
        kernel.devices.mem.memory ((system.mem.fromUser kernel.user).addr.toNat + number) =
          byte number (system.mem.fromUser kernel.user).buf) ∧
      ((∀ number < operation.length, byte number (system.mem.fromUser kernel.user).buf = 0xff) ∨
        ∀ start : BitVec 32, start.toNat ≤ (system.mem.fromUser kernel.user).addr.toNat →
          (system.mem.fromUser kernel.user).addr.toNat + operation.length ≤ start.toNat + 256 →
          Readable system.memPlatform start.toNat) := by
  have memory : (lfddIoctl system (command .mem operation) kernel).2.devices.mem.memory =
      kernel.devices.mem.memory := by
    rw [written_mem system operation kernel write copied]
    exact (memPerform_outside _ _ _ refused _).2
  constructor
  · rintro ⟨bytes, -, windows⟩
    rw [memory] at bytes
    refine ⟨bytes, Classical.or_iff_not_imp_left.mpr fun other => ?_⟩
    intro start before after
    by_contra unreadable
    apply other
    intro number small
    obtain ⟨pmem, rfl⟩ : ∃ pmem : LfddSpace, pmem.addr = start :=
      ⟨⟨start, 0, Vector.replicate 256 0⟩, rfl⟩
    rw [← windows pmem before after number small]
    exact shown_unreadable system pmem _ unreadable _ (by omega)
  · rintro ⟨bytes, readable⟩
    refine ⟨fun number small => memory ▸ bytes number small, fun place _ => by rw [memory], ?_⟩
    intro pmem before after number small
    have located : pmem.addr.toNat +
        ((system.mem.fromUser kernel.user).addr.toNat + number - pmem.addr.toNat) =
          (system.mem.fromUser kernel.user).addr.toNat + number := by omega
    by_cases window : Readable system.memPlatform pmem.addr.toNat
    · rw [shown_readable system pmem _ window _ (by omega), located, memory]
      exact bytes number small
    · rw [shown_unreadable system pmem _ window _ (by omega)]
      rcases readable with ones | all
      · exact (ones number small).symm
      · exact absurd (all pmem.addr before after) window

end Outcomes

/-- A write that reports success is visible exactly when its address is in the range of the
check, or memory holds the value already and the 256-byte read can show it: all windows
around it can be read, or it is all ones. -/
theorem write_visible_iff (operation : Operation) (write : operation.isRead = false)
    (kernel : Kernel σ δ μ) :
    ((lfddIoctl system (command .mem operation) kernel).1 = 0 →
        Visible system operation kernel) ↔
      system.mem.fromLeft kernel.user ≠ 0 ∨
      ((system.mem.fromUser kernel.user).addr.toNat + 256 <
          system.memPlatform.highMemory.toNat ∧
        (system.mem.fromUser kernel.user).addr.toNat + 256 < 0xffffffff) ∨
      ((∀ number < operation.length,
          kernel.devices.mem.memory ((system.mem.fromUser kernel.user).addr.toNat + number) =
            byte number (system.mem.fromUser kernel.user).buf) ∧
        ((∀ number < operation.length, byte number (system.mem.fromUser kernel.user).buf = 0xff) ∨
          ∀ start : BitVec 32, start.toNat ≤ (system.mem.fromUser kernel.user).addr.toNat →
            (system.mem.fromUser kernel.user).addr.toNat + operation.length ≤ start.toNat + 256 →
            Readable system.memPlatform start.toNat)) := by
  have result := lfddIoctl_result system (command .mem operation) kernel (.mem, operation)
    (dispatch_mem operation)
  simp only [System.fromLeft, write, Bool.false_eq_true, if_false] at result
  by_cases copied : system.mem.fromLeft kernel.user = 0
  · have success : (lfddIoctl system (command .mem operation) kernel).1 = 0 := by
      rw [result, if_neg (by simpa using copied)]
    rw [or_iff_right (by simpa using copied)]
    refine (forall_prop_of_true success).trans ?_
    rw [← outside_iff]
    cases checked : outside system.memPlatform (system.mem.fromUser kernel.user).addr with
    | false =>
      exact ⟨fun _ => .inl rfl, fun _ => visible_inside system operation kernel write copied checked⟩
    | true =>
      rw [or_iff_right (by decide)]
      exact visible_outside system operation kernel write copied checked
  · have failed : (lfddIoctl system (command .mem operation) kernel).1 = -efault := by
      rw [result, if_pos copied]
    refine ⟨fun _ => .inl copied, fun _ success => ?_⟩
    rw [failed] at success
    exact absurd success (by decide)

/-- A machine with 2 GiB of RAM and memory of devices above it. -/
def twoGigabytes : System Unit Unit UserData :=
  .attached (Platform.constant 0 0x80000000 fun _ => true)
    ⟨0x80000000, fun start => decide (0x80000000 ≤ start)⟩ .absent

/-- A call that writes the value 0x5a5a5a5a there. -/
def writing (addr : BitVec 32) : Kernel Unit Unit UserData where
  user := ⟨.atRegister 0 0 0, ⟨addr, 0x5a5a5a5a, Vector.replicate 256 0⟩,
    ⟨0, 0, Vector.replicate 256 0⟩⟩
  devices := ⟨Machine.loaded () 0, ⟨fun _ => 0, []⟩, ⟨(), []⟩⟩

/-- A dword of RAM is written on a computer with 2 GiB, and the write is visible. -/
theorem ram_write_visible :
    (lfddIoctl twoGigabytes (command .mem .writeDword) (writing 0x1000)).1 = 0 ∧
      Visible twoGigabytes .writeDword (writing 0x1000) := by
  have success : (lfddIoctl twoGigabytes (command .mem .writeDword) (writing 0x1000)).1 = 0 := by
    rw [lfddIoctl_result twoGigabytes _ _ _ (dispatch_mem .writeDword)]
    rfl
  refine ⟨success, ?_⟩
  exact (write_visible_iff twoGigabytes .writeDword rfl (writing 0x1000)).mpr
    (.inr (.inl (by decide))) success

/-- A byte of a device's memory can be mapped and read. The write of it reports success, and
the byte stays as it was. -/
theorem device_write_lost :
    (∀ start, twoGigabytes.memPlatform.highMemory.toNat ≤ start →
      twoGigabytes.memPlatform.ioremapSucceeds start = true) ∧
    (lfddIoctl twoGigabytes (command .mem .writeByte) (writing 0xfe000000)).1 = 0 ∧
    (lfddIoctl twoGigabytes (command .mem .writeByte)
      (writing 0xfe000000)).2.devices.mem.memory 0xfe000000 = 0 ∧
    ¬ ((lfddIoctl twoGigabytes (command .mem .writeByte) (writing 0xfe000000)).1 = 0 →
      Visible twoGigabytes .writeByte (writing 0xfe000000)) := by
  have mapped : ∀ start, twoGigabytes.memPlatform.highMemory.toNat ≤ start →
      twoGigabytes.memPlatform.ioremapSucceeds start = true := by
    intro start above
    exact decide_eq_true above
  have success : (lfddIoctl twoGigabytes (command .mem .writeByte) (writing 0xfe000000)).1 = 0 := by
    rw [lfddIoctl_result twoGigabytes _ _ _ (dispatch_mem .writeByte)]
    rfl
  have refused : outside twoGigabytes.memPlatform (0xfe000000 : BitVec 32) = true := by decide
  have kept : (lfddIoctl twoGigabytes (command .mem .writeByte)
      (writing 0xfe000000)).2.devices.mem.memory 0xfe000000 = 0 := by
    rw [written_mem twoGigabytes .writeByte (writing 0xfe000000) rfl rfl]
    exact (memPerform_outside twoGigabytes.memPlatform .writeByte
      (twoGigabytes.mem.fromUser (writing 0xfe000000).user) refused _).2 ▸ rfl
  refine ⟨mapped, success, kept, fun visible => ?_⟩
  have place : (twoGigabytes.mem.fromUser (writing 0xfe000000).user).addr.toNat = 0xfe000000 := by
    decide
  have stored := (visible success).bytes 0 (by decide)
  rw [place, Nat.add_zero, kept] at stored
  exact absurd stored (by decide)

end Lfdk.DeviceFile
