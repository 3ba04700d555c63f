import Lfdk.DeviceFile

/-!
# What `ioctl` returns

A command is dispatched to its own case if it has one. A case returns an error when the
structure cannot be copied from the caller, and then it has touched nothing. When the copy
back stops short, the case returns what `copy_to_user` gave it, the number of bytes that
are missing: a positive number, neither success nor an error. So the result is the one that
is meant unless a read could not hand over its answer.
-/

namespace Lfdk.DeviceFile

open MemoryAccess PortAccess HexEditors

universe u v w
variable {σ : Type u} {δ : Type v} {μ : Type w}

/-- Every case is reached by its own command, and the commands without a case by none. -/
theorem dispatch_command (space : Space) (operation : Operation) :
    dispatch (command space operation) =
      if (space, operation) ∈ switchCases then some (space, operation) else none := by
  cases space with
  | pci => cases operation <;> decide
  | mem => cases operation <;> decide
  | io => cases operation <;> decide

variable (system : System σ δ μ)

/-- The bytes of the structure of a space that are not copied from the caller. -/
def System.fromLeft (user : μ) : Space → Nat
  | .pci => system.pcix.fromLeft user
  | .mem => system.mem.fromLeft user
  | .io => system.io.fromLeft user

/-- The bytes that are not copied back. -/
def System.toLeft (user : μ) : Space → Nat
  | .pci => system.pcix.toLeft user
  | .mem => system.mem.toLeft user
  | .io => system.io.toLeft user

/-- All copies that a case makes are complete. A write makes none back. -/
def CopiesComplete (entry : Space × Operation) (user : μ) : Prop :=
  system.fromLeft user entry.1 = 0 ∧ (entry.2.isRead = true → system.toLeft user entry.1 = 0)

section Cases

variable {ρ : Type} {size : Nat} {α : Type u} (copy : UserCopy μ ρ size) (operation : Operation)
  (body : ρ → α → ρ × α) (user : μ) (device : α)

/-- What a case returns: -EFAULT if the structure is not copied in whole, else what `copy_to_user`
left of a read, or 0 of a write. -/
theorem serveCase_result :
    (serveCase copy operation body user device).1 =
      if copy.fromLeft user ≠ 0 then -efault
      else if operation.isRead then (copy.toLeft user : Int) else 0 := by
  unfold serveCase
  split
  · rfl
  · split
    · rfl
    · rfl

/-- A case that could not copy its structure has not run: user data and device are as before. -/
theorem serveCase_unread (short : copy.fromLeft user ≠ 0) :
    serveCase copy operation body user device = (-efault, user, device) := by
  rw [serveCase, if_pos short]

/-- A case with a complete structure runs its function once, also if its answer cannot be copied
back. -/
theorem serveCase_ran (complete : copy.fromLeft user = 0) :
    (serveCase copy operation body user device).2.2 = (body (copy.fromUser user) device).2 := by
  rw [serveCase, if_neg (by simpa using complete)]
  split
  · rfl
  · rfl

/-- A read with complete copies hands its answer over, and its result is 0. -/
theorem serveCase_read (read : operation.isRead = true) (complete : copy.fromLeft user = 0)
    (answered : copy.toLeft user = 0) :
    serveCase copy operation body user device =
      (0, copy.toUser (body (copy.fromUser user) device).1 user,
        (body (copy.fromUser user) device).2) := by
  rw [serveCase, if_neg (by simpa using complete), if_pos read, answered]
  rfl

end Cases

section Results

variable (cmd : BitVec 32) (kernel : Kernel σ δ μ)

/-- An unknown command is refused with -EINVAL, and nothing else happens. -/
theorem lfddIoctl_unknown (unknown : dispatch cmd = none) :
    lfddIoctl system cmd kernel = (-einval, kernel) := by
  unfold lfddIoctl
  rw [unknown]

/-- A command on configuration space runs its case on configuration space, and touches no other
device. -/
theorem lfddIoctl_pci (operation : Operation) (known : dispatch cmd = some (.pci, operation)) :
    lfddIoctl system cmd kernel =
      let done := serveCase system.pcix operation (pciBody system operation) kernel.user
        kernel.devices.pci
      (done.1, ⟨done.2.1, { kernel.devices with pci := done.2.2 }⟩) := by
  unfold lfddIoctl
  rw [known]

/-- A command on memory runs its case on memory, and touches no other device. -/
theorem lfddIoctl_mem (operation : Operation) (known : dispatch cmd = some (.mem, operation)) :
    lfddIoctl system cmd kernel =
      let done := serveCase system.mem operation (memBody system operation) kernel.user
        kernel.devices.mem
      (done.1, ⟨done.2.1, { kernel.devices with mem := done.2.2 }⟩) := by
  unfold lfddIoctl
  rw [known]

/-- A command on ports runs its case on ports, and touches no other device. -/
theorem lfddIoctl_io (operation : Operation) (known : dispatch cmd = some (.io, operation)) :
    lfddIoctl system cmd kernel =
      let done := serveCase system.io operation (ioBody system operation) kernel.user
        kernel.devices.io
      (done.1, ⟨done.2.1, { kernel.devices with io := done.2.2 }⟩) := by
  unfold lfddIoctl
  rw [known]

/-- What a known command returns, whichever space it is for; the two copies alone decide. -/
theorem lfddIoctl_result (entry : Space × Operation) (known : dispatch cmd = some entry) :
    (lfddIoctl system cmd kernel).1 =
      if system.fromLeft kernel.user entry.1 ≠ 0 then -efault
      else if entry.2.isRead then (system.toLeft kernel.user entry.1 : Int) else 0 := by
  obtain ⟨space, operation⟩ := entry
  cases space with
  | pci =>
    rw [lfddIoctl_pci system cmd kernel operation known]
    exact serveCase_result system.pcix operation _ kernel.user kernel.devices.pci
  | mem =>
    rw [lfddIoctl_mem system cmd kernel operation known]
    exact serveCase_result system.mem operation _ kernel.user kernel.devices.mem
  | io =>
    rw [lfddIoctl_io system cmd kernel operation known]
    exact serveCase_result system.io operation _ kernel.user kernel.devices.io

/-- A structure that is not copied leaves the devices alone, as no function is run for it. -/
theorem lfddIoctl_untouched (entry : Space × Operation) (known : dispatch cmd = some entry)
    (short : system.fromLeft kernel.user entry.1 ≠ 0) :
    (lfddIoctl system cmd kernel).2.devices = kernel.devices := by
  obtain ⟨space, operation⟩ := entry
  cases space with
  | pci =>
    rw [lfddIoctl_pci system cmd kernel operation known,
      serveCase_unread system.pcix operation _ kernel.user kernel.devices.pci short]
  | mem =>
    rw [lfddIoctl_mem system cmd kernel operation known,
      serveCase_unread system.mem operation _ kernel.user kernel.devices.mem short]
  | io =>
    rw [lfddIoctl_io system cmd kernel operation known,
      serveCase_unread system.io operation _ kernel.user kernel.devices.io short]

/-- What the result of a call is meant to say. -/
structure ResultCodes : Prop where
  zero : (lfddIoctl system cmd kernel).1 = 0 ↔
    ∃ entry, dispatch cmd = some entry ∧ CopiesComplete system entry kernel.user
  unknown : dispatch cmd = none → (lfddIoctl system cmd kernel).1 = -einval
  incomplete : ∀ entry, dispatch cmd = some entry → ¬ CopiesComplete system entry kernel.user →
    (lfddIoctl system cmd kernel).1 = -efault
  untouched : ∀ entry, dispatch cmd = some entry → system.fromLeft kernel.user entry.1 ≠ 0 →
    (lfddIoctl system cmd kernel).2.devices = kernel.devices

/-- The result says what it is meant to say, unless a read could not hand its answer over. -/
theorem result_codes_iff :
    ResultCodes system cmd kernel ↔
      ¬ ∃ entry, dispatch cmd = some entry ∧ entry.2.isRead = true ∧
        system.fromLeft kernel.user entry.1 = 0 ∧ system.toLeft kernel.user entry.1 ≠ 0 := by
  cases known : dispatch cmd with
  | none =>
    have refused := lfddIoctl_unknown system cmd kernel known
    refine ⟨fun _ => by simp, fun _ => ⟨?_, fun _ => congrArg Prod.fst refused, ?_, ?_⟩⟩
    · rw [refused]
      simp [einval, known]
    · intro entry found
      exact absurd (known.symm.trans found) (by simp)
    · intro entry found
      exact absurd (known.symm.trans found) (by simp)
  | some entry =>
    have result := lfddIoctl_result system cmd kernel entry known
    have only : ∀ other, dispatch cmd = some other → other = entry := fun other found =>
      Option.some.inj (found.symm.trans known)
    constructor
    · rintro codes ⟨other, same, read, copied, short⟩
      obtain rfl := Option.some.inj same
      have failed := codes.incomplete entry known fun complete => short (complete.2 read)
      rw [result, if_neg (by simpa using copied), if_pos read] at failed
      simp only [efault] at failed
      omega
    · intro handed
      have back : entry.2.isRead = true → system.fromLeft kernel.user entry.1 = 0 →
          system.toLeft kernel.user entry.1 = 0 := fun read copied =>
        Classical.byContradiction fun short => handed ⟨entry, rfl, read, copied, short⟩
      refine ⟨?_, fun unknown => absurd (known.symm.trans unknown) (by simp), ?_, ?_⟩
      · rw [result]
        constructor
        · intro success
          refine ⟨entry, known, ?_⟩
          by_cases copied : system.fromLeft kernel.user entry.1 = 0
          · exact ⟨copied, fun read => back read copied⟩
          · rw [if_pos copied] at success
            exact absurd success (by decide)
        · rintro ⟨other, found, copied, answered⟩
          obtain rfl := only other found
          rw [if_neg (by simpa using copied)]
          by_cases read : other.2.isRead = true
          · rw [if_pos read, answered read]
            rfl
          · rw [if_neg read]
      · intro other found partly
        obtain rfl := only other found
        rw [result]
        by_cases copied : system.fromLeft kernel.user other.1 = 0
        · exact absurd ⟨copied, fun read => back read copied⟩ partly
        · rw [if_pos copied]
      · intro other found short
        obtain rfl := only other found
        exact lfddIoctl_untouched system cmd kernel other known short

end Results

/-- A machine with nothing in it, and a caller whose structure for memory lies across the end
of what can be written: so many bytes cannot be copied back. -/
def acrossTheEnd (missing : Nat) (fits : missing ≤ Space.mem.size) : System Unit Unit UserData :=
  { System.attached (Platform.constant 0 0 fun _ => true) ⟨0, fun _ => true⟩ .absent with
    mem :=
      { UserCopy.valid _ UserData.mem fun after user => { user with mem := after } with
        toLeft := fun _ => missing
        toLeft_le := fun _ => fits } }

/-- The state of that machine. -/
def emptyKernel : Kernel Unit Unit UserData where
  user := ⟨.atRegister 0 0 0, ⟨0, 0, Vector.replicate 256 0⟩, ⟨0, 0, Vector.replicate 256 0⟩⟩
  devices := ⟨Machine.loaded () 0, ⟨fun _ => 0, []⟩, ⟨(), []⟩⟩

/-- A read at such an address returns the number of missing bytes. -/
theorem short_answer_positive :
    (lfddIoctl (acrossTheEnd 3 (by decide)) (command .mem .readByte) emptyKernel).1 = 3 ∧
      ¬ ResultCodes (acrossTheEnd 3 (by decide)) (command .mem .readByte) emptyKernel := by
  have known : dispatch (command .mem .readByte) = some (.mem, .readByte) := by
    rw [dispatch_command, if_pos (by decide)]
  refine ⟨?_, fun codes => ?_⟩
  · rw [lfddIoctl_result _ _ _ _ known]
    rfl
  · exact (result_codes_iff _ _ _).mp codes ⟨_, known, by decide, rfl, by decide⟩

end Lfdk.DeviceFile
