import Lfdk.PciScan

/-!
# The write test of a register

`validate_pcie_w_single` tries writing to the register at 2Ch of a function, through the
window. It saves the value, writes zero and a pattern, reads each back, and restores the
value at the end. It returns early when a call fails or a value that is read back is not the
one that was written.

An early return between the first write and the last leaves in the register what was
written there. The register is then as it was only if it did not take the value, so a test
that finds fault with a register is one that changes it.
-/

namespace Lfdk.PciScan

universe u
variable {ρ δ : Type u}

/-- `ERR_TEST_FAIL` -/
def errTestFail : Int := -27

/-- `REG_TEST` -/
def regTest : BitVec 16 := 0x2c

/-- `pattern & mask`, by the command that writes. -/
def testPattern (wMode : Operation) : BitVec 32 :=
  let mask := if wMode = .writeByte then 0xff else if wMode = .writeWord then 0xffff else 0xffffffff
  0x12345678 &&& mask

/-- A call, whose failure ends the test. -/
def testCall (ioctl : Ioctl LfddPcix δ) (operation : Operation) (target : LfddPcix) (driver : δ) :
    Except (LfddPcix × δ) (LfddPcix × δ) :=
  let (success, target, driver) := ioctl operation target driver
  if success = true then .ok (target, driver) else .error (target, driver)

/-- Write a value and read it back. -/
def writeAndCompare (ioctl : Ioctl LfddPcix δ) (rMode wMode : Operation) (value : BitVec 32)
    (target : LfddPcix) (driver : δ) : Except (LfddPcix × δ) (LfddPcix × δ) := do
  let (target, driver) ← testCall ioctl wMode { target with buf := value } driver
  let (target, driver) ← testCall ioctl rMode target driver
  if target.buf ≠ value then .error (target, driver) else .ok (target, driver)

/-- The calls of `validate_pcie_w_single` on the register that the request is for: save the
value, write zero and the pattern, and restore the value. -/
def testWrites (ioctl : Ioctl LfddPcix δ) (rMode wMode : Operation) (target : LfddPcix)
    (driver : δ) : Except (LfddPcix × δ) (LfddPcix × δ) := do
  let (target, driver) ← testCall ioctl rMode target driver
  let tmpBuf := target.buf
  let (target, driver) ← writeAndCompare ioctl rMode wMode 0 target driver
  let (target, driver) ← writeAndCompare ioctl rMode wMode (testPattern wMode) target driver
  writeAndCompare ioctl rMode wMode tmpBuf target driver

/-- The request of the test in `lfdd_pci_data`. -/
def testRequest (record : PciData) (lfddPciData : LfddPcix) : LfddPcix :=
  { lfddPciData with
    bus := record.bus, dev := record.dev, func := record.func, phyBase := record.phyBase
    reg := regTest }

/-- `validate_pcie_w_single` -/
def validatePcieWSingle (ioctl : Ioctl LfddPcix δ) (record : PciData) (rMode wMode : Operation)
    (lfddPciData : LfddPcix) (driver : δ) : Int × LfddPcix × δ :=
  if record.phyBase = 0 then (errTestFail, lfddPciData, driver)
  else
    match testWrites ioctl rMode wMode (testRequest record lfddPciData) driver with
    | .ok left => (0, left)
    | .error left => (errTestFail, left)

/-- The widths that are tested. -/
inductive Width where
  | byte
  | word
  | dword
deriving DecidableEq, Repr

def Width.read : Width → Operation
  | .byte => .readByte
  | .word => .readWord
  | .dword => .readDword

def Width.write : Width → Operation
  | .byte => .writeByte
  | .word => .writeWord
  | .dword => .writeDword

/-- A register: what is read of it, and what a write makes of it. -/
structure TestRegister (ρ : Type u) where
  read : Operation → ρ → BitVec 32
  write : Operation → BitVec 32 → ρ → ρ

/-- The request is for the register of this function. -/
def Addresses (record : PciData) (target : LfddPcix) : Prop :=
  target.bus = record.bus ∧ target.dev = record.dev ∧ target.func = record.func ∧
    target.phyBase = record.phyBase ∧ target.reg = regTest

instance (record : PciData) (target : LfddPcix) : Decidable (Addresses record target) :=
  inferInstanceAs (Decidable (_ ∧ _))

/-- What the calls meet: the register, the calls that fail, and what these leave behind. -/
structure Bench (ρ : Type u) where
  register : TestRegister ρ
  fails : Nat → Bool
  spoiled : Nat → LfddPcix → LfddPcix

/-- The driver of a function, with what the register holds and a count of the calls. -/
def Bench.ioctl (bench : Bench ρ) (record : PciData) : Ioctl LfddPcix (ρ × Nat) :=
  fun operation target driver =>
    let (held, calls) := driver
    if bench.fails calls then (false, bench.spoiled calls target, held, calls + 1)
    else if Addresses record target then
      match operation with
      | .readByte | .readWord | .readDword =>
        (true, { target with buf := bench.register.read operation held }, held, calls + 1)
      | .writeByte | .writeWord | .writeDword =>
        (true, target, bench.register.write operation target.buf held, calls + 1)
      | .read256byte => (true, target, held, calls + 1)
    else (true, target, held, calls + 1)

/-- Whatever is written of a width, writing the value back restores the register. -/
def TestRegister.Restorable (register : TestRegister ρ) (width : Width) (held : ρ) : Prop :=
  ∀ words : List (BitVec 32),
    register.write width.write (register.read width.read held)
      (words.foldl (fun now word => register.write width.write word now) held) = held

section Test

variable (bench : Bench ρ) (width : Width) (held : ρ)

/-- What the register holds after zero has been written. -/
def Bench.zeroed : ρ := bench.register.write width.write 0 held

/-- What it holds after the pattern has been written as well. -/
def Bench.patterned : ρ :=
  bench.register.write width.write (testPattern width.write) (bench.zeroed width held)

/-- The test leaves between the write of zero and that of the pattern. -/
def Bench.LeavesZeroed : Prop :=
  bench.fails 2 = true ∨ bench.register.read width.read (bench.zeroed width held) ≠ 0 ∨
    bench.fails 3 = true

/-- It leaves between the write of the pattern and that of the value. -/
def Bench.LeavesPatterned : Prop :=
  bench.fails 4 = true ∨
    bench.register.read width.read (bench.patterned width held) ≠ testPattern width.write

/-- The test leaves before it has written anything, or where it leaves before the value is
restored, the register has not taken what was written. -/
def Bench.Undisturbed : Prop :=
  bench.fails 0 = true ∨ bench.fails 1 = true ∨
    ((bench.LeavesZeroed width held → bench.zeroed width held = held) ∧
      (¬ bench.LeavesZeroed width held → bench.LeavesPatterned width held →
        bench.patterned width held = held))

/-- The register holds what it held before the test. -/
def Bench.Restores (record : PciData) (lfddPciData : LfddPcix) : Prop :=
  (validatePcieWSingle (bench.ioctl record) record width.read width.write lfddPciData
    (held, 0)).2.2.1 = held

variable {record : PciData} {target : LfddPcix} (addresses : Addresses record target)
  (calls : Nat)

include addresses

/-- A read that works gives what the register shows, and counts as a call. -/
theorem ioctl_read (works : bench.fails calls = false) :
    bench.ioctl record width.read target (held, calls) =
      (true, { target with buf := bench.register.read width.read held }, held, calls + 1) := by
  have fails : ¬ bench.fails calls = true := Bool.eq_false_iff.mp works
  cases width with
  | byte => exact (if_neg fails).trans (if_pos addresses)
  | word => exact (if_neg fails).trans (if_pos addresses)
  | dword => exact (if_neg fails).trans (if_pos addresses)

/-- A write that works changes the register by the rule for its bits, and counts. -/
theorem ioctl_write (works : bench.fails calls = false) :
    bench.ioctl record width.write target (held, calls) =
      (true, target, bench.register.write width.write target.buf held, calls + 1) := by
  have fails : ¬ bench.fails calls = true := Bool.eq_false_iff.mp works
  cases width with
  | byte => exact (if_neg fails).trans (if_pos addresses)
  | word => exact (if_neg fails).trans (if_pos addresses)
  | dword => exact (if_neg fails).trans (if_pos addresses)

omit addresses in
/-- A call that fails ends the test with what it left in the request. -/
theorem testCall_fails (operation : Operation) (fails : bench.fails calls = true) :
    testCall (bench.ioctl record) operation target (held, calls) =
      .error (bench.spoiled calls target, held, calls + 1) := by
  have called : bench.ioctl record operation target (held, calls) =
      (false, bench.spoiled calls target, held, calls + 1) := if_pos fails
  rw [testCall, called]
  rfl

/-- A read that works lets the test go on with what was read, -/
theorem testCall_read (works : bench.fails calls = false) :
    testCall (bench.ioctl record) width.read target (held, calls) =
      .ok ({ target with buf := bench.register.read width.read held }, held, calls + 1) := by
  rw [testCall, ioctl_read bench width held addresses calls works]
  rfl

/-- and a write with the register as the write left it. -/
theorem testCall_write (works : bench.fails calls = false) (value : BitVec 32) :
    testCall (bench.ioctl record) width.write { target with buf := value } (held, calls) =
      .ok ({ target with buf := value }, bench.register.write width.write value held,
        calls + 1) := by
  have same : Addresses record { target with buf := value } := addresses
  rw [testCall, ioctl_write bench width held same calls works]
  rfl

/-- A write that is read back: the first call fails, the second fails or shows another value,
or the register holds what was written. -/
theorem writeAndCompare_cases (value : BitVec 32) :
    let written := bench.register.write width.write value held
    let ran := writeAndCompare (bench.ioctl record) width.read width.write value target
      (held, calls)
    (bench.fails calls = true ∧ ∃ left, ran = .error (left, held, calls + 1)) ∨
    (bench.fails calls = false ∧
      (bench.fails (calls + 1) = true ∨ bench.register.read width.read written ≠ value) ∧
      ∃ left, ran = .error (left, written, calls + 2)) ∨
    (bench.fails calls = false ∧ bench.fails (calls + 1) = false ∧
      bench.register.read width.read written = value ∧
      ran = .ok ({ target with buf := value }, written, calls + 2)) := by
  intro written ran
  have same : Addresses record { target with buf := value } := addresses
  have compared : ran = writeAndCompare (bench.ioctl record) width.read width.write value target
    (held, calls) := rfl
  rw [writeAndCompare] at compared
  cases first : bench.fails calls with
  | true =>
    rw [testCall_fails bench held calls _ first] at compared
    exact Or.inl ⟨rfl, _, compared⟩
  | false =>
    rw [testCall_write bench width held addresses calls first] at compared
    simp only [bind, Except.bind] at compared
    cases second : bench.fails (calls + 1) with
    | true =>
      rw [testCall_fails bench _ (calls + 1) _ second] at compared
      exact Or.inr (Or.inl ⟨rfl, Or.inl rfl, _, compared⟩)
    | false =>
      rw [testCall_read bench width _ same (calls + 1) second] at compared
      simp only at compared
      by_cases equal : bench.register.read width.read written = value
      · rw [if_neg (fun differs => differs equal), equal] at compared
        exact Or.inr (Or.inr ⟨rfl, rfl, equal, compared⟩)
      · rw [if_pos equal] at compared
        exact Or.inr (Or.inl ⟨rfl, Or.inr equal, _, compared⟩)

end Test

section Exits

variable (bench : Bench ρ) (width : Width) (held : ρ)

/-- What decides after two calls that did not fail. -/
theorem undisturbed_written (read : bench.fails 0 = false) (wrote : bench.fails 1 = false) :
    bench.Undisturbed width held ↔
      (bench.LeavesZeroed width held → bench.zeroed width held = held) ∧
        (¬ bench.LeavesZeroed width held → bench.LeavesPatterned width held →
          bench.patterned width held = held) := by
  simp only [Bench.Undisturbed, read, wrote, Bool.false_eq_true, false_or]

/-- Where the test leaves with zero written, the zero decides. -/
theorem undisturbed_zeroed (read : bench.fails 0 = false) (wrote : bench.fails 1 = false)
    (leaves : bench.LeavesZeroed width held) :
    bench.Undisturbed width held ↔ bench.zeroed width held = held := by
  rw [undisturbed_written bench width held read wrote]
  constructor
  · exact fun kept => kept.1 leaves
  · exact fun same => ⟨fun _ => same, fun stays => absurd leaves stays⟩

/-- Where it leaves with the pattern written, the pattern does. -/
theorem undisturbed_patterned (read : bench.fails 0 = false) (wrote : bench.fails 1 = false)
    (stays : ¬ bench.LeavesZeroed width held) (leaves : bench.LeavesPatterned width held) :
    bench.Undisturbed width held ↔ bench.patterned width held = held := by
  rw [undisturbed_written bench width held read wrote]
  constructor
  · exact fun kept => kept.2 stays leaves
  · exact fun same => ⟨fun zeroed => absurd zeroed stays, fun _ _ => same⟩

/-- A test that comes to the last write leaves nowhere before. -/
theorem undisturbed_restored (stays : ¬ bench.LeavesZeroed width held)
    (goes : ¬ bench.LeavesPatterned width held) : bench.Undisturbed width held :=
  Or.inr (Or.inr ⟨fun zeroed => absurd zeroed stays, fun _ leaves => absurd leaves goes⟩)

/-- The test goes on to the pattern when zero is read back and the calls work. -/
theorem stays_zeroed (reread : bench.fails 2 = false) (again : bench.fails 3 = false)
    (shown : bench.register.read width.read (bench.zeroed width held) = 0) :
    ¬ bench.LeavesZeroed width held := by
  rintro (fails | differs | fails)
  · exact Bool.false_ne_true (reread.symm.trans fails)
  · exact differs shown
  · exact Bool.false_ne_true (again.symm.trans fails)

/-- It goes on to the value when the pattern is read back. -/
theorem stays_patterned (reread : bench.fails 4 = false)
    (shown : bench.register.read width.read (bench.patterned width held) =
      testPattern width.write) :
    ¬ bench.LeavesPatterned width held := by
  rintro (fails | differs)
  · exact Bool.false_ne_true (reread.symm.trans fails)
  · exact differs shown

end Exits

/-- The register is as it was exactly when the test leaves before it writes, or where it
leaves before the value is restored, the register has not taken what was written. -/
theorem self_test_restores_iff (bench : Bench ρ) (width : Width) (held : ρ) (record : PciData)
    (lfddPciData : LfddPcix) (window : record.phyBase ≠ 0)
    (restorable : bench.register.Restorable width held) (works : bench.fails 5 = false) :
    bench.Restores width held record lfddPciData ↔ bench.Undisturbed width held := by
  have addresses : Addresses record (testRequest record lfddPciData) :=
    ⟨rfl, rfl, rfl, rfl, rfl⟩
  rw [Bench.Restores, validatePcieWSingle, if_neg window]
  generalize testRequest record lfddPciData = target at addresses ⊢
  cases first : bench.fails 0 with
  | true =>
    rw [testWrites, testCall_fails bench held 0 _ first]
    exact iff_of_true rfl (Or.inl first)
  | false =>
    rw [testWrites, testCall_read bench width held addresses 0 first]
    simp only [bind, Except.bind]
    have saved : Addresses record { target with buf := bench.register.read width.read held } :=
      addresses
    rcases writeAndCompare_cases bench width held saved 1 0 with
      ⟨fails, left, ran⟩ | ⟨wrote, leaves, left, ran⟩ | ⟨wrote, read, equal, ran⟩
    · rw [ran]
      exact iff_of_true rfl (Or.inr (Or.inl fails))
    · have leavesZeroed : bench.LeavesZeroed width held := by
        rcases leaves with fails | differs
        · exact Or.inl fails
        · exact Or.inr (Or.inl differs)
      rw [ran, undisturbed_zeroed bench width held first wrote leavesZeroed]
      rfl
    · rw [ran]
      simp only
      have zeroed : bench.register.write width.write 0 held = bench.zeroed width held := rfl
      have empty : Addresses record { target with buf := 0 } := addresses
      rw [zeroed] at equal ⊢
      rcases writeAndCompare_cases bench width (bench.zeroed width held) empty 3
          (testPattern width.write) with
        ⟨fails, left, ran⟩ | ⟨again, leaves, left, ran⟩ | ⟨again, reread, shown, ran⟩
      · have leavesZeroed : bench.LeavesZeroed width held := Or.inr (Or.inr fails)
        rw [ran, undisturbed_zeroed bench width held first wrote leavesZeroed]
      · have stays := stays_zeroed bench width held read again equal
        rw [ran, undisturbed_patterned bench width held first wrote stays leaves]
        rfl
      · have stays := stays_zeroed bench width held read again equal
        have goes := stays_patterned bench width held reread shown
        have patterned : bench.register.write width.write (testPattern width.write)
            (bench.zeroed width held) = bench.patterned width held := rfl
        have restored : bench.register.write width.write (bench.register.read width.read held)
            (bench.patterned width held) = held := restorable [0, testPattern width.write]
        have full : Addresses record { target with buf := testPattern width.write } := addresses
        rw [ran]
        simp only
        rw [patterned]
        refine iff_of_true ?_ (undisturbed_restored bench width held stays goes)
        rcases writeAndCompare_cases bench width (bench.patterned width held) full 5
            (bench.register.read width.read held) with
          ⟨fails, _⟩ | ⟨_, _, left, ran⟩ | ⟨_, _, _, ran⟩
        · exact absurd (works.symm.trans fails) Bool.false_ne_true
        · rw [ran]
          exact restored
        · rw [ran]
          exact restored

/-- A register that takes what is written, in a test in which no call fails. -/
def plainBench : Bench (BitVec 32) :=
  ⟨⟨fun _ held => held, fun _ word _ => word⟩, fun _ => false, fun _ target => target⟩

/-- A function with a window. -/
def windowRecord : PciData := { PciData.zero with phyBase := 0xe0000000 }

/-- The plain register takes what is written, so its test does not leave before the value is
restored. -/
theorem plain_undisturbed : plainBench.Undisturbed .dword 0x11 :=
  undisturbed_restored plainBench .dword 0x11 (stays_zeroed plainBench .dword 0x11 rfl rfl rfl)
    (stays_patterned plainBench .dword 0x11 rfl rfl)

/-- So its test leaves it as it was, with the value it had. -/
theorem plain_register_restored :
    plainBench.Restores .dword 0x11 windowRecord (LfddPcix.atRegister 0 0 0) :=
  (self_test_restores_iff plainBench .dword 0x11 windowRecord (LfddPcix.atRegister 0 0 0)
    (by decide) (fun _ => rfl) rfl).mpr plain_undisturbed

/-- A register whose lowest bit is always set. -/
def stuckBench : Bench (BitVec 32) :=
  ⟨⟨fun _ held => held, fun _ word _ => word ||| 1⟩, fun _ => false, fun _ target => target⟩

/-- The test finds that it is not zero, and leaves it so. -/
theorem stuck_register_changed :
    stuckBench.register.Restorable .dword 0x11 ∧
      (validatePcieWSingle (stuckBench.ioctl windowRecord) windowRecord .readDword .writeDword
        (LfddPcix.atRegister 0 0 0) (0x11, 0)).1 = errTestFail ∧
      (validatePcieWSingle (stuckBench.ioctl windowRecord) windowRecord .readDword .writeDword
        (LfddPcix.atRegister 0 0 0) (0x11, 0)).2.2.1 = 1 ∧
      ¬ stuckBench.Restores .dword 0x11 windowRecord (LfddPcix.atRegister 0 0 0) := by
  have left : (validatePcieWSingle (stuckBench.ioctl windowRecord) windowRecord .readDword
      .writeDword (LfddPcix.atRegister 0 0 0) (0x11, 0)).2.2.1 = 1 := rfl
  refine ⟨fun _ => rfl, rfl, left, fun restores => ?_⟩
  exact absurd (left.symm.trans restores) (by decide)

end Lfdk.PciScan
