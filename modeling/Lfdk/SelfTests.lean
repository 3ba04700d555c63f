import Lfdk.FaithfulScreens
import Lfdk.WriteReadBack
import Lfdk.WriteSelfTest

/-!
# The self test of the access methods

`ValidationPCIE` goes through the functions with a base. It reads registers of the header
through the window and through the ports, in each width and in bulk, and compares; then it
writes to the register at 2Ch, which is assumed to keep what is written, and restores it. The
first difference ends the test.

On a computer whose window shows what the ports show, the test finds no difference in any
state: not after other accesses, whatever is mapped and whatever the registers hold. And
it leaves all registers as they were.
-/

namespace Lfdk.PciScan

open CountedLoops

universe u
variable {δ : Type u} (ioctl : Ioctl LfddPcix δ)

/-- `validate_reg_map`, which both tests of reading have. -/
def validateRegMap : List (BitVec 16) := [0x00, 0x01, 0x02, 0x03, 0x08, 0x09, 0x0a, 0x0b]

/-- A register read through the window and then through the ports. -/
def compareReads (record : PciData) (mode : Operation) (reg : BitVec 16) (target : LfddPcix)
    (driver : δ) : Except (LfddPcix × δ) (LfddPcix × δ) := do
  let (target, driver) ←
    testCall ioctl mode { target with phyBase := record.phyBase, reg := reg } driver
  let tmpBuf := target.buf
  let (target, driver) ← testCall ioctl mode { target with phyBase := 0, reg := reg } driver
  if tmpBuf ≠ target.buf then .error (target, driver) else .ok (target, driver)

/-- The reads of these registers, up to the first that differs. -/
def compareAll (record : PciData) (mode : Operation) :
    List (BitVec 16) → LfddPcix → δ → Except (LfddPcix × δ) (LfddPcix × δ)
  | [], target, driver => .ok (target, driver)
  | reg :: rest, target, driver => do
    let (target, driver) ← compareReads ioctl record mode reg target driver
    compareAll record mode rest target driver

/-- `validate_pcie_r_single` -/
def validatePcieRSingle (record : PciData) (mode : Operation) (lfddPciData : LfddPcix)
    (driver : δ) : Int × LfddPcix × δ :=
  if record.phyBase = 0 then (errTestFail, lfddPciData, driver)
  else
    let target :=
      { lfddPciData with bus := record.bus, dev := record.dev, func := record.func }
    match compareAll ioctl record mode validateRegMap target driver with
    | .ok left => (0, left)
    | .error left => (errTestFail, left)

/-- `validate_pcie_r_256B`. A call that fails ends the program. -/
def validatePcieR256B (record : PciData) (lfddPciData : LfddPcix) (driver : δ) :
    Option (Int × LfddPcix × δ) :=
  let target := { lfddPciData with
    bus := record.bus, dev := record.dev, func := record.func, reg := 0
    phyBase := record.phyBase }
  let (success, target, driver) := ioctl .read256byte target driver
  if success = true then
    let tmpBuf := target.massBuf
    let (success, target, driver) :=
      ioctl .read256byte { target with reg := 0, phyBase := 0 } driver
    if success = true then
      if validateRegMap.all fun reg => tmpBuf[reg.toNat]? = target.massBuf[reg.toNat]? then
        some (0, target, driver)
      else some (errTestFail, target, driver)
    else none
  else none

/-- How `ValidationPCIE` ends: with its message of success, at a test that failed, or with the
end of the program. -/
inductive Validation (δ : Type u) where
  | success (lfddPciData : LfddPcix) (driver : δ)
  | failed (lfddPciData : LfddPcix) (driver : δ)
  | exited

/-- Go on after a test, if it returned zero. -/
def Validation.next (ran : Int × LfddPcix × δ) (rest : LfddPcix → δ → Validation δ) :
    Validation δ :=
  if ran.1 = 0 then rest ran.2.1 ran.2.2 else .failed ran.2.1 ran.2.2

/-- The tests of one function. -/
def validateRecord (record : PciData) (rest : LfddPcix → δ → Validation δ)
    (lfddPciData : LfddPcix) (driver : δ) : Validation δ :=
  Validation.next (validatePcieRSingle ioctl record .readByte lfddPciData driver)
    fun lfddPciData driver =>
  Validation.next (validatePcieRSingle ioctl record .readWord lfddPciData driver)
    fun lfddPciData driver =>
  Validation.next (validatePcieRSingle ioctl record .readDword lfddPciData driver)
    fun lfddPciData driver =>
  match validatePcieR256B ioctl record lfddPciData driver with
  | none => .exited
  | some ran => Validation.next ran fun lfddPciData driver =>
    Validation.next (validatePcieWSingle ioctl record .readByte .writeByte lfddPciData driver)
      fun lfddPciData driver =>
    Validation.next (validatePcieWSingle ioctl record .readWord .writeWord lfddPciData driver)
      fun lfddPciData driver =>
    Validation.next (validatePcieWSingle ioctl record .readDword .writeDword lfddPciData driver)
      rest

/-- `ValidationPCIE` on the records of the list. -/
def validationPCIE : List PciData → LfddPcix → δ → Validation δ
  | [], lfddPciData, driver => .success lfddPciData driver
  | record :: rest, lfddPciData, driver =>
    if record.phyBase = 0 then validationPCIE rest lfddPciData driver
    else validateRecord ioctl record (validationPCIE rest) lfddPciData driver

end Lfdk.PciScan

namespace Lfdk

open RegisterBits ByteMemory MemoryAccess PciScan ShippedWindows

universe u

/-- A request for a register of the header, through the ports or the window. -/
structure NamesHeader (ecam : BitVec 64) (pci : LfddPcix) : Prop where
  base : pci.phyBase = 0 ∨ pci.phyBase = ecam
  reg : pci.reg.toNat < 2 ^ 8

/-- The bytes of a width. -/
def PciScan.Width.bytes : Width → Nat
  | .byte => 1
  | .word => 2
  | .dword => 4

/-- What a read of a width shows of a dword, from this byte of it on. -/
def PciScan.Width.shown (width : Width) (lane : Nat) (dword : BitVec 32) : BitVec 32 :=
  match width with
  | .byte => (RegisterBits.byte lane dword).setWidth 32
  | .word => ((dword >>> (8 * lane)).setWidth 16).setWidth 32
  | .dword => dword

/-- What the driver does with requests for the header. -/
structure HeaderDriver {δ : Type u} (kinds : RegisterKinds) (ecam : BitVec 64)
    (ioctl : Ioctl LfddPcix δ) (Good : δ → Prop) (registers : δ → ConfigSpace) : Prop where
  read : ∀ (width : Width) target driver, NamesHeader ecam target → Good driver →
    ∃ after, ioctl width.read target driver =
        (true, { target with
          buf := width.shown (target.reg.toNat % 4)
            (registers driver target.function (target.reg.toNat / 4)) }, after) ∧
      registers after = registers driver ∧ Good after
  write : ∀ (width : Width) target driver, NamesHeader ecam target → 4 ∣ target.reg.toNat →
    Good driver →
    ∃ after, ioctl width.write target driver = (true, target, after) ∧
      registers after = (registers driver).write kinds target.function (target.reg.toNat / 4)
        (splice 0 (8 * width.bytes) target.buf
          (registers driver target.function (target.reg.toNat / 4))) ∧ Good after
  bulk : ∀ target driver, NamesHeader ecam target → target.reg = 0 → Good driver →
    ∃ massBuf after, ioctl .read256byte target driver =
        (true, { target with massBuf := massBuf }, after) ∧
      (∀ index < 256, contents massBuf index =
        (registers driver).byte target.function index) ∧
      registers after = registers driver ∧ Good after

section Machine

variable (kinds : RegisterKinds) (ecam highMemory : BitVec 64) (ioremapSucceeds : Nat → Bool)
  (window : EcamWindow ecam) (pci : LfddPcix) (names : NamesHeader ecam pci)

include window names

/-- The base of a header is one of whole pages, as the window begins at one. -/
theorem NamesHeader.paged : 4096 ∣ pci.phyBase.toNat := by
  rcases names.base with ports | mmio
  · rw [ports]
    exact Nat.dvd_zero _
  · rw [mmio]
    exact window.aligned

omit window in
/-- The ports select the dword of the register, in the function that is named. -/
theorem header_selected (ports : pci.phyBase = 0) :
    pci.selected.toNat / 2 ^ 8 % 2 ^ 16 = pci.function ∧
      pci.selected.toNat % 2 ^ 8 / 4 = pci.reg.toNat / 4 := by
  have bound := function_bound pci
  have reg := names.reg
  rw [selected_ports pci ports, merged_low pci names.reg]
  omega

/-- So does its address in the window, whose base adds no carry into the fields. -/
theorem header_place (mmio : pci.phyBase ≠ 0) :
    (pci.addr &&& ~~~3).toNat =
      ecam.toNat + pci.function * 2 ^ 12 + pci.reg.toNat / 4 * 4 := by
  have base := names.base.resolve_left mmio
  have reg := names.reg
  obtain ⟨pages, multiple⟩ := window.aligned
  rw [dword_toNat, addr_mmio pci mmio (base ▸ window.fits), base]
  omega

/-- The dword of the register is the one of its function, by both methods. -/
theorem header_dwordAt (space : ConfigSpace) :
    pci.dwordAt (registerPlatform kinds ecam.toNat highMemory ioremapSucceeds) space =
      space pci.function (pci.reg.toNat / 4) := by
  have bound := function_bound pci
  have reg := names.reg
  rw [LfddPcix.dwordAt]
  by_cases ports : pci.phyBase = 0
  · obtain ⟨function, dword⟩ := header_selected ecam pci names ports
    rw [if_pos ports]
    simp only [registerPlatform, function, dword]
  · rw [if_neg ports, header_place ecam window pci names ports,
      registers_memoryRead _ _ _ _ _ _ _ bound (by omega), Nat.mul_div_cancel _ (by decide)]

/-- A write through the window to the header is one of the dword that the request names. -/
theorem header_withDword (space : ConfigSpace) (value : BitVec 32) :
    pci.withDword (registerPlatform kinds ecam.toNat highMemory ioremapSucceeds) space value =
      space.write kinds pci.function (pci.reg.toNat / 4) value := by
  have bound := function_bound pci
  have reg := names.reg
  rw [LfddPcix.withDword]
  by_cases ports : pci.phyBase = 0
  · obtain ⟨function, dword⟩ := header_selected ecam pci names ports
    rw [if_pos ports]
    simp only [registerPlatform, function, dword]
  · rw [if_neg ports, header_place ecam window pci names ports,
      registers_memoryWrite _ _ _ _ _ _ _ _ bound (by omega), Nat.mul_div_cancel _ (by decide)]

variable (aboveRam : highMemory.toNat ≤ ecam.toNat) (below : ecam.toNat + 2 ^ 28 < 2 ^ 32)

include aboveRam below

/-- The driver accepts the request, if a dword is written to an aligned register. -/
theorem header_accepted (operation : Operation) (single : operation ≠ .read256byte)
    (aligned : operation = .writeDword → 4 ∣ pci.reg.toNat) :
    (⟨operation, pci⟩ : Request).refused
      (registerPlatform kinds ecam.toNat highMemory ioremapSucceeds) = false := by
  rw [Bool.eq_false_iff, ne_eq, Request.refused_iff]
  rintro (⟨dword, misaligned⟩ | invalid)
  · apply misaligned
    have lane := addr_lane pci (names.paged ecam window pci)
    have multiple := aligned dword
    apply BitVec.eq_of_toNat_eq
    change (pci.addr &&& 0x3).toNat = 0
    omega
  · have block : (⟨operation, pci⟩ : Request).block = addrAlighBuf pci.addr := by
      cases operation with
      | read256byte => exact absurd rfl single
      | readByte | readWord | readDword | writeByte | writeWord | writeDword => rfl
    rw [block, invalidMmio, Bool.and_eq_true, decide_eq_true_eq, decide_eq_true_eq] at invalid
    obtain ⟨mmio, low⟩ := invalid
    have bound := function_bound pci
    have base := names.base.resolve_left mmio
    have reg := names.reg
    have place := addr_mmio pci mmio (base ▸ window.fits)
    have start := addrAlighBuf_toNat pci.addr
    have size : lfddMassbufSize.toNat = 256 := by decide
    obtain ⟨pages, multiple⟩ := window.aligned
    rw [BitVec.le_def, BitVec.toNat_setWidth, BitVec.toNat_add, size, start, place, base] at low
    change _ ≤ highMemory.toNat at low
    omega

omit window names aboveRam below in
/-- A command that reads succeeds on every machine, and puts what was read into the buffer. -/
theorem lfddIoctl_read {σ : Type} (platform : Platform σ) (width : Width)
    (machine : Machine σ) :
    lfddIoctl platform width.read pci machine =
      (true, { pci with
        buf := ((perform platform ⟨width.read, pci⟩ machine).1.value).getD 0 },
        (perform platform ⟨width.read, pci⟩ machine).2) := by
  cases width <;> rfl

omit window names aboveRam below in
/-- A command that writes succeeds, and leaves the request as it was. -/
theorem lfddIoctl_write {σ : Type} (platform : Platform σ) (width : Width)
    (machine : Machine σ) :
    lfddIoctl platform width.write pci machine =
      (true, pci, (perform platform ⟨width.write, pci⟩ machine).2) := by
  cases width <;> rfl

omit window names aboveRam below in
/-- A bulk read changes the buffer of the request and nothing else. -/
theorem lfddIoctl_bulk {σ : Type} (platform : Platform σ) (machine : Machine σ) :
    lfddIoctl platform .read256byte pci machine =
      (true, { pci with massBuf := (lfddIoctl platform .read256byte pci machine).2.1.massBuf },
        (lfddIoctl platform .read256byte pci machine).2.2) := by
  have kept : ∀ request : LfddPcix, (lfddPcixRead256byte platform request machine).1 =
      { request with massBuf := (lfddPcixRead256byte platform request machine).1.massBuf } := by
    intro request
    rw [lfddPcixRead256byte]
    split
    · rfl
    · by_cases ports : request.phyBase = 0
      · rw [bulkAccess_ports platform request _ ports]
      · rw [bulkAccess_mmio platform request _ ports]
  have own := kept { pci with massBuf := Vector.replicate 256 0 }
  simp only [lfddIoctl]
  rw [own]

omit names aboveRam below in
/-- A read answers with what its width shows of the dword, from the register's lane on. -/
theorem read_answer (names : NamesHeader ecam pci) (width : Width) (dword : BitVec 32) :
    ((⟨width.read, pci⟩ : Request).answer dword fun _ => 0).1 =
      some (width.shown (pci.reg.toNat % 4) dword) := by
  have paged := names.paged ecam window pci
  cases width with
  | byte => exact readByte_answer pci paged dword _
  | word => exact readWord_answer pci paged dword _
  | dword => rfl

variable (machine : Machine ConfigSpace) (paged : machine.Paged)
  (succeeds : ∀ call, ioremapSucceeds call = true)

include paged succeeds

/-- A read of the header succeeds and changes no register, by either method. -/
theorem header_read (width : Width) :
    ∃ after, lfddIoctl (registerPlatform kinds ecam.toNat highMemory ioremapSucceeds) width.read
        pci machine =
        (true, { pci with
          buf := width.shown (pci.reg.toNat % 4)
            (machine.device pci.function (pci.reg.toNat / 4)) }, after) ∧
      after.device = machine.device ∧ after.Paged := by
  have single : width.read ≠ .read256byte := by cases width <;> decide
  have reads : width.read ≠ .writeDword := by cases width <;> decide
  have accepted := header_accepted kinds ecam highMemory ioremapSucceeds window pci names aboveRam
    below width.read single fun write => absurd write reads
  obtain ⟨value, _, _⟩ := serve_single _ succeeds ⟨width.read, pci⟩ machine single accepted
    fun _ => paged
  obtain ⟨reply, _⟩ := perform_serve
    (registerPlatform kinds ecam.toNat highMemory ioremapSucceeds) ⟨width.read, pci⟩ machine
  have kept : (perform (registerPlatform kinds ecam.toNat highMemory ioremapSucceeds)
      ⟨width.read, pci⟩ machine).2.device = machine.device :=
    perform_reads _ ⟨width.read, pci⟩ (by cases width <;> rfl) machine
  have next := lfddIoctl_paged
    (registerPlatform kinds ecam.toNat highMemory ioremapSucceeds) succeeds width.read pci machine
    paged
    fun bulk => absurd bulk single
  refine ⟨_, ?_, kept, ?_⟩
  · rw [lfddIoctl_read, reply, value, read_answer ecam window pci names,
      header_dwordAt kinds ecam highMemory ioremapSucceeds window pci names]
    rfl
  · rw [lfddIoctl_read] at next
    exact next

/-- A write to the start of a dword of the header. -/
theorem header_write (width : Width) (aligned : 4 ∣ pci.reg.toNat) :
    ∃ after, lfddIoctl (registerPlatform kinds ecam.toNat highMemory ioremapSucceeds) width.write
        pci machine = (true, pci, after) ∧
      after.device = machine.device.write kinds pci.function (pci.reg.toNat / 4)
        (splice 0 (8 * width.bytes) pci.buf
          (machine.device pci.function (pci.reg.toNat / 4))) ∧ after.Paged := by
  have single : width.write ≠ .read256byte := by cases width <;> decide
  have accepted := header_accepted kinds ecam highMemory ioremapSucceeds window pci names aboveRam
    below width.write single fun _ => aligned
  obtain ⟨_, device, _⟩ := serve_single _ succeeds ⟨width.write, pci⟩ machine single accepted
    fun _ => paged
  obtain ⟨_, same⟩ := perform_serve
    (registerPlatform kinds ecam.toNat highMemory ioremapSucceeds) ⟨width.write, pci⟩ machine
  have writes : (⟨width.write, pci⟩ : Request).operation.width = some width.bytes := by
    cases width <;> rfl
  have whole : width.bytes ∣ pci.reg.toNat := by
    cases width with
    | byte => exact Nat.one_dvd _
    | word => exact Nat.dvd_trans (by decide) aligned
    | dword => exact aligned
  have lane : pci.reg.toNat % 4 = 0 := Nat.mod_eq_zero_of_dvd aligned
  have put := written_splice ⟨width.write, pci⟩ width.bytes writes whole
    (names.paged ecam window pci)
  have next := lfddIoctl_paged
    (registerPlatform kinds ecam.toNat highMemory ioremapSucceeds) succeeds width.write pci machine
    paged
    fun bulk => absurd bulk single
  refine ⟨_, lfddIoctl_write pci _ width machine, ?_, ?_⟩
  · have left := congrArg Machine.device same
    change (perform _ _ machine).2.device = (serve _ _ machine).2.device at left
    rw [left, device, put, Option.elim_some,
      header_dwordAt kinds ecam highMemory ioremapSucceeds window pci names,
      header_withDword kinds ecam highMemory ioremapSucceeds window pci names, lane]
  · rw [lfddIoctl_write] at next
    exact next

/-- The bulk read of the header shows the 256 bytes of the function and changes none. -/
theorem header_bulk (first : pci.reg = 0) :
    ∃ massBuf after, lfddIoctl (registerPlatform kinds ecam.toNat highMemory ioremapSucceeds)
        .read256byte pci machine = (true, { pci with massBuf := massBuf }, after) ∧
      (∀ index < 256, contents massBuf index = machine.device.byte pci.function index) ∧
      after.device = machine.device ∧ after.Paged := by
  have page : NamesPage ecam pci := by
    refine ⟨fun _ => first, fun mmio => ⟨names.base.resolve_left mmio, ?_, ?_⟩⟩
    · rw [first]
      exact Nat.dvd_zero _
    · rw [first]
      decide
  have shown := page_read kinds ecam highMemory ioremapSucceeds window pci page machine paged
    succeeds aboveRam below
  have kept : (perform (registerPlatform kinds ecam.toNat highMemory ioremapSucceeds)
      (performed .read256byte pci) machine).2.device = machine.device :=
    perform_reads _ (performed .read256byte pci) rfl machine
  have next := lfddIoctl_paged
    (registerPlatform kinds ecam.toNat highMemory ioremapSucceeds) succeeds .read256byte pci machine
    paged
    (page.mapsPage ecam window pci .read256byte)
  rw [← lfddIoctl_performs] at kept
  refine ⟨_, _, lfddIoctl_bulk pci _ machine, ?_, kept, next⟩
  intro index small
  have delivered := shown index small
  have start : pci.reg.toNat + index = index := by
    rw [first]
    exact Nat.zero_add index
  rwa [start] at delivered

end Machine

/-- The program's calls on a computer are such: what holds of the driver is lifted to the program
around it. -/
theorem computer_header {δ : Type u} (computer : Computer δ) :
    HeaderDriver computer.kinds computer.ecam computer.env.pci Attached.Paged
      Attached.registers := by
  have lifted : ∀ operation request (attached : Attached ConfigSpace δ) answered after,
      lfddIoctl computer.platform operation request attached.kernel.devices.pci =
        (true, answered, after) →
      ∃ left, computer.env.pci operation request attached = (true, answered, left) ∧
        left.kernel.devices.pci = after := by
    intro operation request attached answered after ran
    obtain ⟨success, reply, device⟩ := pciDevice_answers computer.platform
      computer.memPlatform computer.ports operation request attached
    rw [ran] at success reply device
    exact ⟨_, Prod.ext success (Prod.ext reply rfl), device⟩
  constructor
  · intro width target attached names paged
    obtain ⟨after, ran, device, next⟩ := header_read computer.kinds computer.ecam
      computer.highMemory (fun _ => true) computer.window target names computer.aboveRam
      computer.below attached.kernel.devices.pci paged (fun _ => rfl) width
    obtain ⟨left, called, same⟩ := lifted width.read target attached _ after ran
    exact ⟨left, called, (congrArg Machine.device same).trans device, by
      rw [Attached.Paged, same]
      exact next⟩
  · intro width target attached names aligned paged
    obtain ⟨after, ran, device, next⟩ := header_write computer.kinds computer.ecam
      computer.highMemory (fun _ => true) computer.window target names computer.aboveRam
      computer.below attached.kernel.devices.pci paged (fun _ => rfl) width aligned
    obtain ⟨left, called, same⟩ := lifted width.write target attached _ after ran
    exact ⟨left, called, (congrArg Machine.device same).trans device, by
      rw [Attached.Paged, same]
      exact next⟩
  · intro target attached names first paged
    obtain ⟨massBuf, after, ran, shown, device, next⟩ := header_bulk computer.kinds computer.ecam
      computer.highMemory (fun _ => true) computer.window target names computer.aboveRam
      computer.below attached.kernel.devices.pci paged (fun _ => rfl) first
    obtain ⟨left, called, same⟩ := lifted .read256byte target attached _ after ran
    exact ⟨massBuf, left, called, shown, (congrArg Machine.device same).trans device, by
      rw [Attached.Paged, same]
      exact next⟩

/-- The registers that are compared are in the first page of the function. -/
theorem validateRegMap_small : ∀ reg ∈ validateRegMap, reg.toNat < 2 ^ 8 := by
  simp [validateRegMap]

/-- A call that works lets the test go on with what it answered. -/
theorem testCall_works {δ : Type u} {ioctl : Ioctl LfddPcix δ} {operation : Operation}
    {target answered : LfddPcix} {driver after : δ}
    (ran : ioctl operation target driver = (true, answered, after)) :
    testCall ioctl operation target driver = .ok (answered, after) := by
  simp only [testCall, ran, if_true]

section Reads

variable {δ : Type u} {kinds : RegisterKinds} {ecam : BitVec 64} {ioctl : Ioctl LfddPcix δ}
  {Good : δ → Prop} {registers : δ → ConfigSpace}

/-- What a test of a function leaves: a request for this function, and the registers as they
are said to be. -/
structure Tested (Good : δ → Prop) (registers : δ → ConfigSpace) (record : PciData)
    (space : ConfigSpace) (left : LfddPcix × δ) : Prop where
  bus : left.1.bus = record.bus
  dev : left.1.dev = record.dev
  func : left.1.func = record.func
  registers : registers left.2 = space
  good : Good left.2

variable (header : HeaderDriver kinds ecam ioctl Good registers) {record : PciData}
  (based : record.phyBase = ecam) {space : ConfigSpace}

/-- Two reads that work and agree let the test go on, from the state after the second. -/
theorem compareReads_agree {mode : Operation} {reg : BitVec 16}
    {target first second : LfddPcix} {driver middle after : δ}
    (window : ioctl mode { target with phyBase := record.phyBase, reg := reg } driver =
      (true, first, middle))
    (ports : ioctl mode { first with phyBase := 0, reg := reg } middle = (true, second, after))
    (agree : first.buf = second.buf) :
    compareReads ioctl record mode reg target driver = .ok (second, after) := by
  simp only [compareReads, bind, Except.bind, testCall_works window, testCall_works ports]
  rw [if_neg (not_not.mpr agree)]

include header based

/-- The two reads of a register agree, since both methods reach the dword of the same function. -/
theorem compareReads_passes (width : Width) (reg : BitVec 16)
    (small : reg.toNat < 2 ^ 8) {target : LfddPcix} {driver : δ}
    (tested : Tested Good registers record space (target, driver)) :
    ∃ left, compareReads ioctl record width.read reg target driver = .ok left ∧
      Tested Good registers record space left := by
  obtain ⟨bus, dev, func, holds, good⟩ := tested
  obtain ⟨middle, window, same, goes⟩ := header.read width
    { target with phyBase := record.phyBase, reg := reg } driver ⟨.inr based, small⟩ good
  obtain ⟨after, ports, again, ends⟩ := header.read width
    { target with
      phyBase := 0, reg := reg
      buf := width.shown (reg.toNat % 4)
        (registers driver target.function (reg.toNat / 4)) } middle ⟨.inl rfl, small⟩ goes
  refine ⟨_, compareReads_agree window ports ?_, bus, dev, func,
    (again.trans same).trans holds, ends⟩
  rw [same]
  rfl

/-- So they all do. By induction on the registers compared. -/
theorem compareAll_passes (width : Width) :
    ∀ (regs : List (BitVec 16)), (∀ reg ∈ regs, reg.toNat < 2 ^ 8) →
      ∀ {target : LfddPcix} {driver : δ},
        Tested Good registers record space (target, driver) →
        ∃ left, compareAll ioctl record width.read regs target driver = .ok left ∧
          Tested Good registers record space left := by
  intro regs
  induction regs with
  | nil =>
    intro _ target driver tested
    exact ⟨_, rfl, tested⟩
  | cons reg rest passes =>
    intro small target driver tested
    obtain ⟨left, ran, kept⟩ := compareReads_passes header based width reg
      (small reg List.mem_cons_self) tested
    obtain ⟨ended, going, ends⟩ := passes (fun other member =>
      small other (List.mem_cons_of_mem _ member)) kept
    refine ⟨ended, ?_, ends⟩
    simp only [compareAll, bind, Except.bind, ran]
    exact going

/-- Comparing a register in one width succeeds, as both ways of reading give the same, and leaves
the registers as they were. -/
theorem validatePcieRSingle_passes (present : record.phyBase ≠ 0) (width : Width)
    (lfddPciData : LfddPcix) (driver : δ) (holds : registers driver = space)
    (good : Good driver) :
    ∃ target after,
      validatePcieRSingle ioctl record width.read lfddPciData driver = (0, target, after) ∧
      registers after = space ∧ Good after := by
  have start : Tested Good registers record space
      ({ lfddPciData with bus := record.bus, dev := record.dev, func := record.func }, driver) :=
    ⟨rfl, rfl, rfl, holds, good⟩
  obtain ⟨⟨target, after⟩, ran, tested⟩ :=
    compareAll_passes header based width validateRegMap validateRegMap_small start
  refine ⟨target, after, ?_, tested.registers, tested.good⟩
  rw [validatePcieRSingle, if_neg present]
  simp only [ran]

/-- So does comparing the first page as a whole. -/
theorem validatePcieR256B_passes (lfddPciData : LfddPcix) (driver : δ)
    (holds : registers driver = space) (good : Good driver) :
    ∃ target after,
      validatePcieR256B ioctl record lfddPciData driver = some (0, target, after) ∧
      registers after = space ∧ Good after := by
  have small : (0 : BitVec 16).toNat < 2 ^ 8 := by decide
  obtain ⟨first, middle, window, shown, same, goes⟩ := header.bulk
    { lfddPciData with
      bus := record.bus, dev := record.dev, func := record.func, reg := 0
      phyBase := record.phyBase } driver ⟨.inr based, small⟩ rfl good
  obtain ⟨second, after, ports, again, kept, ends⟩ := header.bulk
    { lfddPciData with
      bus := record.bus, dev := record.dev, func := record.func, reg := 0
      phyBase := 0, massBuf := first } middle ⟨.inl rfl, small⟩ rfl goes
  have agree : ∀ index, index < 256 → first[index]? = second[index]? := by
    intro index inside
    have one := shown index inside
    have two := again index inside
    rw [same] at two
    have both : contents first index = contents second index := one.trans two.symm
    rw [contents_get _ _ inside, contents_get _ _ inside] at both
    rw [Vector.getElem?_eq_getElem inside, Vector.getElem?_eq_getElem inside, both]
  have all : (validateRegMap.all fun reg => first[reg.toNat]? = second[reg.toNat]?) = true := by
    rw [List.all_eq_true]
    intro reg member
    exact decide_eq_true (agree reg.toNat (validateRegMap_small reg member))
  refine ⟨{ lfddPciData with
      bus := record.bus, dev := record.dev, func := record.func, reg := 0
      phyBase := 0, massBuf := second }, after, ?_, (kept.trans same).trans holds, ends⟩
  simp only [validatePcieR256B, window, ports, if_true, all]

end Reads

section Bits

/-- What a register holds after a write of a width to its start. -/
def PciScan.Width.put (width : Width) (kinds : Nat → BitKind) (value held : BitVec 32) :
    BitVec 32 :=
  written kinds held (splice 0 (8 * width.bytes) value held)

/-- What it holds after a test of a width that finds no fault. Every write puts the bits
beyond the width back as they were read, and that clears the ones that ones clear. -/
def PciScan.Width.settled (width : Width) (kinds : Nat → BitKind) (held : BitVec 32) :
    BitVec 32 :=
  ofBits fun bit =>
    held.getLsbD bit && !(decide (8 * width.bytes ≤ bit) && kinds bit == .writeOneToClear)

/-- The test of a width finds no fault: where a bit does not take what is written, it and the
pattern are zero. -/
def PciScan.Width.Passes (width : Width) (kinds : Nat → BitKind) (held : BitVec 32) : Prop :=
  ∀ bit < 8 * width.bytes, kinds bit = .readWrite ∨
    (held.getLsbD bit = false ∧ (0x12345678 : BitVec 32).getLsbD bit = false)

variable (width : Width) (kinds : Nat → BitKind) (value held : BitVec 32)

/-- An access covers 32 bits at most, so it stays in the dword it begins in. -/
theorem Width.bytes_le : 8 * width.bytes ≤ 32 := by
  cases width <;> decide

/-- What an access reads of the test register are its low bits. -/
theorem getLsbD_shown (bit : Nat) (inside : bit < 32) :
    (width.shown 0 held).getLsbD bit = (decide (bit < 8 * width.bytes) && held.getLsbD bit) := by
  cases width with
  | byte =>
    rw [Width.shown, BitVec.getLsbD_setWidth, decide_eq_true inside, Bool.true_and, Width.bytes]
    by_cases low : bit < 8
    · rw [getLsbD_byte _ _ _ low]
      simp [low]
    · rw [BitVec.getLsbD_of_ge _ _ (by omega)]
      simp [low]
  | word =>
    rw [Width.shown, BitVec.getLsbD_setWidth, BitVec.getLsbD_setWidth, decide_eq_true inside,
      Bool.true_and, BitVec.getLsbD_ushiftRight, Nat.mul_zero, Nat.zero_add, Width.bytes]
  | dword => simp [Width.shown, Width.bytes, inside]

/-- What an access writes to it is written to the low bits, and the other bits are written as they
are. -/
theorem getLsbD_put (bit : Nat) (inside : bit < 32) :
    (width.put kinds value held).getLsbD bit =
      (kinds bit).next (held.getLsbD bit)
        (if bit < 8 * width.bytes then value.getLsbD bit else held.getLsbD bit) := by
  rw [Width.put, getLsbD_written _ _ _ _ inside, getLsbD_splice _ _ _ _ _ inside]
  simp

/-- So a low bit becomes what its kind makes of the bit that is written. -/
theorem getLsbD_put_low (bit : Nat) (low : bit < 8 * width.bytes) :
    (width.put kinds value held).getLsbD bit =
      (kinds bit).next (held.getLsbD bit) (value.getLsbD bit) := by
  have bound := Width.bytes_le width
  rw [getLsbD_put _ _ _ _ _ (by omega), if_pos low]

/-- After a test in a width each bit is as before, or clear if ones clear it and it was only written
back. -/
theorem getLsbD_settled (bit : Nat) (inside : bit < 32) :
    (width.settled kinds held).getLsbD bit =
      (held.getLsbD bit &&
        !(decide (8 * width.bytes ≤ bit) && kinds bit == .writeOneToClear)) := by
  rw [Width.settled, getLsbD_ofBits _ _ inside]

/-- A bit of another kind, or one that the width covers, is as before. -/
theorem getLsbD_settled_kept (bit : Nat) (inside : bit < 32)
    (kept : ¬ (kinds bit = .writeOneToClear ∧ 8 * width.bytes ≤ bit)) :
    (width.settled kinds held).getLsbD bit = held.getLsbD bit := by
  rw [getLsbD_settled _ _ _ _ inside]
  by_cases clears : kinds bit = .writeOneToClear
  · have low : ¬ 8 * width.bytes ≤ bit := fun high => kept ⟨clears, high⟩
    simp [low]
  · simp [clears]

/-- A bit that ones clear, beyond the width, is clear. -/
theorem getLsbD_settled_cleared (bit : Nat) (inside : bit < 32)
    (clears : kinds bit = .writeOneToClear) (high : 8 * width.bytes ≤ bit) :
    (width.settled kinds held).getLsbD bit = false := by
  rw [getLsbD_settled _ _ _ _ inside]
  simp [clears, high]

/-- A bit that is clear stays so, whatever kind it is of. -/
theorem getLsbD_settled_clear (bit : Nat) (inside : bit < 32)
    (clear : held.getLsbD bit = false) : (width.settled kinds held).getLsbD bit = false := by
  rw [getLsbD_settled _ _ _ _ inside, clear, Bool.false_and]

/-- A value that fits the width is read back if its bits are taken. -/
theorem reads_put_iff (fits : ∀ bit < 32, 8 * width.bytes ≤ bit → value.getLsbD bit = false) :
    width.shown 0 (width.put kinds value held) = value ↔
      ∀ bit < 8 * width.bytes,
        (kinds bit).next (held.getLsbD bit) (value.getLsbD bit) = value.getLsbD bit := by
  have bound := Width.bytes_le width
  constructor
  · intro same bit inside
    have own := getLsbD_shown width (width.put kinds value held) bit (by omega)
    rw [same, getLsbD_put _ _ _ _ _ (by omega), if_pos inside, decide_eq_true inside,
      Bool.true_and] at own
    exact own.symm
  · intro taken
    apply BitVec.eq_of_getLsbD_eq
    intro bit inside
    rw [getLsbD_shown _ _ _ inside, getLsbD_put _ _ _ _ _ inside]
    by_cases low : bit < 8 * width.bytes
    · rw [if_pos low, decide_eq_true low, Bool.true_and, taken bit low]
    · rw [decide_eq_false low, Bool.false_and, fits bit inside (by omega)]

/-- No bit of zero is set, which is the first of the two values that a test writes. -/
theorem getLsbD_none (bit : Nat) : (0 : BitVec 32).getLsbD bit = false := BitVec.getLsbD_zero

/-- The pattern of a width has the low bits of the dword that the source writes. -/
theorem getLsbD_testPattern (bit : Nat) (inside : bit < 32) :
    (testPattern width.write).getLsbD bit =
      (decide (bit < 8 * width.bytes) && (0x12345678 : BitVec 32).getLsbD bit) := by
  revert bit
  cases width <;> decide

/-- Zero and the pattern are read back exactly if the test finds no fault, ... -/
theorem passes_iff :
    (width.shown 0 (width.put kinds 0 held) = 0 ∧
        width.shown 0 (width.put kinds (testPattern width.write) (width.put kinds 0 held)) =
          testPattern width.write) ↔ width.Passes kinds held := by
  have bound := Width.bytes_le width
  have patterned : ∀ bit < 32, 8 * width.bytes ≤ bit →
      (testPattern width.write).getLsbD bit = false := by
    intro bit inside beyond
    rw [getLsbD_testPattern _ _ inside, decide_eq_false (by omega), Bool.false_and]
  rw [reads_put_iff _ _ _ _ fun bit _ _ => getLsbD_none bit, reads_put_iff _ _ _ _ patterned,
    ← forall₂_and]
  apply forall₂_congr
  intro bit inside
  rw [getLsbD_put_low _ _ _ _ _ inside, getLsbD_testPattern _ _ (by omega),
    decide_eq_true inside, Bool.true_and, getLsbD_none]
  cases kinds bit <;> cases held.getLsbD bit <;>
    cases (0x12345678 : BitVec 32).getLsbD bit <;> decide

/-- ... and then the value that was read can be restored. -/
theorem restored (passes : width.Passes kinds held) :
    width.shown 0 (width.put kinds (width.shown 0 held)
        (width.put kinds (testPattern width.write) (width.put kinds 0 held))) =
      width.shown 0 held ∧
    width.put kinds (width.shown 0 held)
        (width.put kinds (testPattern width.write) (width.put kinds 0 held)) =
      width.settled kinds held := by
  have bound := Width.bytes_le width
  have shown : ∀ bit < 32, 8 * width.bytes ≤ bit → (width.shown 0 held).getLsbD bit = false := by
    intro bit inside beyond
    rw [getLsbD_shown _ _ _ inside, decide_eq_false (by omega), Bool.false_and]
  constructor
  · rw [reads_put_iff _ _ _ _ shown]
    intro bit inside
    rw [getLsbD_put_low _ _ _ _ _ inside, getLsbD_put_low _ _ _ _ _ inside,
      getLsbD_testPattern _ _ (by omega), getLsbD_shown _ _ _ (by omega), decide_eq_true inside,
      Bool.true_and, Bool.true_and, getLsbD_none]
    rcases passes bit inside with takes | ⟨clear, zero⟩
    · rw [takes]
      rfl
    · rw [clear, zero]
      cases kinds bit <;> rfl
  · apply BitVec.eq_of_getLsbD_eq
    intro bit inside
    rw [getLsbD_put _ _ _ _ _ inside, getLsbD_put _ _ _ _ _ inside, getLsbD_put _ _ _ _ _ inside,
      getLsbD_settled _ _ _ _ inside, getLsbD_testPattern _ _ inside, getLsbD_shown _ _ _ inside]
    by_cases low : bit < 8 * width.bytes
    · rw [if_pos low, if_pos low, if_pos low, decide_eq_true low, decide_eq_false (by omega),
        Bool.true_and, Bool.true_and, Bool.false_and, getLsbD_none, Bool.not_false,
        Bool.and_true]
      rcases passes bit low with takes | ⟨clear, zero⟩
      · rw [takes]
        rfl
      · rw [clear, zero]
        cases kinds bit <;> rfl
    · rw [if_neg low, if_neg low, if_neg low, decide_eq_true (by omega), Bool.true_and]
      cases kinds bit <;> cases held.getLsbD bit <;> rfl

/-- The tests of all widths find no fault. A bit of the upper bytes that ones clear is cleared
by the test of bytes. -/
def TakesTest (kinds : Nat → BitKind) (held : BitVec 32) : Prop :=
  ∀ bit < 32, kinds bit = .readWrite ∨ ((0x12345678 : BitVec 32).getLsbD bit = false ∧
    (held.getLsbD bit = false ∨ (kinds bit = .writeOneToClear ∧ 8 ≤ bit)))

/-- The three widths pass one after the other exactly if each bit takes the test, with what the
earlier widths leave. -/
theorem widths_pass_iff :
    (Width.byte.Passes kinds held ∧ Width.word.Passes kinds (Width.byte.settled kinds held) ∧
        Width.dword.Passes kinds (Width.word.settled kinds (Width.byte.settled kinds held))) ↔
      TakesTest kinds held := by
  constructor
  · rintro ⟨bytes, _, dwords⟩ bit inside
    rcases dwords bit inside with takes | ⟨clear, zero⟩
    · exact .inl takes
    · refine .inr ⟨zero, ?_⟩
      by_cases low : bit < 8
      · rcases bytes bit low with takes | ⟨first, _⟩
        · have other : kinds bit ≠ .writeOneToClear := by
            rw [takes]
            decide
          rw [getLsbD_settled_kept _ _ _ _ inside fun clears => other clears.1,
            getLsbD_settled_kept _ _ _ _ inside fun clears => other clears.1] at clear
          exact .inl clear
        · exact .inl first
      · by_cases clears : kinds bit = .writeOneToClear
        · exact .inr ⟨clears, Nat.not_lt.mp low⟩
        · rw [getLsbD_settled_kept _ _ _ _ inside fun both => clears both.1,
            getLsbD_settled_kept _ _ _ _ inside fun both => clears both.1] at clear
          exact .inl clear
  · intro takes
    have settled : ∀ bit < 32, kinds bit = .readWrite ∨
        ((Width.byte.settled kinds held).getLsbD bit = false ∧
          (0x12345678 : BitVec 32).getLsbD bit = false) := by
      intro bit inside
      rcases takes bit inside with taken | ⟨zero, clear | ⟨clears, high⟩⟩
      · exact .inl taken
      · exact .inr ⟨getLsbD_settled_clear _ _ _ _ inside clear, zero⟩
      · exact .inr ⟨getLsbD_settled_cleared _ _ _ _ inside clears high, zero⟩
    refine ⟨?_, ?_, ?_⟩
    · intro bit low
      rcases takes bit (Nat.lt_trans low (by decide)) with taken | ⟨zero, clear | ⟨_, high⟩⟩
      · exact .inl taken
      · exact .inr ⟨clear, zero⟩
      · exact absurd high (Nat.not_le.mpr low)
    · intro bit low
      exact settled bit (Nat.lt_trans low (by decide))
    · intro bit inside
      rcases settled bit inside with taken | ⟨clear, zero⟩
      · exact .inl taken
      · exact .inr ⟨getLsbD_settled_clear _ _ _ _ inside clear, zero⟩

/-- The later tests clear nothing more: what the byte test has cleared is all that they would. -/
theorem settled_all :
    Width.dword.settled kinds (Width.word.settled kinds (Width.byte.settled kinds held)) =
      Width.byte.settled kinds held := by
  apply BitVec.eq_of_getLsbD_eq
  intro bit inside
  by_cases clears : kinds bit = .writeOneToClear ∧ 8 ≤ bit
  · have clear := getLsbD_settled_cleared .byte kinds held bit inside clears.1 clears.2
    rw [clear, getLsbD_settled_clear _ _ _ _ inside (getLsbD_settled_clear _ _ _ _ inside clear)]
  · have beyond : ∀ width : Width, ¬ (kinds bit = .writeOneToClear ∧ 8 * width.bytes ≤ bit) := by
      rintro width ⟨ones, high⟩
      apply clears
      refine ⟨ones, Nat.le_trans ?_ high⟩
      cases width <;> decide
    rw [getLsbD_settled_kept _ _ _ _ inside (beyond .dword),
      getLsbD_settled_kept _ _ _ _ inside (beyond .word)]

/-- A second test in bytes finds the register as the first one left it. -/
theorem settled_again :
    Width.byte.settled kinds (Width.byte.settled kinds held) = Width.byte.settled kinds held := by
  apply BitVec.eq_of_getLsbD_eq
  intro bit inside
  rw [getLsbD_settled _ _ _ _ inside, getLsbD_settled _ _ _ _ inside, Bool.and_assoc,
    Bool.and_self]

/-- Testing again finds what was found: whether the bits take the test is not changed by the first
test. -/
theorem takesTest_settled :
    TakesTest kinds (Width.byte.settled kinds held) ↔ TakesTest kinds held := by
  apply forall₂_congr
  intro bit inside
  by_cases clears : kinds bit = .writeOneToClear ∧ 8 ≤ bit
  · rw [getLsbD_settled_cleared .byte _ _ _ inside clears.1 clears.2]
    simp [clears]
  · rw [getLsbD_settled_kept _ _ _ _ inside clears]

end Bits

section Writes

/-- The registers with another dword at 2Ch of a function. -/
def withTestRegister (space : ConfigSpace) (function : Nat) (held : BitVec 32) : ConfigSpace :=
  Function.update space function (Function.update (space function) 11 held)

variable {δ : Type u} {kinds : RegisterKinds} {ecam : BitVec 64} {ioctl : Ioctl LfddPcix δ}
  {Good : δ → Prop} {registers : δ → ConfigSpace}

/-- In the test of writing: a request for the register, and what the register holds. -/
structure Testing (Good : δ → Prop) (registers : δ → ConfigSpace) (record : PciData)
    (space : ConfigSpace) (held : BitVec 32) (left : LfddPcix × δ) : Prop where
  addresses : Addresses record left.1
  registers : registers left.2 = withTestRegister space (function record) held
  good : Good left.2

variable (header : HeaderDriver kinds ecam ioctl Good registers) {record : PciData}
  (based : record.phyBase = ecam) {space : ConfigSpace} {held : BitVec 32}

/-- A request that addresses the test register of a record is one for the function of the record. -/
theorem addresses_function {target : LfddPcix} (addresses : Addresses record target) :
    target.function = function record := by
  obtain ⟨bus, dev, func, _, _⟩ := addresses
  rw [LfddPcix.function, function, bus, dev, func]

include based in
/-- It names a register of a header, so that the lemmas about the window apply. -/
theorem addresses_names {target : LfddPcix} (addresses : Addresses record target) :
    NamesHeader ecam target := by
  obtain ⟨_, _, _, base, reg⟩ := addresses
  refine ⟨.inr (base.trans based), ?_⟩
  rw [reg]
  decide

/-- The first byte of dword 11, which is where the subsystem ids are, is the test's register. -/
theorem addresses_place {target : LfddPcix} (addresses : Addresses record target) :
    target.reg.toNat / 4 = 11 ∧ target.reg.toNat % 4 = 0 := by
  rw [addresses.2.2.2.2]
  decide

/-- The test register of the function has the value that was put there. -/
@[simp] theorem withTestRegister_self (function : Nat) :
    withTestRegister space function held function 11 = held := by
  simp [withTestRegister]

/-- Only the last value that was put there counts. -/
@[simp] theorem withTestRegister_again (function : Nat) (value : BitVec 32) :
    withTestRegister (withTestRegister space function value) function held =
      withTestRegister space function held := by
  simp [withTestRegister]

/-- Putting the value there that it has changes nothing. -/
theorem withTestRegister_same (function : Nat) :
    withTestRegister space function (space function 11) = space := by
  simp [withTestRegister]

/-- All other registers stay as they are, of this function and of every other. -/
theorem withTestRegister_other {function other dword : Nat}
    (apart : ¬ (other = function ∧ dword = 11)) :
    withTestRegister space function held other dword = space other dword := by
  by_cases same : other = function
  · subst same
    have differ : dword ≠ 11 := fun own => apart ⟨rfl, own⟩
    simp [withTestRegister, differ]
  · simp [withTestRegister, same]

include header based

/-- While a test is under way a read gives the low bits of the test register, and the test goes on
from the same state. -/
theorem testing_read (width : Width) {target : LfddPcix} {driver : δ}
    (testing : Testing Good registers record space held (target, driver)) :
    ∃ after, testCall ioctl width.read target driver =
        .ok ({ target with buf := width.shown 0 held }, after) ∧
      Testing Good registers record space held
        ({ target with buf := width.shown 0 held }, after) := by
  obtain ⟨addresses, holds, good⟩ := testing
  obtain ⟨after, ran, same, next⟩ := header.read width target driver
    (addresses_names based addresses) good
  obtain ⟨dword, lane⟩ := addresses_place addresses
  have own : registers driver target.function 11 = held := by
    change registers driver = _ at holds
    rw [holds, addresses_function addresses, withTestRegister_self]
  rw [dword, lane, own] at ran
  exact ⟨after, testCall_works ran, addresses, same.trans holds, next⟩

/-- A write gives the test register the value that its kinds make of it, and the test goes on from
there. -/
theorem testing_write (width : Width) (value : BitVec 32) {target : LfddPcix} {driver : δ}
    (testing : Testing Good registers record space held (target, driver)) :
    ∃ after, testCall ioctl width.write { target with buf := value } driver =
        .ok ({ target with buf := value }, after) ∧
      Testing Good registers record space (width.put (kinds (function record) 11) value held)
        ({ target with buf := value }, after) := by
  obtain ⟨addresses, holds, good⟩ := testing
  obtain ⟨dword, lane⟩ := addresses_place addresses
  obtain ⟨after, ran, put, next⟩ := header.write width { target with buf := value } driver
    (addresses_names based addresses) (Nat.dvd_of_mod_eq_zero lane) good
  refine ⟨after, testCall_works ran, addresses, ?_, next⟩
  have own : { target with buf := value }.function = function record :=
    addresses_function addresses
  change registers driver = _ at holds
  change registers after = _
  rw [put, dword, own, holds, withTestRegister_self, ConfigSpace.write, withTestRegister_self]
  exact withTestRegister_again _ _

/-- A value is written and read back, and they are equal exactly if the register takes what was
written. -/
theorem testing_compare (width : Width) (value : BitVec 32) {target : LfddPcix} {driver : δ}
    (testing : Testing Good registers record space held (target, driver)) :
    ∃ left, Testing Good registers record space (width.put (kinds (function record) 11) value held)
        left ∧
      writeAndCompare ioctl width.read width.write value target driver =
        if width.shown 0 (width.put (kinds (function record) 11) value held) ≠ value
        then .error left else .ok left := by
  obtain ⟨middle, write, goes⟩ := testing_write header based width value testing
  obtain ⟨after, read, ends⟩ := testing_read header based width goes
  refine ⟨_, ends, ?_⟩
  simp only [writeAndCompare, bind, Except.bind, write, read]

/-- The test of a width: it finds no fault, or ends early. -/
theorem testing_writes (width : Width) {target : LfddPcix} {driver : δ}
    (testing : Testing Good registers record space held (target, driver)) :
    (width.Passes (kinds (function record) 11) held → ∃ left,
      testWrites ioctl width.read width.write target driver = .ok left ∧
        Testing Good registers record space (width.settled (kinds (function record) 11) held)
          left) ∧
    (¬ width.Passes (kinds (function record) 11) held → ∃ left,
      testWrites ioctl width.read width.write target driver = .error left) := by
  obtain ⟨first, saved, start⟩ := testing_read header based width testing
  obtain ⟨⟨request, second⟩, zeroed, zero⟩ := testing_compare header based width 0 start
  obtain ⟨⟨next, third⟩, patterned, pattern⟩ :=
    testing_compare header based width (testPattern width.write) zeroed
  obtain ⟨left, ended, restore⟩ :=
    testing_compare header based width (width.shown 0 held) patterned
  constructor
  · intro passes
    obtain ⟨taken, takes⟩ := (passes_iff width _ held).mpr passes
    obtain ⟨again, same⟩ := restored width _ held passes
    rw [taken, if_neg (not_not.mpr rfl)] at zero
    rw [takes, if_neg (not_not.mpr rfl)] at pattern
    rw [again, if_neg (not_not.mpr rfl)] at restore
    rw [same] at ended
    refine ⟨left, ?_, ended⟩
    simp only [testWrites, bind, Except.bind, saved, zero, pattern, restore]
  · intro fails
    by_cases taken : width.shown 0 (width.put (kinds (function record) 11) 0 held) = 0
    · have differs : width.shown 0 (width.put (kinds (function record) 11) (testPattern width.write)
          (width.put (kinds (function record) 11) 0 held)) ≠ testPattern width.write :=
        fun takes => fails ((passes_iff width _ held).mp ⟨taken, takes⟩)
      rw [if_neg (not_not.mpr taken)] at zero
      rw [if_pos differs] at pattern
      refine ⟨(next, third), ?_⟩
      simp only [testWrites, bind, Except.bind, saved, zero, pattern]
    · rw [if_pos taken] at zero
      refine ⟨(request, second), ?_⟩
      simp only [testWrites, bind, Except.bind, saved, zero]

/-- `validate_pcie_w_single` returns zero exactly if the test finds no fault. -/
theorem validatePcieWSingle_tests (present : record.phyBase ≠ 0) (width : Width)
    (lfddPciData : LfddPcix) (driver : δ)
    (holds : registers driver = withTestRegister space (function record) held)
    (good : Good driver) :
    (width.Passes (kinds (function record) 11) held → ∃ target after,
      validatePcieWSingle ioctl record width.read width.write lfddPciData driver =
        (0, target, after) ∧
      registers after = withTestRegister space (function record)
        (width.settled (kinds (function record) 11) held) ∧ Good after) ∧
    (¬ width.Passes (kinds (function record) 11) held →
      (validatePcieWSingle ioctl record width.read width.write lfddPciData driver).1 ≠ 0) := by
  have start : Testing Good registers record space held
      (testRequest record lfddPciData, driver) := ⟨⟨rfl, rfl, rfl, rfl, rfl⟩, holds, good⟩
  obtain ⟨passing, failing⟩ := testing_writes header based width start
  rw [validatePcieWSingle, if_neg present]
  constructor
  · intro passes
    obtain ⟨⟨target, after⟩, ran, ended⟩ := passing passes
    refine ⟨target, after, ?_, ended.registers, ended.good⟩
    simp only [ran]
  · intro fails
    obtain ⟨left, ran⟩ := failing fails
    simp only [ran]
    decide

end Writes

section Validation

variable {δ : Type u} {kinds : RegisterKinds} {ecam : BitVec 64} {ioctl : Ioctl LfddPcix δ}
  {Good : δ → Prop} {registers : δ → ConfigSpace}

/-- A validation goes on after a part that returned zero, -/
theorem next_passed (rest : LfddPcix → δ → Validation δ) (target : LfddPcix) (driver : δ) :
    Validation.next (0, target, driver) rest = rest target driver := by
  rw [Validation.next, if_pos rfl]

/-- and fails after one that returned anything else, whatever tests would follow. -/
theorem next_failed (rest : LfddPcix → δ → Validation δ) {ran : Int × LfddPcix × δ}
    (failed : ran.1 ≠ 0) :
    ∃ target driver, Validation.next ran rest = .failed target driver := by
  rw [Validation.next, if_neg failed]
  exact ⟨_, _, rfl⟩

variable (header : HeaderDriver kinds ecam ioctl Good registers)

include header

/-- The test of writing goes on to the rest, or ends there. -/
theorem next_writes {record : PciData} (based : record.phyBase = ecam)
    (present : record.phyBase ≠ 0) (width : Width) (rest : LfddPcix → δ → Validation δ)
    {space : ConfigSpace} {held : BitVec 32} (lfddPciData : LfddPcix) (driver : δ)
    (holds : registers driver = withTestRegister space (function record) held)
    (good : Good driver) :
    (width.Passes (kinds (function record) 11) held → ∃ target after,
      Validation.next (validatePcieWSingle ioctl record width.read width.write lfddPciData driver)
        rest = rest target after ∧
      registers after = withTestRegister space (function record)
        (width.settled (kinds (function record) 11) held) ∧ Good after) ∧
    (¬ width.Passes (kinds (function record) 11) held → ∃ target after,
      Validation.next (validatePcieWSingle ioctl record width.read width.write lfddPciData driver)
        rest = .failed target after) := by
  obtain ⟨passing, failing⟩ :=
    validatePcieWSingle_tests header based present width lfddPciData driver holds good
  constructor
  · intro passes
    obtain ⟨target, after, ran, left, next⟩ := passing passes
    refine ⟨target, after, ?_, left, next⟩
    rw [ran, next_passed]
  · intro fails
    exact next_failed rest (failing fails)

/-- The tests of one function go on to the next, or end there. -/
theorem validateRecord_tests {record : PciData} (based : record.phyBase = ecam)
    (present : record.phyBase ≠ 0) (rest : LfddPcix → δ → Validation δ) (lfddPciData : LfddPcix)
    (driver : δ) (good : Good driver) :
    (TakesTest (kinds (function record) 11) (registers driver (function record) 11) →
      ∃ target after, validateRecord ioctl record rest lfddPciData driver = rest target after ∧
        registers after = withTestRegister (registers driver) (function record)
          (Width.byte.settled (kinds (function record) 11)
            (registers driver (function record) 11)) ∧
        Good after) ∧
    (¬ TakesTest (kinds (function record) 11) (registers driver (function record) 11) →
      ∃ target after,
        validateRecord ioctl record rest lfddPciData driver = .failed target after) := by
  obtain ⟨target, driver₁, byte, same, good⟩ :=
    validatePcieRSingle_passes header based present .byte lfddPciData driver rfl good
  obtain ⟨target, driver₂, word, same, good⟩ :=
    validatePcieRSingle_passes header based present .word target driver₁ same good
  obtain ⟨target, driver₃, dword, same, good⟩ :=
    validatePcieRSingle_passes header based present .dword target driver₂ same good
  obtain ⟨target, driver₄, bulk, same, good⟩ :=
    validatePcieR256B_passes header based target driver₃ same good
  have start := same.trans (withTestRegister_same (function record)).symm
  have bytes := fun rest =>
    next_writes header based present .byte rest target driver₄ start good
  simp only [Width.read, Width.write] at byte word dword bytes
  simp only [validateRecord, byte, word, dword, bulk, next_passed]
  rw [← widths_pass_iff]
  constructor
  · rintro ⟨first, second, third⟩
    obtain ⟨target, driver₅, ran, same, good⟩ := (bytes _).1 first
    rw [ran]
    obtain ⟨target, driver₆, ran, same, good⟩ :=
      (next_writes header based present .word _ target driver₅ same good).1 second
    simp only [Width.read, Width.write] at ran
    rw [ran]
    obtain ⟨target, after, ran, same, good⟩ :=
      (next_writes header based present .dword rest target driver₆ same good).1 third
    simp only [Width.read, Width.write] at ran
    rw [settled_all] at same
    exact ⟨target, after, ran, same, good⟩
  · intro fails
    by_cases first : Width.byte.Passes (kinds (function record) 11)
        (registers driver (function record) 11)
    · obtain ⟨target, driver₅, ran, same, good⟩ := (bytes _).1 first
      rw [ran]
      have words := fun rest =>
        next_writes header based present .word rest target driver₅ same good
      simp only [Width.read, Width.write] at words
      by_cases second : Width.word.Passes (kinds (function record) 11)
          (Width.byte.settled (kinds (function record) 11) (registers driver (function record) 11))
      · obtain ⟨target, driver₆, ran, same, good⟩ := (words _).1 second
        rw [ran]
        exact (next_writes header based present .dword rest target driver₆ same good).2
          fun third => fails ⟨first, second, third⟩
      · exact (words _).2 second
    · exact (bytes _).2 first

/-- The registers after a test of these functions: what the dword at 2Ch of each of them holds,
and that the others are as they were. -/
structure SelfTested (kinds : RegisterKinds) (records : List PciData)
    (before after : ConfigSpace) : Prop where
  tested : ∀ record ∈ records, record.phyBase ≠ 0 →
    after (function record) 11 =
      Width.byte.settled (kinds (function record) 11) (before (function record) 11)
  others : ∀ number dword,
    (dword = 11 → ∀ record ∈ records, record.phyBase ≠ 0 → function record ≠ number) →
      after number dword = before number dword

/-- All functions with a base pass. -/
def AllPass (kinds : RegisterKinds) (records : List PciData) (space : ConfigSpace) : Prop :=
  ∀ record ∈ records, record.phyBase ≠ 0 →
    TakesTest (kinds (function record) 11) (space (function record) 11)

omit header in
/-- A record without a base is not tested, so it takes no part. -/
theorem allPass_skip {record : PciData} {rest : List PciData} (space : ConfigSpace)
    (absent : record.phyBase = 0) :
    AllPass kinds (record :: rest) space ↔ AllPass kinds rest space := by
  simp only [AllPass, List.forall_mem_cons]
  exact and_iff_right fun present => absurd absent present

omit header in
/-- A record with a base passes if its test register takes the test, and the others pass. -/
theorem allPass_cons {record : PciData} {rest : List PciData} (space : ConfigSpace)
    (present : record.phyBase ≠ 0) :
    AllPass kinds (record :: rest) space ↔
      TakesTest (kinds (function record) 11) (space (function record) 11) ∧
        AllPass kinds rest space := by
  simp only [AllPass, List.forall_mem_cons]
  exact and_congr_left' (forall_prop_of_true present)

omit header in
/-- A test of the others is one of all, where the first record has no base. -/
theorem selfTested_skip {record : PciData} {rest : List PciData} {before after : ConfigSpace}
    (tested : SelfTested kinds rest before after) (absent : record.phyBase = 0) :
    SelfTested kinds (record :: rest) before after := by
  constructor
  · intro other member present
    rcases List.mem_cons.mp member with rfl | behind
    · exact absurd absent present
    · exact tested.tested other behind present
  · intro number dword apart
    exact tested.others number dword fun own other member present =>
      apart own other (List.mem_cons_of_mem _ member) present

omit header in
/-- What a test leaves of a function decides nothing about the others, nor about a second test of
this one. -/
theorem allPass_settled (kinds : RegisterKinds) (records : List PciData) (space : ConfigSpace)
    (number : Nat) :
    AllPass kinds records (withTestRegister space number
        (Width.byte.settled (kinds number 11) (space number 11))) ↔
      AllPass kinds records space := by
  apply forall₃_congr
  intro record _ _
  by_cases same : function record = number
  · rw [same, withTestRegister_self]
    exact takesTest_settled _ _
  · rw [withTestRegister_other fun both => same both.1]

omit header in
/-- A test of the others that starts from what the first test leaves is one of all. -/
theorem selfTested_cons {kinds : RegisterKinds} {record : PciData} {rest : List PciData}
    {before after : ConfigSpace}
    (tested : SelfTested kinds rest (withTestRegister before (function record)
      (Width.byte.settled (kinds (function record) 11) (before (function record) 11))) after)
    (present : record.phyBase ≠ 0) : SelfTested kinds (record :: rest) before after := by
  have later : ∀ other ∈ rest, other.phyBase ≠ 0 →
      after (function other) 11 =
        Width.byte.settled (kinds (function other) 11) (before (function other) 11) := by
    intro other member present
    rw [tested.tested other member present]
    by_cases same : function other = function record
    · rw [same, withTestRegister_self, settled_again]
    · rw [withTestRegister_other fun both => same both.1]
  constructor
  · intro other member based
    rcases List.mem_cons.mp member with rfl | behind
    · by_cases again : ∃ next ∈ rest, next.phyBase ≠ 0 ∧ function next = function other
      · obtain ⟨next, member, based, same⟩ := again
        rw [← same]
        exact later next member based
      · rw [tested.others (function other) 11 fun _ next member based same =>
          again ⟨next, member, based, same⟩, withTestRegister_self]
    · exact later other behind based
  · intro number dword apart
    rw [tested.others number dword fun own other member present =>
      apart own other (List.mem_cons_of_mem _ member) present]
    apply withTestRegister_other
    rintro ⟨same, own⟩
    exact apart own record List.mem_cons_self present same.symm

/-- The test goes through all functions with a base, or ends at a failure. -/
theorem validationPCIE_tests : ∀ (records : List PciData),
    (∀ record ∈ records, record.phyBase = 0 ∨ record.phyBase = ecam) →
    ∀ (lfddPciData : LfddPcix) (driver : δ), Good driver →
      (AllPass kinds records (registers driver) → ∃ target after,
        validationPCIE ioctl records lfddPciData driver = .success target after ∧
          SelfTested kinds records (registers driver) (registers after) ∧ Good after) ∧
      (¬ AllPass kinds records (registers driver) → ∃ target after,
        validationPCIE ioctl records lfddPciData driver = .failed target after) := by
  intro records
  induction records with
  | nil =>
    intro _ target driver good
    refine ⟨fun _ => ⟨target, driver, rfl, ⟨?_, ?_⟩, good⟩, ?_⟩
    · intro record member
      cases member
    · intro number dword _
      rfl
    · intro fails
      exact absurd (fun record member => by cases member) fails
  | cons record rest tests =>
    intro based lfddPciData driver good
    have others := fun other member => based other (List.mem_cons_of_mem record member)
    rw [validationPCIE]
    by_cases absent : record.phyBase = 0
    · rw [if_pos absent, allPass_skip _ absent]
      obtain ⟨passing, failing⟩ := tests others lfddPciData driver good
      refine ⟨fun all => ?_, failing⟩
      obtain ⟨target, after, ran, tested, next⟩ := passing all
      exact ⟨target, after, ran, selfTested_skip tested absent, next⟩
    · rw [if_neg absent, allPass_cons _ absent]
      obtain ⟨going, ending⟩ := validateRecord_tests header
        ((based record List.mem_cons_self).resolve_left absent) absent
        (validationPCIE ioctl rest) lfddPciData driver good
      constructor
      · rintro ⟨own, all⟩
        obtain ⟨request, middle, ran, same, goes⟩ := going own
        obtain ⟨passing, _⟩ := tests others request middle goes
        rw [same, allPass_settled] at passing
        obtain ⟨target, after, ended, tested, next⟩ := passing all
        exact ⟨target, after, ran.trans ended, selfTested_cons tested absent, next⟩
      · intro fails
        by_cases own : TakesTest (kinds (function record) 11)
            (registers driver (function record) 11)
        · obtain ⟨request, middle, ran, same, goes⟩ := going own
          obtain ⟨_, failing⟩ := tests others request middle goes
          rw [same, allPass_settled] at failing
          obtain ⟨target, after, ended⟩ := failing fun all => fails ⟨own, all⟩
          exact ⟨target, after, ran.trans ended⟩
        · exact ending own

end Validation

/-- The self test of the functions with a base ends in one of two ways, if the block that the
driver has mapped is a whole page of the window, or there is none. It goes through all functions
and reports success if each bit at 2Ch takes what is written, or is zero where the pattern is; a
bit that ones clear may also be set, but not in the first byte. Then only such bits of the upper
bytes have changed, and they are clear. Otherwise it ends with a failure. -/
theorem self_test_outcomes {δ : Type u} (computer : Computer δ) (records : List PciData)
    (based : ∀ record ∈ records, record.phyBase = 0 ∨ record.phyBase = computer.ecam)
    (lfddPciData : LfddPcix) (attached : Attached ConfigSpace δ) (paged : attached.Paged) :
    (AllPass computer.kinds records attached.registers → ∃ target after,
      validationPCIE computer.env.pci records lfddPciData attached = .success target after ∧
        SelfTested computer.kinds records attached.registers after.registers ∧ after.Paged) ∧
    (¬ AllPass computer.kinds records attached.registers → ∃ target after,
      validationPCIE computer.env.pci records lfddPciData attached = .failed target after) :=
  validationPCIE_tests (computer_header computer) records based lfddPciData attached paged

/-- A function with a base is tested, and one without is passed over: the test succeeds, and the
test register of the first holds 11 afterwards, as before. -/
theorem host_bridge_tested :
    ∃ target after,
      validationPCIE singleComputer.env.pci
        [⟨0, 0, 0, 0, 0, Vector.replicate 76 0, Vector.replicate 76 0, 0xe0000000⟩,
          ⟨0, 0, 0, 1, 0, Vector.replicate 76 0, Vector.replicate 76 0, 0⟩]
        (.atRegister 0 0 0) ⟨singleKernel, []⟩ = .success target after ∧
      after.registers 0 11 = 11 := by
  have ran := (self_test_outcomes singleComputer
    [⟨0, 0, 0, 0, 0, Vector.replicate 76 0, Vector.replicate 76 0, 0xe0000000⟩,
      ⟨0, 0, 0, 1, 0, Vector.replicate 76 0, Vector.replicate 76 0, 0⟩]
    (by
      intro record member
      rcases List.mem_cons.mp member with rfl | second
      · exact .inr rfl
      · rw [List.mem_singleton.mp second]
        exact .inl rfl)
    (.atRegister 0 0 0) ⟨singleKernel, []⟩
    ⟨Machine.loaded_consistent _ _, fun _ mapped => by cases mapped⟩).1
    fun _ _ _ _ _ => .inl rfl
  obtain ⟨target, after, success, tested, _⟩ := ran
  refine ⟨target, after, success, ?_⟩
  refine (tested.tested _ List.mem_cons_self (by decide)).trans ?_
  decide +kernel

end Lfdk
