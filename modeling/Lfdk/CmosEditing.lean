import Lfdk.CmosWrites
import Lfdk.FaithfulScreens

/-!
# The CMOS in a run

CMOS-SPACE uses ports by itself, beside the driver. It selects each of the 256 bytes to paint
them, so a painting writes to the address port, but never to the data port.

In a run of the program the chip is changed where Enter commits a value in CMOS-SPACE, at the
index that is computed from the cursor, and nowhere else; unless IO-SPACE has written to a
port, which may be one of the chip's own.
-/

namespace Lfdk.ShippedWindows

open WindowManager HexEditors HexPages PciScan DeviceFile MemoryAccess PortAccess ByteMemory Runs

universe u v

section Painting

variable {δ : Type u} {env : Environment δ} {selected : δ → BitVec 8}
  {chip : δ → BitVec 8 → BitVec 8} (stores : env.cmosPorts.Stores selected chip)

/-- CMOS-SPACE shows the bytes of the chip as they are. -/
def ShowsCmos (chip : δ → BitVec 8 → BitVec 8) (world : World δ) : Prop :=
  CmosWindow.cells ⟨world.cmos, world.cmosBuf, world.driver⟩ =
    shownPage 0 world.cmos.input world.cmos.cursor world.cmos.wbuf
      (fun index => chip world.driver (BitVec.ofNat 8 index)) 0

include stores

/-- Reading all bytes changes none: every step selects an index and reads the data port, and neither
of them stores anything. -/
theorem readCmosFrom_kept (left : Nat) (buf : Vector (BitVec 8) 256) (driver : δ) :
    chip (readCmosFrom env.cmosPorts left buf driver).2 = chip driver := by
  induction left generalizing buf driver with
  | zero => rfl
  | succ left inductionHypothesis =>
    rw [readCmosFrom]
    simp only
    rw [inductionHypothesis, stores.loaded, stores.keep]

/-- After CMOS-SPACE is painted, it shows the chip: the paint reads all 256 bytes before it draws
them. -/
theorem cmos_painted {world : World δ} (running : world.ended = false) :
    ShowsCmos chip (called env .paint .cmosSpace 0 world) := by
  have outcome : called env .paint .cmosSpace 0 world = cmosEditor env .paint world := by
    simp [called, answer, running, editorInput, idle]
  let read := readCmos256Bytes env.cmosPorts world.cmosBuf world.driver
  have kept : chip read.2 = chip world.driver := readCmosFrom_kept stores 256 _ _
  rw [outcome]
  change printCells 0 world.cmos.input true world.cmos.cursor world.cmos.wbuf read.1 =
    shownPage 0 world.cmos.input world.cmos.cursor world.cmos.wbuf
      (fun index => chip read.2 (BitVec.ofNat 8 index)) 0
  apply printCells_shown (Nat.zero_le 4) fun _ => rfl
  intro index small
  rw [contents_get _ _ small, readCmos256Bytes_bytes stores _ _ _ small, kept, Nat.zero_add]

end Painting

section Chips

variable {σ : Type u} {δ : Type v}

/-- A chip among the devices behind the ports: the program's own accesses reach it, and reading
ports leaves it as it is. -/
structure HasCmos (ports : PortDevices δ) (host : Host (Kernel σ δ UserData))
    (selected : δ → BitVec 8) (chip : δ → BitVec 8 → BitVec 8) : Prop where
  stores : host.cmosPorts.Stores (fun kernel => selected kernel.devices.io.device)
    fun kernel => chip kernel.devices.io.device
  input : ∀ width port device, chip (ports.input width port device).2 = chip device
  ioperm : ∀ kernel, chip (host.ioperm kernel).2.devices.io.device = chip kernel.devices.io.device

variable (platform : Platform σ) (memPlatform : MemPlatform) (ports : PortDevices δ)
  {host : Host (Kernel σ δ UserData)} {selected : δ → BitVec 8} {chip : δ → BitVec 8 → BitVec 8}

/-- The bytes of the chip. -/
def Attached.cmos (chip : δ → BitVec 8 → BitVec 8) (attached : Attached σ δ) :
    BitVec 8 → BitVec 8 :=
  chip attached.kernel.devices.io.device

/-- Calls on configuration space and memory do not touch the devices behind the ports. -/
theorem pciDevice_io (operation : Operation) (request : LfddPcix) (attached : Attached σ δ) :
    (pciDevice (.attached platform memPlatform ports) operation request
      attached).2.2.kernel.devices.io = attached.kernel.devices.io := by
  have known : dispatch (command .pci operation) = some (.pci, operation) := by
    rw [dispatch_command, if_pos (by cases operation <;> decide)]
  simp only [pciDevice, callDevice,
    lfddIoctl_pci (.attached platform memPlatform ports) _ _ operation known]

/-- A call for memory leaves the ports as they are. So only the calls of IO-SPACE and of CMOS-SPACE
have to be looked at. -/
theorem memDevice_io (operation : Operation) (request : LfddSpace) (attached : Attached σ δ) :
    (memDevice (.attached platform memPlatform ports) operation request
      attached).2.2.kernel.devices.io = attached.kernel.devices.io := by
  simp only [memDevice, callDevice,
    lfddIoctl_mem (.attached platform memPlatform ports) _ _ operation (dispatch_mem operation)]

variable (has : HasCmos ports host selected chip)

include has

omit platform memPlatform in
/-- A read of ports keeps the chip, whichever ports it reads, as no input from a port changes it. -/
theorem portPerform_kept (operation : Operation) (read : operation.isRead = true)
    (pio : LfddSpace) (machine : PortMachine δ) :
    chip (portPerform ports operation pio machine).2.device = chip machine.device := by
  have filled : ∀ count i (massBuf : Vector (BitVec 8) 256) (machine : PortMachine δ),
      chip (fillBytes (fun i => portInput ports 8 (pio.addr + BitVec.ofNat 32 i)) count i massBuf
        machine).2.device = chip machine.device := by
    intro count
    induction count with
    | zero =>
      intro i massBuf machine
      rfl
    | succ count inductionHypothesis =>
      intro i massBuf machine
      rw [fillBytes]
      exact (inductionHypothesis _ _ _).trans (has.input _ _ _)
  cases operation with
  | readByte | readWord | readDword => exact has.input _ _ _
  | read256byte => exact filled 256 0 pio.massBuf machine
  | writeByte | writeWord | writeDword => exact absurd read (by decide)

/-- So does a call of the driver that reads ports, since an operation the driver has no case for
reaches no port at all. -/
theorem ioDevice_kept (operation : Operation) (read : operation.isRead = true)
    (request : LfddSpace) (attached : Attached σ δ) :
    (ioDevice (.attached platform memPlatform ports) operation request attached).2.2.cmos chip =
      attached.cmos chip := by
  by_cases known : (Space.io, operation) ∈ switchCases
  · have found : dispatch (command .io operation) = some (.io, operation) := by
      rw [dispatch_command, if_pos known]
    have ran := serveCase_ran (System.attached platform memPlatform ports).io operation
      (ioBody (.attached platform memPlatform ports) operation)
      { attached.kernel.user with io := request } attached.kernel.devices.io rfl
    simp only [ioDevice, callDevice, Attached.cmos,
      lfddIoctl_io (.attached platform memPlatform ports) _ _ operation found]
    rw [ran, ioBody]
    exact portPerform_kept ports has operation read _ _
  · have missing : dispatch (command .io operation) = none := by
      rw [dispatch_command, if_neg known]
    simp only [ioDevice, callDevice, Attached.cmos,
      lfddIoctl_unknown (.attached platform memPlatform ports) _ _ missing]

/-- A port was written since, or the chip holds these bytes. -/
def CmosHeld (chip : δ → BitVec 8 → BitVec 8) (writes : List PortEvent)
    (held : BitVec 8 → BitVec 8) (attached : Attached σ δ) : Prop :=
  writes.length < attached.portWrites.length ∨
    (attached.portWrites = writes ∧ attached.cmos chip = held)

omit platform memPlatform has in
/-- It stays so where neither the record of writes nor the chip is changed. -/
theorem CmosHeld.same {writes : List PortEvent} {held : BitVec 8 → BitVec 8}
    {before after : Attached σ δ} (known : CmosHeld chip writes held before)
    (portWrites : after.portWrites = before.portWrites)
    (cmos : after.cmos chip = before.cmos chip) : CmosHeld chip writes held after := by
  rw [CmosHeld, portWrites, cmos]
  exact known

omit platform memPlatform has in
/-- The writes to ports are told by the events at the ports, so where no event was added there is no
new write. -/
theorem portWrites_same {before after : Attached σ δ}
    (events : after.kernel.devices.io.events = before.kernel.devices.io.events) :
    after.portWrites = before.portWrites := by
  rw [Attached.portWrites, events, Attached.portWrites]

omit platform memPlatform has in
/-- The bytes of the chip are told by the state of the ports, so a step that keeps the ports keeps
the chip. -/
theorem cmos_same {before after : Attached σ δ}
    (io : after.kernel.devices.io = before.kernel.devices.io) :
    after.cmos chip = before.cmos chip := by
  rw [Attached.cmos, io, Attached.cmos]

/-- The program's accesses to the chip store what they write, with the driver around the chip as
without it. -/
theorem attached_stores :
    (attachedTo platform memPlatform ports host).cmosPorts.Stores
      (fun attached => selected attached.kernel.devices.io.device) (Attached.cmos chip) where
  select index attached := has.stores.select index attached.kernel
  keep index attached := has.stores.keep index attached.kernel
  store value attached := has.stores.store value attached.kernel
  load attached := has.stores.load attached.kernel
  loaded attached := has.stores.loaded attached.kernel

variable (apart : host.Apart)

include apart

/-- The chip is kept but by the writes of CMOS-SPACE and, if there are some, of IO-SPACE. -/
theorem cmos_keeps (writes : List PortEvent) (held : BitVec 8 → BitVec 8) :
    (attachedTo platform memPlatform ports host).Keeps (CmosHeld chip writes held)
      (· = .cmosSpace) where
  scan operation _ request attached known :=
    ⟨(pciDevice_answers platform memPlatform ports operation request attached).1.trans
        (by cases operation <;> rfl),
      known.same (pciDevice_frame platform memPlatform ports operation request attached).2
        (cmos_same (pciDevice_io platform memPlatform ports operation request attached))⟩
  pci operation _ request attached known :=
    known.same (pciDevice_frame platform memPlatform ports operation request attached).2
      (cmos_same (pciDevice_io platform memPlatform ports operation request attached))
  mem operation _ request attached known :=
    known.same (memDevice_frame platform memPlatform ports operation request attached).2
      (cmos_same (memDevice_io platform memPlatform ports operation request attached))
  io operation _ request attached known := by
    by_cases dispatched : (Space.io, operation) ∈ switchCases
    · have written :=
        ioDevice_writes platform memPlatform ports operation dispatched request attached
      cases read : operation.isRead with
      | true =>
        rw [read, if_pos rfl, List.append_nil] at written
        exact known.same written (ioDevice_kept platform memPlatform ports has operation read _ _)
      | false =>
        left
        change _ < (ioDevice _ operation request attached).2.2.portWrites.length
        rw [written, read, if_neg Bool.false_ne_true, List.length_append, List.length_singleton]
        rcases known with more | ⟨same, _⟩
        · omega
        · rw [same]
          omega
    · have missing : dispatch (command .io operation) = none := by
        rw [dispatch_command, if_neg dispatched]
      have same : (ioDevice (.attached platform memPlatform ports) operation request
          attached).2.2.kernel.devices.io = attached.kernel.devices.io := by
        simp only [ioDevice, callDevice,
          lfddIoctl_unknown (.attached platform memPlatform ports) _ _ missing]
      exact known.same (portWrites_same (congrArg PortMachine.events same)) (cmos_same same)
  select index attached known :=
    known.same (portWrites_same (apart.outb index _ attached.kernel).portEvents)
      (has.stores.keep index attached.kernel)
  store other := absurd rfl other
  load attached known :=
    known.same (portWrites_same (apart.inb _ attached.kernel).portEvents)
      (has.stores.loaded attached.kernel)
  ioperm attached known :=
    known.same (portWrites_same (apart.ioperm attached.kernel).portEvents)
      (has.ioperm attached.kernel)

/-- Enter in CMOS-SPACE stores the value at the index of its write. -/
theorem cmos_entered {world : World (Attached σ δ)} (running : world.ended = false)
    (typing : world.Types .cmosSpace) :
    let after := (called (attachedTo platform memPlatform ports host) .keyPress .cmosSpace keyEnter
      world).driver
    after.portWrites = world.driver.portWrites ∧
      after.cmos chip =
        Function.update (world.driver.cmos chip) world.cmos.written.1 world.cmos.written.2 := by
  have commits : Commits (.key keyEnter)
      (⟨world.cmos, world.cmosBuf, world.driver⟩ : CmosWindow (Attached σ δ)) := ⟨rfl, typing⟩
  rw [called_enter _ running]
  simp only [cmosEditor, cmosStep_output _ _ _ commits, CmosWindow.edit]
  constructor
  · exact portWrites_same
      ((apart.outb _ _ _).portEvents.trans (apart.outb _ _ world.driver.kernel).portEvents)
  · funext index
    have written := written_bytes (attached_stores platform memPlatform ports has)
      ⟨world.cmos, world.cmosBuf, world.driver⟩ index
    rw [Function.update_apply]
    exact written

/-- In every run of the program, with any keys, the start leaves the chip as it is. A turn in
which IO-SPACE writes to no port changes the byte that Enter commits in CMOS-SPACE, if it
does, and no other. -/
theorem cmos_edited (order : LinkOrder) (kernel : Kernel σ δ UserData)
    (keys : List (BitVec 32)) :
    let env := attachedTo platform memPlatform ports host
    let start := starting env order ⟨kernel, []⟩
    start.system.world.driver.cmos chip = chip kernel.devices.io.device ∧
      ∀ stage ∈ stages (shippedTurn env order) keys start,
        stage.after.system.world.driver.portWrites = stage.before.system.world.driver.portWrites →
          stage.after.system.world.driver.cmos chip =
            if Enters order .cmosSpace stage.input stage.before then
              Function.update (stage.before.system.world.driver.cmos chip)
                stage.before.system.world.cmos.written.1 stage.before.system.world.cmos.written.2
            else stage.before.system.world.driver.cmos chip := by
  intro env start
  constructor
  · have kept := starting_keeps order (cmos_keeps platform memPlatform ports has apart
      (Attached.portWrites ⟨kernel, []⟩) (chip kernel.devices.io.device)) ⟨kernel, []⟩
      (.inr ⟨rfl, rfl⟩)
    have writes := starting_keeps order (portWrites_keeps platform memPlatform ports apart
      (Attached.portWrites ⟨kernel, []⟩)) ⟨kernel, []⟩ rfl
    rcases kept with more | same
    · rw [writes] at more
      exact absurd more (Nat.lt_irrefl _)
    · exact same.2
  · intro stage member quiet
    obtain ⟨_, seated, ran⟩ := stages_invariant (shippedTurn env order) (Seated order) keys start
      (starting_seated env order _)
      (fun key _ loop held => shippedTurn_seated env order key loop held) stage member
    have done : (shippedTurn env order stage.input stage.before).2 = stage.after :=
      congrArg Prod.snd ran
    have kept := shippedTurn_keeps order (cmos_keeps platform memPlatform ports has apart
      stage.before.system.world.driver.portWrites
      (if Enters order .cmosSpace stage.input stage.before then
        Function.update (stage.before.system.world.driver.cmos chip)
          stage.before.system.world.cmos.written.1 stage.before.system.world.cmos.written.2
      else stage.before.system.world.driver.cmos chip)) stage.input stage.before seated
      (fun window own enters => by
        subst own
        rw [if_pos enters]
        exact .inr (cmos_entered platform memPlatform ports has apart enters.1.2 enters.2.2.2))
      (fun still => by
        rw [if_neg (still .cmosSpace rfl)]
        exact .inr ⟨rfl, rfl⟩)
    simp only [env] at done
    rw [done] at kept
    rcases kept with more | same
    · rw [quiet] at more
      exact absurd more (Nat.lt_irrefl _)
    · exact same.2

end Chips

section Screen

variable {σ : Type u} {δ : Type v} (platform : Platform σ) (memPlatform : MemPlatform)
  (ports : PortDevices δ) {host : Host (Kernel σ δ UserData)} {selected : δ → BitVec 8}
  {chip : δ → BitVec 8 → BitVec 8} (has : HasCmos ports host selected chip) (order : LinkOrder)

include has

/-- In every run of the program: whenever CMOS-SPACE is in the foreground and the program waits
for a key, the screen shows the bytes of the chip as they are, and the value that is typed. -/
theorem cmos_on_screen (driver : Attached σ δ) (keys : List (BitVec 32)) :
    let env := attachedTo platform memPlatform ports host
    let loop := final (shippedTurn env order) keys (starting env order driver)
    loop.Reads World.ended →
      loop.system.manager.curForeWindowHandle = order.handle .cmosSpace →
        ShowsCmos (Attached.cmos chip) loop.system.world := by
  intro env loop reads front
  have painted : PaintedLast env (fun _ => True) order loop :=
    run_paintedLast order (fun _ _ _ _ _ _ _ => trivial) driver trivial keys
  obtain ⟨world, _, running, _, same⟩ := painted.last reads .cmosSpace front
  change loop.system.world = _ at same
  rw [same]
  exact cmos_painted (attached_stores platform memPlatform ports has) running

end Screen

/-- A computer with the chip at its ports, for the program and for the driver. -/
def chipComputer : Computer Chip where
  kinds := singleComputer.kinds
  ecam := singleComputer.ecam
  highMemory := singleComputer.highMemory
  memPlatform := singleComputer.memPlatform
  ports :=
    { input := fun width port chip =>
        (if port = cmosDataPort then (chip.contents chip.selected).setWidth width else
          BitVec.allOnes width, chip)
      output := fun _ value port chip => chipPorts.outb (value.setWidth 8) port chip }
  host :=
    { cmosPorts :=
        { outb := fun value port kernel => { kernel with devices := { kernel.devices with io :=
            ⟨chipPorts.outb value port kernel.devices.io.device, kernel.devices.io.events⟩ } }
          inb := fun port kernel => ((chipPorts.inb port kernel.devices.io.device).1, kernel) }
      ioperm := fun kernel => (true, kernel)
      database := ⟨none, 0⟩
      maxpcibus := 1
      phyPcixMmioBase := 0
      mmioInMcfg := 0 }
  window := singleComputer.window
  aboveRam := singleComputer.aboveRam
  below := singleComputer.below
  apart := ⟨fun _ _ _ => ⟨rfl, rfl, rfl⟩, fun _ _ => ⟨rfl, rfl, rfl⟩, fun _ => ⟨rfl, rfl, rfl⟩⟩
  given := .inl rfl
  found := .inl rfl

/-- The ports of this computer are those of a chip that stores what is written, for the program and
for the driver. The witnesses run on it. -/
theorem chipComputer_has :
    HasCmos chipComputer.ports chipComputer.host Chip.selected Chip.contents where
  stores :=
    { select := fun _ _ => rfl
      keep := fun _ _ => rfl
      store := fun _ _ => rfl
      load := fun _ => rfl
      loaded := fun _ => rfl }
  input _ _ _ := rfl
  ioperm _ := rfl

/-- The driver on it, just loaded. -/
def chipKernel : Kernel ConfigSpace Chip UserData where
  user := ⟨.atRegister 0 0 0, ⟨0, 0, Vector.replicate 256 0⟩, ⟨0, 0, Vector.replicate 256 0⟩⟩
  devices := ⟨Machine.loaded (fun _ _ => ~~~0) 0, ⟨fun _ => 0, []⟩, ⟨⟨0, fun index => index⟩, []⟩⟩

/-- CMOS-SPACE is called to the foreground by its key, and shows the chip of this computer. -/
theorem chip_shown :
    ShowsCmos (Attached.cmos Chip.contents)
      (final (shippedTurn chipComputer.env makefileOrder) [-1, -1, 0x6f]
        (starting chipComputer.env makefileOrder ⟨chipKernel, []⟩)).system.world := by
  have ran :
      let loop := final (shippedTurn chipComputer.env makefileOrder) [-1, -1, 0x6f]
        (starting chipComputer.env makefileOrder ⟨chipKernel, []⟩)
      loop.Reads World.ended ∧
        loop.system.manager.curForeWindowHandle = makefileOrder.handle .cmosSpace := by
    decide +kernel
  have shown := cmos_on_screen chipComputer.platform chipComputer.memPlatform chipComputer.ports
    chipComputer_has makefileOrder ⟨chipKernel, []⟩ [-1, -1, 0x6f]
  rw [Computer.env] at ran ⊢
  exact shown ran.1 ran.2

/-- There 4 is entered and committed: what `cmos_edited` says of every stage, on this computer. -/
theorem chip_edited :
    (starting chipComputer.env makefileOrder ⟨chipKernel, []⟩).system.world.driver.cmos
        Chip.contents = chipKernel.devices.io.device.contents ∧
      ∀ stage ∈ stages (shippedTurn chipComputer.env makefileOrder) [-1, -1, 0x6f, 0x34, keyEnter]
        (starting chipComputer.env makefileOrder ⟨chipKernel, []⟩),
        stage.after.system.world.driver.portWrites = stage.before.system.world.driver.portWrites →
          stage.after.system.world.driver.cmos Chip.contents =
            if Enters makefileOrder .cmosSpace stage.input stage.before then
              Function.update (stage.before.system.world.driver.cmos Chip.contents)
                stage.before.system.world.cmos.written.1 stage.before.system.world.cmos.written.2
            else stage.before.system.world.driver.cmos Chip.contents :=
  cmos_edited chipComputer.platform chipComputer.memPlatform chipComputer.ports chipComputer_has
    chipComputer.apart makefileOrder chipKernel _

end Lfdk.ShippedWindows
