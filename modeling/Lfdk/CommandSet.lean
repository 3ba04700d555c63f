import Lfdk.DriverSuccess
import Lfdk.ExtendedRegisters
import Lfdk.ResultCodes

/-!
# Program and driver know the same commands

The program is run on the driver itself: each of its calls goes through the device file with
the number of its command, the structure lies at a valid address, and a result other than zero
is a failure. The calls and their results are listed beside the devices.

The scanner, PCI-DEV and MEM-SPACE only use commands that the driver has a case for. IO-SPACE
also writes words, which the driver could do but has no case for. So the program is ended by
a command that nobody answers when Enter ends the typing of a word there, and at no other
time.
-/

namespace Lfdk.ShippedWindows

open WindowManager HexEditors PciScan DeviceFile MemoryAccess PortAccess Runs

universe u v
variable {σ : Type u} {δ : Type v}

section Device

/-- A call of the device file and its result. -/
structure Call where
  space : Space
  operation : Operation
  ret : Int
deriving DecidableEq, Repr

/-- The call was dispatched to its function. -/
def Call.Dispatched (call : Call) : Prop :=
  dispatch (command call.space call.operation) = some (call.space, call.operation) ∧
    call.ret ≠ -einval

instance (call : Call) : Decidable call.Dispatched := inferInstanceAs (Decidable (_ ∧ _))

/-- The driver with the program's structures, and the calls so far. -/
structure Attached (σ : Type u) (δ : Type v) where
  kernel : Kernel σ δ UserData
  calls : List Call

/-- All calls so far were dispatched. -/
def Attached.Known (attached : Attached σ δ) : Prop := ∀ call ∈ attached.calls, call.Dispatched

variable (system : DeviceFile.System σ δ UserData)

/-- `ioctl` on the program's structures. -/
def callDevice (space : Space) (operation : Operation) (user : UserData)
    (attached : Attached σ δ) : Bool × Attached σ δ :=
  let done := DeviceFile.lfddIoctl system (command space operation)
    { attached.kernel with user := user }
  (decide (done.1 = 0), ⟨done.2, attached.calls ++ [⟨space, operation, done.1⟩]⟩)

/-- The calls on configuration space. -/
def pciDevice : Ioctl LfddPcix (Attached σ δ) := fun operation request attached =>
  let done := callDevice system .pci operation { attached.kernel.user with pcix := request } attached
  (done.1, done.2.kernel.user.pcix, done.2)

/-- The calls on memory. -/
def memDevice : Ioctl LfddSpace (Attached σ δ) := fun operation request attached =>
  let done := callDevice system .mem operation { attached.kernel.user with mem := request } attached
  (done.1, done.2.kernel.user.mem, done.2)

/-- The calls on ports. -/
def ioDevice : Ioctl LfddSpace (Attached σ δ) := fun operation request attached =>
  let done := callDevice system .io operation { attached.kernel.user with io := request } attached
  (done.1, done.2.kernel.user.io, done.2)

end Device

/-- What the program runs on beside the driver. -/
structure Host (κ : Type u) where
  cmosPorts : CmosPorts κ
  ioperm : κ → Bool × κ
  database : PciNames.NameDatabase
  maxpcibus : Int
  phyPcixMmioBase : BitVec 64
  mmioInMcfg : BitVec 64

/-- The program on the driver, with structures at valid addresses. -/
def attachedTo (platform : Platform σ) (memPlatform : MemPlatform) (ports : PortDevices δ)
    (host : Host (Kernel σ δ UserData)) : Environment (Attached σ δ) where
  pci := pciDevice (.attached platform memPlatform ports)
  mem := memDevice (.attached platform memPlatform ports)
  io := ioDevice (.attached platform memPlatform ports)
  cmosPorts :=
    { outb := fun value port attached =>
        { attached with kernel := host.cmosPorts.outb value port attached.kernel }
      inb := fun port attached =>
        ((host.cmosPorts.inb port attached.kernel).1,
          { attached with kernel := (host.cmosPorts.inb port attached.kernel).2 }) }
  ioperm := fun attached =>
    ((host.ioperm attached.kernel).1, { attached with kernel := (host.ioperm attached.kernel).2 })
  database := host.database
  maxpcibus := host.maxpcibus
  phyPcixMmioBase := host.phyPcixMmioBase
  mmioInMcfg := host.mmioInMcfg

section Calls

variable (platform : Platform σ) (memPlatform : MemPlatform) (ports : PortDevices δ)

/-- With valid addresses, a command that has a case is answered with zero. -/
theorem attached_result (space : Space) (operation : Operation)
    (known : (space, operation) ∈ switchCases) (kernel : Kernel σ δ UserData) :
    (DeviceFile.lfddIoctl (.attached platform memPlatform ports) (command space operation)
      kernel).1 = 0 := by
  have found : dispatch (command space operation) = some (space, operation) := by
    rw [dispatch_command, if_pos known]
  rw [lfddIoctl_result _ _ _ _ found]
  have copied : (DeviceFile.System.attached platform memPlatform ports).fromLeft kernel.user
      space = 0 := by cases space <;> rfl
  have answered : (DeviceFile.System.attached platform memPlatform ports).toLeft kernel.user
      space = 0 := by cases space <;> rfl
  rw [copied, answered]
  simp

/-- So the call succeeds, and all calls recorded so far were dispatched to their functions. -/
theorem callDevice_known (space : Space) (operation : Operation)
    (known : (space, operation) ∈ switchCases) (user : UserData) (attached : Attached σ δ)
    (good : attached.Known) :
    let done := callDevice (.attached platform memPlatform ports) space operation user attached
    done.1 = true ∧ done.2.Known := by
  have result := attached_result platform memPlatform ports space operation known
    { attached.kernel with user := user }
  have dispatched : Call.Dispatched ⟨space, operation, 0⟩ := by
    refine ⟨?_, by simp [einval]⟩
    rw [dispatch_command, if_pos known]
  simp only [callDevice, result, decide_true, true_and]
  exact List.forall_mem_append.mpr ⟨good, List.forall_mem_singleton.mpr dispatched⟩

/-- A command without a case fails with `EINVAL`, and its call stands in the record as one that was
not dispatched. -/
theorem callDevice_unknown (space : Space) (operation : Operation)
    (unknown : (space, operation) ∉ switchCases) (user : UserData) (attached : Attached σ δ) :
    let done := callDevice (.attached platform memPlatform ports) space operation user attached
    done.1 = false ∧ ¬ done.2.Known := by
  have missing : dispatch (command space operation) = none := by
    rw [dispatch_command, if_neg unknown]
  have refused := lfddIoctl_unknown (.attached platform memPlatform ports)
    (command space operation) { attached.kernel with user := user } missing
  simp only [callDevice, refused]
  refine ⟨by simp [einval], fun good => ?_⟩
  have last := good ⟨space, operation, -einval⟩ (by simp)
  exact last.2 rfl

/-- On configuration space the device file answers as its operations do, and leaves configuration
space as they do. -/
theorem pciDevice_answers (operation : Operation) (request : LfddPcix)
    (attached : Attached σ δ) :
    let answered := pciDevice (.attached platform memPlatform ports) operation request attached
    let done := Lfdk.lfddIoctl platform operation request attached.kernel.devices.pci
    answered.1 = done.1 ∧ answered.2.1 = done.2.1 ∧
      answered.2.2.kernel.devices.pci = done.2.2 := by
  intro answered done
  have known : dispatch (command .pci operation) = some (.pci, operation) := by
    rw [dispatch_command, if_pos (by cases operation <;> decide)]
  have ran := lfddIoctl_pci (.attached platform memPlatform ports) _
    { attached.kernel with user := { attached.kernel.user with pcix := request } } operation known
  have success : done.1 = true := by cases operation <;> rfl
  have untouched : operation.isRead = false → done.2.1 = request := by
    cases operation <;> first | exact fun _ => rfl | exact fun write => absurd write (by decide)
  simp only [answered, pciDevice, callDevice, ran, success]
  cases read : operation.isRead with
  | true =>
    rw [serveCase_read _ operation _ _ _ read rfl rfl]
    exact ⟨rfl, rfl, rfl⟩
  | false =>
    simp only [serveCase, read]
    exact ⟨rfl, (untouched read).symm, rfl⟩

end Calls

section Serving

variable {δ : Type u} (env : Environment δ) (Good : δ → Prop)

/-- What the program runs on keeps what is known of it, and serves all calls but for a word
written to a port. -/
structure Environment.Serves : Prop where
  pci : ∀ operation, Succeeds env.pci Good operation
  mem : ∀ operation, Succeeds env.mem Good operation
  io : ∀ operation, (Space.io, operation) ∈ switchCases → Succeeds env.io Good operation
  outb : ∀ value port driver, Good driver → Good (env.cmosPorts.outb value port driver)
  inb : ∀ port driver, Good driver → Good (env.cmosPorts.inb port driver).2
  ioperm : ∀ driver, Good driver → Good (env.ioperm driver).2

/-- A word is being typed in IO-SPACE. -/
def World.TypesWord (world : World δ) : Prop :=
  world.io.input = .inputValue ∧ world.io.displayMode = .wordMode

/-- What is known of the driver, in a program that no call has ended. -/
structure Served (world : World δ) : Prop where
  good : Good world.driver
  unexited : world.halted ≠ some .exited

variable {env Good} (serves : env.Serves Good)

include serves

/-- The port editor is served unless it writes a word, the one operation of its own that the driver
has no case for. -/
theorem ioEditor_served {world : World δ} (served : Served Good world)
    (running : world.halted = none) (input : SpaceInput)
    (apart : ¬ (input = .key keyEnter ∧ world.TypesWord)) :
    Served Good (ioEditor env input world) := by
  have calls : ∀ call ∈ (spaceStep ioSpace env.io input
      ⟨world.io, world.ioData, world.driver, world.halted⟩).1, Succeeds env.io Good call.1 := by
    intro call issued
    rcases spaceStep_calls env.io input call issued with read | ⟨enter, typing, write, _⟩
    · exact serves.io _ (by rw [read]; decide)
    · have byte : world.io.displayMode = .byteMode := by
        cases mode : world.io.displayMode with
        | byteMode => rfl
        | wordMode => exact absurd ⟨enter, typing, mode⟩ apart
      have single : call.1 = .writeByte := by
        rw [write]
        change ioSpace.write world.io.displayMode = _
        rw [byte]
        rfl
      exact serves.io _ (by rw [single]; decide)
  obtain ⟨halted, good⟩ := spaceStep_served ioSpace env.io running served.good input calls
  exact ⟨good, by simp only [ioEditor, halted]; simp⟩

/-- MEM-SPACE sends commands that the driver serves, so the program does not end in it and the
driver stays good. -/
theorem memEditor_served {world : World δ} (served : Served Good world)
    (running : world.halted = none) (input : SpaceInput) :
    Served Good (memEditor env input world) := by
  have alive : SpaceWindow.halted ⟨world.mem, world.memData, world.driver, world.halted⟩ = none :=
    running
  obtain ⟨halted, good⟩ := spaceStep_served memSpace env.mem alive served.good input
    fun call _ => serves.mem call.1
  exact ⟨good, by simp only [memEditor, halted]; simp⟩

/-- So does a scan: each of its commands is one of those that the driver serves. -/
theorem scanDevices_served {world : World δ} (served : Served Good world) :
    Served Good (scanDevices env world) := by
  obtain ⟨ending, good⟩ := scan_served env.pci serves.pci world.pcixMmioBase env.database 256
    env.maxpcibus ⟨world.driver, world.lfddPciData, world.table.lfddPciList,
      world.table.pciListLen⟩ served.good
  refine ⟨good, ?_⟩
  simp only [scanDevices]
  split
  · simp
  · simpa using ending

/-- A callback leaves the program served, unless it is the Enter that writes a word to a
port. -/
theorem answer_served (window : Window) (handle : Int) (foreground : Bool) (callback : Callback)
    (code : BitVec 32) {world : World δ} (served : Served Good world)
    (apart : ¬ (window = .ioSpace ∧ callback = .keyPress ∧ code = keyEnter ∧ world.TypesWord)) :
    Served Good (answer env window handle foreground callback code world).world := by
  unfold answer
  split
  · exact served
  · next going =>
    have running : world.halted = none := running_halted.mp (by simpa using going)
    cases window with
    | pciDev =>
      simp only [idle]
      cases devInput foreground code callback with
      | none => exact served
      | some input =>
        have alive : world.devWindow.halted = none := running
        obtain ⟨halted, good⟩ := devStep_served env.pci serves.pci alive served.good input
        exact ⟨good, halted⟩
    | pciScan =>
      cases callback with
      | paint =>
        simp only [pciScan]
        split
        · split
          · exact scanDevices_served serves served
          · exact scanDevices_served serves served
        · exact served
      | init => exact ⟨served.good, served.unexited⟩
      | startWin | postStartWin | lostFocus | getFocus | keyPress | destroyWin | moduleExit =>
        exact served
    | pciList =>
      cases callback with
      | keyPress =>
        simp only [pciList]
        split
        · exact ⟨served.good, served.unexited⟩
        · exact ⟨served.good, served.unexited⟩
      | init | startWin | postStartWin | lostFocus | getFocus | paint | destroyWin | moduleExit =>
        exact served
    | baseboard => exact served
    | ioSpace =>
      simp only [idle]
      cases asked : editorInput foreground code callback with
      | none => exact served
      | some input =>
        apply ioEditor_served serves served running input
        rintro ⟨rfl, typing⟩
        cases callback with
        | keyPress =>
          cases asked
          exact apart ⟨rfl, rfl, rfl, typing⟩
        | paint => cases foreground <;> cases asked
        | getFocus | lostFocus | init | startWin | postStartWin | destroyWin | moduleExit =>
          cases asked
    | cmosSpace =>
      simp only
      split
      · exact ⟨serves.ioperm _ served.good, served.unexited⟩
      · simp only [idle]
        cases editorInput foreground code callback with
        | none => exact served
        | some input =>
          exact ⟨cmosStep_served env.cmosPorts serves.outb serves.inb
            ⟨world.cmos, world.cmosBuf, world.driver⟩ served.good input, served.unexited⟩
    | memSpace =>
      simp only [idle]
      cases editorInput foreground code callback with
      | none => exact served
      | some input => exact memEditor_served serves served running input

/-- Every callback keeps this, but Enter in IO-SPACE while a word is typed: this is the only command
that the driver does not know. -/
theorem called_served (callback : Callback) (window : Window) (code : BitVec 32)
    {world : World δ} (served : Served Good world)
    (apart : ¬ (window = .ioSpace ∧ callback = .keyPress ∧ code = keyEnter ∧ world.TypesWord)) :
    Served Good (called env callback window code world) :=
  answer_served serves window 0 true callback code served apart

/-- The callbacks of a change of focus send no such command, since no key is pressed in them. -/
theorem refocus_served (fore : Option Window) (next : Window) {world : World δ}
    (served : Served Good world) : Served Good (refocus env fore next world) := by
  apply called_served serves
  · cases fore with
    | none => exact served
    | some window => exact called_served serves .lostFocus window 0 served (by simp)
  · simp

/-- Neither do the paintings make a call that is refused, whichever window is in the foreground. -/
theorem painted_served (fore : Option Window) {world : World δ} (served : Served Good world) :
    Served Good (painted env fore world).world := by
  cases fore with
  | none => exact served
  | some window => exact called_served serves .paint window 0 served (by simp)

end Serving

section Turns

variable {δ : Type u} (env : Environment δ) (order : LinkOrder) {Good : δ → Prop}

/-- Enter is the short key of no window, so it always goes to the window in the foreground. -/
theorem asked_enter (fore : Option Window) : asked order keyEnter fore = none := by
  cases found : asked order keyEnter fore with
  | none => rfl
  | some window =>
    have short := (asked_some order found).2
    cases window <;> exact absurd short (by decide)

/-- Nothing changes in a program that has ended: no callback runs any more, and no window is
painted. -/
theorem ended_kept {world : World δ} (ended : world.ended = true)
    (posts : List (Origin × Post)) (fore : Option Window) :
    (painted env (deliver env posts fore world).2.1 (deliver env posts fore world).2.2).world =
      world := by
  have delivered : (deliver env posts fore world).2.2 = world := by
    refine deliver_preserves env (fun _ after => after = world) ?_ posts fore world rfl
    rintro fore next after rfl
    have left : fore.elim after (fun window => called env .lostFocus window 0 after) = after := by
      cases fore with
      | none => rfl
      | some window => exact called_ended env _ _ _ _ ended
    rw [refocus, left]
    exact called_ended env _ _ _ _ ended
  rw [delivered]
  cases (deliver env posts fore world).2.1 with
  | none => rfl
  | some window => exact called_ended env _ _ _ _ ended

/-- A turn at the desk leaves the program served exactly when its key is not the Enter that
writes a word to a port. -/
theorem turn_served_iff (serves : env.Serves Good)
    (refuses : ∀ request driver, (env.io .writeWord request driver).1 = false) (desk : Desk δ)
    (running : desk.world.ended = false) (served : Served Good desk.world) (key : BitVec 32) :
    Served Good (desk.turn env order key).2.world ↔
      ¬ (key = keyEnter ∧ desk.fore = some .ioSpace ∧ desk.world.TypesWord) := by
  have after : (desk.turn env order key).2.world =
      (painted env (deliver env (desk.pressed env order key).1 desk.fore
        (desk.pressed env order key).2).2.1 (deliver env (desk.pressed env order key).1 desk.fore
        (desk.pressed env order key).2).2.2).world := rfl
  rw [after]
  by_cases commits : key = keyEnter ∧ desk.fore = some .ioSpace ∧ desk.world.TypesWord
  · obtain ⟨rfl, seated, typing, mode⟩ := commits
    have going : ¬ desk.world.ended = true := by simp [running]
    have halted : desk.world.halted = none := running_halted.mp running
    have refused : (desk.pressed env order keyEnter).2.halted = some .exited := by
      have positive : 0 < keyEnter.toInt := by decide
      simp only [Desk.pressed, asked_enter, seated, if_pos positive, called, answer, if_neg going,
        editorInput, idle, Option.elim_some, ioEditor, spaceStep, halted, Option.isSome_none,
        Bool.false_eq_true, if_false, spaceKeyPress, typing]
      have entered : typeKey (ioSpace.mask desk.world.io.displayMode) desk.world.io.wbuf keyEnter =
          .enter := if_pos rfl
      simp only [entered]
      rw [SpaceWindow.edit, writeSpaceValue, callSpace]
      simp only [mode]
      have failed := refuses
      simp [ioSpace, failed]
    have ended : (desk.pressed env order keyEnter).2.ended = true := by
      rw [World.ended, refused]
      rfl
    rw [ended_kept env ended]
    exact iff_of_false (fun served => served.unexited refused) (fun spared => spared
      ⟨rfl, seated, typing, mode⟩)
  · refine iff_of_true (painted_served serves _ ?_) commits
    refine deliver_preserves env (fun _ world => Served Good world)
      (fun fore next world served => refocus_served serves fore next served) _ _ _ ?_
    unfold Desk.pressed
    split
    · exact served
    · split
      · next window seated =>
        split
        · refine called_served serves .keyPress window key served ?_
          rintro ⟨rfl, _, enter, typing⟩
          exact commits ⟨enter, seated, typing⟩
        · exact served
      · exact served

/-- What is known at the head of the loop as long as no word was written to a port. -/
structure ServedSoFar (Good : δ → Prop) (loop : Loop (World δ)) : Prop where
  served : Served Good loop.system.world
  desk : loop.Reads World.ended → ∃ desk, Shows order loop desk

/-- The key is the Enter that writes a word to a port: IO-SPACE is in the foreground, and a
word is being typed there. -/
def WritesPortWord (key : BitVec 32) (loop : Loop (World δ)) : Prop :=
  key = keyEnter ∧ loop.system.manager.curForeWindowHandle = order.handle .ioSpace ∧
    loop.system.world.TypesWord

/-- A turn of the program's loop keeps all calls served exactly if it does not write a word of I/O
space, the one call the driver refuses. -/
theorem shippedTurn_served_iff (serves : env.Serves Good)
    (refuses : ∀ request driver, (env.io .writeWord request driver).1 = false)
    (key : BitVec 32) (loop : Loop (World δ)) (held : ServedSoFar order Good loop) :
    (Served Good (shippedTurn env order key loop).2.system.world ↔
        (loop.Reads World.ended → ¬ WritesPortWord order key loop)) ∧
      (Served Good (shippedTurn env order key loop).2.system.world →
        ServedSoFar order Good (shippedTurn env order key loop).2) := by
  by_cases reads : loop.Reads World.ended
  · by_cases quit : key = 0x71 ∨ key = 0x51
    · rw [shippedTurn, turn_quit (shippedModules env order) World.ended quit reads]
      refine ⟨iff_of_true held.served fun _ writes => ?_, fun served => ⟨served, fun stopped => ?_⟩⟩
      · rw [writes.1] at quit
        exact absurd quit (by decide)
      · exact absurd stopped (Loop.stopped_reads _ loop)
    · obtain ⟨desk, shows_⟩ := held.desk reads
      have running : desk.world.ended = false := shows_.world ▸ reads.2
      have next := (shippedTurn_desk env order shows_ running key quit).2
      have fore : loop.system.manager.curForeWindowHandle = order.handle .ioSpace ↔
          desk.fore = some .ioSpace := by
        have cur : loop.system.manager.curForeWindowHandle = desk.fore.elim (-1) order.handle := by
          rw [shows_.manager]
          rfl
        rw [cur, eq_comm]
        exact handle_fore order desk.fore .ioSpace
      have writes : WritesPortWord order key loop ↔
          key = keyEnter ∧ desk.fore = some .ioSpace ∧ desk.world.TypesWord := by
        rw [WritesPortWord, fore, shows_.world]
      rw [next.world, writes, turn_served_iff env order serves refuses desk running
        (shows_.world ▸ held.served) key]
      have onlyNow := imp_iff_right (b := ¬ (key = keyEnter ∧ desk.fore = some .ioSpace ∧
        desk.world.TypesWord)) reads
      refine ⟨onlyNow.symm, fun spared => ⟨?_, fun _ => ⟨_, next⟩⟩⟩
      rw [next.world, turn_served_iff env order serves refuses desk running
        (shows_.world ▸ held.served) key]
      exact spared
  · rw [shippedTurn, turn_idle (shippedModules env order) World.ended key reads]
    exact ⟨iff_of_true held.served fun other => absurd other reads, fun _ => held⟩

/-- The start-up keeps all calls served: only a key can make an editor write a word of I/O space,
and the start-up presses none. -/
theorem starting_served (serves : env.Serves Good) (driver : δ) (good : Good driver) :
    ServedSoFar order Good (starting env order driver) := by
  have called : ∀ callback handle (system : System (World δ)), callback ≠ .keyPress →
      Served Good system.world →
      Served Good (invoke (shippedModules env order) callback handle none system).2.world := by
    intro callback handle system other served
    unfold invoke
    split
    · exact served
    · split
      · simp only [shippedModules]
        split
        · exact served
        · exact answer_served serves _ _ _ _ _ served fun both => other both.2.1
      · exact served
  let Holds := fun system : System (World δ) => Served Good system.world
  have start : Holds ⟨Manager.registered (order.windows.map Window.info), World.starting driver,
      []⟩ := ⟨good, by simp [World.starting]⟩
  have inited : Holds (handleInitEvent (shippedModules env order) _).2 :=
    initWindows_preserves (shippedModules env order) Holds _ _ start
      (fun handle current held => called .init handle current (by decide) held)
      (fun _ _ held => held)
  have served : Served Good (starting env order driver).system.world := by
    rcases outcome : handleInitEvent (shippedModules env order)
      ⟨Manager.registered (order.windows.map Window.info), World.starting driver, []⟩
        with ⟨ret, after⟩
    rw [outcome] at inited
    simp only [starting, startUp, outcome]
    split
    · exact inited
    · refine promoted_preserves (shippedModules env order) Holds _ _ _ _ _ ?_
        (fun handle current held => called .postStartWin handle current (by decide) held)
        (fun _ _ held => held)
      exact promoted_preserves (shippedModules env order) Holds _ _ _ _ _ inited
        (fun handle current held => called .startWin handle current (by decide) held)
        (fun _ _ held => held)
  refine ⟨served, fun reads => ?_⟩
  rcases starting_desk env order driver with stopped | shows_
  · exact absurd (stopped.symm.trans reads.1) (by decide)
  · exact ⟨_, shows_⟩

end Turns

section Runs

variable (platform : Platform σ) (memPlatform : MemPlatform) (ports : PortDevices δ)
  (host : Host (Kernel σ δ UserData)) (order : LinkOrder)

/-- The driver serves the program: it has a case for every operation on configuration space and
memory, and those on I/O space are served where it has one. -/
theorem attached_serves :
    (attachedTo platform memPlatform ports host).Serves Attached.Known where
  pci operation request attached good :=
    callDevice_known platform memPlatform ports .pci operation (by cases operation <;> decide) _
      attached good
  mem operation request attached good :=
    callDevice_known platform memPlatform ports .mem operation (by cases operation <;> decide) _
      attached good
  io operation known request attached good :=
    callDevice_known platform memPlatform ports .io operation known _ attached good
  outb _ _ _ good := good
  inb _ _ good := good
  ioperm _ good := good

/-- After a turn, every call so far was dispatched to its function, and no call has ended the
program. -/
structure CommandsKnown (stage : Stage (BitVec 32) (Loop (World (Attached σ δ))) (List FocusMove)) :
    Prop where
  dispatched : ∀ call ∈ stage.after.system.world.driver.calls, call.Dispatched
  unexited : stage.after.system.world.halted ≠ some .exited

/-- All commands of a turn are known exactly if the driver has served all so far: it keeps the
commands that it was asked for, and the program ends at the first one that fails. -/
theorem commandsKnown_iff
    (stage : Stage (BitVec 32) (Loop (World (Attached σ δ))) (List FocusMove)) :
    CommandsKnown stage ↔ Served Attached.Known stage.after.system.world :=
  ⟨fun known => ⟨known.dispatched, known.unexited⟩, fun served => ⟨served.good, served.unexited⟩⟩

/-- In a run of the program on its driver, all commands are known to the driver exactly when
Enter never ends the typing of a word in IO-SPACE. -/
theorem commands_known_iff (kernel : Kernel σ δ UserData) (keys : List (BitVec 32)) :
    let env := attachedTo platform memPlatform ports host
    let run := stages (shippedTurn env order) keys (starting env order ⟨kernel, []⟩)
    (∀ stage ∈ run, CommandsKnown stage) ↔
      ∀ stage ∈ run, stage.before.Reads World.ended →
        ¬ WritesPortWord order stage.input stage.before := by
  intro env run
  have serves : env.Serves Attached.Known := attached_serves platform memPlatform ports host
  have refuses : ∀ request attached, (env.io .writeWord request attached).1 = false :=
    fun request attached =>
      (callDevice_unknown platform memPlatform ports .io .writeWord (by decide)
        { attached.kernel.user with io := request } attached).1
  have start : ServedSoFar order Attached.Known (starting env order ⟨kernel, []⟩) :=
    starting_served env order serves ⟨kernel, []⟩ fun call member =>
      absurd member List.not_mem_nil
  apply stages_iff (shippedTurn env order) (ServedSoFar order Attached.Known)
    (fun key loop => loop.Reads World.ended → ¬ WritesPortWord order key loop) CommandsKnown keys
    _ start
  · intro key _ loop held
    rw [commandsKnown_iff]
    exact (shippedTurn_served_iff env order serves refuses key loop held).1
  · intro key _ loop held allowed
    obtain ⟨served, kept⟩ := shippedTurn_served_iff env order serves refuses key loop held
    exact kept (served.mpr allowed)

end Runs

/-- A machine without devices and a scan of no bus. -/
def bareHost : Host (Kernel Unit Unit UserData) where
  cmosPorts := ⟨fun _ _ kernel => kernel, fun _ kernel => (0, kernel)⟩
  ioperm := fun kernel => (true, kernel)
  database := ⟨none, 0⟩
  maxpcibus := 0
  phyPcixMmioBase := 0
  mmioInMcfg := 0

/-- The keys that go to IO-SPACE, show the first page in words, and write 1 to the word at
port 0. -/
def portWordKeys : List (BitVec 32) := [-1, -1, 0x69, keyEnter, keyF7, 0x31, keyEnter]

/-- The run with these keys. -/
def portWordRun : List (Stage (BitVec 32) (Loop (World (Attached Unit Unit))) (List FocusMove)) :=
  stages (shippedTurn (attachedTo (Platform.constant 0 0 fun _ => true) ⟨0, fun _ => true⟩ .absent
    bareHost) makefileOrder) portWordKeys
    (starting (attachedTo (Platform.constant 0 0 fun _ => true) ⟨0, fun _ => true⟩ .absent
      bareHost) makefileOrder ⟨emptyKernel, []⟩)

/-- The last key ends the program: the driver does not know the command. -/
theorem port_word_unknown :
    (portWordRun.get ⟨6, by decide +kernel⟩).after.system.world.driver.calls.getLast? =
        some ⟨.io, .writeWord, -einval⟩ ∧
      (portWordRun.get ⟨6, by decide +kernel⟩).after.system.world.halted = some .exited ∧
      ¬ ∀ stage ∈ portWordRun, CommandsKnown stage := by
  have ended : (portWordRun.get ⟨6, by decide +kernel⟩).after.system.world.halted =
      some .exited := by decide +kernel
  refine ⟨by decide +kernel, ended, fun known => ?_⟩
  exact (known _ (List.get_mem portWordRun ⟨6, by decide +kernel⟩)).unexited ended

end Lfdk.ShippedWindows
