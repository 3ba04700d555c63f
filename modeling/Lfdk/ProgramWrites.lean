import Lfdk.AccessFrames
import Lfdk.MemoryEditing

/-!
# What a run of the program writes

The program shows a machine and lets its user change it. A change is meant to happen when Enter
ends the typing of a value, and at no other time: scanning the buses, painting the pages,
turning them, selecting functions and switching between windows change neither memory nor the
configuration registers, and make no call that writes a port.

Enter reaches the window in the foreground. What a turn does beside that is quiet for all
devices: callbacks are delivered, the focus moves, the windows are painted. So after each
turn of a run, memory, the configuration registers and the ports that the driver's calls for
ports wrote to are what they were before, but for the value that Enter committed in this turn.

Two things are left aside. To reach the CMOS the program itself writes to its two ports, and the
driver writes to the address port of configuration space; this is not counted. And a value that
IO-SPACE commits at a port of configuration space has an effect that nothing is said about.
-/

namespace Lfdk.PciScan

open CountedLoops PciNames

universe u
variable {δ : Type u} (ioctl : Ioctl LfddPcix δ) (pcixMmioBase : BitVec 64)
  (database : NameDatabase)

/-- The driver without the operations that a scan does not use. -/
def scanReads : Ioctl LfddPcix δ := fun operation request driver =>
  match operation with
  | .readWord => ioctl .readWord request driver
  | .readDword => ioctl .readDword request driver
  | .readByte | .writeByte | .writeWord | .writeDword | .read256byte => (true, request, driver)

/-- The walk makes reads only: it is the same where all other commands are replaced by nothing. -/
theorem walkCapabilities_reads (walkLimit : Nat) (capId capNext : BitVec 8) (target : LfddPcix)
    (driver : δ) :
    walkCapabilities (scanReads ioctl) walkLimit capId capNext target driver =
      walkCapabilities ioctl walkLimit capId capNext target driver := by
  induction walkLimit generalizing capId capNext target driver with
  | zero => rfl
  | succ walkLimit inductionHypothesis =>
    have word : scanReads ioctl .readWord = ioctl .readWord := rfl
    simp only [walkCapabilities, word, inductionHypothesis]

/-- So does the search for the base of a function, which reads words and dwords only. -/
theorem storeBase_reads (scan : Scan δ) :
    storeBase (scanReads ioctl) pcixMmioBase scan = storeBase ioctl pcixMmioBase scan := by
  have word : scanReads ioctl .readWord = ioctl .readWord := rfl
  have dword : scanReads ioctl .readDword = ioctl .readDword := rfl
  simp only [storeBase, assignMMIOBase, findBase, compareDwords, word, dword,
    walkCapabilities_reads]

/-- A scan reads words and dwords, and makes no other use of the driver. -/
theorem scanPCIDevice_reads (fuel : Nat) (maxpcibus : Int) (scan : Scan δ) :
    scanPCIDevice (scanReads ioctl) pcixMmioBase database fuel maxpcibus scan =
      scanPCIDevice ioctl pcixMmioBase database fuel maxpcibus scan := by
  have call : callDriver (scanReads ioctl) .readWord = callDriver ioctl .readWord := rfl
  have base : storeBase (scanReads ioctl) pcixMmioBase = storeBase ioctl pcixMmioBase :=
    funext (storeBase_reads ioctl pcixMmioBase)
  have probed : probe (scanReads ioctl) pcixMmioBase database =
      probe ioctl pcixMmioBase database := by
    funext place scan
    simp only [probe, recordDevice, call, base]
  simp only [scanPCIDevice, probed]

end Lfdk.PciScan

namespace Lfdk.HexEditors

open PciScan

universe u
variable {δ : Type u} {Good : δ → Prop}

/-- An operation that keeps what is known of the driver, whether it succeeds or fails. -/
def Leaves {ρ : Type} (ioctl : Ioctl ρ δ) (Good : δ → Prop) (operation : Operation) : Prop :=
  ∀ request driver, Good driver → Good (ioctl operation request driver).2.2

section PciDevices

variable (ioctl : Ioctl LfddPcix δ) (window : DevWindow δ)

/-- A command goes to the selected record, with its place and its base, and the answer is kept. -/
theorem callSelected_some {record : PciData} (current : window.table.current = some record)
    (operation : Operation) (reg : BitVec 16) (buf : BitVec 32) :
    let request := { window.lfddPciData with
      bus := record.bus, dev := record.dev, func := record.func, reg := reg
      phyBase := record.phyBase, buf := buf }
    let answered := ioctl operation request window.driver
    callSelected ioctl operation reg buf window =
      ([(operation, request)], { window with
        lfddPciData := answered.2.1
        driver := answered.2.2
        halted := if answered.1 = true then none else some .exited }) := by
  rw [callSelected, current]

/-- Without one there is no command, and what the program does then is undefined. -/
theorem callSelected_none (current : window.table.current = none) (operation : Operation)
    (reg : BitVec 16) (buf : BitVec 32) :
    callSelected ioctl operation reg buf window =
      ([], { window with halted := some .undefined }) := by
  rw [callSelected, current]

/-- Of PCI-DEV's keys, only Enter at the end of a value makes a call. -/
theorem pciDevKeyPress_quiet (running : window.halted = none) (key : BitVec 32)
    (other : ¬ (key = keyEnter ∧ window.dev.input = true)) :
    (pciDevKeyPress ioctl key window).1 = [] := by
  by_cases typing : window.dev.input = true
  · simp only [pciDevKeyPress, typing, if_true, window.edit_running running]
    cases typed : typeKey window.dev.displayMode.mask window.dev.wbuf key with
    | enter => exact absurd ⟨typeKey_enter typed, typing⟩ other
    | number wbuf => rfl
    | left => rfl
  · have effect := pciDevKeyPress_effect ioctl window running key
    generalize pciDevKeyPress ioctl key window = ran at effect ⊢
    cases effect with
    | wrote value => exact absurd value typing
    | edited dev change => rfl
    | turned change turn => rfl
    | following | preceding | nothing => rfl

/-- PCI-DEV writes at Enter, and reads otherwise: a call of a step that is no read was made for that
key. -/
theorem devStep_enter (input : DevInput) (call : Operation × LfddPcix)
    (issued : call ∈ (devStep ioctl input window).1) (write : call.1.isRead = false) :
    input = .key keyEnter := by
  have typing := (devStep_writes ioctl input call issued write).1
  unfold devStep at issued
  split at issued
  · exact absurd issued List.not_mem_nil
  · next going =>
    have running : window.halted = none := by simpa using going
    cases input with
    | key code =>
      by_cases enter : code = keyEnter
      · rw [enter]
      · simp only at issued
        rw [pciDevKeyPress_quiet ioctl window running code fun both => enter both.1] at issued
        exact absurd issued List.not_mem_nil
    | getFocus | lostFocus | others => exact absurd issued List.not_mem_nil
    | paint =>
      obtain ⟨record, _, rfl⟩ := callSelected_calls ioctl window _ _ _ call issued
      exact absurd write (show ¬ Operation.read256byte.isRead = false by decide)

/-- PCI-DEV keeps what its calls keep, since it reaches the driver through them alone. -/
theorem devStep_leaves (good : Good window.driver) (input : DevInput)
    (leaves : ∀ call ∈ (devStep ioctl input window).1,
      Good (ioctl call.1 call.2 window.driver).2.2) :
    Good (devStep ioctl input window).2.driver := by
  have called : ∀ operation reg buf,
      (∀ call ∈ (callSelected ioctl operation reg buf window).1,
        Good (ioctl call.1 call.2 window.driver).2.2) →
      Good (callSelected ioctl operation reg buf window).2.driver := by
    intro operation reg buf calls
    cases current : window.table.current with
    | none =>
      rw [callSelected_none ioctl window current]
      exact good
    | some record =>
      rw [callSelected_some ioctl window current] at calls ⊢
      exact calls _ (List.mem_singleton_self _)
  unfold devStep at leaves ⊢
  split
  · exact good
  · next going =>
    have running : window.halted = none := by simpa using going
    rw [if_neg going] at leaves
    cases input with
    | key code =>
      have effect := pciDevKeyPress_effect ioctl window running code
      simp only at leaves ⊢
      generalize pciDevKeyPress ioctl code window = ran at effect leaves
      cases effect with
      | wrote typing =>
        rw [(DevWindow.edit_served _ _).2]
        exact called _ _ _ leaves
      | edited dev change => exact good
      | turned change turn =>
        simp only [turnPage]
        split
        · exact good
        · split
          · rw [(window.edit_served _).2]
            exact good
          · exact good
      | following | preceding | nothing => exact good
    | getFocus | others => exact good
    | lostFocus =>
      simp only [pciDevLostFocus]
      rw [(window.edit_served _).2]
      exact good
    | paint => exact called _ _ _ leaves

end PciDevices

/-- An editor of a space keeps what its calls keep, since it reaches the driver through them alone.
-/
theorem spaceStep_leaves {α μ : Type} (space : AddressSpace α μ) (ioctl : Ioctl LfddSpace δ)
    (window : SpaceWindow α μ δ) (good : Good window.driver) (input : SpaceInput)
    (leaves : ∀ call ∈ (spaceStep space ioctl input window).1,
      Good (ioctl call.1 call.2 window.driver).2.2) :
    Good (spaceStep space ioctl input window).2.driver := by
  unfold spaceStep at leaves ⊢
  split
  · exact good
  · next going =>
    have running : window.halted = none := by simpa using going
    rw [if_neg going] at leaves
    cases input with
    | key code =>
      have effect := spaceKeyPress_effect space ioctl window running code
      simp only at leaves ⊢
      generalize spaceKeyPress space ioctl code window = ran at effect leaves
      cases effect with
      | wrote typing =>
        rw [(SpaceWindow.edit_served _ _).2]
        exact leaves _ (List.mem_singleton_self _)
      | edited editor change => exact good
      | nothing => exact good
    | getFocus =>
      simp only [spaceGetFocus]
      rw [(window.edit_served _).2]
      exact good
    | lostFocus =>
      simp only [spaceLostFocus]
      rw [(window.edit_served _).2]
      exact good
    | paint =>
      simp only [printSpaceScreen] at leaves ⊢
      split
      · exact good
      · next shown =>
        rw [if_neg shown] at leaves
        exact leaves _ (List.mem_singleton_self _)

section CmosBytes

variable (ports : CmosPorts δ)

/-- The ports of the chip without what only a write uses. -/
def cmosReads : CmosPorts δ where
  outb value port driver := if port = cmosAddrPort then ports.outb value port driver else driver
  inb port driver := if port = cmosDataPort then ports.inb port driver else (0, driver)

/-- Reading the chip selects and reads, so it is the same where no value can be stored. -/
theorem readCmosFrom_reads (left : Nat) (buf : Vector (BitVec 8) 256) (driver : δ) :
    readCmosFrom (cmosReads ports) left buf driver = readCmosFrom ports left buf driver := by
  induction left generalizing buf driver with
  | zero => rfl
  | succ left inductionHypothesis =>
    simp only [readCmosFrom, inductionHypothesis]
    rfl

/-- Only Enter at the end of a value writes to the chip. -/
theorem cmosStep_reads (input : SpaceInput) (window : CmosWindow δ)
    (other : ¬ Commits input window) :
    cmosStep (cmosReads ports) input window = cmosStep ports input window := by
  cases input with
  | key code =>
    simp only [cmosStep, cmosKeyPress]
    split
    · next typing =>
      cases typed : typeKey 0xf0 window.editor.wbuf code with
      | enter => exact absurd ⟨congrArg SpaceInput.key (typeKey_enter typed), typing⟩ other
      | number wbuf => rfl
      | left => rfl
    · rfl
  | getFocus | lostFocus => rfl
  | paint =>
    simp only [cmosStep, printCmosScreen, readCmos256Bytes, readCmosFrom_reads]

/-- CMOS-SPACE keeps what its port accesses keep; storing a byte is asked for only where the step
commits one. -/
theorem cmosStep_leaves
    (select : ∀ index driver, Good driver → Good (ports.outb index cmosAddrPort driver))
    (load : ∀ driver, Good driver → Good (ports.inb cmosDataPort driver).2)
    (window : CmosWindow δ) (good : Good window.driver) (input : SpaceInput)
    (store : Commits input window →
      ∀ value driver, Good driver → Good (ports.outb value cmosDataPort driver)) :
    Good (cmosStep ports input window).2.driver := by
  by_cases commits : Commits input window
  · rw [cmosStep_output ports window input commits]
    exact store commits _ _ (select _ _ good)
  · rw [← cmosStep_reads ports input window commits]
    refine cmosStep_served (cmosReads ports) ?_ ?_ window good input
    · intro value port driver known
      simp only [cmosReads]
      split
      · next same =>
        rw [same]
        exact select _ _ known
      · exact known
    · intro port driver known
      simp only [cmosReads]
      split
      · next same =>
        rw [same]
        exact load _ known
      · exact known

end CmosBytes

end Lfdk.HexEditors

namespace Lfdk.ShippedWindows

open WindowManager HexEditors PciScan DeviceFile MemoryAccess PortAccess ByteMemory Runs

universe u v

section Windows

variable {δ : Type u}

/-- A value is being typed in a window. -/
def World.Types (world : World δ) : Window → Prop
  | .pciDev => world.dev.input = true
  | .memSpace => world.mem.input = .inputValue
  | .ioSpace => world.io.input = .inputValue
  | .cmosSpace => world.cmos.input = true
  | .pciScan | .pciList | .baseboard => False

instance (world : World δ) (window : Window) : Decidable (world.Types window) := by
  cases window with
  | pciDev => exact inferInstanceAs (Decidable (world.dev.input = true))
  | memSpace => exact inferInstanceAs (Decidable (world.mem.input = .inputValue))
  | ioSpace => exact inferInstanceAs (Decidable (world.io.input = .inputValue))
  | cmosSpace => exact inferInstanceAs (Decidable (world.cmos.input = true))
  | pciScan | pciList | baseboard => exact inferInstanceAs (Decidable False)

/-- An editor is handed a key when a key is pressed, and never by another callback. -/
theorem editorInput_key {foreground : Bool} {code key : BitVec 32} {callback : Callback}
    (asked : editorInput foreground code callback = some (.key key)) :
    callback = .keyPress ∧ code = key := by
  cases callback with
  | keyPress =>
    cases asked
    exact ⟨rfl, rfl⟩
  | paint => cases foreground <;> cases asked
  | getFocus | lostFocus | init | startWin | postStartWin | destroyWin | moduleExit => cases asked

/-- And so is a key that PCI-DEV hears, in the foreground or not. -/
theorem devInput_key {foreground : Bool} {code key : BitVec 32} {callback : Callback}
    (asked : devInput foreground code callback = some (.key key)) :
    callback = .keyPress ∧ code = key := by
  cases callback with
  | keyPress =>
    cases asked
    exact ⟨rfl, rfl⟩
  | paint => cases foreground <;> cases asked
  | getFocus | lostFocus | init | startWin | postStartWin | destroyWin | moduleExit => cases asked

section Quiet

variable (env : Environment δ) (order : LinkOrder) (Holds : World δ → Prop)
  (quiet : ∀ callback window (world : World δ), callback ≠ .keyPress → Holds world →
    Holds (called env callback window 0 world))

include quiet

/-- What callbacks keep that are no key presses is kept while the messages are delivered. -/
theorem delivered_holds (desk : Desk δ) (key : BitVec 32)
    (held : Holds (desk.pressed env order key).2) :
    Holds (deliver env (desk.pressed env order key).1 desk.fore
      (desk.pressed env order key).2).2.2 := by
  refine deliver_preserves env (fun _ world => Holds world) ?_ _ _ _ held
  intro fore next world before
  apply quiet .getFocus next _ (by decide)
  cases fore with
  | none => exact before
  | some window => exact quiet .lostFocus window world (by decide) before

/-- It is kept by all of a turn after the key: the messages and the painting. -/
theorem turn_holds (desk : Desk δ) (key : BitVec 32)
    (held : Holds (desk.pressed env order key).2) : Holds (desk.turn env order key).2.world := by
  have delivered := delivered_holds env order Holds quiet desk key held
  simp only [Desk.turn, painted]
  split
  · exact delivered
  · next window seated => exact quiet .paint window _ (by decide) delivered

end Quiet

/-- What is known of the driver is kept by all calls, but for the writes of some windows. -/
structure Environment.Keeps (env : Environment δ) (Good : δ → Prop) (writer : Window → Prop) :
    Prop where
  scan : ∀ operation, operation = .readWord ∨ operation = .readDword →
    Succeeds env.pci Good operation
  pci : ∀ operation, operation.isRead = true ∨ ¬ writer .pciDev → Leaves env.pci Good operation
  mem : ∀ operation, operation.isRead = true ∨ ¬ writer .memSpace → Leaves env.mem Good operation
  io : ∀ operation, operation.isRead = true ∨ ¬ writer .ioSpace → Leaves env.io Good operation
  select : ∀ index driver, Good driver → Good (env.cmosPorts.outb index cmosAddrPort driver)
  store : ¬ writer .cmosSpace →
    ∀ value driver, Good driver → Good (env.cmosPorts.outb value cmosDataPort driver)
  load : ∀ driver, Good driver → Good (env.cmosPorts.inb cmosDataPort driver).2
  ioperm : ∀ driver, Good driver → Good (env.ioperm driver).2

variable {env : Environment δ} {Good : δ → Prop}

/-- A scan keeps what reading words and dwords keeps. -/
theorem scanDevices_keeps
    (scan : ∀ operation, operation = .readWord ∨ operation = .readDword →
      Succeeds env.pci Good operation)
    {world : World δ} (good : Good world.driver) : Good (scanDevices env world).driver := by
  have succeeds : ∀ operation, Succeeds (scanReads env.pci) Good operation := by
    intro operation request driver known
    cases operation with
    | readWord => exact scan .readWord (.inl rfl) request driver known
    | readDword => exact scan .readDword (.inr rfl) request driver known
    | readByte | writeByte | writeWord | writeDword | read256byte => exact ⟨rfl, known⟩
  have kept := (scan_served (scanReads env.pci) succeeds world.pcixMmioBase env.database 256
    env.maxpcibus ⟨world.driver, world.lfddPciData, world.table.lfddPciList,
      world.table.pciListLen⟩ good).2
  rw [scanPCIDevice_reads] at kept
  exact kept

variable {writer : Window → Prop} (keeps : env.Keeps Good writer)

include keeps

/-- A callback keeps it, unless it is the Enter that commits a value of a writer. -/
theorem answer_keeps (window : Window) (handle : Int) (foreground : Bool) (callback : Callback)
    (code : BitVec 32) {world : World δ} (good : Good world.driver)
    (apart : ¬ (writer window ∧ callback = .keyPress ∧ code = keyEnter ∧ world.Types window)) :
    Good (answer env window handle foreground callback code world).world.driver := by
  unfold answer
  split
  · exact good
  · cases window with
    | pciDev =>
      simp only [idle]
      cases asked : devInput foreground code callback with
      | none => exact good
      | some input =>
        apply devStep_leaves env.pci world.devWindow good input
        intro call issued
        cases read : call.1.isRead with
        | true => exact keeps.pci _ (.inl read) _ _ good
        | false =>
          refine keeps.pci _ (.inr fun own => ?_) _ _ good
          have typing := (devStep_writes env.pci input call issued read).1
          obtain rfl := devStep_enter env.pci world.devWindow input call issued read
          obtain ⟨rfl, rfl⟩ := devInput_key asked
          exact apart ⟨own, rfl, rfl, typing⟩
    | pciScan =>
      cases callback with
      | paint =>
        simp only [pciScan]
        split
        · split
          · exact scanDevices_keeps keeps.scan good
          · exact scanDevices_keeps keeps.scan good
        · exact good
      | init => exact good
      | startWin | postStartWin | lostFocus | getFocus | keyPress | destroyWin | moduleExit =>
        exact good
    | pciList =>
      cases callback with
      | keyPress =>
        simp only [pciList]
        split
        · exact good
        · exact good
      | init | startWin | postStartWin | lostFocus | getFocus | paint | destroyWin | moduleExit =>
        exact good
    | baseboard => exact good
    | ioSpace =>
      simp only [idle]
      cases asked : editorInput foreground code callback with
      | none => exact good
      | some input =>
        refine spaceStep_leaves ioSpace env.io ⟨world.io, world.ioData, world.driver, world.halted⟩
          good input ?_
        intro call issued
        rcases spaceStep_calls env.io input call issued with read | ⟨rfl, typing, write, _⟩
        · exact keeps.io _ (.inl (by rw [read]; rfl)) _ _ good
        · refine keeps.io _ (.inr fun own => ?_) _ _ good
          obtain ⟨rfl, rfl⟩ := editorInput_key asked
          exact apart ⟨own, rfl, rfl, typing⟩
    | cmosSpace =>
      simp only
      split
      · exact keeps.ioperm _ good
      · simp only [idle]
        cases asked : editorInput foreground code callback with
        | none => exact good
        | some input =>
          refine cmosStep_leaves env.cmosPorts keeps.select keeps.load
            ⟨world.cmos, world.cmosBuf, world.driver⟩ good input ?_
          rintro ⟨rfl, typing⟩
          apply keeps.store
          intro own
          obtain ⟨rfl, rfl⟩ := editorInput_key asked
          exact apart ⟨own, rfl, rfl, typing⟩
    | memSpace =>
      simp only [idle]
      cases asked : editorInput foreground code callback with
      | none => exact good
      | some input =>
        refine spaceStep_leaves memSpace env.mem
          ⟨world.mem, world.memData, world.driver, world.halted⟩ good input ?_
        intro call issued
        rcases spaceStep_calls env.mem input call issued with read | ⟨rfl, typing, write, _⟩
        · exact keeps.mem _ (.inl (by rw [read]; rfl)) _ _ good
        · refine keeps.mem _ (.inr fun own => ?_) _ _ good
          obtain ⟨rfl, rfl⟩ := editorInput_key asked
          exact apart ⟨own, rfl, rfl, typing⟩

/-- Every callback keeps a good driver but Enter in a window that writes, while a value is typed in
it. -/
theorem called_keeps (callback : Callback) (window : Window) (code : BitVec 32) {world : World δ}
    (good : Good world.driver)
    (apart : ¬ (writer window ∧ callback = .keyPress ∧ code = keyEnter ∧ world.Types window)) :
    Good (called env callback window code world).driver :=
  answer_keeps keeps window 0 true callback code good apart

/-- After the key, a turn is quiet: messages, focus and painting write nothing. -/
theorem turn_keeps (order : LinkOrder) (desk : Desk δ) (key : BitVec 32)
    (good : Good (desk.pressed env order key).2.driver) :
    Good (desk.turn env order key).2.world.driver :=
  turn_holds env order (fun world => Good world.driver)
    (fun callback window _ other held => called_keeps keeps callback window 0 held
      fun both => other both.2.1) desk key good

/-- A key that commits no value of a writer is quiet too. -/
theorem pressed_keeps (order : LinkOrder) (desk : Desk δ) (key : BitVec 32)
    (good : Good desk.world.driver)
    (apart : ∀ window, writer window →
      ¬ (key = keyEnter ∧ desk.fore = some window ∧ desk.world.Types window)) :
    Good (desk.pressed env order key).2.driver := by
  unfold Desk.pressed
  split
  · exact good
  · split
    · next window seated =>
      split
      · refine called_keeps keeps .keyPress window key good ?_
        rintro ⟨own, _, enter, typing⟩
        exact apart window own ⟨enter, seated, typing⟩
      · exact good
    · exact good

end Windows

section Turns

variable {δ : Type u} (env : Environment δ) (order : LinkOrder)

/-- Enter goes to the window in the foreground, as it calls no other one. -/
theorem pressed_enter (desk : Desk δ) (window : Window) (seated : desk.fore = some window) :
    (desk.pressed env order keyEnter).2 = called env .keyPress window keyEnter desk.world := by
  have positive : 0 < keyEnter.toInt := by decide
  simp only [Desk.pressed, asked_enter, seated, if_pos positive]

/-- What Enter does in each window: the editors take it up, PCI-LIST selects a record with it, and
the two others do nothing. -/
theorem called_enter {world : World δ} (running : world.ended = false) (window : Window) :
    called env .keyPress window keyEnter world =
      match window with
      | .pciDev => pciDev env (.key keyEnter) world
      | .memSpace => memEditor env (.key keyEnter) world
      | .ioSpace => ioEditor env (.key keyEnter) world
      | .cmosSpace => cmosEditor env (.key keyEnter) world
      | .pciList =>
        { world with table := { world.table with currIndex := selected keyEnter world.table } }
      | .pciScan | .baseboard => world := by
  have going : ¬ world.ended = true := by simp [running]
  cases window <;> simp [called, answer, if_neg going, idle, editorInput, devInput, pciScan, pciList]

/-- Enter commits a value that is typed in a window: the window is in the foreground of a
program that goes on. -/
def Enters (window : Window) (key : BitVec 32) (loop : Loop (World δ)) : Prop :=
  loop.Reads World.ended ∧ key = keyEnter ∧
    loop.system.manager.curForeWindowHandle = order.handle window ∧
      loop.system.world.Types window

instance (window : Window) (key : BitVec 32) (loop : Loop (World δ)) :
    Decidable (Enters order window key loop) := inferInstanceAs (Decidable (_ ∧ _ ∧ _ ∧ _))

/-- A loop that reads is at a desk. -/
def Seated (loop : Loop (World δ)) : Prop := loop.Reads World.ended → ∃ desk, Shows order loop desk

/-- A turn of the main loop that goes on to read a key leaves it at a desk, in step with the
manager. -/
theorem shippedTurn_seated (key : BitVec 32) (loop : Loop (World δ)) (seated : Seated order loop) :
    Seated order (shippedTurn env order key loop).2 := by
  by_cases reads : loop.Reads World.ended
  · by_cases quit : key = 0x71 ∨ key = 0x51
    · rw [shippedTurn, turn_quit (shippedModules env order) World.ended quit reads]
      exact fun stopped => absurd stopped (Loop.stopped_reads _ loop)
    · obtain ⟨desk, shows_⟩ := seated reads
      have running : desk.world.ended = false := shows_.world ▸ reads.2
      exact fun _ => ⟨_, (shippedTurn_desk env order shows_ running key quit).2⟩
  · rw [shippedTurn, turn_idle (shippedModules env order) World.ended key reads]
    exact seated

/-- So does the start, whatever the driver is. With the lemma before, this holds throughout every
run. -/
theorem starting_seated (driver : δ) : Seated order (starting env order driver) := by
  intro reads
  rcases starting_desk env order driver with stopped | shows_
  · exact absurd (stopped.symm.trans reads.1) (by decide)
  · exact ⟨_, shows_⟩

/-- What the callbacks of the start-up keep holds when the loop begins. -/
theorem starting_holds (Holds : World δ → Prop)
    (quiet : ∀ window handle foreground callback (world : World δ), callback ≠ .keyPress →
      Holds world → Holds (answer env window handle foreground callback 0 world).world)
    (driver : δ) (start : Holds (World.starting driver)) :
    Holds (starting env order driver).system.world := by
  have called : ∀ callback handle (system : System (World δ)), callback ≠ .keyPress →
      Holds system.world →
      Holds (invoke (shippedModules env order) callback handle none system).2.world := by
    intro callback handle system other held
    unfold invoke
    split
    · exact held
    · split
      · simp only [shippedModules]
        split
        · exact held
        · exact quiet _ _ _ _ _ other held
      · exact held
  let HoldsIn := fun system : System (World δ) => Holds system.world
  have registered : HoldsIn ⟨Manager.registered (order.windows.map Window.info),
      World.starting driver, []⟩ := start
  have inited : HoldsIn (handleInitEvent (shippedModules env order) _).2 :=
    initWindows_preserves (shippedModules env order) HoldsIn _ _ registered
      (fun handle current held => called .init handle current (by decide) held)
      (fun _ _ held => held)
  rcases outcome : handleInitEvent (shippedModules env order)
    ⟨Manager.registered (order.windows.map Window.info), World.starting driver, []⟩
      with ⟨ret, after⟩
  rw [outcome] at inited
  simp only [starting, startUp, outcome]
  split
  · exact inited
  · refine promoted_preserves (shippedModules env order) HoldsIn _ _ _ _ _ ?_
      (fun handle current held => called .postStartWin handle current (by decide) held)
      (fun _ _ held => held)
    exact promoted_preserves (shippedModules env order) HoldsIn _ _ _ _ _ inited
      (fun handle current held => called .startWin handle current (by decide) held)
      (fun _ _ held => held)

variable {env} {Good : δ → Prop} {writer : Window → Prop} (keeps : env.Keeps Good writer)

include keeps

/-- A turn keeps what is known of the driver, if the Enter that commits a value of a writer
leaves it so, and if it held before where there is no such Enter. -/
theorem shippedTurn_keeps (key : BitVec 32) (loop : Loop (World δ)) (seated : Seated order loop)
    (committed : ∀ window, writer window → Enters order window key loop →
      Good (called env .keyPress window keyEnter loop.system.world).driver)
    (quiet : (∀ window, writer window → ¬ Enters order window key loop) →
      Good loop.system.world.driver) :
    Good (shippedTurn env order key loop).2.system.world.driver := by
  by_cases reads : loop.Reads World.ended
  · by_cases quit : key = 0x71 ∨ key = 0x51
    · rw [shippedTurn, turn_quit (shippedModules env order) World.ended quit reads]
      refine quiet fun window _ => ?_
      rintro ⟨_, rfl, _⟩
      exact absurd quit (by decide)
    · obtain ⟨desk, shows_⟩ := seated reads
      have running : desk.world.ended = false := shows_.world ▸ reads.2
      have next := (shippedTurn_desk env order shows_ running key quit).2
      have fore : ∀ window, loop.system.manager.curForeWindowHandle = order.handle window ↔
          desk.fore = some window := by
        intro window
        rw [shows_.manager, eq_comm]
        exact handle_fore order desk.fore window
      rw [next.world]
      apply turn_keeps keeps
      by_cases enters : ∃ window, writer window ∧ key = keyEnter ∧ desk.fore = some window ∧
          desk.world.Types window
      · obtain ⟨window, own, rfl, front, typing⟩ := enters
        rw [pressed_enter env order desk window front, ← shows_.world]
        exact committed window own ⟨reads, rfl, (fore window).mpr front, shows_.world ▸ typing⟩
      · apply pressed_keeps keeps order desk key
        · rw [← shows_.world]
          refine quiet fun window own => ?_
          rintro ⟨_, enter, front, typing⟩
          exact enters ⟨window, own, enter, (fore window).mp front, shows_.world ▸ typing⟩
        · exact fun window own all => enters ⟨window, own, all⟩
  · rw [shippedTurn, turn_idle (shippedModules env order) World.ended key reads]
    exact quiet fun window _ enters => reads enters.1

/-- The start-up keeps it too, as it presses no key. -/
theorem starting_keeps (driver : δ) (good : Good driver) :
    Good (starting env order driver).system.world.driver :=
  starting_holds env order (fun world => Good world.driver)
    (fun window handle foreground callback _ other held =>
      answer_keeps keeps window handle foreground callback 0 held fun both => other both.2.1)
    driver good

end Turns

section Frames

variable {σ : Type u} {δ : Type v} (platform : Platform σ) (memPlatform : MemPlatform)
  (ports : PortDevices δ)

/-- The configuration registers, and what else the devices behind them remember. -/
def Attached.registers (attached : Attached σ δ) : σ := attached.kernel.devices.pci.device

/-- The ports that the driver's calls for ports wrote to, in order. What the driver writes to the
ports of configuration space to serve other calls, and what the program writes to the ports of
the CMOS by itself, is not in this record. -/
def Attached.portWrites (attached : Attached σ δ) : List PortEvent :=
  attached.kernel.devices.io.events.filter fun
    | .output _ _ => true
    | .input _ _ => false

/-- A call on configuration space leaves memory and ports alone, whatever its operation is. -/
theorem pciDevice_frame (operation : Operation) (request : LfddPcix) (attached : Attached σ δ) :
    let after := (pciDevice (.attached platform memPlatform ports) operation request attached).2.2
    after.memory = attached.memory ∧ after.portWrites = attached.portWrites := by
  have known : dispatch (command .pci operation) = some (.pci, operation) := by
    rw [dispatch_command, if_pos (by cases operation <;> decide)]
  simp only [pciDevice, callDevice, Attached.memory, Attached.portWrites,
    lfddIoctl_pci (.attached platform memPlatform ports) _ _ operation known, and_self]

/-- A call on memory leaves configuration space and ports alone, whatever its operation is. -/
theorem memDevice_frame (operation : Operation) (request : LfddSpace) (attached : Attached σ δ) :
    let after := (memDevice (.attached platform memPlatform ports) operation request attached).2.2
    after.kernel.devices.pci = attached.kernel.devices.pci ∧
      after.portWrites = attached.portWrites := by
  simp only [memDevice, callDevice, Attached.portWrites,
    lfddIoctl_mem (.attached platform memPlatform ports) _ _ operation (dispatch_mem operation),
    and_self]

/-- A call on ports leaves configuration space and memory alone, whatever its operation is. -/
theorem ioDevice_frame (operation : Operation) (request : LfddSpace) (attached : Attached σ δ) :
    let after := (ioDevice (.attached platform memPlatform ports) operation request attached).2.2
    after.kernel.devices.pci = attached.kernel.devices.pci ∧ after.memory = attached.memory := by
  by_cases known : (Space.io, operation) ∈ switchCases
  · have found : dispatch (command .io operation) = some (.io, operation) := by
      rw [dispatch_command, if_pos known]
    simp only [ioDevice, callDevice, Attached.memory,
      lfddIoctl_io (.attached platform memPlatform ports) _ _ operation found, and_self]
  · have missing : dispatch (command .io operation) = none := by
      rw [dispatch_command, if_neg known]
    simp only [ioDevice, callDevice, Attached.memory,
      lfddIoctl_unknown (.attached platform memPlatform ports) _ _ missing, and_self]

/-- Reading configuration space leaves the registers as they were, by either method and for every
width. -/
theorem perform_reads (request : Request) (read : request.operation.isRead = true)
    (machine : Machine σ) : (perform platform request machine).2.device = machine.device := by
  obtain ⟨_, _, _, mapped, _⟩ := mapBlock_frame platform request.pci request.block machine
  rw [perform_phases]
  split
  · rfl
  · by_cases viaPorts : request.pci.phyBase = 0
    · obtain ⟨device, recorded, accessed, kept, _⟩ := access_ports platform
        (mapBlock platform request.pci request.block machine) request viaPorts
      rw [accessed]
      exact (kept read).trans mapped
    · obtain ⟨device, recorded, accessed, kept, _⟩ := access_mmio platform
        (mapBlock platform request.pci request.block machine) request viaPorts
      rw [accessed]
      exact (kept read).trans mapped

/-- A read leaves all registers as they are, through the ports and through the window. -/
theorem pciDevice_reads (operation : Operation) (read : operation.isRead = true)
    (request : LfddPcix) (attached : Attached σ δ) :
    (pciDevice (.attached platform memPlatform ports) operation request
      attached).2.2.registers = attached.registers := by
  obtain ⟨_, _, device⟩ :=
    pciDevice_answers platform memPlatform ports operation request attached
  rw [Attached.registers, device]
  cases operation with
  | readByte => exact perform_reads platform ⟨.readByte, request⟩ rfl _
  | readWord => exact perform_reads platform ⟨.readWord, request⟩ rfl _
  | readDword => exact perform_reads platform ⟨.readDword, request⟩ rfl _
  | read256byte =>
    exact perform_reads platform
      ⟨.read256byte, { request with massBuf := Vector.replicate 256 0 }⟩ rfl _
  | writeByte | writeWord | writeDword => exact absurd read (by decide)

/-- What a call on ports that has a case does to the record. -/
theorem ioDevice_writes (operation : Operation) (known : (Space.io, operation) ∈ switchCases)
    (request : LfddSpace) (attached : Attached σ δ) :
    (ioDevice (.attached platform memPlatform ports) operation request attached).2.2.portWrites =
      attached.portWrites ++
        if operation.isRead then []
        else [.output (8 * operation.length) (request.addr.setWidth 16)] := by
  have found : dispatch (command .io operation) = some (.io, operation) := by
    rw [dispatch_command, if_pos known]
  have ran := serveCase_ran (System.attached platform memPlatform ports).io operation
    (ioBody (.attached platform memPlatform ports) operation)
    { attached.kernel.user with io := request } attached.kernel.devices.io rfl
  simp only [ioDevice, callDevice, Attached.portWrites,
    lfddIoctl_io (.attached platform memPlatform ports) _ _ operation found]
  rw [ran, ioBody, portPerform_events, List.filter_append]
  congr 1
  cases operation with
  | read256byte => simp [Operation.isRead]
  | readByte | readWord | readDword => rfl
  | writeByte | writeWord | writeDword => rfl

end Frames

section Runs

variable {σ : Type u} {δ : Type v} (platform : Platform σ) (memPlatform : MemPlatform)
  (ports : PortDevices δ) (host : Host (Kernel σ δ UserData))

/-- The devices are as before for the driver. -/
structure SameDevices (before after : Kernel σ δ UserData) : Prop where
  pci : after.devices.pci = before.devices.pci
  memory : after.devices.mem.memory = before.devices.mem.memory
  portEvents : after.devices.io.events = before.devices.io.events

/-- The ports of the CMOS, which the program uses by itself, and the permission to use them
have nothing to do with memory and configuration space. -/
structure Host.Apart : Prop where
  outb : ∀ value port kernel, SameDevices kernel (host.cmosPorts.outb value port kernel)
  inb : ∀ port kernel, SameDevices kernel (host.cmosPorts.inb port kernel).2
  ioperm : ∀ kernel, SameDevices kernel (host.ioperm kernel).2

variable {host} (apart : host.Apart)

include apart

/-- Memory is kept but by the writes of MEM-SPACE: no other editor and no scan has a call that
writes it. -/
theorem memory_keeps (memory : Memory) :
    (attachedTo platform memPlatform ports host).Keeps
      (fun attached => attached.memory = memory) (· = .memSpace) where
  scan operation _ request attached same :=
    ⟨(pciDevice_answers platform memPlatform ports operation request attached).1.trans
        (by cases operation <;> rfl),
      (pciDevice_frame platform memPlatform ports operation request attached).1.trans same⟩
  pci operation _ request attached same :=
    (pciDevice_frame platform memPlatform ports operation request attached).1.trans same
  mem operation read request attached same := by
    have isRead := read.resolve_right fun other => other rfl
    obtain ⟨_, device, _⟩ :=
      memDevice_answers platform memPlatform ports operation request attached
    change Attached.memory (memDevice _ operation request attached).2.2 = memory
    rw [Attached.memory, device, memBody]
    exact (memPerform_kept memPlatform operation isRead _ _).trans same
  io operation _ request attached same :=
    (ioDevice_frame platform memPlatform ports operation request attached).2.trans same
  select index attached same := (apart.outb index _ attached.kernel).memory.trans same
  store _ value attached same := (apart.outb value _ attached.kernel).memory.trans same
  load attached same := (apart.inb _ attached.kernel).memory.trans same
  ioperm attached same := (apart.ioperm attached.kernel).memory.trans same

/-- The registers are kept but by the writes of PCI-DEV: a scan only reads them. -/
theorem registers_keeps (registers : σ) :
    (attachedTo platform memPlatform ports host).Keeps
      (fun attached => attached.registers = registers) (· = .pciDev) where
  scan operation read request attached same :=
    ⟨(pciDevice_answers platform memPlatform ports operation request attached).1.trans
        (by cases operation <;> rfl),
      (pciDevice_reads platform memPlatform ports operation
        (by rcases read with rfl | rfl <;> rfl) request attached).trans same⟩
  pci operation read request attached same :=
    (pciDevice_reads platform memPlatform ports operation
      (read.resolve_right fun other => other rfl) request attached).trans same
  mem operation _ request attached same :=
    (congrArg Machine.device
      (memDevice_frame platform memPlatform ports operation request attached).1).trans same
  io operation _ request attached same :=
    (congrArg Machine.device
      (ioDevice_frame platform memPlatform ports operation request attached).1).trans same
  select index attached same :=
    (congrArg Machine.device (apart.outb index _ attached.kernel).pci).trans same
  store _ value attached same :=
    (congrArg Machine.device (apart.outb value _ attached.kernel).pci).trans same
  load attached same := (congrArg Machine.device (apart.inb _ attached.kernel).pci).trans same
  ioperm attached same := (congrArg Machine.device (apart.ioperm attached.kernel).pci).trans same

/-- The driver's calls for ports write at the command of IO-SPACE only. -/
theorem portWrites_keeps (portWrites : List PortEvent) :
    (attachedTo platform memPlatform ports host).Keeps
      (fun attached => attached.portWrites = portWrites) (· = .ioSpace) where
  scan operation _ request attached same :=
    ⟨(pciDevice_answers platform memPlatform ports operation request attached).1.trans
        (by cases operation <;> rfl),
      (pciDevice_frame platform memPlatform ports operation request attached).2.trans same⟩
  pci operation _ request attached same :=
    (pciDevice_frame platform memPlatform ports operation request attached).2.trans same
  mem operation _ request attached same :=
    (memDevice_frame platform memPlatform ports operation request attached).2.trans same
  io operation read request attached same := by
    have isRead := read.resolve_right fun other => other rfl
    change Attached.portWrites (ioDevice _ operation request attached).2.2 = portWrites
    by_cases known : (Space.io, operation) ∈ switchCases
    · rw [ioDevice_writes platform memPlatform ports operation known, isRead, if_pos rfl,
        List.append_nil]
      exact same
    · have missing : dispatch (command .io operation) = none := by
        rw [dispatch_command, if_neg known]
      simp only [ioDevice, callDevice, Attached.portWrites,
        lfddIoctl_unknown (.attached platform memPlatform ports) _ _ missing]
      exact same
  select index attached same := by
    rw [Attached.portWrites, ← same, Attached.portWrites]
    exact congrArg _ (apart.outb index _ attached.kernel).portEvents
  store _ value attached same := by
    rw [Attached.portWrites, ← same, Attached.portWrites]
    exact congrArg _ (apart.outb value _ attached.kernel).portEvents
  load attached same := by
    rw [Attached.portWrites, ← same, Attached.portWrites]
    exact congrArg _ (apart.inb _ attached.kernel).portEvents
  ioperm attached same := by
    rw [Attached.portWrites, ← same, Attached.portWrites]
    exact congrArg _ (apart.ioperm attached.kernel).portEvents

omit apart

/-- The ports of configuration space. What is read there, and what becomes of the machine when
something is written, is left open; a read changes nothing. -/
structure ConfigMechanism (κ : Type u) where
  read : Operation → LfddSpace → κ → LfddSpace
  write : Operation → LfddSpace → κ → κ

section Wired

variable (mechanism : ConfigMechanism (Kernel σ δ UserData))

/-- The calls on ports, where the ports of configuration space lead to the mechanism. -/
def wiredIo : Ioctl LfddSpace (Attached σ δ) := fun operation request attached =>
  let called := ioDevice (.attached platform memPlatform ports) operation request attached
  if called.1 = false ∨ SparesConfig operation request.addr then called
  else if operation.isRead then
    (true, mechanism.read operation called.2.1 called.2.2.kernel, called.2.2)
  else
    (true, called.2.1,
      { called.2.2 with kernel := mechanism.write operation request called.2.2.kernel })

variable (host) in
/-- The program on the driver, on a machine whose ports are wired so. -/
def wiredTo : Environment (Attached σ δ) :=
  { attachedTo platform memPlatform ports host with
    io := wiredIo platform memPlatform ports mechanism }

/-- A read of ports leaves the machine as it would without the mechanism. -/
theorem wiredIo_reads (operation : Operation) (read : operation.isRead = true)
    (request : LfddSpace) (attached : Attached σ δ) :
    (wiredIo platform memPlatform ports mechanism operation request attached).2.2 =
      (ioDevice (.attached platform memPlatform ports) operation request attached).2.2 := by
  simp only [wiredIo, read, if_true]
  split
  · rfl
  · rfl

/-- What is kept without the mechanism is kept with it, unless IO-SPACE writes. -/
theorem wired_keeps {Good : Attached σ δ → Prop} {writer : Window → Prop}
    (keeps : (attachedTo platform memPlatform ports host).Keeps Good writer) :
    (wiredTo platform memPlatform ports host mechanism).Keeps Good
      (fun window => writer window ∨ window = .ioSpace) where
  scan := keeps.scan
  pci operation read :=
    keeps.pci operation (read.imp_right fun other own => other (.inl own))
  mem operation read :=
    keeps.mem operation (read.imp_right fun other own => other (.inl own))
  io operation read request attached good := by
    have isRead := read.resolve_right fun other => other (.inr rfl)
    have kept := keeps.io operation (.inl isRead) request attached good
    change Good (wiredIo platform memPlatform ports mechanism operation request attached).2.2
    rw [wiredIo_reads platform memPlatform ports mechanism operation isRead]
    exact kept
  select := keeps.select
  store other := keeps.store fun own => other (.inl own)
  load := keeps.load
  ioperm := keeps.ioperm

end Wired

/-- The value that Enter commits in MEM-SPACE. -/
def World.memCommit {δ : Type u} (world : World δ) : Commit :=
  ⟨memSpace.address world.mem.page world.mem.cursor.offset, 2 ^ memSpace.shift world.mem.displayMode,
    world.mem.wbuf⟩

/-- The request with which Enter commits a value in PCI-DEV. -/
def World.pciCommit {δ : Type u} (world : World δ) (record : PciData) : LfddPcix :=
  { world.lfddPciData with
    bus := record.bus, dev := record.dev, func := record.func
    reg := BitVec.ofInt 16 (world.dev.buffPage + world.dev.cursor.offset)
    phyBase := record.phyBase, buf := world.dev.wbuf }

/-- The port that Enter writes to in IO-SPACE. A word is refused by the driver. -/
def World.ioCommit {δ : Type u} (world : World δ) : List PortEvent :=
  match world.io.displayMode with
  | .byteMode =>
    [.output 8 ((ioSpace.address world.io.page world.io.cursor.offset).setWidth 16)]
  | .wordMode => []

/-- No port of configuration space is among those that Enter would write to in IO-SPACE. -/
def World.SparesConfig {δ : Type u} (world : World δ) : Prop :=
  ∀ width port, PortEvent.output width port ∈ world.ioCommit → configPort port = false

section Commits

variable (host) {world : World (Attached σ δ)} (running : world.ended = false)

include running

/-- Enter in MEM-SPACE stores the value, at the cell of the cursor and in the width shown, if the
address is inside the range. -/
theorem memory_entered (typing : world.Types .memSpace) :
    (called (attachedTo platform memPlatform ports host) .keyPress .memSpace keyEnter
        world).driver.memory =
      Commit.applied (fun addr => !outside memPlatform addr) world.driver.memory
        world.memCommit := by
  have halted : world.halted = none := running_halted.mp running
  have stepped := (spaceStep_commits (memDevice_stores platform memPlatform ports) (.key keyEnter)
    ⟨world.mem, world.memData, world.driver, world.halted⟩ halted).2
  have commits : SpaceWindow.commit memSpace (.key keyEnter)
      (⟨world.mem, world.memData, world.driver, world.halted⟩ :
        SpaceWindow (BitVec 32) DisplayMode (Attached σ δ)) = some world.memCommit :=
    if_pos ⟨rfl, typing⟩
  have driver : ∀ (env : Environment (Attached σ δ)) input, (memEditor env input world).driver =
      (spaceStep memSpace env.mem input
        ⟨world.mem, world.memData, world.driver, world.halted⟩).2.driver := fun _ _ => rfl
  have calls : (attachedTo platform memPlatform ports host).mem =
      memDevice (.attached platform memPlatform ports) := rfl
  rw [called_enter _ running]
  simp only
  rw [driver, calls, stepped, commits, Option.elim_some]

/-- Enter in PCI-DEV writes the value to the selected function, if there is one. -/
theorem registers_entered (typing : world.Types .pciDev) :
    (called (attachedTo platform memPlatform ports host) .keyPress .pciDev keyEnter
        world).driver.registers =
      world.table.current.elim world.driver.registers fun record =>
        (Lfdk.lfddIoctl platform world.dev.displayMode.write (world.pciCommit record)
          world.driver.kernel.devices.pci).2.2.device := by
  have halted : world.halted = none := running_halted.mp running
  have going : ¬ world.devWindow.halted.isSome = true := by
    change ¬ world.halted.isSome = true
    rw [halted]
    decide
  have typing : world.devWindow.dev.input = true := typing
  have commits : typeKey world.devWindow.dev.displayMode.mask world.devWindow.dev.wbuf keyEnter =
      .enter := if_pos rfl
  rw [called_enter _ running]
  simp only [pciDev, devStep, if_neg going, pciDevKeyPress, typing, if_true, commits]
  rw [(DevWindow.edit_served _ _).2, writePCIValue]
  cases current : world.table.current with
  | none =>
    rw [callSelected_none _ world.devWindow current]
    rfl
  | some record =>
    rw [callSelected_some _ world.devWindow current]
    obtain ⟨_, _, device⟩ := pciDevice_answers platform memPlatform ports
      world.dev.displayMode.write (world.pciCommit record) world.driver
    exact congrArg Machine.device device

/-- Enter in IO-SPACE writes a byte to its port, and the write stands at the end of the record. -/
theorem portWrites_entered (typing : world.Types .ioSpace) :
    (called (attachedTo platform memPlatform ports host) .keyPress .ioSpace keyEnter
        world).driver.portWrites = world.driver.portWrites ++ world.ioCommit := by
  have halted : world.halted = none := running_halted.mp running
  have typing : world.io.input = .inputValue := typing
  have commits : typeKey (ioSpace.mask world.io.displayMode) world.io.wbuf keyEnter = .enter :=
    if_pos rfl
  rw [called_enter _ running]
  simp only [ioEditor, spaceStep, halted, Option.isSome_none, Bool.false_eq_true, if_false,
    spaceKeyPress, typing, commits]
  rw [(SpaceWindow.edit_served _ _).2, writeSpaceValue, World.ioCommit]
  cases mode : world.io.displayMode with
  | byteMode =>
    exact ioDevice_writes platform memPlatform ports .writeByte (by decide) _ world.driver
  | wordMode =>
    have missing : dispatch (command .io .writeWord) = none := by
      rw [dispatch_command, if_neg (by decide)]
    simp only [callSpace, attachedTo, ioSpace, ioDevice, callDevice, Attached.portWrites,
      lfddIoctl_unknown (.attached platform memPlatform ports) _ _ missing, List.append_nil]

/-- Enter at another port does not notice the mechanism. In the word mode the driver refuses the
call, and in the byte mode the port is none of the mechanism's. -/
theorem wired_entered (mechanism : ConfigMechanism (Kernel σ δ UserData)) (window : Window)
    (spares : window = .ioSpace → world.Types .ioSpace ∧ world.SparesConfig) :
    called (wiredTo platform memPlatform ports host mechanism) .keyPress window keyEnter world =
      called (attachedTo platform memPlatform ports host) .keyPress window keyEnter world := by
  rw [called_enter _ running, called_enter _ running]
  cases window with
  | pciDev | pciScan | pciList | baseboard | cmosSpace | memSpace => rfl
  | ioSpace =>
    obtain ⟨typing, apart⟩ := spares rfl
    have halted : world.halted = none := running_halted.mp running
    have typing : world.io.input = .inputValue := typing
    have commits : typeKey (ioSpace.mask world.io.displayMode) world.io.wbuf keyEnter = .enter :=
      if_pos rfl
    have same : ∀ buf, wiredIo platform memPlatform ports mechanism
        (ioSpace.write world.io.displayMode)
        { world.ioData with
          addr := ioSpace.address world.io.page world.io.cursor.offset, buf := buf }
        world.driver =
          ioDevice (.attached platform memPlatform ports) (ioSpace.write world.io.displayMode)
            { world.ioData with
              addr := ioSpace.address world.io.page world.io.cursor.offset, buf := buf }
            world.driver := by
      intro buf
      refine if_pos ?_
      cases mode : world.io.displayMode with
      | byteMode =>
        refine .inr fun offset first => ?_
        have only : offset = 0 := Nat.lt_one_iff.mp first
        rw [only]
        change configPort ((ioSpace.address world.io.page world.io.cursor.offset + 0#32).setWidth
          16) = false
        rw [BitVec.add_zero]
        refine apart 8 _ ?_
        rw [World.ioCommit, mode]
        exact List.mem_singleton_self _
      | wordMode =>
        have missing : dispatch (command .io .writeWord) = none := by
          rw [dispatch_command, if_neg (by decide)]
        left
        simp only [ioSpace, ioDevice, callDevice,
          lfddIoctl_unknown (.attached platform memPlatform ports) _ _ missing]
        decide
    have wired : (wiredTo platform memPlatform ports host mechanism).io =
        wiredIo platform memPlatform ports mechanism := rfl
    have attached : (attachedTo platform memPlatform ports host).io =
        ioDevice (.attached platform memPlatform ports) := rfl
    simp only [ioEditor, spaceStep, halted, Option.isSome_none, Bool.false_eq_true, if_false,
      spaceKeyPress, typing, commits, writeSpaceValue, callSpace, wired, attached, same]

end Commits

/-- What a turn writes to memory, to the registers and by the calls for ports: the values that
Enter commits in it, each where it belongs, and nothing else. -/
structure Edited (order : LinkOrder)
    (stage : Stage (BitVec 32) (Loop (World (Attached σ δ))) (List FocusMove)) : Prop where
  memory : stage.after.system.world.driver.memory =
    if Enters order .memSpace stage.input stage.before then
      Commit.applied (fun addr => !outside memPlatform addr)
        stage.before.system.world.driver.memory stage.before.system.world.memCommit
    else stage.before.system.world.driver.memory
  registers : stage.after.system.world.driver.registers =
    if Enters order .pciDev stage.input stage.before then
      stage.before.system.world.table.current.elim stage.before.system.world.driver.registers
        fun record => (Lfdk.lfddIoctl platform stage.before.system.world.dev.displayMode.write
          (stage.before.system.world.pciCommit record)
          stage.before.system.world.driver.kernel.devices.pci).2.2.device
    else stage.before.system.world.driver.registers
  portWrites : stage.after.system.world.driver.portWrites =
    stage.before.system.world.driver.portWrites ++
      if Enters order .ioSpace stage.input stage.before then stage.before.system.world.ioCommit
      else []

section Turns

variable (mechanism : ConfigMechanism (Kernel σ δ UserData)) (order : LinkOrder)
  (key : BitVec 32) (loop : Loop (World (Attached σ δ))) (seated : Seated order loop)
  (spares : Enters order .ioSpace key loop → loop.system.world.SparesConfig)

include seated spares

/-- A turn in which no port of configuration space is written keeps what the calls of the driver
keep, as long as the Enter of a writer does. -/
theorem wiredTurn_keeps {Good : Attached σ δ → Prop} {writer : Window → Prop}
    (keeps : (attachedTo platform memPlatform ports host).Keeps Good writer)
    (committed : ∀ window, writer window → Enters order window key loop →
      Good (called (attachedTo platform memPlatform ports host) .keyPress window keyEnter
        loop.system.world).driver)
    (quiet : (∀ window, writer window → ¬ Enters order window key loop) →
      Good loop.system.world.driver) :
    Good (shippedTurn (wiredTo platform memPlatform ports host mechanism) order key
      loop).2.system.world.driver := by
  refine shippedTurn_keeps order (wired_keeps platform memPlatform ports mechanism keeps) key loop
    seated
    (fun window own enters => ?_) (fun still => quiet fun window own => still window (.inl own))
  have running : loop.system.world.ended = false := enters.1.2
  rw [wired_entered platform memPlatform ports host running mechanism window
    fun same => ⟨by rw [← same]; exact enters.2.2.2, spares (same ▸ enters)⟩]
  by_cases writes : writer window
  · exact committed window writes enters
  · have io : window = .ioSpace := own.resolve_left writes
    refine called_keeps keeps .keyPress window keyEnter (quiet fun other its entered => ?_)
      fun both => writes both.1
    have same := order.handle_inj.mp (entered.2.2.1.symm.trans enters.2.2.1)
    exact writes (same ▸ its)

include apart

/-- A turn of the program writes what Enter commits, to the one device of the window, and nothing
else. -/
theorem shippedTurn_edited :
    let next := shippedTurn (wiredTo platform memPlatform ports host mechanism) order key loop
    Edited platform memPlatform order ⟨key, loop, next.1, next.2⟩ where
  memory := by
    refine wiredTurn_keeps platform memPlatform ports mechanism order key loop seated spares
      (memory_keeps platform memPlatform ports apart _) (fun window own enters => ?_) fun still => ?_
    · subst own
      rw [if_pos enters]
      exact memory_entered platform memPlatform ports host enters.1.2 enters.2.2.2
    · rw [if_neg (still .memSpace rfl)]
  registers := by
    refine wiredTurn_keeps platform memPlatform ports mechanism order key loop seated spares
      (registers_keeps platform memPlatform ports apart _) (fun window own enters => ?_)
      fun still => ?_
    · subst own
      rw [if_pos enters]
      exact registers_entered platform memPlatform ports host enters.1.2 enters.2.2.2
    · rw [if_neg (still .pciDev rfl)]
  portWrites := by
    refine wiredTurn_keeps platform memPlatform ports mechanism order key loop seated spares
      (portWrites_keeps platform memPlatform ports apart _) (fun window own enters => ?_)
      fun still => ?_
    · subst own
      rw [if_pos enters]
      exact portWrites_entered platform memPlatform ports host enters.1.2 enters.2.2.2
    · rw [if_neg (still .ioSpace rfl), List.append_nil]

end Turns

include apart

end Runs

end Lfdk.ShippedWindows
