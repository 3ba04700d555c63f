import Lfdk.ProgramWrites
import Lfdk.RegisterPages

/-!
# The screen shows the machine

At the end of each turn the window in the foreground is painted. PCI-DEV then shows the page
of the selected function, and MEM-SPACE a page of memory. What stands on the screen is what
the machine holds at that moment, byte by byte, and the value that is being typed in the cell at
the cursor; nothing of what was done before shows through.

For PCI-DEV this rests on three things that the program keeps from turn to turn: the blocks
that the driver has mapped are whole pages, a record's base is the one that was found or
none, and a function without a base is on its first page.
-/

namespace Lfdk.PciScan

open CountedLoops PciNames

universe u
variable {δ : Type u} (ioctl : Ioctl LfddPcix δ) (pcixMmioBase : BitVec 64)
  (database : NameDatabase) {Based : BitVec 64 → Prop}

/-- The bases of all records are such. -/
def AllBased (Based : BitVec 64 → Prop) (list : Vector PciData 200) : Prop :=
  ∀ index (inside : index < 200), Based list[index].phyBase

/-- A part of a scan keeps the bases, wherever it ends. -/
abbrev EndsBased (Based : BitVec 64 → Prop) : Except (Ending × Scan δ) (Scan δ) → Prop :=
  Ends (fun scan => AllBased Based scan.lfddPciList) fun ended => AllBased Based ended.2.lfddPciList

/-- A list stays one of such bases when a record with such a base is stored in it. -/
theorem set_based {list : Vector PciData 200} (based : AllBased Based list) (place : Nat)
    (room : place < 200) (record : PciData) (own : Based record.phyBase) :
    AllBased Based (list.set place record) := by
  intro index inside
  rw [Vector.getElem_set]
  split
  · exact own
  · exact based index inside

section Parts

variable {scan : Scan δ} (based : AllBased Based scan.lfddPciList)

include based

/-- A change that leaves the base of a record alone leaves all bases of the list so. -/
theorem store_based (change : PciData → PciData)
    (kept : ∀ record, (change record).phyBase = record.phyBase) :
    EndsBased Based (store change scan) := by
  rw [store]
  split
  · next room =>
    apply set_based based _ room
    rw [kept]
    exact based _ room
  · exact based

/-- Storing the names leaves the bases alone: it writes the two texts of the record, and nothing
else. -/
theorem storeTexts_based : EndsBased Based (storeTexts database scan) := by
  rw [storeTexts]
  split
  · simp only
    split
    · exact based
    · exact store_based based _ fun _ => rfl
  · exact based

/-- So does going on to the next record, which changes the number of records and none of them, -/
theorem nextRecord_based : EndsBased Based (nextRecord scan) := by
  simp only [nextRecord]
  split
  · exact based
  · exact based

/-- and a command of the scan, whether it succeeds or not, as its answer goes into the request only.
-/
theorem callDriver_based (operation : Operation) (request : LfddPcix) :
    EndsBased Based (callDriver ioctl operation { scan with lfddPciData := request }) := by
  simp only [callDriver]
  split
  · exact based
  · exact based

variable (zero : Based 0) (base : Based pcixMmioBase)

include zero base

omit based in
/-- The base that a scan finds is the one it is given, or none. -/
theorem findBase_based (target : LfddPcix) (driver : δ) :
    Based (findBase ioctl pcixMmioBase target driver).1 := by
  have compared : ∀ target driver,
      Based (compareDwords ioctl pcixMmioBase target driver).1 := by
    intro target driver
    simp only [compareDwords]
    split
    · exact zero
    · split
      · exact base
      · exact zero
  simp only [findBase]
  split
  · exact zero
  · split
    · exact zero
    · split
      · exact compared _ _
      · exact zero

omit based in
/-- A record that is given a base is given the one of the scan, or keeps the one it had. -/
theorem assignMMIOBase_based (target : LfddPcix) (record : PciData) (own : Based record.phyBase)
    (driver : δ) :
    Based (assignMMIOBase ioctl pcixMmioBase target record driver).2.1.phyBase := by
  rw [assignMMIOBase]
  split
  · exact own
  · exact findBase_based ioctl pcixMmioBase zero base target driver

/-- So the base that is stored is such a base: it is zero, or the one the scan was given. -/
theorem storeBase_based : EndsBased Based (storeBase ioctl pcixMmioBase scan) := by
  rw [storeBase]
  split
  · exact based
  · split
    · next room =>
      exact set_based based _ room _
        (assignMMIOBase_based ioctl pcixMmioBase zero base _ _ (based _ room) _)
    · exact based

/-- Probing a place records a function with such a base, or none. -/
theorem probe_based (place : Place) :
    EndsBased Based (probe ioctl pcixMmioBase database place scan) := by
  rw [probe]
  apply Ends.bind
  · exact callDriver_based ioctl based .readWord _
  intro read based
  split
  · exact based
  rw [recordDevice]
  apply Ends.bind
  · exact store_based based _ fun _ => rfl
  intro placed based
  apply Ends.bind
  · exact callDriver_based ioctl based .readWord _
  intro identified based
  apply Ends.bind
  · exact store_based based _ fun _ => rfl
  intro named based
  apply Ends.bind
  · exact storeTexts_based database based
  intro told based
  apply Ends.bind
  · exact storeBase_based ioctl pcixMmioBase based zero base
  intro stored based
  exact nextRecord_based based

end Parts

/-- A scan stores no other bases than zero and the one it was given: where all records had an
allowed base before, all have one afterwards. -/
theorem scan_based (zero : Based 0) (base : Based pcixMmioBase) (fuel : Nat) (maxpcibus : Int)
    (scan : Scan δ) (based : AllBased Based scan.lfddPciList) :
    AllBased Based
      (scanPCIDevice ioctl pcixMmioBase database fuel maxpcibus scan).2.lfddPciList := by
  have probed : ∀ place (scan : Scan δ), AllBased Based scan.lfddPciList →
      EndsBased Based (probe ioctl pcixMmioBase database place scan) :=
    fun place _ based => probe_based ioctl pcixMmioBase database based zero base place
  have ends := @scan_ends δ ioctl pcixMmioBase database
    (fun scan => AllBased Based scan.lfddPciList) (fun ended => AllBased Based ended.2.lfddPciList)
    (fun _ based => based) probed fuel maxpcibus scan based
  rcases ends with ⟨_, kept⟩ | kept
  · exact kept
  · exact kept

end Lfdk.PciScan

namespace Lfdk.ShippedWindows

open WindowManager HexEditors HexPages PciScan DeviceFile MemoryAccess PortAccess ByteMemory Runs

universe u v

section Turns

variable {δ : Type u} (env : Environment δ) (Good : World δ → Prop) (order : LinkOrder)

/-- What is known at the head of the loop: what all callbacks keep, and that the last thing that
was done is the painting of the window in the foreground. -/
structure PaintedLast (loop : Loop (World δ)) : Prop where
  guarded : GuardedSoFar order loop
  good : Good loop.system.world
  last : loop.Reads World.ended → ∀ window,
    loop.system.manager.curForeWindowHandle = order.handle window →
      ∃ world, Good world ∧ world.ended = false ∧
        (Found loop.system.world → Guarded (some window) world) ∧
        loop.system.world = called env .paint window 0 world

variable {env Good}
  (keeps : ∀ window handle foreground callback code world, Good world →
    Good (answer env window handle foreground callback code world).world)

include keeps

/-- A key keeps what all callbacks keep, as at most one callback runs for it. -/
theorem pressed_good (desk : Desk δ) (key : BitVec 32) (good : Good desk.world) :
    Good (desk.pressed env order key).2 := by
  unfold Desk.pressed
  split
  · exact good
  · split
    · split
      · exact keeps _ 0 true .keyPress key _ good
      · exact good
    · exact good

/-- At the end of a turn, the window in the foreground was painted. -/
theorem shippedTurn_paintedLast (key : BitVec 32) (loop : Loop (World δ))
    (held : PaintedLast env Good order loop) :
    PaintedLast env Good order (shippedTurn env order key loop).2 := by
  have guarded := shippedTurn_guarded env order key loop held.guarded
  by_cases reads : loop.Reads World.ended
  · by_cases quit : key = 0x71 ∨ key = 0x51
    · have quits : shippedTurn env order key loop = ([], { loop with control := .stopped }) :=
        turn_quit (shippedModules env order) World.ended quit reads
      rw [quits] at guarded ⊢
      exact ⟨guarded, held.good, fun stopped => absurd stopped (Loop.stopped_reads _ loop)⟩
    · obtain ⟨desk, shows_, phase, scanned, deskGuarded⟩ := held.guarded.desk reads
      have running : desk.world.ended = false := shows_.world ▸ reads.2
      obtain ⟨_, next⟩ := shippedTurn_desk env order shows_ running key quit
      obtain ⟨window, seated, _⟩ := phase.delivered env order key
      have scans : (deliver env (desk.pressed env order key).1 desk.fore
          (desk.pressed env order key).2).2.2.scans = desk.world.scans :=
        delivered_scans env order desk key
      have kept := fun found => delivered_guarded env order desk running scanned
        (deskGuarded found) key
      have good := delivered_holds env order Good
        (fun callback window world _ held => keeps window 0 true callback 0 world held) desk key
        (pressed_good order keeps desk key (shows_.world ▸ held.good))
      simp only [seated] at kept
      have after := Desk.turn_painted env order seated
      generalize (deliver env (desk.pressed env order key).1 desk.fore
        (desk.pressed env order key).2).2.2 = world at after kept scans good
      rw [after] at next
      refine ⟨guarded, ?_, fun going other front => ?_⟩
      · rw [next.world]
        exact keeps window 0 true .paint 0 world good
      · have same : other = window := by
          rw [next.manager, eq_comm] at front
          exact (Option.some.inj ((handle_fore order (some window) other).mp front)).symm
        rw [same]
        refine ⟨world, good, ?_, fun found => kept fun scan member => ?_, next.world⟩
        · by_contra ended
          have stopped : world.ended = true := by simpa using ended
          have unchanged : (painted env (some window) world).world = world :=
            called_ended env _ _ _ _ stopped
          rw [Loop.Reads, next.world, unchanged] at going
          exact ended going.2
        · rw [next.world] at found
          exact found scan ((painted_adds env window world).subset (scans ▸ member))
  · rw [shippedTurn, turn_idle (shippedModules env order) World.ended key reads]
    exact held

/-- When the loop begins, no window is in the foreground, so there is none that would have to be
painted. -/
theorem starting_paintedLast (driver : δ) (start : Good (World.starting driver)) :
    PaintedLast env Good order (starting env order driver) := by
  refine ⟨starting_guarded env order driver, ?_, fun reads window front => ?_⟩
  · exact starting_holds env order Good
      (fun window handle foreground callback world _ held =>
        keeps window handle foreground callback 0 world held) driver start
  · rcases starting_desk env order driver with stopped | shows_
    · exact absurd (stopped.symm.trans reads.1) (by decide)
    · rw [shows_.manager, eq_comm] at front
      cases (handle_fore order none window).mp front

/-- In every run, what stands on the screen when a key is awaited was painted last. -/
theorem run_paintedLast (driver : δ) (start : Good (World.starting driver))
    (keys : List (BitVec 32)) :
    PaintedLast env Good order (final (shippedTurn env order) keys (starting env order driver)) :=
  final_invariant (shippedTurn env order) (PaintedLast env Good order) keys _
    (starting_paintedLast order keeps driver start)
    (fun key _ current held => shippedTurn_paintedLast order keeps key current held)

end Turns

section Memory

variable {σ : Type u} {δ : Type v} (platform : Platform σ) (memPlatform : MemPlatform)
  (ports : PortDevices δ) (host : Host (Kernel σ δ UserData)) (order : LinkOrder)

/-- MEM-SPACE shows memory as it is, where the page can be read and no address is typed. -/
def ShowsMemory (world : World (Attached σ δ)) : Prop :=
  world.mem.input ≠ .inputAddr → Readable memPlatform world.mem.page.toNat →
    SpaceWindow.cells memSpace ⟨world.mem, world.memData, world.driver, world.halted⟩ =
      shownPage world.mem.displayMode.shift (world.mem.input = .inputValue) world.mem.cursor
        world.mem.wbuf world.driver.memory world.mem.page.toNat

/-- MEM-SPACE has its page and its cursor in order. -/
abbrev World.MemSettled {δ : Type u} (world : World δ) : Prop :=
  world.mem.Settled memSpace (fun phyaddr => (phyaddr.toNat : Int)) (2 ^ 32) 6

/-- The editor of memory starts settled, with nothing typed and the cursor at the first cell of page
zero. -/
theorem starting_memSettled {δ : Type u} (driver : δ) : (World.starting driver).MemSettled :=
  ⟨⟨Cursor.start_onPage (Nat.zero_le 4), PageIn.zero (by decide)⟩, fun asked => by cases asked⟩

/-- Its own callbacks keep it so, and no other callback touches it. -/
theorem answer_memSettled {δ : Type u} (env : Environment δ) (window : Window) (handle : Int)
    (foreground : Bool) (callback : Callback) (code : BitVec 32) (world : World δ)
    (settled : world.MemSettled) :
    (answer env window handle foreground callback code world).world.MemSettled := by
  unfold answer
  split
  · exact settled
  · cases window with
    | pciDev =>
      simp only [idle]
      cases devInput foreground code callback with
      | none => exact settled
      | some input => exact settled
    | pciScan =>
      cases callback with
      | paint =>
        simp only [pciScan]
        split
        · split
          · exact settled
          · exact settled
        · exact settled
      | init | startWin | postStartWin | lostFocus | getFocus | keyPress | destroyWin
      | moduleExit => exact settled
    | pciList =>
      cases callback with
      | keyPress =>
        simp only [pciList]
        split
        · exact settled
        · exact settled
      | init | startWin | postStartWin | lostFocus | getFocus | paint | destroyWin | moduleExit =>
        exact settled
    | baseboard => exact settled
    | ioSpace =>
      simp only [idle]
      cases editorInput foreground code callback with
      | none => exact settled
      | some input => exact settled
    | cmosSpace =>
      simp only
      split
      · exact settled
      · simp only [idle]
        cases editorInput foreground code callback with
        | none => exact settled
        | some input => exact settled
    | memSpace =>
      simp only [idle]
      cases editorInput foreground code callback with
      | none => exact settled
      | some input => exact spaceStep_settled env.mem memSpace_paged settled input

/-- After MEM-SPACE is painted, it shows memory: the paint reads the 256 bytes of its page and draws
what it was handed. -/
theorem memory_painted {world : World (Attached σ δ)} (settled : world.MemSettled)
    (running : world.ended = false) :
    ShowsMemory memPlatform
      (called (attachedTo platform memPlatform ports host) .paint .memSpace 0 world) := by
  let calls := memDevice (.attached platform memPlatform ports)
  let window : SpaceWindow (BitVec 32) DisplayMode (Attached σ δ) :=
    ⟨world.mem, world.memData, world.driver, world.halted⟩
  have outcome : called (attachedTo platform memPlatform ports host) .paint .memSpace 0 world =
      memEditor (attachedTo platform memPlatform ports host) .paint world := by
    simp [called, answer, running, editorInput, idle]
  have halted : window.halted = none := running_halted.mp running
  have stores := memDevice_stores platform memPlatform ports
  have stepped : (spaceStep memSpace calls .paint window).2 =
      (printSpaceScreen memSpace calls window).2 := by
    have alive : ¬ window.halted.isSome = true := by rw [halted]; decide
    simp only [spaceStep, if_neg alive]
  have same : (printSpaceScreen memSpace calls window).2.editor = world.mem := by
    simp only [printSpaceScreen]
    split
    · rfl
    · rfl
  have kept := (spaceStep_commits stores .paint window halted).2
  have first : memSpace.address world.mem.page 0 = world.mem.page := BitVec.add_zero _
  rw [outcome]
  have after : (memEditor (attachedTo platform memPlatform ports host) .paint world).mem =
      world.mem := by
    change (spaceStep memSpace calls .paint window).2.editor = _
    rw [stepped, same]
  intro browsing readable
  rw [after] at browsing readable
  have shown := painted_cells stores memSpace_paged window settled browsing
    (by rw [first]; exact readable)
  change (spaceStep memSpace calls .paint window).2.cells memSpace = _
  rw [stepped, after]
  refine shown.trans ?_
  change _ = shownPage _ _ _ _ (spaceStep memSpace calls .paint window).2.driver.memory _
  exact congrArg (shownPage _ _ _ _ · _) kept.symm

/-- In every run of the program: whenever MEM-SPACE is in the foreground and the program waits
for a key, the screen shows its page as memory is, and the value that is typed, if the page
can be read and no address is being typed. -/
theorem memory_on_screen (driver : Attached σ δ) (keys : List (BitVec 32)) :
    let env := attachedTo platform memPlatform ports host
    let loop := final (shippedTurn env order) keys (starting env order driver)
    loop.Reads World.ended →
      loop.system.manager.curForeWindowHandle = order.handle .memSpace →
        ShowsMemory memPlatform loop.system.world := by
  intro env loop reads front
  obtain ⟨world, settled, running, _, same⟩ :=
    (run_paintedLast order (answer_memSettled env) driver (starting_memSettled driver) keys).last
      reads .memSpace front
  change loop.system.world = _ at same
  rw [same]
  exact memory_painted platform memPlatform ports host settled running

end Memory

variable {δ : Type u}

/-- A computer with the registers of its functions behind the ports and in an ECAM window. The
command line and the table of the firmware name this window or none, and the driver can map
it. -/
structure Computer (δ : Type u) where
  kinds : RegisterKinds
  ecam : BitVec 64
  highMemory : BitVec 64
  memPlatform : MemPlatform
  ports : PortDevices δ
  host : Host (Kernel ConfigSpace δ UserData)
  window : EcamWindow ecam
  aboveRam : highMemory.toNat ≤ ecam.toNat
  below : ecam.toNat + 2 ^ 28 < 2 ^ 32
  apart : host.Apart
  given : host.phyPcixMmioBase = 0 ∨ host.phyPcixMmioBase = ecam
  found : host.mmioInMcfg = 0 ∨ host.mmioInMcfg = ecam

/-- Its configuration space. -/
def Computer.platform (computer : Computer δ) : Platform ConfigSpace :=
  registerPlatform computer.kinds computer.ecam.toNat computer.highMemory fun _ => true

/-- The program on the computer. -/
def Computer.env (computer : Computer δ) : Environment (Attached ConfigSpace δ) :=
  attachedTo computer.platform computer.memPlatform computer.ports computer.host

/-- A base that a record may have. -/
def Computer.Based (computer : Computer δ) (base : BitVec 64) : Prop :=
  base = 0 ∨ base = computer.ecam

/-- The driver has mapped a whole page, or nothing. -/
def Attached.Paged (attached : Attached ConfigSpace δ) : Prop :=
  attached.kernel.devices.pci.Paged

/-- What the program keeps from turn to turn, whatever is done. -/
structure Sound (computer : Computer δ) (world : World (Attached ConfigSpace δ)) : Prop where
  paged : world.driver.Paged
  based : computer.Based world.pcixMmioBase
  records : AllBased computer.Based world.table.lfddPciList
  dev : world.devWindow.Settled
  mem : world.MemSettled

section Callbacks

variable (computer : Computer δ)

/-- The records that are selected are among those of the list, so their bases are allowed ones. -/
theorem current_based {table : PciTable} (records : AllBased computer.Based table.lfddPciList)
    {record : PciData} (current : table.current = some record) :
    computer.Based record.phyBase := by
  rw [PciTable.current] at current
  split at current
  · obtain ⟨inside, rfl⟩ := Vector.getElem?_eq_some_iff.mp current
    exact records _ inside
  · cases current

/-- PCI-DEV reads whole pages: a request for the selected record at the page shown is made with base
zero, or with the base of the window and a page inside it. -/
theorem page_mapped {world : World (Attached ConfigSpace δ)} (sound : Sound computer world)
    {record : PciData} (current : world.table.current = some record) {request : LfddPcix}
    (isFor : IsFor record request) (reg : request.reg = BitVec.ofInt 16 world.dev.buffPage) :
    request.phyBase ≠ 0 → request.phyBase = computer.ecam ∧ 256 ∣ request.reg.toNat ∧
      request.reg.toNat + 256 ≤ 0x1000 := by
  intro based
  obtain ⟨_, aligned, first, last⟩ := sound.dev
  change (256 : Int) ∣ world.dev.buffPage at aligned
  change 0 ≤ world.dev.buffPage at first
  change world.dev.buffPage + 256 ≤ 0x1000 at last
  have own := current_based computer sound.records current
  rw [← isFor.phyBase] at own
  have number : request.reg.toNat = world.dev.buffPage.toNat := by
    rw [reg, BitVec.toNat_ofInt]
    omega
  exact ⟨own.resolve_left based, by omega, by omega⟩

/-- A call of PCI-DEV leaves a whole page mapped, so that a later request finds its block or maps
its own. -/
theorem pciDevice_paged (operation : Operation) (request : LfddPcix)
    (page : MapsPage operation request) {attached : Attached ConfigSpace δ}
    (paged : attached.Paged) : (computer.env.pci operation request attached).2.2.Paged := by
  obtain ⟨_, _, device⟩ := pciDevice_answers computer.platform computer.memPlatform
    computer.ports operation request attached
  change (pciDevice _ operation request attached).2.2.kernel.devices.pci.Paged
  rw [device]
  exact lfddIoctl_paged computer.platform (fun _ => rfl) operation request _ paged page

/-- PCI-DEV keeps it all: its calls are for whole pages or single cells, and the records of the list
are not its own to change. -/
theorem pciDev_sound (input : DevInput)
    (own : ∀ table lfddPciData, input ≠ .others table lfddPciData)
    {world : World (Attached ConfigSpace δ)} (sound : Sound computer world) :
    Sound computer (pciDev computer.env input world) := by
  have records : (pciDev computer.env input world).table.lfddPciList = world.table.lfddPciList := by
    change (devStep computer.env.pci input world.devWindow).2.table.lfddPciList = _
    rcases devStep_selects computer.env.pci world.devWindow input own with
      same | ⟨_, following⟩ | ⟨_, preceding⟩
    · rw [same]
      rfl
    · rw [following]
      rfl
    · rw [preceding]
      rfl
  refine ⟨?_, sound.based, ?_, devStep_settled computer.env.pci sound.dev input, sound.mem⟩
  · change Attached.Paged (devStep computer.env.pci input world.devWindow).2.driver
    apply devStep_leaves computer.env.pci world.devWindow sound.paged input
    intro call issued
    refine pciDevice_paged computer call.1 call.2 ?_ sound.paged
    obtain ⟨record, current, isFor, kind⟩ := devStep_calls computer.env.pci input call issued
    intro bulk based
    rcases kind with ⟨_, write, _⟩ | ⟨_, reg⟩
    · rw [bulk] at write
      cases mode : world.devWindow.dev.displayMode <;> rw [mode] at write <;> cases write
    · have page := page_mapped computer sound current isFor reg based
      exact NamesPage.mapsPage computer.ecam computer.window call.2
        ⟨fun ports => absurd ports based, fun _ => page⟩ _ bulk based
  · rw [records]
    exact sound.records

/-- So does a scan, whose calls read single values and whose records carry the base it was given. -/
theorem scanDevices_sound {world : World (Attached ConfigSpace δ)} (sound : Sound computer world) :
    Sound computer (scanDevices computer.env world) := by
  refine ⟨?_, sound.based, ?_, sound.dev, sound.mem⟩
  · apply scanDevices_keeps _ sound.paged
    intro operation word request attached paged
    have single : MapsPage operation request := by
      rintro rfl
      rcases word with wrong | wrong <;> cases wrong
    refine ⟨?_, pciDevice_paged computer operation request single paged⟩
    obtain ⟨success, _⟩ := pciDevice_answers computer.platform computer.memPlatform
      computer.ports operation request attached
    exact success.trans (by cases operation <;> rfl)
  · exact scan_based computer.env.pci world.pcixMmioBase computer.env.database (.inl rfl)
      sound.based 256 computer.env.maxpcibus _ sound.records

/-- And so does every callback of every window, by the cases above and as the others leave
configuration space alone. -/
theorem answer_sound (window : Window) (handle : Int) (foreground : Bool) (callback : Callback)
    (code : BitVec 32) {world : World (Attached ConfigSpace δ)} (sound : Sound computer world) :
    Sound computer (answer computer.env window handle foreground callback code world).world := by
  have beside : ∀ driver : Attached ConfigSpace δ,
      driver.kernel.devices.pci = world.driver.kernel.devices.pci → driver.Paged := by
    intro driver same
    rw [Attached.Paged, same]
    exact sound.paged
  unfold answer
  split
  · exact sound
  · cases window with
    | pciDev =>
      simp only [idle]
      cases asked : devInput foreground code callback with
      | none => exact sound
      | some input =>
        refine pciDev_sound computer input ?_ sound
        rintro table lfddPciData rfl
        cases callback <;> cases foreground <;> cases asked
    | pciScan =>
      cases callback with
      | init =>
        refine ⟨sound.paged, ?_, sound.records, sound.dev, sound.mem⟩
        change computer.Based (if computer.host.phyPcixMmioBase ≠ 0 then
          computer.host.phyPcixMmioBase else if 0x100000000 ≤ computer.host.mmioInMcfg then 0
            else computer.host.mmioInMcfg)
        split
        · exact computer.given
        · split
          · exact .inl rfl
          · exact computer.found
      | paint =>
        simp only [pciScan]
        split
        · split
          · exact scanDevices_sound computer sound
          · exact scanDevices_sound computer sound
        · exact sound
      | startWin | postStartWin | lostFocus | getFocus | keyPress | destroyWin | moduleExit =>
        exact sound
    | pciList =>
      cases callback with
      | keyPress =>
        have selected : ∀ index, Sound computer
            { world with table := { world.table with currIndex := index } } := fun _ =>
          ⟨sound.paged, sound.based, sound.records, sound.dev, sound.mem⟩
        simp only [pciList]
        split
        · exact selected _
        · exact selected _
      | init | startWin | postStartWin | lostFocus | getFocus | paint | destroyWin | moduleExit =>
        exact sound
    | baseboard => exact sound
    | ioSpace =>
      simp only [idle]
      cases editorInput foreground code callback with
      | none => exact sound
      | some input =>
        refine ⟨?_, sound.based, sound.records, sound.dev, sound.mem⟩
        apply spaceStep_leaves ioSpace computer.env.io
          ⟨world.io, world.ioData, world.driver, world.halted⟩ sound.paged input
        intro call _
        exact beside _ (ioDevice_frame computer.platform computer.memPlatform computer.ports
          call.1 call.2 world.driver).1
    | cmosSpace =>
      simp only
      split
      · exact ⟨beside _ (computer.apart.ioperm world.driver.kernel).pci, sound.based,
          sound.records, sound.dev, sound.mem⟩
      · simp only [idle]
        cases editorInput foreground code callback with
        | none => exact sound
        | some input =>
          have outb : ∀ value port (attached : Attached ConfigSpace δ), attached.Paged →
              (computer.env.cmosPorts.outb value port attached).Paged := by
            intro value port attached paged
            have same := (computer.apart.outb value port attached.kernel).pci
            change (computer.host.cmosPorts.outb value port attached.kernel).devices.pci.Paged
            rw [same]
            exact paged
          have inb : ∀ port (attached : Attached ConfigSpace δ), attached.Paged →
              (computer.env.cmosPorts.inb port attached).2.Paged := by
            intro port attached paged
            have same := (computer.apart.inb port attached.kernel).pci
            change (computer.host.cmosPorts.inb port attached.kernel).2.devices.pci.Paged
            rw [same]
            exact paged
          exact ⟨cmosStep_served computer.env.cmosPorts outb inb
            ⟨world.cmos, world.cmosBuf, world.driver⟩ sound.paged input, sound.based,
            sound.records, sound.dev, sound.mem⟩
    | memSpace =>
      simp only [idle]
      cases editorInput foreground code callback with
      | none => exact sound
      | some input =>
        refine ⟨?_, sound.based, sound.records, sound.dev, ?_⟩
        · apply spaceStep_leaves memSpace computer.env.mem
            ⟨world.mem, world.memData, world.driver, world.halted⟩ sound.paged input
          intro call _
          exact beside _ (memDevice_frame computer.platform computer.memPlatform computer.ports
            call.1 call.2 world.driver).1
        · exact spaceStep_settled computer.env.mem memSpace_paged sound.mem input

/-- Every callback keeps the computer sound: the bases of the list are those of the window or none,
and the block that is mapped is a page of it. -/
theorem called_sound (callback : Callback) (window : Window) (code : BitVec 32)
    {world : World (Attached ConfigSpace δ)} (sound : Sound computer world) :
    Sound computer (called computer.env callback window code world) :=
  answer_sound computer window 0 true callback code sound

end Callbacks

section Painting

variable (computer : Computer δ)

/-- The number of a record's function. -/
def function (record : PciData) : Nat :=
  record.bus.toNat * 2 ^ 8 + record.dev.toNat % 2 ^ 5 * 2 ^ 3 + record.func.toNat % 2 ^ 3

/-- PCI-DEV shows the registers of the selected function as they are. -/
def ShowsRegisters (world : World (Attached ConfigSpace δ)) : Prop :=
  ∃ record, world.table.current = some record ∧
    world.devWindow.cells =
      shownPage world.dev.displayMode.shift world.dev.input world.dev.cursor world.dev.wbuf
        (fun register => world.driver.registers.byte (function record) register)
        world.dev.buffPage.toNat

/-- The request with which PCI-DEV reads the page of a record. -/
def pageRequest (world : World (Attached ConfigSpace δ)) (record : PciData) : LfddPcix :=
  { world.lfddPciData with
    bus := record.bus, dev := record.dev, func := record.func
    reg := BitVec.ofInt 16 world.dev.buffPage
    phyBase := record.phyBase, buf := world.lfddPciData.buf }

/-- Painting PCI-DEV reads the page of the selected record, which succeeds, and puts the answer into
the buffer that is drawn. -/
theorem pciDev_painted {world : World (Attached ConfigSpace δ)} (running : world.ended = false)
    {record : PciData} (current : world.table.current = some record) :
    (called computer.env .paint .pciDev 0 world).devWindow =
      { world.devWindow with
        lfddPciData :=
          (computer.env.pci .read256byte (pageRequest world record) world.driver).2.1
        driver := (computer.env.pci .read256byte (pageRequest world record) world.driver).2.2
        halted := none } := by
  have outcome : called computer.env .paint .pciDev 0 world =
      pciDev computer.env .paint world := by
    simp [called, answer, running, devInput, idle]
  have success :
      (computer.env.pci .read256byte (pageRequest world record) world.driver).1 = true :=
    (pciDevice_answers computer.platform computer.memPlatform computer.ports .read256byte
      (pageRequest world record) world.driver).1
  have halted : ¬ world.devWindow.halted.isSome = true := by
    change ¬ world.halted.isSome = true
    rw [running_halted.mp running]
    decide
  have window : (pciDev computer.env .paint world).devWindow =
      (devStep computer.env.pci .paint world.devWindow).2 := rfl
  rw [outcome, window]
  simp only [devStep, if_neg halted, printPCIScreen]
  rw [callSelected_some computer.env.pci world.devWindow current]
  exact congrArg (fun succeeded => ({ world.devWindow with
    lfddPciData := (computer.env.pci .read256byte (pageRequest world record) world.driver).2.1
    driver := (computer.env.pci .read256byte (pageRequest world record) world.driver).2.2
    halted := if succeeded = true then none else some .exited } :
      DevWindow (Attached ConfigSpace δ))) success

/-- After PCI-DEV is painted, it shows the registers of the record at its page, each in its cell. -/
theorem registers_painted {world : World (Attached ConfigSpace δ)} (sound : Sound computer world)
    (guarded : Guarded (some .pciDev) world) (running : world.ended = false) :
    ShowsRegisters (called computer.env .paint .pciDev 0 world) := by
  obtain ⟨record, current⟩ := guarded.window.record
  change world.table.current = some record at current
  have isFor : IsFor record (pageRequest world record) := ⟨rfl, rfl, rfl, rfl⟩
  obtain ⟨_, answered, _⟩ := pciDevice_answers computer.platform computer.memPlatform
    computer.ports .read256byte (pageRequest world record) world.driver
  have kept := pciDevice_reads computer.platform computer.memPlatform computer.ports
    .read256byte rfl (pageRequest world record) world.driver
  have page : (pageRequest world record).reg.toNat = world.dev.buffPage.toNat := by
    obtain ⟨_, _, first, last⟩ := sound.dev
    change 0 ≤ world.dev.buffPage at first
    change world.dev.buffPage + 256 ≤ 0x1000 at last
    change (BitVec.ofInt 16 world.dev.buffPage).toNat = _
    rw [BitVec.toNat_ofInt]
    omega
  have names : NamesPage computer.ecam (pageRequest world record) := by
    refine ⟨fun ports => ?_, page_mapped computer sound current isFor rfl⟩
    have firstPage : world.dev.buffPage = 0 := by
      by_contra other
      obtain ⟨based, same, nonzero⟩ := guarded.window.extended other
      change world.table.current = some based at same
      rw [current] at same
      exact nonzero (Option.some.inj same ▸ ports)
    change BitVec.ofInt 16 world.dev.buffPage = 0
    rw [firstPage]
    rfl
  have painted := pciDev_painted computer running current
  refine ⟨record, ?_, ?_⟩
  · change (called computer.env .paint .pciDev 0 world).devWindow.table.current = _
    rw [painted]
    exact current
  · change (called computer.env .paint .pciDev 0 world).devWindow.cells =
      shownPage (called computer.env .paint .pciDev 0 world).devWindow.dev.displayMode.shift
        (called computer.env .paint .pciDev 0 world).devWindow.dev.input
        (called computer.env .paint .pciDev 0 world).devWindow.dev.cursor
        (called computer.env .paint .pciDev 0 world).devWindow.dev.wbuf
        (fun register => (called computer.env .paint .pciDev 0
          world).devWindow.driver.registers.byte (function record) register)
        (called computer.env .paint .pciDev 0 world).devWindow.dev.buffPage.toNat
    rw [painted]
    apply printCells_shown world.dev.displayMode.shift_le (fun _ => rfl)
    intro index small
    have delivered := page_read computer.kinds computer.ecam computer.highMemory (fun _ => true)
      computer.window (pageRequest world record) names world.driver.kernel.devices.pci sound.paged
      (fun _ => rfl) computer.aboveRam computer.below index small
    rw [page] at delivered
    change contents (pciDevice _ .read256byte (pageRequest world record)
        world.driver).2.1.massBuf index =
      (pciDevice _ .read256byte (pageRequest world record) world.driver).2.2.registers.byte _ _
    rw [answered, kept]
    exact delivered

end Painting

section Runs

variable (computer : Computer δ) (order : LinkOrder)

variable (driver : Attached ConfigSpace δ) (keys : List (BitVec 32))

/-- As the program starts, everything is in order, if the driver has mapped a whole page or
nothing. -/
theorem starting_sound {driver : Attached ConfigSpace δ} (paged : driver.Paged) :
    Sound computer (World.starting driver) := by
  refine ⟨paged, .inl rfl, fun index inside => ?_, ?_, starting_memSettled driver⟩
  · left
    simp [World.starting, PciData.zero]
  · exact ⟨Cursor.start_onPage (Nat.zero_le 4), PageIn.zero (by decide)⟩

/-- In every run, what stands on the screen was painted last, with everything in order. -/
theorem run_sound (paged : driver.Paged) :
    PaintedLast computer.env (Sound computer) order
      (final (shippedTurn computer.env order) keys (starting computer.env order driver)) :=
  run_paintedLast order
    (fun window handle foreground callback code _ held =>
      answer_sound computer window handle foreground callback code held)
    driver (starting_sound computer paged) keys

/-- In every run of the program in which every scan finds a function: whenever PCI-DEV is in
the foreground and the program waits for a key, the screen shows the page of the selected
function as its registers are, and the value that is typed. -/
theorem registers_on_screen (paged : driver.Paged) :
    let loop := final (shippedTurn computer.env order) keys (starting computer.env order driver)
    loop.Reads World.ended → Found loop.system.world →
      loop.system.manager.curForeWindowHandle = order.handle .pciDev →
        ShowsRegisters loop.system.world := by
  intro loop reads found front
  obtain ⟨world, sound, running, guarded, same⟩ :=
    (run_sound computer order driver keys paged).last reads .pciDev front
  change loop.system.world = _ at same
  rw [same]
  exact registers_painted computer sound (guarded found) running

/-- A computer with one function and no name for its window. -/
def singleComputer : Computer Unit where
  kinds := fun _ _ _ => .readWrite
  ecam := 0xe0000000
  highMemory := 0x80000000
  memPlatform := ⟨0x80000000, fun _ => false⟩
  ports := .absent
  host :=
    { cmosPorts := ⟨fun _ _ kernel => kernel, fun _ kernel => (0, kernel)⟩
      ioperm := fun kernel => (true, kernel)
      database := ⟨none, 0⟩
      maxpcibus := 1
      phyPcixMmioBase := 0
      mmioInMcfg := 0 }
  window := ⟨by decide, by decide, by decide⟩
  aboveRam := by decide
  below := by decide
  apart := ⟨fun _ _ _ => ⟨rfl, rfl, rfl⟩, fun _ _ => ⟨rfl, rfl, rfl⟩, fun _ => ⟨rfl, rfl, rfl⟩⟩
  given := .inl rfl
  found := .inl rfl

/-- The driver on it, just loaded. -/
def singleKernel : Kernel ConfigSpace Unit UserData where
  user := ⟨.atRegister 0 0 0, ⟨0, 0, Vector.replicate 256 0⟩, ⟨0, 0, Vector.replicate 256 0⟩⟩
  devices :=
    ⟨Machine.loaded (fun function dword => if function = 0 then BitVec.ofNat 32 dword else ~~~0) 0,
      ⟨fun _ => 0, []⟩, ⟨(), []⟩⟩

/-- The buses are scanned, and Enter hands over to PCI-DEV, which shows the registers of the only
function. -/
theorem single_registers_shown :
    ShowsRegisters (final (shippedTurn singleComputer.env makefileOrder) [-1, -1, keyEnter]
      (starting singleComputer.env makefileOrder ⟨singleKernel, []⟩)).system.world := by
  have ran :
      let loop := final (shippedTurn singleComputer.env makefileOrder) [-1, -1, keyEnter]
        (starting singleComputer.env makefileOrder ⟨singleKernel, []⟩)
      loop.Reads World.ended ∧ loop.system.world.scans = [(.completed, 1)] ∧
        loop.system.manager.curForeWindowHandle = makefileOrder.handle .pciDev := by
    decide +kernel
  obtain ⟨reads, scans, front⟩ := ran
  refine registers_on_screen singleComputer makefileOrder ⟨singleKernel, []⟩ [-1, -1, keyEnter]
    ⟨Machine.loaded_consistent _ _, fun _ mapped => by cases mapped⟩ reads ?_ front
  intro scan member _
  rw [scans] at member
  rw [List.mem_singleton.mp member]
  decide

/-- After the scan, MEM-SPACE is called to the foreground by its key, and shows memory there. -/
theorem single_memory_shown :
    ShowsMemory singleComputer.memPlatform
      (final (shippedTurn singleComputer.env makefileOrder) [-1, -1, 0x6d, keyEnter]
        (starting singleComputer.env makefileOrder ⟨singleKernel, []⟩)).system.world := by
  have ran :
      let loop := final (shippedTurn singleComputer.env makefileOrder) [-1, -1, 0x6d, keyEnter]
        (starting singleComputer.env makefileOrder ⟨singleKernel, []⟩)
      loop.Reads World.ended ∧
        loop.system.manager.curForeWindowHandle = makefileOrder.handle .memSpace := by
    decide +kernel
  have shown := memory_on_screen singleComputer.platform singleComputer.memPlatform
    singleComputer.ports singleComputer.host makefileOrder ⟨singleKernel, []⟩
    [-1, -1, 0x6d, keyEnter]
  rw [Computer.env] at ran ⊢
  exact shown ran.1 ran.2

end Runs

end Lfdk.ShippedWindows
