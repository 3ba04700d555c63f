import Lfdk.HexEditors
import Lfdk.MainLoop
import Lfdk.ScanResults

/-!
# The windows of the program

Seven modules register a window each: PCI-DEV, PCI-SCAN, PCI-LIST, the baseboard, and the
editors of ports, of the CMOS and of memory. Constructors register them, so the order in the
pool is the order in which these happen to run.

Only four windows have a short key. PCI-SCAN asks for the focus when it is started; painted
in the foreground, it scans the buses and hands over to PCI-LIST, which hands over to PCI-DEV
when Enter is pressed. The baseboard gets and gives nothing.

All windows are painted in every turn of the loop, and all but the baseboard first ask the
manager whether they are in the foreground. Three of them, the list and the two sides of
configuration space, share the records of the functions, the selected one, and the structure
that requests are made in.
-/

namespace Lfdk.ShippedWindows

open WindowManager HexEditors PciScan PciNames

universe u
variable {δ : Type u}

/-- The modules, each named by its window. -/
inductive Window where
  | pciDev
  | pciScan
  | pciList
  | baseboard
  | ioSpace
  | cmosSpace
  | memSpace
deriving DecidableEq, Repr

namespace Window

def all : List Window := [pciDev, pciScan, pciList, baseboard, ioSpace, cmosSpace, memSpace]

def name : Window → String
  | pciDev => "PCI-DEV"
  | pciScan => "PCI-SCAN"
  | pciList => "PCI-LIST"
  | baseboard => "baseboard"
  | ioSpace => "IO-SPACE"
  | cmosSpace => "CMOS-SPACE"
  | memSpace => "MEM-SPACE"

/-- `short_key`, which is zero where it is not declared. -/
def shortKey : Window → BitVec 32
  | pciDev | pciScan | baseboard => 0
  | pciList => 0x70
  | ioSpace => 0x69
  | cmosSpace => 0x6f
  | memSpace => 0x6d

/-- The callbacks that are not NULL. -/
def defines : Window → Callback → Bool
  | pciDev, .getFocus | pciDev, .lostFocus | pciDev, .keyPress | pciDev, .paint => true
  | pciScan, .init | pciScan, .startWin | pciScan, .paint | pciScan, .destroyWin => true
  | pciList, .getFocus | pciList, .lostFocus | pciList, .keyPress | pciList, .paint => true
  | baseboard, .init | baseboard, .startWin | baseboard, .paint => true
  | ioSpace, .getFocus | ioSpace, .lostFocus | ioSpace, .keyPress | ioSpace, .paint => true
  | cmosSpace, .init | cmosSpace, .getFocus | cmosSpace, .lostFocus | cmosSpace, .keyPress
  | cmosSpace, .paint => true
  | memSpace, .getFocus | memSpace, .lostFocus | memSpace, .keyPress | memSpace, .paint => true
  | _, _ => false

def info (window : Window) : WindowInfo := ⟨window.name, window.shortKey, window.defines⟩

end Window

/-- The order in which the windows are registered. Each is registered once. -/
structure LinkOrder where
  windows : List Window
  complete : windows.Perm Window.all

/-- The handle that a module stores when its window is registered. -/
def LinkOrder.handle (order : LinkOrder) (window : Window) : Int := order.windows.idxOf window

/-- The window at a handle. -/
def LinkOrder.window (order : LinkOrder) (handle : Int) : Option Window :=
  if 0 ≤ handle then order.windows[handle.toNat]? else none

/-- What the program runs on: the driver, the ports of the CMOS, the name database, the
options of the command line, and the base that `find_mmio_in_MCFG` finds. -/
structure Environment (δ : Type u) where
  pci : Ioctl LfddPcix δ
  mem : Ioctl LfddSpace δ
  io : Ioctl LfddSpace δ
  cmosPorts : CmosPorts δ
  /-- whether the call succeeds -/
  ioperm : δ → Bool × δ
  database : NameDatabase
  maxpcibus : Int
  phyPcixMmioBase : BitVec 64
  mmioInMcfg : BitVec 64

/-- A request of PCI-DEV, with the record that was selected when it was made. -/
structure Issued where
  record : Option PciData
  operation : Operation
  request : LfddPcix
deriving DecidableEq, Repr

/-- The variables of all modules. Beside them are kept how each call of `ScanPCIDevice` ended
and with how many records, and the requests that PCI-DEV made. -/
structure World (δ : Type u) where
  dev : PciDev
  table : PciTable
  lfddPciData : LfddPcix
  pcixMmioBase : BitVec 64
  mem : SpaceEditor (BitVec 32) DisplayMode
  memData : LfddSpace
  io : SpaceEditor Int IoDisplayMode
  ioData : LfddSpace
  cmos : CmosEditor
  cmosBuf : Vector (BitVec 8) 256
  driver : δ
  /-- the end of the program in a callback -/
  halted : Option Ending
  scans : List (Ending × Nat)
  issued : List Issued

/-- A callback has ended the program. -/
def World.ended (world : World δ) : Bool := world.halted.isSome

/-- As the program starts. -/
def World.starting (driver : δ) : World δ where
  dev := .starting
  table := ⟨Vector.replicate 200 PciData.zero, 0, 0⟩
  lfddPciData := .atRegister 0 0 0
  pcixMmioBase := 0
  mem := memStarting
  memData := ⟨0, 0, Vector.replicate 256 0⟩
  io := ioStarting
  ioData := ⟨0, 0, Vector.replicate 256 0⟩
  cmos := .starting
  cmosBuf := Vector.replicate 256 0
  driver := driver
  halted := none
  scans := []
  issued := []

section Callbacks

variable (env : Environment δ)

/-- What PCI-DEV sees of the variables. -/
def World.devWindow (world : World δ) : DevWindow δ :=
  ⟨world.dev, world.table, world.lfddPciData, world.driver, world.halted⟩

/-- PCI-DEV with its own requests. -/
def pciDev (input : DevInput) (world : World δ) : World δ :=
  let (calls, window) := devStep env.pci input world.devWindow
  { world with
    dev := window.dev
    table := window.table
    lfddPciData := window.lfddPciData
    driver := window.driver
    halted := window.halted
    issued := world.issued ++ calls.map fun call => ⟨world.table.current, call.1, call.2⟩ }

/-- MEM-SPACE -/
def memEditor (input : SpaceInput) (world : World δ) : World δ :=
  let (_, window) := spaceStep memSpace env.mem input
    ⟨world.mem, world.memData, world.driver, world.halted⟩
  { world with
    mem := window.editor
    memData := window.lfddData
    driver := window.driver
    halted := window.halted }

/-- IO-SPACE -/
def ioEditor (input : SpaceInput) (world : World δ) : World δ :=
  let (_, window) := spaceStep ioSpace env.io input
    ⟨world.io, world.ioData, world.driver, world.halted⟩
  { world with
    io := window.editor
    ioData := window.lfddData
    driver := window.driver
    halted := window.halted }

/-- CMOS-SPACE -/
def cmosEditor (input : SpaceInput) (world : World δ) : World δ :=
  let (_, window) := cmosStep env.cmosPorts input ⟨world.cmos, world.cmosBuf, world.driver⟩
  { world with
    cmos := window.editor
    cmosBuf := window.massBuf
    driver := window.driver }

/-- `pci_scan_init`. A base that is found above 4 GB is not used. -/
def pciScanInit (world : World δ) : World δ :=
  { world with
    pcixMmioBase :=
      if env.phyPcixMmioBase ≠ 0 then env.phyPcixMmioBase
      else if 0x100000000 ≤ env.mmioInMcfg then 0
      else env.mmioInMcfg }

/-- The call of `ScanPCIDevice` on the records. A scan that does not return ends the program. -/
def scanDevices (world : World δ) : World δ :=
  let (ending, scan) := scanPCIDevice env.pci world.pcixMmioBase env.database 256 env.maxpcibus
    ⟨world.driver, world.lfddPciData, world.table.lfddPciList, world.table.pciListLen⟩
  { world with
    table := { world.table with
      lfddPciList := scan.lfddPciList
      pciListLen := scan.pciListLen }
    lfddPciData := scan.lfddPciData
    driver := scan.driver
    halted := if ending = .completed ∨ ending = .full then none else some ending
    scans := world.scans ++ [(ending, scan.pciListLen)] }

/-- `RECORDS_PER_PAGE` -/
def recordsPerPage : Int := 20

/-- What the keys of PCI-LIST select. -/
def selected (key : BitVec 32) (table : PciTable) : Int :=
  let last := (table.pciListLen : Int)
  let backward := fun count => if table.currIndex - count < 0 then 0 else table.currIndex - count
  let forward := fun count =>
    if last ≤ table.currIndex + count then last - 1 else table.currIndex + count
  if key = keyUp then backward 1
  else if key = keyDown then forward 1
  else if key = keyNpage then forward recordsPerPage
  else if key = keyPpage then backward recordsPerPage
  else table.currIndex

/-- A callback that asks for nothing. -/
def idle (world : World δ) : Outcome (World δ) := ⟨world, [], 0⟩

/-- What a callback means for an editor: painting counts in the foreground only. -/
def editorInput (foreground : Bool) (code : BitVec 32) : Callback → Option SpaceInput
  | .getFocus => some .getFocus
  | .lostFocus => some .lostFocus
  | .keyPress => some (.key code)
  | .paint => if foreground then some .paint else none
  | _ => none

/-- The same for PCI-DEV. -/
def devInput (foreground : Bool) (code : BitVec 32) : Callback → Option DevInput
  | .getFocus => some .getFocus
  | .lostFocus => some .lostFocus
  | .keyPress => some (.key code)
  | .paint => if foreground then some .paint else none
  | _ => none

/-- The callbacks of PCI-SCAN. -/
def pciScan (foreground : Bool) (handle : Int) (callback : Callback) (world : World δ) :
    Outcome (World δ) :=
  match callback with
  | .init => idle (pciScanInit env world)
  | .startWin => ⟨world, [.windowsFocus (some Window.pciScan.info) handle], 0⟩
  | .paint =>
    if foreground then
      let world := scanDevices env world
      -- after the end of the program, control is not handed over
      if world.ended then idle world
      else ⟨world, [.xferControl (some Window.pciScan.info) handle (some "PCI-LIST")], 0⟩
    else idle world
  | _ => idle world

/-- The callbacks of PCI-LIST. -/
def pciList (code : BitVec 32) (handle : Int) (callback : Callback) (world : World δ) :
    Outcome (World δ) :=
  match callback with
  | .keyPress =>
    let world := { world with table := { world.table with currIndex := selected code world.table } }
    if code = keyEnter then
      ⟨world, [.xferControl (some Window.pciList.info) handle (some "PCI-DEV")], 0⟩
    else idle world
  | _ => idle world

/-- `ERR_REQ_IO` -/
def errReqIo : Int := -29

/-- A callback of a window, as long as the program runs. A key press is handed its code, and
a window that is painted has asked whether it is in the foreground. -/
def answer (window : Window) (handle : Int) (foreground : Bool) (callback : Callback)
    (code : BitVec 32) (world : World δ) : Outcome (World δ) :=
  if world.ended then idle world
  else
    match window with
    | .pciDev => idle ((devInput foreground code callback).elim world (pciDev env · world))
    | .pciScan => pciScan env foreground handle callback world
    | .pciList => pciList code handle callback world
    | .baseboard => idle world
    | .ioSpace => idle ((editorInput foreground code callback).elim world (ioEditor env · world))
    | .cmosSpace =>
      if callback = .init then
        let (granted, driver) := env.ioperm world.driver
        ⟨{ world with driver := driver }, [], if granted then 0 else errReqIo⟩
      else idle ((editorInput foreground code callback).elim world (cmosEditor env · world))
    | .memSpace => idle ((editorInput foreground code callback).elim world (memEditor env · world))

/-- The callbacks of the program. -/
def shippedModules (order : LinkOrder) : Modules (World δ) where
  run callback handle data world manager :=
    match order.window handle with
    | none => idle world
    | some window =>
      answer env window handle
        (decide (requestWindowState (some window.info) handle manager = some .foreground))
        callback (data.getD 0) world

end Callbacks

/-- The program at the head of its loop for the first time. -/
def starting (env : Environment δ) (order : LinkOrder) (driver : δ) : Loop (World δ) :=
  startUp (shippedModules env order) (order.windows.map Window.info) (World.starting driver)

/-- One turn of the program's loop. -/
def shippedTurn (env : Environment δ) (order : LinkOrder) :
    BitVec 32 → Loop (World δ) → List FocusMove × Loop (World δ) :=
  turn (shippedModules env order) World.ended

end Lfdk.ShippedWindows
