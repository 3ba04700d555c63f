import Lfdk.HexPages
import Lfdk.PciScan

/-!
# The four hex editors

These are the windows PCI-DEV, MEM-SPACE, IO-SPACE and CMOS-SPACE of `lib_pci_dev.c`,
`libmem.c`, `libio.c` and `libcmos.c`. Each shows a page of 256 bytes with a cursor. Keys
move the cursor and turn pages; a hex digit begins to type a value, and Enter writes it.

The memory and the port editor have the same text but for the address space they look at,
so both are one editor with a space as its parameter. PCI-DEV looks at the record that is
selected in the list of functions, which other windows may change. The CMOS editor uses
the ports of the chip itself.

A callback gives the calls it makes of the driver, in order, and the state it leaves. A
call that fails ends the program, and so does a look at a record outside the list, which
has no meaning in the source; nothing happens after that.
-/

namespace Lfdk.HexEditors

open HexPages PciScan

universe u
variable {δ : Type u}

/-- `KEY_DOWN` of the terminal library. -/
def keyDown : BitVec 32 := 0x102

/-- `KEY_UP` -/
def keyUp : BitVec 32 := 0x103

/-- `KEY_LEFT` -/
def keyLeft : BitVec 32 := 0x104

/-- `KEY_RIGHT` -/
def keyRight : BitVec 32 := 0x105

/-- `KEY_BACKSPACE` -/
def keyBackspace : BitVec 32 := 0x107

/-- `KEY_F(7)` -/
def keyF7 : BitVec 32 := 0x10f

/-- `KEY_NPAGE` -/
def keyNpage : BitVec 32 := 0x152

/-- `KEY_PPAGE` -/
def keyPpage : BitVec 32 := 0x153

/-- The key code of Enter. -/
def keyEnter : BitVec 32 := 0x0a

/-- `isxdigit`: true exactly on the digits and the letters A to F in both cases. -/
def isxdigit (key : BitVec 32) : Bool :=
  decide (0x30 ≤ key ∧ key ≤ 0x39 ∨ 0x41 ≤ key ∧ key ≤ 0x46 ∨ 0x61 ≤ key ∧ key ≤ 0x66)

/-- What a hex digit stands for. -/
def digitOf (key : BitVec 32) : BitVec 32 :=
  if key ≤ 0x39 then key - 0x30
  else if 0x46 < key then key - 0x60 + 9
  else key - 0x40 + 9

/-- What a key does while a value is typed. -/
inductive Typed where
  /-- Enter: the value is to be used. -/
  | enter
  /-- The value is changed. -/
  | number (wbuf : BitVec 32)
  /-- Any other key: the value is given up. -/
  | left
deriving DecidableEq, Repr

/-- The `switch` of the editors while a value is typed. The mask keeps the digits there is
room for. -/
def typeKey (mask wbuf key : BitVec 32) : Typed :=
  if key = keyEnter then .enter
  else if key = keyBackspace then .number (wbuf >>> 4)
  else if isxdigit key then .number (wbuf <<< 4 &&& mask ||| digitOf key)
  else .left

/-- `DISPLAY_MODE` -/
inductive DisplayMode where
  | byteMode
  | wordMode
  | dwordMode
deriving DecidableEq, Repr

namespace DisplayMode

/-- `display_mode` as a number. -/
def shift : DisplayMode → Nat
  | .byteMode => 0
  | .wordMode => 1
  | .dwordMode => 2

/-- `display_mode++`, and back to the first mode from the last. -/
def next : DisplayMode → DisplayMode
  | .byteMode => .wordMode
  | .wordMode => .dwordMode
  | .dwordMode => .byteMode

/-- The digits of a value that is typed; all of them for a dword. -/
def mask : DisplayMode → BitVec 32
  | .byteMode => 0xf0
  | .wordMode => 0xfff0
  | .dwordMode => 0xffffffff

/-- The command that writes a value. -/
def write : DisplayMode → Operation
  | .byteMode => .writeByte
  | .wordMode => .writeWord
  | .dwordMode => .writeDword

end DisplayMode

/-- The color of a value on the screen. -/
inductive Color where
  /-- the value that is typed -/
  | yellowRed
  /-- the value at the cursor -/
  | blackYellow
  | whiteBlue
deriving DecidableEq, Repr

/-- A value on the screen. -/
structure Cell where
  row : Nat
  column : Nat
  color : Color
  value : BitVec 32
deriving DecidableEq, Repr

/-- The value of so many bytes of a buffer, lowest first. -/
def bytesAt (massBuf : Vector (BitVec 8) 256) (offset count : Nat) : BitVec 32 :=
  (List.range count).foldr
    (fun i value => value <<< 8 ||| (massBuf[offset + i]?.getD 0).setWidth 32) 0

/-- The low bytes of the value that is typed. -/
def lowBytes (wbuf : BitVec 32) (count : Nat) : BitVec 32 :=
  wbuf &&& BitVec.ofNat 32 (2 ^ (8 * count) - 1)

/-- The cell at a place. The typed value stands in place of the byte at the cursor. -/
def cellAt (shift : Nat) (typing browsing : Bool) (cursor : Cursor) (wbuf : BitVec 32)
    (massBuf : Vector (BitVec 8) 256) (place : Nat × Nat) : Cell :=
  let (row, column) := place
  let here : Bool := decide (cursor.y = row ∧ cursor.x = column)
  if typing && here then ⟨row, column, .yellowRed, lowBytes wbuf (2 ^ shift)⟩
  else ⟨row, column, if browsing && here then .blackYellow else .whiteBlue,
    bytesAt massBuf (row * 16 + column) (2 ^ shift)⟩

/-- The loop that prints a page. -/
def printCells (shift : Nat) (typing browsing : Bool) (cursor : Cursor) (wbuf : BitVec 32)
    (massBuf : Vector (BitVec 8) 256) : List Cell :=
  (cells shift).map (cellAt shift typing browsing cursor wbuf massBuf)

/-- The commands of one callback, and the window after it. -/
abbrev Ran (ρ : Type) (ω : Type u) := List (Operation × ρ) × ω

section PciDevices

/-- The variables of `lib_pci_dev.c`. -/
structure PciDev where
  cursor : Cursor
  buffPage : Int
  wbuf : BitVec 32
  input : Bool
  displayMode : DisplayMode
deriving DecidableEq, Repr

/-- As the program starts. -/
def PciDev.starting : PciDev := ⟨Cursor.start, 0, 0, false, .byteMode⟩

/-- The list of functions and the index of the selected one, which `lib_pci_list.c` keeps
for all windows. -/
structure PciTable where
  lfddPciList : Vector PciData 200
  pciListLen : Nat
  currIndex : Int

/-- `lfdd_pci_list[curr_index]` -/
def PciTable.current (table : PciTable) : Option PciData :=
  if 0 ≤ table.currIndex then table.lfddPciList[table.currIndex.toNat]? else none

/-- What PCI-DEV works on. -/
structure DevWindow (δ : Type u) where
  dev : PciDev
  table : PciTable
  lfddPciData : LfddPcix
  driver : δ
  halted : Option Ending

variable (ioctl : Ioctl LfddPcix δ)

/-- Change the variables, unless the program has ended. -/
def DevWindow.edit (change : PciDev → PciDev) (window : DevWindow δ) : DevWindow δ :=
  if window.halted = none then { window with dev := change window.dev } else window

/-- `LFDD_IOCTL` on `lfdd_pci_data` with the numbers of the selected function. -/
def callSelected (operation : Operation) (reg : BitVec 16) (buf : BitVec 32)
    (window : DevWindow δ) : Ran LfddPcix (DevWindow δ) :=
  match window.table.current with
  | none => ([], { window with halted := some .undefined })
  | some record =>
    let request := { window.lfddPciData with
      bus := record.bus, dev := record.dev, func := record.func, reg := reg
      phyBase := record.phyBase, buf := buf }
    let (success, after, driver) := ioctl operation request window.driver
    ([(operation, request)], { window with
      lfddPciData := after
      driver := driver
      halted := if success = true then none else some .exited })

/-- The refresh in `PrintPCIScreen`. -/
def printPCIScreen (window : DevWindow δ) : Ran LfddPcix (DevWindow δ) :=
  callSelected ioctl .read256byte (BitVec.ofInt 16 window.dev.buffPage) window.lfddPciData.buf window

/-- The values that `PrintPCIScreen` prints. -/
def DevWindow.cells (window : DevWindow δ) : List Cell :=
  printCells window.dev.displayMode.shift window.dev.input true window.dev.cursor window.dev.wbuf
    window.lfddPciData.massBuf

/-- `WritePCIValue` -/
def writePCIValue (window : DevWindow δ) : Ran LfddPcix (DevWindow δ) :=
  callSelected ioctl window.dev.displayMode.write
    (BitVec.ofInt 16 (window.dev.buffPage + window.dev.cursor.offset)) window.dev.wbuf window

/-- Turn the page, which only a function with a base has more than one of. -/
def turnPage (change : Int → Int) (window : DevWindow δ) : DevWindow δ :=
  match window.table.current with
  | none => { window with halted := some .undefined }
  | some record =>
    if record.phyBase ≠ 0 then
      window.edit fun dev => { dev with buffPage := change dev.buffPage }
    else window

/-- Select another function, from its first page on. -/
def selectFunction (change : Int) (window : DevWindow δ) : DevWindow δ :=
  { window with
    table := { window.table with currIndex := window.table.currIndex + change }
    dev := { window.dev with buffPage := 0 } }

/-- `pci_dev_key_press` -/
def pciDevKeyPress (key : BitVec 32) (window : DevWindow δ) : Ran LfddPcix (DevWindow δ) :=
  let dev := window.dev
  if dev.input then
    match typeKey dev.displayMode.mask dev.wbuf key with
    | .enter =>
      let (calls, window) := writePCIValue ioctl window
      (calls, window.edit fun dev => { dev with input := false, wbuf := 0 })
    | .number wbuf => ([], window.edit fun dev => { dev with wbuf := wbuf })
    | .left => ([], window.edit fun dev => { dev with wbuf := 0, input := false })
  else if key = keyUp then
    if 0 < dev.cursor.y then ([], window.edit fun dev => { dev with cursor := dev.cursor.up })
    else ([], turnPage (fun page => if 256 ≤ page then page - 256 else page) window)
  else if key = keyDown then
    if dev.cursor.y < 15 then ([], window.edit fun dev => { dev with cursor := dev.cursor.down })
    else ([], turnPage (fun page => if page + 256 < 0x1000 then page + 256 else page) window)
  else if key = keyLeft then
    ([], window.edit fun dev => { dev with cursor := dev.cursor.left dev.displayMode.shift })
  else if key = keyRight then
    ([], window.edit fun dev => { dev with cursor := dev.cursor.right dev.displayMode.shift })
  else if key = keyNpage then
    if window.table.currIndex < (window.table.pciListLen : Int) - 1 then
      ([], selectFunction 1 window)
    else ([], window)
  else if key = keyPpage then
    if 0 < window.table.currIndex then ([], selectFunction (-1) window) else ([], window)
  else if key = keyF7 then
    ([], window.edit fun dev =>
      { dev with
        displayMode := dev.displayMode.next
        cursor := dev.cursor.realign dev.displayMode.next.shift })
  else if isxdigit key then
    ([], window.edit fun dev => { dev with input := true, wbuf := digitOf key })
  else ([], window)

/-- `pci_dev_lost_focus` -/
def pciDevLostFocus (window : DevWindow δ) : DevWindow δ :=
  window.edit fun dev => { PciDev.starting with displayMode := dev.displayMode }

/-- What happens to PCI-DEV: its callbacks, and what other windows do to the variables it
shares with them. -/
inductive DevInput where
  | key (code : BitVec 32)
  | getFocus
  | lostFocus
  | paint
  | others (table : PciTable) (lfddPciData : LfddPcix)

/-- PCI-DEV, as long as the program runs. -/
def devStep (input : DevInput) (window : DevWindow δ) : Ran LfddPcix (DevWindow δ) :=
  if window.halted.isSome then ([], window)
  else
    match input with
    | .key code => pciDevKeyPress ioctl code window
    | .getFocus => ([], window)
    | .lostFocus => ([], pciDevLostFocus window)
    | .paint => printPCIScreen ioctl window
    | .others table lfddPciData => ([], { window with table := table, lfddPciData := lfddPciData })

end PciDevices

section Spaces

/-- `struct lfdd_mem_t` and `struct lfdd_io_t`, which have the same fields. -/
structure LfddSpace where
  addr : BitVec 32
  buf : BitVec 32
  massBuf : Vector (BitVec 8) 256
deriving DecidableEq, Repr

/-- `INPUT_MODE`: nothing, the byte at the cursor, or the address of a page is typed. -/
inductive InputMode where
  | noInput
  | inputValue
  | inputAddr
deriving DecidableEq, Repr

/-- The variables of `libmem.c` and `libio.c`, with the start of the page that is shown. -/
structure SpaceEditor (α μ : Type) where
  cursor : Cursor
  input : InputMode
  wbuf : BitVec 32
  displayMode : μ
  page : α
deriving DecidableEq, Repr

/-- What the two editors differ in: the short key, the digits of a page's address, how
pages follow each other, and the widths they know. -/
structure AddressSpace (α μ : Type) where
  shortKey : BitVec 32
  addrMask : BitVec 32
  typedPage : BitVec 32 → α
  nextPage : α → α
  previousPage : α → α
  /-- the address of a byte of a page -/
  address : α → Int → BitVec 32
  shift : μ → Nat
  mask : μ → BitVec 32
  nextMode : μ → μ
  write : μ → Operation

variable {α μ : Type}

/-- What one of the two editors works on. -/
structure SpaceWindow (α μ : Type) (δ : Type u) where
  editor : SpaceEditor α μ
  lfddData : LfddSpace
  driver : δ
  halted : Option Ending

/-- Change the variables, unless the program has ended. -/
def SpaceWindow.edit (change : SpaceEditor α μ → SpaceEditor α μ) (window : SpaceWindow α μ δ) :
    SpaceWindow α μ δ :=
  if window.halted = none then { window with editor := change window.editor } else window

variable (space : AddressSpace α μ) (ioctl : Ioctl LfddSpace δ)

/-- `LFDD_IOCTL` on the editor's request. -/
def callSpace (operation : Operation) (request : LfddSpace) (window : SpaceWindow α μ δ) :
    Ran LfddSpace (SpaceWindow α μ δ) :=
  let (success, after, driver) := ioctl operation request window.driver
  ([(operation, request)], { window with
    lfddData := after
    driver := driver
    halted := if success = true then none else some .exited })

/-- The refresh when a page is printed. While an address is typed, nothing is read. -/
def printSpaceScreen (window : SpaceWindow α μ δ) : Ran LfddSpace (SpaceWindow α μ δ) :=
  if window.editor.input = .inputAddr then
    ([], { window with
      lfddData := { window.lfddData with massBuf := Vector.replicate 256 0xff } })
  else
    callSpace ioctl .read256byte
      { window.lfddData with addr := space.address window.editor.page 0 } window

/-- The values that are printed. -/
def SpaceWindow.cells (window : SpaceWindow α μ δ) : List Cell :=
  printCells (space.shift window.editor.displayMode) (window.editor.input = .inputValue)
    (window.editor.input = .noInput) window.editor.cursor window.editor.wbuf window.lfddData.massBuf

/-- Write the value that was typed. -/
def writeSpaceValue (window : SpaceWindow α μ δ) : Ran LfddSpace (SpaceWindow α μ δ) :=
  callSpace ioctl (space.write window.editor.displayMode)
    { window.lfddData with
      addr := space.address window.editor.page window.editor.cursor.offset
      buf := window.editor.wbuf } window

/-- The `key_press` callback of both editors. -/
def spaceKeyPress (key : BitVec 32) (window : SpaceWindow α μ δ) :
    Ran LfddSpace (SpaceWindow α μ δ) :=
  let editor := window.editor
  match editor.input with
  | .inputAddr =>
    match typeKey space.addrMask editor.wbuf key with
    | .enter => ([], window.edit fun editor =>
        { editor with input := .noInput, page := space.typedPage editor.wbuf, wbuf := 0 })
    | .number wbuf => ([], window.edit fun editor => { editor with wbuf := wbuf })
    | .left => ([], window.edit fun editor => { editor with wbuf := 0, input := .noInput })
  | .inputValue =>
    match typeKey (space.mask editor.displayMode) editor.wbuf key with
    | .enter =>
      let (calls, window) := writeSpaceValue space ioctl window
      (calls, window.edit fun editor => { editor with input := .noInput, wbuf := 0 })
    | .number wbuf => ([], window.edit fun editor => { editor with wbuf := wbuf })
    | .left => ([], window.edit fun editor => { editor with wbuf := 0, input := .noInput })
  | .noInput =>
    if key = keyUp then
      ([], window.edit fun editor => { editor with cursor := editor.cursor.up })
    else if key = keyDown then
      ([], window.edit fun editor => { editor with cursor := editor.cursor.down })
    else if key = keyLeft then
      ([], window.edit fun editor =>
        { editor with cursor := editor.cursor.left (space.shift editor.displayMode) })
    else if key = keyRight then
      ([], window.edit fun editor =>
        { editor with cursor := editor.cursor.right (space.shift editor.displayMode) })
    else if key = keyNpage then
      ([], window.edit fun editor => { editor with page := space.nextPage editor.page })
    else if key = keyPpage then
      ([], window.edit fun editor => { editor with page := space.previousPage editor.page })
    else if key = keyF7 then
      ([], window.edit fun editor =>
        { editor with
          displayMode := space.nextMode editor.displayMode
          cursor := editor.cursor.realign (space.shift (space.nextMode editor.displayMode)) })
    else if key = space.shortKey then
      ([], window.edit fun editor => { editor with input := .inputAddr, wbuf := 0 })
    else if isxdigit key then
      ([], window.edit fun editor => { editor with input := .inputValue, wbuf := digitOf key })
    else ([], window)

/-- `get_focus`, which asks for an address. -/
def spaceGetFocus (window : SpaceWindow α μ δ) : SpaceWindow α μ δ :=
  window.edit fun editor => { editor with input := .inputAddr, wbuf := 0 }

/-- `lost_focus` -/
def spaceLostFocus (window : SpaceWindow α μ δ) : SpaceWindow α μ δ :=
  window.edit fun editor => { editor with input := .noInput, wbuf := 0 }

/-- What happens to an editor. -/
inductive SpaceInput where
  | key (code : BitVec 32)
  | getFocus
  | lostFocus
  | paint

/-- An editor, as long as the program runs. -/
def spaceStep (input : SpaceInput) (window : SpaceWindow α μ δ) :
    Ran LfddSpace (SpaceWindow α μ δ) :=
  if window.halted.isSome then ([], window)
  else
    match input with
    | .key code => spaceKeyPress space ioctl code window
    | .getFocus => ([], spaceGetFocus window)
    | .lostFocus => ([], spaceLostFocus window)
    | .paint => printSpaceScreen space ioctl window

/-- The memory space of `libmem.c`. Pages are turned unless the address wraps. -/
def memSpace : AddressSpace (BitVec 32) DisplayMode where
  shortKey := 0x6d
  addrMask := 0x00fffff0
  typedPage := fun wbuf => wbuf <<< 8
  nextPage := fun phyaddr => if phyaddr < phyaddr + 256 then phyaddr + 256 else phyaddr
  previousPage := fun phyaddr => if phyaddr - 256 < phyaddr then phyaddr - 256 else phyaddr
  address := fun phyaddr offset => phyaddr + BitVec.ofInt 32 offset
  shift := DisplayMode.shift
  mask := DisplayMode.mask
  nextMode := DisplayMode.next
  write := DisplayMode.write

/-- The variables of `libmem.c` as the program starts. -/
def memStarting : SpaceEditor (BitVec 32) DisplayMode := ⟨Cursor.start, .noInput, 0, .byteMode, 0⟩

/-- `mem_key_press` -/
def memKeyPress (ioctl : Ioctl LfddSpace δ) :
    BitVec 32 → SpaceWindow (BitVec 32) DisplayMode δ →
      Ran LfddSpace (SpaceWindow (BitVec 32) DisplayMode δ) :=
  spaceKeyPress memSpace ioctl

/-- `DISPLAY_MODE` of `libio.c`, which has no dwords. -/
inductive IoDisplayMode where
  | byteMode
  | wordMode
deriving DecidableEq, Repr

/-- The ports of `libio.c`. Their addresses are clamped to 16 bits. -/
def ioSpace : AddressSpace Int IoDisplayMode where
  shortKey := 0x69
  addrMask := 0xf0
  typedPage := fun wbuf => (wbuf <<< 8).toInt
  nextPage := fun ioaddr => if 0xffff < ioaddr + 256 then 0xff00 else ioaddr + 256
  previousPage := fun ioaddr => if ioaddr - 256 < 0 then 0 else ioaddr - 256
  address := fun ioaddr offset => BitVec.ofInt 32 (ioaddr + offset)
  shift
    | .byteMode => 0
    | .wordMode => 1
  mask
    | .byteMode => 0xf0
    | .wordMode => 0xfff0
  nextMode
    | .byteMode => .wordMode
    | .wordMode => .byteMode
  write
    | .byteMode => .writeByte
    | .wordMode => .writeWord

/-- The variables of `libio.c` as the program starts. -/
def ioStarting : SpaceEditor Int IoDisplayMode := ⟨Cursor.start, .noInput, 0, .byteMode, 0⟩

/-- `io_key_press` -/
def ioKeyPress (ioctl : Ioctl LfddSpace δ) :
    BitVec 32 → SpaceWindow Int IoDisplayMode δ → Ran LfddSpace (SpaceWindow Int IoDisplayMode δ) :=
  spaceKeyPress ioSpace ioctl

end Spaces

section CmosBytes

/-- `LFDK_CMOS_ADDR_PORT` -/
def cmosAddrPort : BitVec 16 := 0x70

/-- `LFDK_CMOS_DATA_PORT` -/
def cmosDataPort : BitVec 16 := 0x71

/-- `outb` and `inb` at the ports of the chip. -/
structure CmosPorts (δ : Type u) where
  outb : BitVec 8 → BitVec 16 → δ → δ
  inb : BitVec 16 → δ → BitVec 8 × δ

/-- The variables of `libcmos.c`. -/
structure CmosEditor where
  cursor : Cursor
  input : Bool
  wbuf : BitVec 32
deriving DecidableEq, Repr

/-- As the program starts. -/
def CmosEditor.starting : CmosEditor := ⟨Cursor.start, false, 0⟩

/-- What CMOS-SPACE works on, with the bytes that were read last. -/
structure CmosWindow (δ : Type u) where
  editor : CmosEditor
  massBuf : Vector (BitVec 8) 256
  driver : δ

/-- Change the variables. -/
def CmosWindow.edit (change : CmosEditor → CmosEditor) (window : CmosWindow δ) : CmosWindow δ :=
  { window with editor := change window.editor }

variable (ports : CmosPorts δ)

/-- The loop of `ReadCmos256Bytes`, with so many bytes left to read. -/
def readCmosFrom : Nat → Vector (BitVec 8) 256 → δ → Vector (BitVec 8) 256 × δ
  | 0, buf, driver => (buf, driver)
  | left + 1, buf, driver =>
    let i := 255 - left
    let driver := ports.outb (BitVec.ofNat 8 i) cmosAddrPort driver
    let (value, driver) := ports.inb cmosDataPort driver
    readCmosFrom left (buf.setIfInBounds i value) driver

/-- `ReadCmos256Bytes` -/
def readCmos256Bytes (buf : Vector (BitVec 8) 256) (driver : δ) : Vector (BitVec 8) 256 × δ :=
  readCmosFrom ports 256 buf driver

/-- The two bytes that `WriteCmosByteValue` puts out at the address and the data port. -/
def CmosEditor.written (editor : CmosEditor) : BitVec 8 × BitVec 8 :=
  (BitVec.ofInt 8 (editor.cursor.x * 16 + editor.cursor.y), editor.wbuf.setWidth 8)

/-- `WriteCmosByteValue` -/
def writeCmosByteValue (window : CmosWindow δ) : CmosWindow δ :=
  let (index, value) := window.editor.written
  { window with
    driver := ports.outb value cmosDataPort (ports.outb index cmosAddrPort window.driver) }

/-- `cmos_key_press`, with the two bytes it writes, if it does. -/
def cmosKeyPress (key : BitVec 32) (window : CmosWindow δ) :
    Option (BitVec 8 × BitVec 8) × CmosWindow δ :=
  let editor := window.editor
  if editor.input then
    match typeKey 0xf0 editor.wbuf key with
    | .enter => (some editor.written,
        (writeCmosByteValue ports window).edit fun editor => { editor with input := false, wbuf := 0 })
    | .number wbuf => (none, window.edit fun editor => { editor with wbuf := wbuf })
    | .left => (none, window.edit fun editor => { editor with wbuf := 0, input := false })
  else if key = keyUp then
    (none, window.edit fun editor => { editor with cursor := editor.cursor.up })
  else if key = keyDown then
    (none, window.edit fun editor => { editor with cursor := editor.cursor.down })
  else if key = keyLeft then
    (none, window.edit fun editor => { editor with cursor := editor.cursor.left 0 })
  else if key = keyRight then
    (none, window.edit fun editor => { editor with
      cursor := { editor.cursor with
        x := if 16 ≤ editor.cursor.x + 1 then 16 - 1 else editor.cursor.x + 1 } })
  else if isxdigit key then
    (none, window.edit fun editor => { editor with input := true, wbuf := digitOf key })
  else (none, window)

/-- `cmos_get_focus`, and `cmos_lost_focus` too. -/
def cmosFocus (window : CmosWindow δ) : CmosWindow δ :=
  window.edit fun editor => { editor with input := false, wbuf := 0 }

/-- The read when `PrintCmosScreen` prints the bytes. -/
def printCmosScreen (window : CmosWindow δ) : CmosWindow δ :=
  let (massBuf, driver) := readCmos256Bytes ports window.massBuf window.driver
  { window with massBuf := massBuf, driver := driver }

/-- The values that `PrintCmosScreen` prints. -/
def CmosWindow.cells (window : CmosWindow δ) : List Cell :=
  printCells 0 window.editor.input true window.editor.cursor window.editor.wbuf window.massBuf

/-- CMOS-SPACE, with the bytes it writes. -/
def cmosStep (input : SpaceInput) (window : CmosWindow δ) :
    Option (BitVec 8 × BitVec 8) × CmosWindow δ :=
  match input with
  | .key code => cmosKeyPress ports code window
  | .getFocus => (none, cmosFocus window)
  | .lostFocus => (none, cmosFocus window)
  | .paint => (none, printCmosScreen ports window)

end CmosBytes

end Lfdk.HexEditors
