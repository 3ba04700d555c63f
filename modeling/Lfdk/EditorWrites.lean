import Lfdk.EditorEffects
import Lfdk.Runs

/-!
# The editors write what is highlighted

PCI-DEV, MEM-SPACE and IO-SPACE get keys, gain and lose the focus and are painted in any
order, while other windows select other functions. At every moment the cursor stands at
exactly one of the cells on the screen, and the page is aligned and inside the space. A
write has the width of the cells and goes to the one that is highlighted.
-/

namespace Lfdk.HexEditors

open HexPages PciScan Runs

universe u
variable {δ : Type u}

section Screens

variable (shift : Nat) (typing browsing : Bool) {cursor : Cursor} (wbuf : BitVec 32)
  (massBuf : Vector (BitVec 8) 256)

/-- A cell that is printed tells its own place, whatever is typed and wherever the cursor is. -/
theorem cellAt_place (cursor : Cursor) (place : Nat × Nat) :
    (cellAt shift typing browsing cursor wbuf massBuf place).row = place.1 ∧
      (cellAt shift typing browsing cursor wbuf massBuf place).column = place.2 := by
  rw [cellAt]
  split
  · exact ⟨rfl, rfl⟩
  · exact ⟨rfl, rfl⟩

/-- The cell in the colours of typing is the one at the cursor, and no other one has these colours.
-/
theorem cellAt_typed (cursor : Cursor) (place : Nat × Nat) :
    (cellAt shift true browsing cursor wbuf massBuf place).color = .yellowRed ↔
      (place.1 : Int) = cursor.y ∧ (place.2 : Int) = cursor.x := by
  simp only [cellAt, Bool.true_and, decide_eq_true_eq]
  split
  · next here => exact ⟨fun _ => ⟨here.1.symm, here.2.symm⟩, fun _ => rfl⟩
  · next elsewhere =>
    constructor
    · intro yellow
      simp only at yellow
      split at yellow
      · exact absurd yellow (by simp)
      · exact absurd yellow (by simp)
    · intro here
      exact absurd ⟨here.1.symm, here.2.symm⟩ elsewhere

variable {shift} (fits : shift ≤ 4) (onPage : cursor.OnPage shift)

include fits onPage

/-- One cell on the screen is at the cursor, and it is the one that the editor would write. -/
theorem printCells_at :
    (printCells shift typing browsing cursor wbuf massBuf).filter
        (fun cell => decide ((cell.row : Int) = cursor.y ∧ (cell.column : Int) = cursor.x)) =
      [cellAt shift typing browsing cursor wbuf massBuf (cursor.y.toNat, cursor.x.toNat)] := by
  have place := cellAt_place shift typing browsing wbuf massBuf cursor
  rw [printCells, List.filter_map]
  simp only [Function.comp_def, place]
  rw [cells_at fits onPage]
  rfl

/-- While a value is typed, this cell is the highlighted one. -/
theorem printCells_typed :
    (printCells shift true browsing cursor wbuf massBuf).filter
        (fun cell => decide (cell.color = .yellowRed)) =
      [cellAt shift true browsing cursor wbuf massBuf (cursor.y.toNat, cursor.x.toNat)] := by
  rw [printCells, List.filter_map]
  simp only [Function.comp_def, cellAt_typed]
  rw [cells_at fits onPage]
  rfl

end Screens

/-- An editor with cells of this width that shows a page of a space of this size. -/
structure InOrder (shift : Nat) (cursor : Cursor) (page limit : Int) (screen : List Cell) :
    Prop where
  settled : Settled shift cursor page limit
  /-- exactly one cell on the screen is at the cursor -/
  shown : ∃ cell, screen.filter (fun cell =>
    decide ((cell.row : Int) = cursor.y ∧ (cell.column : Int) = cursor.x)) = [cell]

/-- A write of a cell's width at an address, which replaces the highlighted cell. -/
structure Replaces (shift : Nat) (cursor : Cursor) (page : Int) (screen : List Cell)
    (operation : Operation) (address : Int) : Prop where
  width : (operation.length : Int) = width shift
  place : address = page + 16 * cursor.y + cursor.x
  aligned : (operation.length : Int) ∣ address
  inside : page ≤ address ∧ address + operation.length ≤ page + 256
  highlighted : ∃ cell, screen.filter (fun cell => decide (cell.color = .yellowRed)) = [cell] ∧
    address = page + 16 * cell.row + cell.column

/-- A write of the length of a cell, at the page and the offset of the cursor, replaces the bytes of
the cell that is highlighted. -/
theorem replaces_of {shift : Nat} {cursor : Cursor} {page limit : Int} (fits : shift ≤ 4)
    (settled : Settled shift cursor page limit) (browsing : Bool) (wbuf : BitVec 32)
    (massBuf : Vector (BitVec 8) 256) {operation : Operation} {address : Int}
    (long : (operation.length : Int) = width shift) (placed : address = page + cursor.offset) :
    Replaces shift cursor page (printCells shift true browsing cursor wbuf massBuf) operation
      address := by
  obtain ⟨onPage, pageIn⟩ := settled
  obtain ⟨low, high⟩ := Cursor.offset_bounds onPage
  have lines : width shift ∣ 256 := (width_dvd fits).trans (by decide)
  have highlighted := printCells_typed browsing wbuf massBuf fits onPage
  obtain ⟨row, column⟩ := cellAt_place shift true browsing wbuf massBuf cursor
    (cursor.y.toNat, cursor.x.toNat)
  have whole : address = page + 16 * cursor.y + cursor.x := by
    rw [placed, Cursor.offset]
    ring
  refine ⟨long, whole, ?_, ?_, _, highlighted, ?_⟩
  · rw [long, placed]
    exact dvd_add (lines.trans pageIn.aligned) (Cursor.offset_aligned fits onPage)
  · rw [long, placed]
    constructor
    · omega
    · omega
  · rw [row, column, whole, Int.toNat_of_nonneg onPage.top, Int.toNat_of_nonneg onPage.first]

/-- Each width has a write of its own, which covers as many bytes as a cell has. -/
theorem DisplayMode.write_length (mode : DisplayMode) :
    (mode.write.length : Int) = width mode.shift := by
  cases mode <;> rfl

/-- What holds before every step of PCI-DEV, whatever its inputs were: the page shows the cells in
order, with the cursor among them, and a write of the step replaces the cell under the cursor. -/
theorem dev_highlighted (ioctl : Ioctl LfddPcix δ) (inputs : List DevInput) (window : DevWindow δ)
    (start : window.Settled) (stage : Stage DevInput (DevWindow δ) (List (Operation × LfddPcix)))
    (member : stage ∈ stages (devStep ioctl) inputs window) :
    let dev := stage.before.dev
    InOrder dev.displayMode.shift dev.cursor dev.buffPage 0x1000 stage.before.cells ∧
      ∀ call ∈ stage.output, call.1.isRead = false →
        Replaces dev.displayMode.shift dev.cursor dev.buffPage stage.before.cells call.1
          call.2.reg.toNat := by
  obtain ⟨_, settled, ran⟩ := stages_invariant (devStep ioctl) DevWindow.Settled inputs window start
    (fun input _ current settled => devStep_settled ioctl settled input) stage member
  have fits := stage.before.dev.displayMode.shift_le
  refine ⟨⟨settled, _, printCells_at _ _ _ _ fits settled.onPage⟩, fun call issued write => ?_⟩
  have output : (devStep ioctl stage.input stage.before).1 = stage.output :=
    congrArg Prod.fst ran
  rw [← output] at issued
  obtain ⟨typing, operation, reg⟩ := devStep_writes ioctl stage.input call issued write
  have screen : stage.before.cells = printCells stage.before.dev.displayMode.shift true true
      stage.before.dev.cursor stage.before.dev.wbuf stage.before.lfddPciData.massBuf := by
    rw [DevWindow.cells, typing]
  have address : (call.2.reg.toNat : Int) =
      stage.before.dev.buffPage + stage.before.dev.cursor.offset := by
    obtain ⟨low, high⟩ := Cursor.offset_bounds settled.onPage
    have positive := width_pos stage.before.dev.displayMode.shift
    obtain ⟨_, first, last⟩ := settled.inside
    rw [reg, BitVec.toNat_ofInt]
    omega
  rw [screen]
  refine replaces_of fits settled true _ _ ?_ address
  rw [operation, DisplayMode.write_length]

/-- What holds before every step of an editor of an address space. -/
theorem space_highlighted {α μ : Type} {space : AddressSpace α μ} {start : α → Int} {limit : Int}
    {digits : Nat} (paged : space.Paged start limit digits)
    (lengths : ∀ mode, ((space.write mode).length : Int) = width (space.shift mode))
    (ioctl : Ioctl LfddSpace δ) (inputs : List SpaceInput) (window : SpaceWindow α μ δ)
    (settled : window.editor.Settled space start limit digits)
    (stage : Stage SpaceInput (SpaceWindow α μ δ) (List (Operation × LfddSpace)))
    (member : stage ∈ stages (spaceStep space ioctl) inputs window) :
    let editor := stage.before.editor
    InOrder (space.shift editor.displayMode) editor.cursor (start editor.page) limit
        (stage.before.cells space) ∧
      ∀ call ∈ stage.output, call.1.isRead = false →
        Replaces (space.shift editor.displayMode) editor.cursor (start editor.page)
          (stage.before.cells space) call.1 call.2.addr.toNat := by
  obtain ⟨_, ⟨settled, _⟩, ran⟩ := stages_invariant (spaceStep space ioctl)
    (fun window => window.editor.Settled space start limit digits) inputs window settled
    (fun input _ current settled => spaceStep_settled ioctl paged settled input) stage member
  have fits := paged.shift_le stage.before.editor.displayMode
  refine ⟨⟨settled, _, printCells_at _ _ _ _ fits settled.onPage⟩, fun call issued write => ?_⟩
  have output : (spaceStep space ioctl stage.input stage.before).1 = stage.output :=
    congrArg Prod.fst ran
  rw [← output] at issued
  obtain ⟨typing, operation, addr⟩ := spaceStep_writes ioctl stage.input call issued write
  have screen : stage.before.cells space = printCells (space.shift stage.before.editor.displayMode)
      true false stage.before.editor.cursor stage.before.editor.wbuf
      stage.before.lfddData.massBuf := by
    rw [SpaceWindow.cells, typing]
    rfl
  have address : (call.2.addr.toNat : Int) =
      start stage.before.editor.page + stage.before.editor.cursor.offset := by
    obtain ⟨low, high⟩ := Cursor.offset_bounds settled.onPage
    have positive := width_pos (space.shift stage.before.editor.displayMode)
    rw [addr]
    exact paged.address _ _ settled.inside low (by omega)
  rw [screen]
  refine replaces_of fits settled false _ _ ?_ address
  rw [operation, lengths]

/-- In every run of each of the three windows, the editor is in order before every step,
and what the step writes replaces the highlighted cell. -/
theorem highlighted_written (δ : Type u) :
    (∀ (ioctl : Ioctl LfddPcix δ) (table : PciTable) (lfddPciData : LfddPcix) (driver : δ)
        (inputs : List DevInput),
      ∀ stage ∈ stages (devStep ioctl) inputs
          ⟨PciDev.starting, table, lfddPciData, driver, none⟩,
        let window := stage.before
        let dev := window.dev
        InOrder dev.displayMode.shift dev.cursor dev.buffPage 0x1000 window.cells ∧
          ∀ call ∈ stage.output, call.1.isRead = false →
            Replaces dev.displayMode.shift dev.cursor dev.buffPage window.cells call.1
              call.2.reg.toNat) ∧
    (∀ (ioctl : Ioctl LfddSpace δ) (lfddMemData : LfddSpace) (driver : δ)
        (inputs : List SpaceInput),
      ∀ stage ∈ stages (spaceStep memSpace ioctl) inputs ⟨memStarting, lfddMemData, driver, none⟩,
        let window := stage.before
        let mem := window.editor
        InOrder mem.displayMode.shift mem.cursor mem.page.toNat (2 ^ 32) (window.cells memSpace) ∧
          ∀ call ∈ stage.output, call.1.isRead = false →
            Replaces mem.displayMode.shift mem.cursor mem.page.toNat (window.cells memSpace) call.1
              call.2.addr.toNat) ∧
    (∀ (ioctl : Ioctl LfddSpace δ) (lfddIoData : LfddSpace) (driver : δ)
        (inputs : List SpaceInput),
      ∀ stage ∈ stages (spaceStep ioSpace ioctl) inputs ⟨ioStarting, lfddIoData, driver, none⟩,
        let window := stage.before
        let io := window.editor
        InOrder (ioSpace.shift io.displayMode) io.cursor io.page 0x10000 (window.cells ioSpace) ∧
          ∀ call ∈ stage.output, call.1.isRead = false →
            Replaces (ioSpace.shift io.displayMode) io.cursor io.page (window.cells ioSpace) call.1
              call.2.addr.toNat) := by
  refine ⟨?_, ?_, ?_⟩
  · intro ioctl table lfddPciData driver inputs stage member
    refine dev_highlighted ioctl inputs _ ?_ stage member
    exact ⟨Cursor.start_onPage (Nat.zero_le 4), PageIn.zero (by decide)⟩
  · intro ioctl lfddMemData driver inputs stage member
    refine space_highlighted memSpace_paged DisplayMode.write_length ioctl inputs _ ?_ stage member
    exact ⟨⟨Cursor.start_onPage (Nat.zero_le 4), PageIn.zero (by decide)⟩, fun asked => nomatch asked⟩
  · intro ioctl lfddIoData driver inputs stage member
    have lengths : ∀ mode, ((ioSpace.write mode).length : Int) = width (ioSpace.shift mode) := by
      intro mode
      cases mode with
      | byteMode => rfl
      | wordMode => rfl
    refine space_highlighted ioSpace_paged lengths ioctl inputs _ ?_ stage member
    exact ⟨⟨Cursor.start_onPage (Nat.zero_le 4), PageIn.zero (by decide)⟩, fun asked => nomatch asked⟩

end Lfdk.HexEditors
