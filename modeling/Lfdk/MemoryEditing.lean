import Lfdk.CommandSet
import Lfdk.MemoryWrites
import Lfdk.StoreEditors

/-!
# MEM-SPACE on the driver

MEM-SPACE calls the driver through the device file. The driver shows RAM and the memory of
devices that can be mapped, and writes where its range check lets it. So MEM-SPACE is an
editor of physical memory: in every run, from the keys through the device file to the bytes
and back to the screen.
-/

namespace Lfdk.ShippedWindows

open HexEditors HexPages PciScan DeviceFile MemoryAccess PortAccess ByteMemory Runs DigitRegister

universe u v
variable {σ : Type u} {δ : Type v}

section Device

variable (platform : Platform σ) (memPlatform : MemPlatform) (ports : PortDevices δ)

/-- Physical memory, as it is behind the driver. -/
def Attached.memory (attached : Attached σ δ) : Memory := attached.kernel.devices.mem.memory

/-- A read leaves memory as it was, whether it goes through the direct map or a mapping of its own.
-/
theorem memPerform_kept (operation : Operation) (read : operation.isRead = true)
    (pmem : LfddSpace) (machine : MemMachine) :
    (memPerform memPlatform operation pmem machine).2.memory = machine.memory := by
  cases checked : outside memPlatform pmem.addr with
  | true => exact (memPerform_outside memPlatform operation pmem checked machine).2
  | false =>
    have kept := memPerform_memory memPlatform operation pmem checked machine
    rwa [read, if_pos rfl] at kept

/-- On memory the device file answers as its functions do, and leaves memory as they leave it. -/
theorem memDevice_answers (operation : Operation) (request : LfddSpace)
    (attached : Attached σ δ) :
    let answered := memDevice (.attached platform memPlatform ports) operation request attached
    let done := memBody (.attached platform memPlatform ports) operation request
      attached.kernel.devices.mem
    answered.1 = true ∧ answered.2.2.kernel.devices.mem = done.2 ∧
      (operation.isRead = true → answered.2.1 = done.1) := by
  intro answered done
  have ran := lfddIoctl_mem (.attached platform memPlatform ports) _
    { attached.kernel with user := { attached.kernel.user with mem := request } } operation
    (dispatch_mem operation)
  simp only [answered, memDevice, callDevice, ran]
  cases read : operation.isRead with
  | true =>
    rw [serveCase_read _ operation _ _ _ read rfl rfl]
    exact ⟨rfl, rfl, fun _ => rfl⟩
  | false =>
    simp only [serveCase, read]
    exact ⟨rfl, rfl, fun wrong => absurd wrong (by decide)⟩

/-- The driver stores physical memory: readable blocks are shown, and addresses that pass the
range check are written. -/
theorem memDevice_stores :
    Stores memSpace (memDevice (.attached platform memPlatform ports)) Attached.memory
      (fun addr => Readable memPlatform addr.toNat) (fun addr => !outside memPlatform addr) where
  reads := by
    intro request attached
    obtain ⟨success, device, _⟩ :=
      memDevice_answers platform memPlatform ports .read256byte request attached
    refine ⟨success, ?_⟩
    rw [Attached.memory, device, memBody]
    exact memPerform_kept _ .read256byte rfl _ _
  shows_ := by
    intro request attached readable index small
    obtain ⟨_, _, answered⟩ :=
      memDevice_answers platform memPlatform ports .read256byte request attached
    rw [answered rfl]
    exact shown_readable (.attached platform memPlatform ports) request
      attached.kernel.devices.mem readable index small
  writes := by
    intro mode request attached
    obtain ⟨success, device, _⟩ :=
      memDevice_answers platform memPlatform ports (memSpace.write mode) request attached
    refine ⟨success, ?_⟩
    have write : (memSpace.write mode).isRead = false := by cases mode <;> rfl
    have length : (memSpace.write mode).length = 2 ^ memSpace.shift mode := by cases mode <;> rfl
    have other : memSpace.write mode ≠ .read256byte := by
      intro same
      rw [same] at write
      exact absurd write (by decide)
    rw [Attached.memory, device, memBody, prepared, if_neg other]
    cases checked : outside memPlatform request.addr with
    | true => exact (memPerform_outside memPlatform _ request checked _).2
    | false =>
      have stored := memPerform_memory memPlatform (memSpace.write mode) request checked
        attached.kernel.devices.mem
      rw [write, length] at stored
      exact stored

end Device

section Runs

variable (platform : Platform σ) (memPlatform : MemPlatform) (ports : PortDevices δ)
  (lfddMemData : LfddSpace) (attached : Attached σ δ) (inputs : List SpaceInput)

/-- The calls of MEM-SPACE. -/
abbrev memCalls : Ioctl LfddSpace (Attached σ δ) := memDevice (.attached platform memPlatform ports)

/-- MEM-SPACE as the program starts. -/
def memWindow : SpaceWindow (BitVec 32) DisplayMode (Attached σ δ) :=
  ⟨memStarting, lfddMemData, attached, none⟩

/-- MEM-SPACE after a run. -/
def memAfter : SpaceWindow (BitVec 32) DisplayMode (Attached σ δ) :=
  final (spaceStep memSpace (memCalls platform memPlatform ports)) inputs
    (memWindow lfddMemData attached)

/-- The program goes on, and the editor has its page and its cursor in order. -/
theorem memAfter_settled :
    (memAfter platform memPlatform ports lfddMemData attached inputs).halted = none ∧
      (memAfter platform memPlatform ports lfddMemData attached inputs).editor.Settled memSpace
        (fun phyaddr => (phyaddr.toNat : Int)) (2 ^ 32) 6 := by
  have begins : (memWindow lfddMemData attached).editor.Settled memSpace
      (fun phyaddr => (phyaddr.toNat : Int)) (2 ^ 32) 6 :=
    ⟨⟨Cursor.start_onPage (Nat.zero_le 4), PageIn.zero (by decide)⟩, fun asked => by cases asked⟩
  have settled := final_invariant (spaceStep memSpace (memCalls platform memPlatform ports))
    (fun window => window.editor.Settled memSpace (fun phyaddr => (phyaddr.toNat : Int)) (2 ^ 32) 6)
    inputs (memWindow lfddMemData attached) begins
    (fun input _ current held => spaceStep_settled _ memSpace_paged held input)
  have goes := (run_commits (memDevice_stores platform memPlatform ports) inputs
    (memWindow lfddMemData attached) rfl).1
  exact ⟨goes, settled⟩

/-- In every run of MEM-SPACE on the driver, no call fails, and physical memory is changed by
the values that Enter commits, one after the other, where the range check lets them, and by
nothing else. -/
theorem memory_committed :
    (memAfter platform memPlatform ports lfddMemData attached inputs).halted = none ∧
      (memAfter platform memPlatform ports lfddMemData attached inputs).driver.memory =
        (commits memSpace (memCalls platform memPlatform ports) inputs
          (memWindow lfddMemData attached)).foldl
            (Commit.applied fun addr => !outside memPlatform addr) attached.memory :=
  run_commits (memDevice_stores platform memPlatform ports) inputs
    (memWindow lfddMemData attached) rfl

/-- Whatever has been done before, and unless an address is being typed, a painting of a page that
can be read prints the words of physical memory, with the value that is typed in the cell at
the cursor, and changes nothing in memory. While an address is typed, nothing is read. -/
theorem memory_shown (browsing : (memAfter platform memPlatform ports lfddMemData attached
      inputs).editor.input ≠ .inputAddr)
    (readable : Readable memPlatform (memAfter platform memPlatform ports lfddMemData attached
      inputs).editor.page.toNat) :
    let window := memAfter platform memPlatform ports lfddMemData attached inputs
    let painted := (spaceStep memSpace (memCalls platform memPlatform ports) .paint window).2
    painted.driver.memory = window.driver.memory ∧
      painted.cells memSpace =
        shownPage window.editor.displayMode.shift (window.editor.input = .inputValue)
          window.editor.cursor window.editor.wbuf window.driver.memory
          window.editor.page.toNat := by
  intro window painted
  have stores := memDevice_stores platform memPlatform ports
  obtain ⟨running, settled⟩ :=
    memAfter_settled platform memPlatform ports lfddMemData attached inputs
  have first : memSpace.address window.editor.page 0 = window.editor.page := BitVec.add_zero _
  have stepped : painted =
      (printSpaceScreen memSpace (memCalls platform memPlatform ports) window).2 := by
    have alive : window.halted.isSome = false := by rw [running]; rfl
    simp only [painted, spaceStep, alive, Bool.false_eq_true, if_false]
  refine ⟨(spaceStep_commits stores .paint window running).2, ?_⟩
  rw [stepped]
  exact painted_cells stores memSpace_paged window settled browsing (by rw [first]; exact readable)

/-- The first page of RAM is shown when MEM-SPACE is painted on a computer with 2 GiB of it. -/
theorem first_page_shown :
    let platform := Platform.constant 0 0x80000000 fun _ => true
    let memPlatform : MemPlatform := ⟨0x80000000, fun _ => false⟩
    let window := memAfter platform memPlatform .absent ⟨0, 0, Vector.replicate 256 0⟩
      ⟨writing 0, []⟩ []
    let painted := (spaceStep memSpace (memCalls platform memPlatform .absent) .paint window).2
    painted.cells memSpace = shownPage 0 false Cursor.start 0 (fun _ => 0) 0 :=
  (memory_shown (Platform.constant 0 0x80000000 fun _ => true) ⟨0x80000000, fun _ => false⟩ .absent
    ⟨0, 0, Vector.replicate 256 0⟩ ⟨writing 0, []⟩ [] (by decide) (.inl (by decide))).2

/-- The place in memory that the cursor stands at: the page's address and the cell's offset, without
a carry out of 32 bits. -/
theorem cursor_place (window : SpaceWindow (BitVec 32) DisplayMode (Attached σ δ))
    (settled : window.editor.Settled memSpace (fun phyaddr => (phyaddr.toNat : Int)) (2 ^ 32) 6) :
    (memSpace.address window.editor.page window.editor.cursor.offset).toNat =
      window.editor.page.toNat + window.editor.cursor.offset.toNat := by
  obtain ⟨⟨onPage, inside⟩, _⟩ := settled
  obtain ⟨low, high⟩ := Cursor.offset_bounds onPage
  have positive := width_pos (memSpace.shift window.editor.displayMode)
  have located := memSpace_paged.address window.editor.page window.editor.cursor.offset inside low
    (by omega)
  omega

/-- Whatever has been done before, a value that is typed while the page is browsed, and
entered, is stored at the cursor when its address passes the range check, however often the
page is painted between the keys. Memory is as before elsewhere, and the page that is painted
then shows the value at the cursor and no other change. -/
theorem value_lands (first : BitVec 32) (keys : List (BitVec 32)) (typing : List SpaceInput)
    (presses : Presses typing (first :: keys ++ [keyEnter]))
    (browsing : (memAfter platform memPlatform ports lfddMemData attached inputs).editor.input =
      .noInput)
    (digit : isxdigit first = true) (all : ∀ key ∈ keys, TypingKey key)
    (inside : outside memPlatform (memSpace.address
      (memAfter platform memPlatform ports lfddMemData attached inputs).editor.page
      (memAfter platform memPlatform ports lfddMemData attached inputs).editor.cursor.offset) =
        false) :
    let calls := memCalls platform memPlatform ports
    let window := memAfter platform memPlatform ports lfddMemData attached inputs
    let editor := window.editor
    let value := BitVec.ofNat 32
      (typed (2 * 2 ^ editor.displayMode.shift) (first :: keys)).value
    let after := final (spaceStep memSpace calls) typing window
    after.halted = none ∧
      after.driver.memory = store (2 ^ editor.displayMode.shift) value
        (editor.page.toNat + editor.cursor.offset.toNat) window.driver.memory ∧
      (printSpaceScreen memSpace calls after).2.cells memSpace =
        (HexPages.cells editor.displayMode.shift).map fun place =>
          if editor.cursor.y = place.1 ∧ editor.cursor.x = place.2 then
            ⟨place.1, place.2, .blackYellow, value⟩
          else
            ⟨place.1, place.2, .whiteBlue, wordAt window.driver.memory
              (editor.page.toNat + 16 * place.1 + place.2) (2 ^ editor.displayMode.shift)⟩ := by
  intro calls window editor value after
  have stores := memDevice_stores platform memPlatform ports
  obtain ⟨running, settled⟩ :=
    memAfter_settled platform memPlatform ports lfddMemData attached inputs
  have place := cursor_place window settled
  have limits := (outside_iff memPlatform _).mp inside
  have readable : Readable memPlatform (memSpace.address window.editor.page 0).toNat := by
    have start : memSpace.address window.editor.page 0 = window.editor.page := BitVec.add_zero _
    rw [start]
    refine .inl ?_
    change (memSpace.address window.editor.page window.editor.cursor.offset).toNat + 256 < _ ∧
      (memSpace.address window.editor.page window.editor.cursor.offset).toNat + 256 < _ at limits
    omega
  have open_ : (!outside memPlatform
      (memSpace.address window.editor.page window.editor.cursor.offset)) = true := by
    rw [inside]
    rfl
  have small : ∀ mode, memSpace.shift mode ≤ 2 := by
    intro mode
    cases mode <;> decide
  obtain ⟨_, kept, stored⟩ := entered_stored displayMode_keeps (by decide) running browsing digit
    all stores
  have shown := entered_shown displayMode_keeps (by decide) running browsing digit all stores
    memSpace_paged small settled readable open_
  -- the paintings between the keys make no difference
  have agree := presses_agree stores presses ⟨rfl, rfl, running, running⟩
  have still : (pressed (press memSpace calls) (first :: keys ++ [keyEnter])
      window).editor.Settled memSpace (fun phyaddr => (phyaddr.toNat : Int)) (2 ^ 32) 6 := by
    rw [kept]
    exact ⟨settled.1, fun asked => by rw [browsing] at asked; cases asked⟩
  have same := agree_shown stores memSpace_paged agree still
    (by rw [kept]; change window.editor.input ≠ _; rw [browsing]; decide)
    (by rw [kept]; exact readable)
  refine ⟨agree.running, ?_, same.trans shown⟩
  rw [Commit.applied, open_, if_pos rfl, place] at stored
  exact agree.memory.trans stored

/-- 5A lands in the first byte of RAM, with the page painted after each digit. -/
theorem first_byte_lands :
    let platform := Platform.constant 0 0x80000000 fun _ => true
    let memPlatform : MemPlatform := ⟨0x80000000, fun _ => false⟩
    let window := memAfter platform memPlatform .absent ⟨0, 0, Vector.replicate 256 0⟩
      ⟨writing 0, []⟩ []
    (final (spaceStep memSpace (memCalls platform memPlatform .absent))
      [.key 0x35, .paint, .key 0x41, .paint, .key keyEnter] window).driver.memory =
        store 1 (0x5a : BitVec 32) 0 fun _ => 0 :=
  (value_lands (Platform.constant 0 0x80000000 fun _ => true) ⟨0x80000000, fun _ => false⟩ .absent
    ⟨0, 0, Vector.replicate 256 0⟩ ⟨writing 0, []⟩ [] 0x35 [0x41]
    [.key 0x35, .paint, .key 0x41, .paint, .key keyEnter] ⟨rfl, by simp⟩ rfl (by decide)
    (by simp [TypingKey]; decide) (by decide)).2.1

/-- Whatever has been done before, while a page is browsed, can be read and has just been painted,
typing the digits of the cell at the cursor, and Enter, leaves memory and the page as they
are. The page may be painted between the keys. -/
theorem retyping_changes_nothing
    (browsing : (memAfter platform memPlatform ports lfddMemData attached inputs).editor.input =
      .noInput)
    (readable : Readable memPlatform (memAfter platform memPlatform ports lfddMemData attached
      inputs).editor.page.toNat) :
    let calls := memCalls platform memPlatform ports
    let painted := memAfter platform memPlatform ports lfddMemData attached (inputs ++ [.paint])
    ∀ cell ∈ painted.cells memSpace, cell.color = .blackYellow →
      let text := hexText (2 * 2 ^ painted.editor.displayMode.shift) cell.value.toNat
      ∀ typing, Presses typing (text ++ [keyEnter]) →
        let after := final (spaceStep memSpace calls) typing painted
        after.driver.memory = painted.driver.memory ∧
          (printSpaceScreen memSpace calls after).2.cells memSpace = painted.cells memSpace := by
  intro calls painted cell member highlighted text typing presses after
  have stores := memDevice_stores platform memPlatform ports
  obtain ⟨running, settled⟩ :=
    memAfter_settled platform memPlatform ports lfddMemData attached inputs
  have first : memSpace.address (memAfter platform memPlatform ports lfddMemData attached
      inputs).editor.page 0 = (memAfter platform memPlatform ports lfddMemData attached
        inputs).editor.page := BitVec.add_zero _
  have stepped : painted = (printSpaceScreen memSpace calls
      (memAfter platform memPlatform ports lfddMemData attached inputs)).2 := by
    have alive : ¬ (memAfter platform memPlatform ports lfddMemData attached
        inputs).halted.isSome = true := by rw [running]; decide
    simp only [painted, memAfter, final, List.foldl_append, List.foldl_cons, List.foldl_nil]
    exact congrArg Prod.snd (if_neg alive)
  have same : painted.editor =
      (memAfter platform memPlatform ports lfddMemData attached inputs).editor := by
    rw [stepped]
    exact (painted_contents stores _ (by rw [browsing]; decide) (by rw [first]; exact readable) 0
      (by decide)).1
  have kept := retyped_shown displayMode_keeps (by decide) stores running browsing memSpace_paged
    settled (by rw [first]; exact readable) cell
  rw [← stepped, ← same] at kept
  obtain ⟨ended, stored, shown⟩ := kept member highlighted
  have editor : (pressed (press memSpace calls) (text ++ [keyEnter]) painted).editor =
      { painted.editor with wbuf := 0 } := ended
  -- the paintings between the keys make no difference
  have alive : painted.halted = none :=
    (memAfter_settled platform memPlatform ports lfddMemData attached (inputs ++ [.paint])).1
  have agree := presses_agree stores presses ⟨rfl, rfl, alive, alive⟩
  have again := agree_shown stores memSpace_paged agree
    (by rw [editor, same]; exact ⟨settled.1, fun asked => by rw [browsing] at asked; cases asked⟩)
    (by rw [editor, same, browsing]; decide)
    (by rw [editor, same, first]; exact readable)
  exact ⟨agree.memory.trans stored, again.trans shown⟩

/-- The bytes of the first page of RAM, typed again, stay as they are. -/
theorem first_page_kept :
    let platform := Platform.constant 0 0x80000000 fun _ => true
    let memPlatform : MemPlatform := ⟨0x80000000, fun _ => false⟩
    let calls := memCalls platform memPlatform .absent
    let painted := memAfter platform memPlatform .absent ⟨0, 0, Vector.replicate 256 0⟩
      ⟨writing 0, []⟩ ([] ++ [.paint])
    ∀ cell ∈ painted.cells memSpace, cell.color = .blackYellow →
      ∀ typing, Presses typing (hexText 2 cell.value.toNat ++ [keyEnter]) →
        let after := final (spaceStep memSpace calls) typing painted
        after.driver.memory = painted.driver.memory ∧
          (printSpaceScreen memSpace calls after).2.cells memSpace = painted.cells memSpace :=
  retyping_changes_nothing (Platform.constant 0 0x80000000 fun _ => true)
    ⟨0x80000000, fun _ => false⟩ .absent ⟨0, 0, Vector.replicate 256 0⟩ ⟨writing 0, []⟩ [] rfl
    (.inl (by decide))

end Runs

end Lfdk.ShippedWindows
