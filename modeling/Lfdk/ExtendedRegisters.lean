import Lfdk.EditorEffects
import Lfdk.ScanOnce
import Lfdk.ScanOutcomes

/-!
# Extended registers are for functions with a base

A function has 256 registers behind the ports and 4096 behind a memory base. PCI-DEV pages
through the registers of the selected function, but the page is its own, the index of the
function belongs to PCI-LIST too, and the records are written by the scanner. A page other
than the first is left behind by a function without a base in none of these ways: PCI-DEV
goes back to the first page when it loses the focus and when it selects another function,
and while it is away nobody turns the page.

If every scan finds a function, there is always a selected record inside the list. So the
program never looks outside it.
-/

namespace Lfdk.HexEditors

open HexPages PciScan

universe u
variable {δ : Type u}

/-- An index inside the list selects a record, also where no function was stored at it. -/
theorem PciTable.current_some {table : PciTable} (first : 0 ≤ table.currIndex)
    (last : table.currIndex < 200) : ∃ record, table.current = some record := by
  have inside : table.currIndex.toNat < 200 := by omega
  exact ⟨table.lfddPciList[table.currIndex.toNat], by
    rw [PciTable.current, if_pos first, Vector.getElem?_eq_getElem inside]⟩

/-- PCI-DEV selects a record of the list, and shows a page that its function has. -/
structure DevWindow.Guarded (window : DevWindow δ) : Prop where
  settled : window.Settled
  extended : window.dev.buffPage ≠ 0 →
    ∃ record, window.table.current = some record ∧ record.phyBase ≠ 0
  first : 0 ≤ window.table.currIndex
  last : window.table.currIndex < 200
  length : window.table.pciListLen ≤ 200
  defined : window.halted ≠ some .undefined

/-- A command for a record's function that stays among the registers it has. -/
structure Within (record : PciData) (operation : Operation) (request : LfddPcix) : Prop where
  isFor : IsFor record request
  ports : record.phyBase = 0 → request.reg.toNat + operation.length ≤ 0x100
  mmio : record.phyBase ≠ 0 → request.reg.toNat + operation.length ≤ 0x1000

section Steps

variable (ioctl : Ioctl LfddPcix δ) {window : DevWindow δ}

/-- The guarded index selects a record. So PCI-DEV never reads behind the list. -/
theorem DevWindow.Guarded.record (guarded : window.Guarded) :
    ∃ record, window.table.current = some record :=
  PciTable.current_some guarded.first guarded.last

/-- What PCI-DEV asks for is among the registers of the selected function. -/
theorem devStep_within (guarded : window.Guarded) (input : DevInput)
    (call : Operation × LfddPcix) (issued : call ∈ (devStep ioctl input window).1) :
    ∃ record, window.table.current = some record ∧ Within record call.1 call.2 := by
  obtain ⟨record, current, isFor, kind⟩ := devStep_calls ioctl input call issued
  refine ⟨record, current, ?_⟩
  obtain ⟨onPage, _, low, high⟩ := guarded.settled
  obtain ⟨first, last⟩ := Cursor.offset_bounds onPage
  have positive := width_pos window.dev.displayMode.shift
  -- the registers of the command are those of the page
  have page : (call.2.reg.toNat : Int) + call.1.length ≤ window.dev.buffPage + 0x100 := by
    rcases kind with ⟨_, operation, reg⟩ | ⟨operation, reg⟩
    · have length : (call.1.length : Int) = width window.dev.displayMode.shift := by
        rw [operation]
        cases window.dev.displayMode <;> rfl
      rw [reg, length, BitVec.toNat_ofInt]
      omega
    · have length : call.1.length = 0x100 := by rw [operation]; rfl
      rw [reg, length, BitVec.toNat_ofInt]
      omega
  refine ⟨isFor, fun unbased => ?_, fun _ => by omega⟩
  have firstPage : window.dev.buffPage = 0 := by
    by_contra other
    obtain ⟨based, same, nonzero⟩ := guarded.extended other
    rw [current] at same
    exact nonzero (Option.some.inj same ▸ unbased)
  omega

/-- A command of a window with a selected record does not end in an access outside the list. -/
theorem callSelected_defined (guarded : window.Guarded) (operation : Operation) (reg : BitVec 16)
    (buf : BitVec 32) :
    (callSelected ioctl operation reg buf window).2.halted ≠ some .undefined := by
  obtain ⟨record, current⟩ := guarded.record
  rw [callSelected, current]
  simp only
  split
  · simp
  · simp

/-- With the same page and the same records, a settled window stays guarded. -/
theorem DevWindow.Guarded.same (guarded : window.Guarded) {after : DevWindow δ}
    (settled : after.Settled) (table : after.table = window.table)
    (page : after.dev.buffPage = window.dev.buffPage) (defined : after.halted ≠ some .undefined) :
    after.Guarded := by
  refine ⟨settled, ?_, ?_, ?_, ?_, defined⟩
  · rw [table, page]
    exact guarded.extended
  · rw [table]
    exact guarded.first
  · rw [table]
    exact guarded.last
  · rw [table]
    exact guarded.length

/-- An edit does not end the program: it changes the editor's own variables and makes no call. -/
theorem DevWindow.edit_halted (window : DevWindow δ) (change : PciDev → PciDev) :
    (window.edit change).halted = window.halted := by
  rw [edit]
  split
  · rfl
  · rfl

/-- Turning a page does not end the program, as the window has a record when it is guarded. -/
theorem turnPage_halted (guarded : window.Guarded) (change : Int → Int) :
    (turnPage change window).halted = window.halted := by
  obtain ⟨record, current⟩ := guarded.record
  rw [turnPage, current]
  simp only
  split
  · exact window.edit_halted _
  · rfl

/-- A change of the other variables stays on the same page of registers. -/
theorem DevChange.buffPage {dev after : PciDev} (change : DevChange dev after) :
    after.buffPage = dev.buffPage := by
  cases change with
  | typed => rfl
  | moved => rfl
  | widened => rfl

/-- A key keeps the page to a function that has it, by the cases of what a key can do. -/
theorem DevEffect.guarded {ran : Ran LfddPcix (DevWindow δ)} (effect : DevEffect ioctl window ran)
    (guarded : window.Guarded) : ran.2.Guarded := by
  have settled := effect.settled ioctl guarded.settled
  cases effect with
  | wrote typing =>
    obtain ⟨dev, table⟩ := callSelected_keeps ioctl window window.dev.displayMode.write
      (BitVec.ofInt 16 (window.dev.buffPage + window.dev.cursor.offset)) window.dev.wbuf
    have defined := callSelected_defined ioctl guarded window.dev.displayMode.write
      (BitVec.ofInt 16 (window.dev.buffPage + window.dev.cursor.offset)) window.dev.wbuf
    change (writePCIValue ioctl window).2.dev = window.dev at dev
    refine guarded.same settled ((DevWindow.edit_table _ _).trans table) ?_ ?_
    · rcases (writePCIValue ioctl window).2.edit_cases
        (fun dev => { dev with input := false, wbuf := 0 }) with edited | same
      · simp only [edited, dev]
      · simp only [same, dev]
    · simp only [DevWindow.edit_halted]
      exact defined
  | edited dev change => exact guarded.same settled rfl change.buffPage guarded.defined
  | turned change turn =>
    have table := turnPage_table window change
    have halted := turnPage_halted guarded change
    rcases turnPage_cases window change with same | ⟨record, current, based, _⟩
    · exact guarded.same settled table (by rw [same]) (by rw [halted]; exact guarded.defined)
    · refine ⟨settled, fun _ => ⟨record, by rw [table, current], based⟩, ?_, ?_, ?_, ?_⟩
      · rw [table]
        exact guarded.first
      · rw [table]
        exact guarded.last
      · rw [table]
        exact guarded.length
      · rw [halted]
        exact guarded.defined
  | following more =>
    have length := guarded.length
    have first := guarded.first
    refine ⟨settled, fun other => absurd rfl other, ?_, ?_, length, guarded.defined⟩
    · simp only [selectFunction]
      omega
    · simp only [selectFunction]
      omega
  | preceding more =>
    have last := guarded.last
    refine ⟨settled, fun other => absurd rfl other, ?_, ?_, guarded.length, guarded.defined⟩
    · simp only [selectFunction]
      omega
    · simp only [selectFunction]
      omega
  | nothing => exact guarded

/-- PCI-DEV itself keeps its page to a function that has it, through every input that is its own. -/
theorem devStep_guarded (guarded : window.Guarded) (input : DevInput)
    (own : ∀ table lfddPciData, input ≠ .others table lfddPciData) :
    (devStep ioctl input window).2.Guarded := by
  have settled := devStep_settled ioctl guarded.settled input
  unfold devStep at settled ⊢
  split at settled
  · next ended =>
    rw [if_pos ended]
    exact guarded
  · next going =>
    rw [if_neg going]
    have running : window.halted = none := by simpa using going
    cases input with
    | key code => exact (pciDevKeyPress_effect ioctl window running code).guarded ioctl guarded
    | getFocus => exact guarded
    | lostFocus =>
      refine ⟨settled, fun other => absurd ?_ other, ?_, ?_, ?_, ?_⟩
      · simp only [pciDevLostFocus, window.edit_running running]
        rfl
      · simp only [pciDevLostFocus, window.edit_running running]
        exact guarded.first
      · simp only [pciDevLostFocus, window.edit_running running]
        exact guarded.last
      · simp only [pciDevLostFocus, window.edit_running running]
        exact guarded.length
      · simp only [pciDevLostFocus, window.edit_running running]
        exact guarded.defined
    | paint =>
      obtain ⟨dev, table⟩ := callSelected_keeps ioctl window .read256byte
        (BitVec.ofInt 16 window.dev.buffPage) window.lfddPciData.buf
      refine guarded.same settled table ?_ (callSelected_defined ioctl guarded _ _ _)
      change (callSelected ioctl .read256byte (BitVec.ofInt 16 window.dev.buffPage)
        window.lfddPciData.buf window).2.dev.buffPage = window.dev.buffPage
      rw [dev]
    | others table lfddPciData => exact absurd rfl (own table lfddPciData)

/-- PCI-DEV does not change how many records there are, which only a scan does. -/
theorem devStep_length (window : DevWindow δ) (input : DevInput)
    (own : ∀ table lfddPciData, input ≠ .others table lfddPciData) :
    (devStep ioctl input window).2.table.pciListLen = window.table.pciListLen := by
  rcases devStep_selects ioctl window input own with same | ⟨_, following⟩ | ⟨_, preceding⟩
  · rw [same]
  · rw [following]
  · rw [preceding]

end Steps

section Spaces

variable {α μ : Type} (space : AddressSpace α μ) (ioctl : Ioctl LfddSpace δ)
  (window : SpaceWindow α μ δ)

/-- The editors of memory and ports end the program at a call that fails only. -/
theorem spaceStep_halted (running : window.halted = none) (input : SpaceInput) :
    (spaceStep space ioctl input window).2.halted = none ∨
      (spaceStep space ioctl input window).2.halted = some .exited := by
  have called : ∀ operation request, (callSpace ioctl operation request window).2.halted = none ∨
      (callSpace ioctl operation request window).2.halted = some .exited := by
    intro operation request
    rw [callSpace]
    simp only
    split
    · exact Or.inl rfl
    · exact Or.inr rfl
  have edited : ∀ (other : SpaceWindow α μ δ) change, (other.edit change).halted = other.halted := by
    intro other change
    rw [SpaceWindow.edit]
    split
    · rfl
    · rfl
  unfold spaceStep
  split
  · exact Or.inl running
  · cases input with
    | key code =>
      have effect := spaceKeyPress_effect space ioctl window running code
      simp only
      generalize spaceKeyPress space ioctl code window = ran at effect
      cases effect with
      | wrote typing =>
        simp only [edited]
        exact called _ _
      | edited | nothing => exact Or.inl running
    | getFocus =>
      simp only [spaceGetFocus, edited]
      exact Or.inl running
    | lostFocus =>
      simp only [spaceLostFocus, edited]
      exact Or.inl running
    | paint =>
      simp only [printSpaceScreen]
      split
      · exact Or.inl running
      · exact called _ _

end Spaces

end Lfdk.HexEditors

namespace Lfdk.ShippedWindows

open WindowManager HexEditors PciScan Runs

universe u
variable {δ : Type u}

/-- The request is for the selected record, and among the registers its function has. -/
def Issued.Within (issued : Issued) : Prop :=
  ∃ record, issued.record = some record ∧
    HexEditors.Within record issued.operation issued.request

/-- Every scan that returned has found a function. -/
def Found (world : World δ) : Prop := ∀ scan ∈ world.scans, scan.1.Returns → 0 < scan.2

/-- PCI-DEV is guarded, and on its first page as long as it is not at the desk. -/
structure Guarded (fore : Option Window) (world : World δ) : Prop where
  window : world.devWindow.Guarded
  first : world.ended = false → fore ≠ some .pciDev → world.dev.buffPage = 0
  issued : ∀ issued ∈ world.issued, issued.Within
  found : world.ended = false → world.scans ≠ [] → 0 < world.table.pciListLen

/-- What the other editors leave alone. -/
structure Beside (before after : World δ) : Prop where
  dev : after.dev = before.dev
  table : after.table = before.table
  scans : after.scans = before.scans
  issued : after.issued = before.issued
  halted : after.halted = none ∨ after.halted = some .exited

section Callbacks

variable (env : Environment δ)

/-- The program runs on exactly while no window has ended it. The two ways to say it belong to the
loop and to the editors. -/
theorem running_halted {world : World δ} : world.ended = false ↔ world.halted = none := by
  rw [World.ended, Option.isSome_eq_false_iff, Option.isNone_iff_eq_none]

/-- The windows beside the three of configuration space: no callback of theirs touches the list, the
editor of PCI-DEV, the scans or the requests issued so far. -/
theorem called_beside (window : Window)
    (other : window ≠ .pciDev ∧ window ≠ .pciScan ∧ window ≠ .pciList) (callback : Callback)
    (code : BitVec 32) (world : World δ) (running : world.ended = false) :
    Beside world (called env callback window code world) := by
  have going : ¬ world.ended = true := by simp [running]
  have halted : world.halted = none := running_halted.mp running
  have same : Beside world world := ⟨rfl, rfl, rfl, rfl, Or.inl halted⟩
  simp only [called, answer, if_neg going]
  cases window with
  | pciDev => exact absurd rfl other.1
  | pciScan => exact absurd rfl other.2.1
  | pciList => exact absurd rfl other.2.2
  | baseboard => exact same
  | ioSpace =>
    cases editorInput true code callback with
    | none => exact same
    | some input => exact ⟨rfl, rfl, rfl, rfl, spaceStep_halted ioSpace env.io _ halted input⟩
  | cmosSpace =>
    simp only
    split
    · exact ⟨rfl, rfl, rfl, rfl, Or.inl halted⟩
    · cases editorInput true code callback with
      | none => exact same
      | some input => exact ⟨rfl, rfl, rfl, rfl, Or.inl halted⟩
  | memSpace =>
    cases editorInput true code callback with
    | none => exact same
    | some input => exact ⟨rfl, rfl, rfl, rfl, spaceStep_halted memSpace env.mem _ halted input⟩

/-- What is done beside PCI-DEV keeps the guard: it changes neither the record nor the page that
PCI-DEV is on. -/
theorem Beside.guarded {fore : Option Window} {world after : World δ} (beside : Beside world after)
    (running : world.ended = false) (guarded : Guarded fore world) : Guarded fore after := by
  obtain ⟨dev, table, scans, issued, halted⟩ := beside
  refine ⟨guarded.window.same ?_ table ?_ ?_, fun _ => ?_, ?_, fun _ => ?_⟩
  · have settled := guarded.window.settled
    simp only [DevWindow.Settled, World.devWindow] at settled ⊢
    rw [dev]
    exact settled
  · simp only [World.devWindow]
    rw [dev]
  · simp only [World.devWindow]
    rcases halted with none | exited
    · simp [none]
    · simp [exited]
  · rw [dev]
    exact guarded.first running
  · rw [issued]
    exact guarded.issued
  · rw [scans, table]
    exact guarded.found running

/-- PCI-DEV at the desk stays guarded through every input of its own, and what its step asks for is
recorded. -/
theorem pciDev_guarded (input : DevInput)
    (own : ∀ table lfddPciData, input ≠ .others table lfddPciData) {fore : Option Window}
    {world : World δ} (running : world.ended = false) (guarded : Guarded fore world) :
    Guarded (some .pciDev) (pciDev env input world) := by
  refine ⟨devStep_guarded env.pci guarded.window input own, fun _ other => absurd rfl other, ?_,
    fun _ scanned => ?_⟩
  · refine List.forall_mem_append.mpr ⟨guarded.issued, List.forall_mem_map.mpr ?_⟩
    intro call issued
    exact devStep_within env.pci guarded.window input call issued
  · have length := devStep_length env.pci world.devWindow input own
    change 0 < (devStep env.pci input world.devWindow).2.table.pciListLen
    rw [length]
    exact guarded.found running scanned

/-- After the end of the program nothing happens, whichever callback would be next. -/
theorem called_ended (callback : Callback) (window : Window) (code : BitVec 32) (world : World δ)
    (ended : world.ended = true) : called env callback window code world = world := by
  simp [called, answer, ended, idle]

/-- Any window may come to the desk where nobody sits: what is guarded does not depend on which it
is. -/
theorem Guarded.seat {world : World δ} (guarded : Guarded none world) (window : Window) :
    Guarded (some window) world :=
  ⟨guarded.window, fun running _ => guarded.first running (by simp), guarded.issued, guarded.found⟩

/-- A window leaves the desk: it is told that it loses the focus, and the world is guarded without
it. -/
theorem lost_guarded (window : Window) {world : World δ} (guarded : Guarded (some window) world) :
    Guarded none (called env .lostFocus window 0 world) := by
  by_cases ended : world.ended = true
  · rw [called_ended env _ _ _ _ ended]
    refine ⟨guarded.window, fun running => ?_, guarded.issued, guarded.found⟩
    rw [ended] at running
    cases running
  · have running : world.ended = false := by simpa using ended
    have left : window ≠ .pciDev → Guarded none world := fun other =>
      ⟨guarded.window, fun going _ => guarded.first going (by simpa using other), guarded.issued,
        guarded.found⟩
    have same : ∀ after, answer env window 0 true .lostFocus 0 world = idle after →
        called env .lostFocus window 0 world = after := by
      intro after outcome
      rw [called, outcome]
      rfl
    cases window with
    | pciDev =>
      rw [same (pciDev env .lostFocus world) (by simp [answer, ended, devInput])]
      have back := pciDev_guarded env .lostFocus (fun _ _ => by simp) running guarded
      refine ⟨back.window, fun _ _ => ?_, back.issued, back.found⟩
      have halted : world.devWindow.halted = none := running_halted.mp running
      simp [pciDev, devStep, halted, pciDevLostFocus, DevWindow.edit, PciDev.starting]
    | pciScan =>
      rw [same world (by simp [answer, ended, pciScan])]
      exact left (by decide)
    | pciList =>
      rw [same world (by simp [answer, ended, pciList])]
      exact left (by decide)
    | baseboard | ioSpace | cmosSpace | memSpace =>
      exact (called_beside env _ (by decide) .lostFocus 0 world running).guarded running
        (left (by decide))

/-- A window comes to the desk and is told that it has the focus; all that is guarded stays so. -/
theorem get_guarded (next : Window) {world : World δ} (guarded : Guarded none world) :
    Guarded (some next) (called env .getFocus next 0 world) := by
  have seated := guarded.seat next
  by_cases ended : world.ended = true
  · rw [called_ended env _ _ _ _ ended]
    exact seated
  · have running : world.ended = false := by simpa using ended
    cases next with
    | pciDev =>
      have outcome : called env .getFocus .pciDev 0 world = pciDev env .getFocus world := by
        simp [called, answer, ended, devInput, idle]
      rw [outcome]
      exact pciDev_guarded env .getFocus (fun _ _ => by simp) running guarded
    | pciScan =>
      have outcome : called env .getFocus .pciScan 0 world = world := by
        simp [called, answer, ended, pciScan, idle]
      rwa [outcome]
    | pciList =>
      have outcome : called env .getFocus .pciList 0 world = world := by
        simp [called, answer, ended, pciList, idle]
      rwa [outcome]
    | baseboard | ioSpace | cmosSpace | memSpace =>
      exact (called_beside env _ (by decide) .getFocus 0 world running).guarded running seated

/-- PCI-DEV is guarded whoever gets the focus from whom: one window leaves the desk, and the next
one comes to it. -/
theorem refocus_guarded (fore : Option Window) (next : Window) (world : World δ)
    (guarded : Guarded fore world) : Guarded (some next) (refocus env fore next world) := by
  apply get_guarded
  cases fore with
  | none => exact guarded
  | some window => exact lost_guarded env window guarded

/-- The keys of PCI-LIST select a record of the list, if there is one. -/
theorem selected_bounds (key : BitVec 32) (table : PciTable) (some_ : 0 < table.pciListLen)
    (length : table.pciListLen ≤ 200) (first : 0 ≤ table.currIndex) (last : table.currIndex < 200) :
    0 ≤ selected key table ∧ selected key table < 200 := by
  have backward : ∀ count : Int, 0 ≤ count →
      0 ≤ (if table.currIndex - count < 0 then 0 else table.currIndex - count) ∧
        (if table.currIndex - count < 0 then 0 else table.currIndex - count) < 200 := by
    intro count _
    split
    · omega
    · omega
  have forward : ∀ count : Int, 0 ≤ count →
      0 ≤ (if (table.pciListLen : Int) ≤ table.currIndex + count then (table.pciListLen : Int) - 1
        else table.currIndex + count) ∧
      (if (table.pciListLen : Int) ≤ table.currIndex + count then (table.pciListLen : Int) - 1
        else table.currIndex + count) < 200 := by
    intro count _
    split
    · omega
    · omega
  simp only [selected]
  split
  · exact backward 1 (by decide)
  · split
    · exact forward 1 (by decide)
    · split
      · exact forward recordsPerPage (by decide)
      · split
        · exact backward recordsPerPage (by decide)
        · exact ⟨first, last⟩

/-- The window at the desk gets a key. There has been a scan by then, so that the editors have a
list to choose from. -/
theorem key_guarded (window : Window) (key : BitVec 32) {world : World δ}
    (guarded : Guarded (some window) world) (running : world.ended = false)
    (scanned : world.scans ≠ []) :
    Guarded (some window) (called env .keyPress window key world) := by
  have going : ¬ world.ended = true := by simp [running]
  cases window with
  | pciDev =>
    have outcome : called env .keyPress .pciDev key world = pciDev env (.key key) world := by
      simp [called, answer, running, devInput, idle]
    rw [outcome]
    exact pciDev_guarded env (.key key) (fun _ _ => by simp) running guarded
  | pciScan =>
    have outcome : called env .keyPress .pciScan key world = world := by
      simp [called, answer, running, pciScan, idle]
    rwa [outcome]
  | pciList =>
    have outcome : called env .keyPress .pciList key world =
        { world with table := { world.table with currIndex := selected key world.table } } := by
      simp only [called, answer, if_neg going, pciList]
      split
      · rfl
      · rfl
    obtain ⟨first, last⟩ := selected_bounds key world.table (guarded.found running scanned)
      guarded.window.length guarded.window.first guarded.window.last
    have firstPage : world.dev.buffPage = 0 := guarded.first running (by simp)
    rw [outcome]
    exact ⟨⟨guarded.window.settled, fun other => absurd firstPage other, first, last,
      guarded.window.length, guarded.window.defined⟩, guarded.first, guarded.issued, guarded.found⟩
  | baseboard | ioSpace | cmosSpace | memSpace =>
    exact (called_beside env _ (by decide) .keyPress key world running).guarded running guarded

/-- A scan leaves records inside the list, if any, and ends the program in no other way than
that. -/
theorem scanDevices_guarded {world : World δ} (guarded : Guarded (some .pciScan) world)
    (running : world.ended = false) (found : Found (scanDevices env world)) :
    Guarded (some .pciScan) (scanDevices env world) := by
  let ran := scanPCIDevice env.pci world.pcixMmioBase env.database 256 env.maxpcibus
    ⟨world.driver, world.lfddPciData, world.table.lfddPciList, world.table.pciListLen⟩
  have bounded : ran.1 ≠ .undefined ∧ ran.2.pciListLen ≤ 200 :=
    scan_bounded env.pci world.pcixMmioBase env.database 256 env.maxpcibus _
  have scans : (scanDevices env world).scans = world.scans ++ [(ran.1, ran.2.pciListLen)] := rfl
  have halted : (scanDevices env world).halted =
      if ran.1 = .completed ∨ ran.1 = .full then none else some ran.1 := rfl
  have firstPage : world.dev.buffPage = 0 := guarded.first running (by simp)
  refine ⟨⟨guarded.window.settled, fun other => absurd firstPage other, guarded.window.first,
    guarded.window.last, bounded.2, ?_⟩, fun _ _ => firstPage, guarded.issued, fun going _ => ?_⟩
  · change (scanDevices env world).halted ≠ _
    rw [halted]
    split
    · simp
    · simpa using bounded.1
  · have returned : ran.1 = .completed ∨ ran.1 = .full := by
      by_contra failed
      rw [running_halted, halted, if_neg failed] at going
      cases going
    exact found (ran.1, ran.2.pciListLen) (by simp [scans]) returned

/-- The window at the desk is painted. PCI-SCAN scans when it is, and that every scan found a
function is assumed of the world it leaves. -/
theorem paint_guarded (window : Window) {world : World δ} (guarded : Guarded (some window) world)
    (found : Found (called env .paint window 0 world)) :
    Guarded (some window) (called env .paint window 0 world) := by
  by_cases ended : world.ended = true
  · rw [called_ended env _ _ _ _ ended]
    exact guarded
  · have running : world.ended = false := by simpa using ended
    cases window with
    | pciDev =>
      have outcome : called env .paint .pciDev 0 world = pciDev env .paint world := by
        simp [called, answer, ended, devInput, idle]
      rw [outcome]
      exact pciDev_guarded env .paint (fun _ _ => by simp) running guarded
    | pciScan =>
      rw [called_scan env world ended] at found ⊢
      exact scanDevices_guarded env guarded running found
    | pciList =>
      have outcome : called env .paint .pciList 0 world = world := by
        simp [called, answer, ended, pciList, idle]
      rwa [outcome]
    | baseboard | ioSpace | cmosSpace | memSpace =>
      exact (called_beside env _ (by decide) .paint 0 world running).guarded running guarded

end Callbacks

section Turns

variable (env : Environment δ) (order : LinkOrder)

/-- The messages of a turn keep PCI-DEV guarded, whichever windows they move the focus between. -/
theorem delivered_guarded (desk : Desk δ) (running : desk.world.ended = false)
    (scanned : desk.fore ≠ none → desk.world.scans ≠ []) (guarded : Guarded desk.fore desk.world)
    (key : BitVec 32) :
    let pressed := desk.pressed env order key
    let delivered := deliver env pressed.1 desk.fore pressed.2
    Guarded delivered.2.1 delivered.2.2 := by
  refine deliver_preserves env Guarded (refocus_guarded env) _ _ _ ?_
  unfold Desk.pressed
  split
  · exact guarded
  · split
    · next window seated =>
      split
      · rw [seated] at guarded ⊢
        exact key_guarded env window key guarded running
          (scanned (by rw [seated]; exact Option.some_ne_none window))
      · exact guarded
    · exact guarded

/-- Painting may add a scan behind those recorded before, and takes none away. -/
theorem painted_adds (window : Window) (world : World δ) :
    world.scans <+: (painted env (some window) world).world.scans := by
  by_cases scan : window = .pciScan
  · subst scan
    by_cases ended : world.ended = true
    · simp only [painted, called_ended env _ _ _ _ ended]
      exact List.prefix_rfl
    · simp only [painted, called_scan env world ended]
      exact List.prefix_append _ _
  · rw [(painted_scans env window world).2 scan]

/-- After the window at the desk was painted, a scan has been made, if it was PCI-SCAN or if
one had been made before. -/
theorem painted_scanned (window : Window) (world : World δ)
    (running : (painted env (some window) world).world.ended = false)
    (scans : window ≠ .pciScan → world.scans ≠ []) :
    (painted env (some window) world).world.scans ≠ [] := by
  by_cases scan : window = .pciScan
  · subst scan
    by_cases ended : world.ended = true
    · simp only [painted, called_ended env _ _ _ _ ended] at running
      rw [running] at ended
      cases ended
    · simp only [painted, called_scan env world ended]
      exact List.append_ne_nil_of_right_ne_nil _ (List.cons_ne_nil _ _)
  · intro empty
    exact scans scan (List.prefix_nil.mp (empty ▸ painted_adds env window world))

/-- What is known at the head of the loop: as long as every scan has found a function, PCI-DEV
is guarded. -/
structure GuardedSoFar (loop : Loop (World δ)) : Prop where
  defined : loop.control ≠ .undefined
  guarded : Found loop.system.world → ∃ fore, Guarded fore loop.system.world
  desk : loop.Reads World.ended → ∃ desk, Shows order loop desk ∧ Phase desk ∧
    (desk.fore ≠ none → desk.world.scans ≠ []) ∧
    (Found desk.world → Guarded desk.fore desk.world)

/-- Every turn keeps PCI-DEV guarded: the key is heard at the desk, the messages of the turn are
delivered, and the window that is at the desk then is painted. -/
theorem shippedTurn_guarded (key : BitVec 32) (loop : Loop (World δ))
    (held : GuardedSoFar order loop) : GuardedSoFar order (shippedTurn env order key loop).2 := by
  obtain ⟨defined, guarded, known⟩ := held
  by_cases reads : loop.Reads World.ended
  · by_cases quit : key = 0x71 ∨ key = 0x51
    · rw [shippedTurn, turn_quit (shippedModules env order) World.ended quit reads]
      exact ⟨by simp, guarded, fun stopped => absurd stopped (Loop.stopped_reads _ loop)⟩
    · obtain ⟨desk, shows_, phase, scanned, deskGuarded⟩ := known reads
      have running : desk.world.ended = false := shows_.world ▸ reads.2
      obtain ⟨_, next⟩ := shippedTurn_desk env order shows_ running key quit
      obtain ⟨window, seated, first, _, _⟩ := phase.delivered env order key
      have scans : (deliver env (desk.pressed env order key).1 desk.fore
          (desk.pressed env order key).2).2.2.scans = desk.world.scans :=
        delivered_scans env order desk key
      have kept := fun found => delivered_guarded env order desk running scanned (deskGuarded found)
        key
      simp only [seated] at kept
      have after := Desk.turn_painted env order seated
      generalize (deliver env (desk.pressed env order key).1 desk.fore
        (desk.pressed env order key).2).2.2 = world at after kept scans
      rw [after] at next
      have earlier : Found (painted env (some window) world).world → Found desk.world :=
        fun found scan member =>
          found scan ((painted_adds env window world).subset (scans ▸ member))
      have later : Found (painted env (some window) world).world →
          Guarded (some window) (painted env (some window) world).world :=
        fun found => paint_guarded env window (kept (earlier found)) found
      refine ⟨by rw [next.control]; decide, fun found => ?_, fun readsAfter => ?_⟩
      · rw [next.world] at found ⊢
        exact ⟨some window, later found⟩
      · have going : (painted env (some window) world).world.ended = false :=
          next.world ▸ readsAfter.2
        have again : Phase (painted env (some window) world) :=
          (painted_phase env window world).resolve_left (by rw [going]; decide)
        refine ⟨_, next, again, fun _ => ?_, later⟩
        apply painted_scanned env window world going
        intro other
        rw [scans]
        exact scanned fun absent => other (first absent)
  · rw [shippedTurn, turn_idle (shippedModules env order) World.ended key reads]
    exact ⟨defined, guarded, known⟩

/-- The program starts with PCI-DEV on its first page, with the first record selected and none found
yet. -/
theorem Primed.guarded {world : World δ} (primed : Primed world) : Guarded none world := by
  obtain ⟨driver, base, rfl⟩ := primed
  constructor
  · have below : (0 : Int) < 200 := by decide
    refine ⟨?_, fun other => absurd rfl other, le_refl 0, below, Nat.zero_le 200, ?_⟩
    · exact ⟨HexPages.Cursor.start_onPage (Nat.zero_le 4), PageIn.zero (by decide)⟩
    · simp [World.devWindow, World.starting]
  · exact fun _ _ => rfl
  · exact fun issued member => absurd member List.not_mem_nil
  · exact fun _ scanned => absurd rfl scanned

/-- As the program starts PCI-DEV is on the first page, so the guard holds whatever the list has. -/
theorem starting_guarded (driver : δ) : GuardedSoFar order (starting env order driver) := by
  have primed := (starting_cases env order driver).1.guarded
  rcases starting_desk env order driver with stopped | shows_
  · refine ⟨by rw [stopped]; decide, fun _ => ⟨none, primed⟩, fun reads => ?_⟩
    exact absurd (stopped.symm.trans reads.1) (by decide)
  · refine ⟨by rw [shows_.control]; decide, fun _ => ⟨none, primed⟩, fun _ => ?_⟩
    exact ⟨_, shows_, .waiting _, fun present => absurd rfl present, fun _ => primed⟩

/-- In every run of the program in which every scan finds a function, each request of PCI-DEV
is for the function that is selected and stays among the registers it has, PCI-DEV is on the
first page while the selected function has no base, and no record outside the list is looked
at. -/
theorem requests_within (driver : δ) (keys : List (BitVec 32))
    (found : Found (final (shippedTurn env order) keys (starting env order driver)).system.world) :
    let loop := final (shippedTurn env order) keys (starting env order driver)
    let world := loop.system.world
    (∀ issued ∈ world.issued, issued.Within) ∧
      (∀ record, world.table.current = some record → record.phyBase = 0 →
        world.dev.buffPage = 0) ∧
      loop.control ≠ .undefined ∧ world.halted ≠ some .undefined := by
  intro loop world
  have held : GuardedSoFar order loop :=
    final_invariant (shippedTurn env order) (GuardedSoFar order) keys _
      (starting_guarded env order driver)
      (fun key _ current kept => shippedTurn_guarded env order key current kept)
  obtain ⟨fore, guarded⟩ := held.guarded found
  refine ⟨guarded.issued, fun record current unbased => ?_, held.defined, guarded.window.defined⟩
  by_contra other
  obtain ⟨based, same, nonzero⟩ := guarded.window.extended other
  have equal : record = based := Option.some.inj (current.symm.trans same)
  exact nonzero (equal ▸ unbased)

end Turns

/-- A run with one function: PCI-SCAN scans, PCI-LIST hands over to PCI-DEV, which reads the
page, writes a byte and reads again, and then a second scan is made. -/
theorem one_function_within :
    let loop := final (shippedTurn oneFunction makefileOrder)
      [-1, -1, keyEnter, 0x66, keyEnter, 0] (starting oneFunction makefileOrder ())
    let world := loop.system.world
    (∀ issued ∈ world.issued, issued.Within) ∧
      (∀ record, world.table.current = some record → record.phyBase = 0 →
        world.dev.buffPage = 0) ∧
      loop.control ≠ .undefined ∧ world.halted ≠ some .undefined := by
  refine requests_within oneFunction makefileOrder () _ ?_
  have scans : (final (shippedTurn oneFunction makefileOrder)
      [-1, -1, keyEnter, 0x66, keyEnter, 0]
      (starting oneFunction makefileOrder ())).system.world.scans =
        [(.completed, 1), (.completed, 1)] := by
    decide +kernel
  intro scan member _
  rw [scans] at member
  simp only [List.mem_cons, List.not_mem_nil, or_false, or_self] at member
  rw [member]
  decide

end Lfdk.ShippedWindows
