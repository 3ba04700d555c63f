import Lfdk.CmosWrites
import Lfdk.ExtendedRegisters

/-!
# The selected record

PCI-LIST and PCI-DEV move one index through the records of the scanned functions. PCI-DEV
moves it only to a neighbour that exists. PCI-LIST moves it first and corrects it afterwards,
at the front to zero and at the end to the number of records less one, which is -1 when there
are no records. A new scan changes the number and leaves the index.

PCI-DEV takes the selected record whenever it is painted, writes a value, or turns a page, and
does not ask whether there is one. PCI-LIST prints the page that the selected record is on,
and asks for each row.

Which records a callback reads is listed apart from what it does, and it does not depend on
any other record.
-/

namespace Lfdk.HexEditors

open PciScan

universe u
variable {δ : Type u}

/-- `lfdd_pci_list[index]` -/
def PciTable.record (table : PciTable) (index : Int) : Option PciData :=
  if 0 ≤ index then table.lfddPciList[index.toNat]? else none

/-- The same table with other records. -/
def PciTable.withRecords (table : PciTable) (records : Vector PciData 200) : PciTable :=
  { table with lfddPciList := records }

/-- What PCI-DEV works on, with other records. -/
def DevWindow.withRecords (window : DevWindow δ) (records : Vector PciData 200) : DevWindow δ :=
  { window with table := window.table.withRecords records }

/-- A key of PCI-DEV for which the selected record is read: Enter while a value is typed, and
otherwise a key that turns a page. -/
def PciDev.reads (dev : PciDev) (key : BitVec 32) : Bool :=
  if dev.input then decide (key = keyEnter)
  else decide (key = keyUp ∧ ¬ 0 < dev.cursor.y ∨ key = keyDown ∧ ¬ dev.cursor.y < 15)

/-- What happens to PCI-DEV that reads the selected record. -/
def DevInput.reads (dev : PciDev) : DevInput → Bool
  | .key code => dev.reads code
  | .paint => true
  | .getFocus | .lostFocus | .others _ _ => false

section Records

variable (ioctl : Ioctl LfddPcix δ) {window : DevWindow δ} (records : Vector PciData 200)

/-- An edit of the variables does not look at the records. -/
theorem DevWindow.edit_records (change : PciDev → PciDev) :
    (window.withRecords records).edit change = (window.edit change).withRecords records := by
  unfold edit
  by_cases running : window.halted = none
  · rw [if_pos running]
    exact if_pos running
  · rw [if_neg running]
    exact if_neg running

/-- A call for the selected function looks at the selected record only, so other records may be
anything. -/
theorem callSelected_records
    (same : (window.withRecords records).table.current = window.table.current)
    (operation : Operation) (reg : BitVec 16) (buf : BitVec 32) :
    callSelected ioctl operation reg buf (window.withRecords records) =
      ((callSelected ioctl operation reg buf window).1,
        (callSelected ioctl operation reg buf window).2.withRecords records) := by
  unfold callSelected
  rw [same]
  cases window.table.current with
  | none => rfl
  | some record => rfl

/-- Turning a page looks at the selected record only. -/
theorem turnPage_records (same : (window.withRecords records).table.current = window.table.current)
    (change : Int → Int) :
    turnPage change (window.withRecords records) = (turnPage change window).withRecords records := by
  unfold turnPage
  rw [same]
  cases window.table.current with
  | none => rfl
  | some record =>
    simp only
    split
    · exact window.edit_records records _
    · rfl

/-- A key does the same with other records, as long as the ones it reads are the same. -/
theorem pciDevKeyPress_records (key : BitVec 32)
    (same : window.dev.reads key = true →
      (window.withRecords records).table.current = window.table.current) :
    pciDevKeyPress ioctl key (window.withRecords records) =
      ((pciDevKeyPress ioctl key window).1,
        (pciDevKeyPress ioctl key window).2.withRecords records) := by
  have dev : (window.withRecords records).dev = window.dev := rfl
  have index : (window.withRecords records).table.currIndex = window.table.currIndex := rfl
  have length : (window.withRecords records).table.pciListLen = window.table.pciListLen := rfl
  have edited := window.edit_records records
  unfold pciDevKeyPress
  simp only [dev, index, length, edited]
  by_cases typing : window.dev.input = true
  · simp only [if_pos typing]
    cases typed : typeKey window.dev.displayMode.mask window.dev.wbuf key with
    | enter =>
      have read : window.dev.reads key = true := by
        rw [PciDev.reads, if_pos typing]
        exact decide_eq_true (typeKey_enter typed)
      have written : writePCIValue ioctl (window.withRecords records) =
          ((writePCIValue ioctl window).1, (writePCIValue ioctl window).2.withRecords records) :=
        callSelected_records ioctl records (same read) _ _ _
      simp only [written, DevWindow.edit_records]
    | number wbuf => rfl
    | left => rfl
  · have read : window.dev.reads key =
        decide (key = keyUp ∧ ¬ 0 < window.dev.cursor.y ∨
          key = keyDown ∧ ¬ window.dev.cursor.y < 15) := if_neg typing
    rw [read, decide_eq_true_iff] at same
    simp only [if_neg typing]
    by_cases up : key = keyUp
    · simp only [if_pos up]
      by_cases inside : 0 < window.dev.cursor.y
      · simp only [if_pos inside]
      · simp only [if_neg inside, turnPage_records records (same (Or.inl ⟨up, inside⟩))]
    · simp only [if_neg up]
      by_cases down : key = keyDown
      · simp only [if_pos down]
        by_cases inside : window.dev.cursor.y < 15
        · simp only [if_pos inside]
        · simp only [if_neg inside, turnPage_records records (same (Or.inr ⟨down, inside⟩))]
      · simp only [if_neg down]
        repeat' split
        all_goals rfl

/-- While no value is typed, no key makes a call. -/
theorem pciDevKeyPress_silent (running : window.halted = none) (idle : window.dev.input = false)
    (key : BitVec 32) : (pciDevKeyPress ioctl key window).1 = [] := by
  have effect := pciDevKeyPress_effect ioctl window running key
  generalize pciDevKeyPress ioctl key window = ran at effect ⊢
  cases effect with
  | wrote typing =>
    rw [idle] at typing
    cases typing
  | edited | turned | following | preceding | nothing => rfl

/-- Without the selected record, PCI-DEV makes no call: every call of it is for that record. -/
theorem devStep_silent (input : DevInput) (unread : input.reads window.dev = false) :
    (devStep ioctl input window).1 = [] := by
  unfold devStep
  split
  · rfl
  · next going =>
    have running : window.halted = none := by simpa using going
    cases input with
    | key code =>
      by_cases typing : window.dev.input = true
      · simp only [pciDevKeyPress, if_pos typing]
        cases typed : typeKey window.dev.displayMode.mask window.dev.wbuf code with
        | enter =>
          rw [DevInput.reads, PciDev.reads, if_pos typing, typeKey_enter typed] at unread
          exact absurd unread (by decide)
        | number wbuf => rfl
        | left => rfl
      · exact pciDevKeyPress_silent ioctl running (by simpa using typing) code
    | paint => cases unread
    | getFocus | lostFocus | others => rfl

/-- PCI-DEV does the same with other records, as long as the ones it reads are the same. -/
theorem devStep_records (input : DevInput)
    (own : ∀ table lfddPciData, input ≠ .others table lfddPciData)
    (same : input.reads window.dev = true →
      (window.withRecords records).table.current = window.table.current) :
    devStep ioctl input (window.withRecords records) =
      ((devStep ioctl input window).1, (devStep ioctl input window).2.withRecords records) := by
  have halted : (window.withRecords records).halted = window.halted := rfl
  unfold devStep
  rw [halted]
  split
  · rfl
  · cases input with
    | key code => exact pciDevKeyPress_records ioctl records code same
    | getFocus => rfl
    | lostFocus => exact congrArg (Prod.mk []) (window.edit_records records _)
    | paint => exact callSelected_records ioctl records (same rfl) _ _ _
    | others table lfddPciData => exact absurd rfl (own table lfddPciData)

end Records

end Lfdk.HexEditors

namespace Lfdk.ShippedWindows

open WindowManager HexEditors PciScan Runs

universe u
variable {δ : Type u}

/-- What a call of `ScanPCIDevice` that returns leaves. -/
structure Scanned (env : Environment δ) where
  ending : Ending
  scan : Scan δ
  returns : ending.Returns
  scanned : ∃ pcixMmioBase maxpcibus start,
    scanPCIDevice env.pci pcixMmioBase env.database 256 maxpcibus start = (ending, scan)

/-- What happens to the index: a callback of a window that does not scan, with a key if it is
a key press, or a scan. -/
inductive Event (env : Environment δ) where
  | callback (callback : Callback) (window : Window) (code : BitVec 32)
      (other : window ≠ .pciScan)
  | rescan (result : Scanned env)

section Steps

variable {env : Environment δ}

/-- The result of a scan becomes the list. -/
def rescanned (result : Scanned env) (world : World δ) : World δ :=
  { world with
    table := { world.table with
      lfddPciList := result.scan.lfddPciList
      pciListLen := result.scan.pciListLen }
    lfddPciData := result.scan.lfddPciData
    driver := result.scan.driver
    scans := world.scans ++ [(result.ending, result.scan.pciListLen)] }

/-- The program, as long as it runs. -/
def selectionStep : Event env → World δ → Unit × World δ
  | .callback callback window code _, world => ((), called env callback window code world)
  | .rescan result, world => ((), if world.ended then world else rescanned result world)

/-- The records that PrintPCILScreen looks at are those of the rows that exist on the page of
the selected record. -/
def listRows (table : PciTable) : List Int :=
  (List.range recordsPerPage.toNat).map fun row : Nat =>
    table.currIndex.tdiv recordsPerPage * recordsPerPage + (row : Int)

/-- The records that `PrintPCILScreen` prints. A row behind the last record is empty. -/
def printPCILScreen (table : PciTable) : List (Int × Option PciData) :=
  (listRows table).map fun index =>
    (index, if index < table.pciListLen then table.record index else none)

/-- The places of the list that an event reads. -/
def recordsRead : Event env → World δ → List Int
  | .callback callback window code _, world =>
    if world.ended then []
    else
      match window with
      | .pciList =>
        if callback = .paint then
          (listRows world.table).filter fun index : Int => decide (index < world.table.pciListLen)
        else []
      | .pciDev =>
        if (devInput true code callback).any fun input => input.reads world.dev then
          [world.table.currIndex]
        else []
      | _ => []
  | .rescan _, _ => []

/-- The index names a record, or there is none to name. -/
structure Selects (table : PciTable) : Prop where
  first : 0 ≤ table.currIndex
  last : table.currIndex < maxPcibuf
  scanned : 0 < table.pciListLen → table.currIndex < table.pciListLen

/-- A step after which the index is valid, and in which only scanned records were read. -/
structure SelectionValid (stage : Stage (Event env) (World δ) Unit) : Prop where
  selects : Selects stage.after.table
  reads : ∀ index ∈ recordsRead stage.input stage.before,
    0 ≤ index ∧ index < stage.before.table.pciListLen

/-- A step that keeps the index valid, as long as the program runs: PCI-LIST is asked for a
later record, and PCI-DEV needs the selected record, only if there are records; and a scan
leaves the selected record in the list, or the list is empty. -/
def KeepsSelection : Event env → World δ → Prop
  | .callback callback window code _, world => world.ended = false →
    (window = .pciList → callback = .keyPress → code = keyDown ∨ code = keyNpage →
        0 < world.table.pciListLen) ∧
      (window = .pciDev → ∀ input ∈ devInput true code callback,
        input.reads world.dev = true → 0 < world.table.pciListLen)
  | .rescan result, world => world.ended = false →
    result.scan.pciListLen = 0 ∨ world.table.currIndex < result.scan.pciListLen

/-- A valid index, and a list with room for no more than its records. -/
structure Selected (world : World δ) : Prop where
  selects : Selects world.table
  length : world.table.pciListLen ≤ maxPcibuf

/-- A scan leaves 200 records at most, as the list has room for no more. -/
theorem Scanned.length (result : Scanned env) : result.scan.pciListLen ≤ maxPcibuf := by
  obtain ⟨base, maxpcibus, start, scanned⟩ := result.scanned
  have bounded := (scan_bounded env.pci base env.database 256 maxpcibus start).2
  rw [scanned] at bounded
  exact bounded

/-- A scan of the program that returns is such an event. -/
theorem scan_rescanned (world : World δ) (running : world.ended = false)
    (returned : (called env .paint .pciScan 0 world).ended = false) :
    ∃ result : Scanned env,
      called env .paint .pciScan 0 world = (selectionStep (.rescan result) world).2 := by
  have going : ¬ world.ended = true := by simp [running]
  have halted : world.halted = none := running_halted.mp running
  rw [called_scan env world going] at returned ⊢
  rcases outcome : scanPCIDevice env.pci world.pcixMmioBase env.database 256 env.maxpcibus
    ⟨world.driver, world.lfddPciData, world.table.lfddPciList, world.table.pciListLen⟩
      with ⟨ending, scan⟩
  rw [running_halted] at returned
  simp only [scanDevices, outcome] at returned ⊢
  have kept : ending = .completed ∨ ending = .full := by
    by_contra failed
    rw [if_neg failed] at returned
    cases returned
  refine ⟨⟨ending, scan, kept, _, _, _, outcome⟩, ?_⟩
  simp only [selectionStep, rescanned, running, Bool.false_eq_true, if_false, if_pos kept, halted]

/-- A callback of PCI-DEV leaves the variables of others to them. -/
theorem devInput_own {foreground : Bool} {code : BitVec 32} {callback : Callback}
    {input : DevInput} (asked : devInput foreground code callback = some input)
    (table : PciTable) (lfddPciData : LfddPcix) : input ≠ .others table lfddPciData := by
  rintro rfl
  cases callback with
  | paint => cases foreground <;> cases asked
  | init | startWin | postStartWin | lostFocus | getFocus | keyPress | destroyWin | moduleExit =>
    cases asked

/-- A window does the same with other records, as long as the ones it reads are the same. -/
theorem called_records (callback : Callback) (window : Window) (code : BitVec 32)
    (other : window ≠ .pciScan) (world : World δ) (records : Vector PciData 200)
    (same : ∀ index ∈ recordsRead (.callback callback window code other : Event env) world,
      (world.table.withRecords records).record index = world.table.record index) :
    let others := fun (world : World δ) =>
      { world with table := world.table.withRecords records }
    called env callback window code (others world) =
      others (called env callback window code world) := by
  intro others
  by_cases ended : world.ended = true
  · rw [called_ended env _ _ _ _ ended]
    exact called_ended env _ _ _ _ ended
  · have going : ¬ (others world).ended = true := ended
    simp only [called, answer, if_neg ended, if_neg going]
    cases window with
    | pciDev =>
      simp only [idle]
      cases asked : devInput true code callback with
      | none => rfl
      | some input =>
        have current : input.reads world.dev = true →
            (world.table.withRecords records).current = world.table.current := by
          intro read
          apply same world.table.currIndex
          simp [recordsRead, ended, asked, read]
        have ran := devStep_records env.pci records input (devInput_own asked)
          (show input.reads world.devWindow.dev = true → _ from current)
        simp only [Option.elim_some, pciDev]
        have table : (others world).devWindow = world.devWindow.withRecords records := rfl
        rw [table, ran]
        have issued : (others world).table.current = world.table.current ∨
            (devStep env.pci input world.devWindow).1 = [] := by
          cases read : input.reads world.dev with
          | true => exact Or.inl (current read)
          | false => exact Or.inr (devStep_silent env.pci input read)
        rcases issued with equal | silent
        · rw [equal]
          rfl
        · rw [silent]
          rfl
    | pciScan => exact absurd rfl other
    | pciList =>
      have chosen : selected code (others world).table = selected code world.table := rfl
      cases callback with
      | keyPress =>
        simp only [pciList, chosen]
        split
        · rfl
        · rfl
      | init | startWin | postStartWin | lostFocus | getFocus | paint | destroyWin | moduleExit =>
        rfl
    | baseboard => rfl
    | ioSpace =>
      simp only [idle]
      cases editorInput true code callback <;> rfl
    | cmosSpace =>
      simp only
      split
      · rfl
      · simp only [idle]
        cases editorInput true code callback <;> rfl
    | memSpace =>
      simp only [idle]
      cases editorInput true code callback <;> rfl

/-- PCI-LIST prints the same with other records, as long as the ones it reads are the same. -/
theorem printPCILScreen_records (table : PciTable) (records : Vector PciData 200)
    (same : ∀ index ∈ (listRows table).filter fun index : Int => decide (index < table.pciListLen),
      (table.withRecords records).record index = table.record index) :
    printPCILScreen (table.withRecords records) = printPCILScreen table := by
  have rows : listRows (table.withRecords records) = listRows table := rfl
  unfold printPCILScreen
  rw [rows]
  apply List.map_congr_left
  intro index member
  have length : (table.withRecords records).pciListLen = table.pciListLen := rfl
  rw [length]
  by_cases inside : index < table.pciListLen
  · rw [if_pos inside, if_pos inside,
      same index (List.mem_filter.mpr ⟨member, decide_eq_true inside⟩)]
  · rw [if_neg inside, if_neg inside]

/-- The page of a valid index has no row before the list. -/
theorem listRows_first (table : PciTable) (first : 0 ≤ table.currIndex) :
    ∀ index ∈ listRows table, 0 ≤ index := by
  intro index member
  obtain ⟨row, _, rfl⟩ := List.mem_map.mp member
  have page : 0 ≤ table.currIndex.tdiv recordsPerPage := Int.tdiv_nonneg first (by decide)
  have width : (0 : Int) ≤ recordsPerPage := by decide
  have start := mul_nonneg page width
  omega

/-- Going back and correcting at the front keeps the index valid. -/
theorem selects_backward (table : PciTable) (selects : Selects table)
    (length : table.pciListLen ≤ maxPcibuf) (count : Int) (positive : 0 ≤ count) :
    Selects { table with
      currIndex := if table.currIndex - count < 0 then 0 else table.currIndex - count } := by
  obtain ⟨first, last, scanned⟩ := selects
  have room : maxPcibuf = 200 := rfl
  constructor
  · simp only
    split <;> omega
  · simp only
    split <;> omega
  · intro nonempty
    have inside := scanned nonempty
    simp only at nonempty ⊢
    split <;> omega

/-- Going on and correcting at the end does so in a list that is not empty. -/
theorem selects_forward_iff (table : PciTable) (selects : Selects table)
    (length : table.pciListLen ≤ maxPcibuf) (count : Int) (positive : 0 < count) :
    Selects { table with
      currIndex := if (table.pciListLen : Int) ≤ table.currIndex + count
        then (table.pciListLen : Int) - 1 else table.currIndex + count } ↔
      0 < table.pciListLen := by
  obtain ⟨first, _, _⟩ := selects
  have room : maxPcibuf = 200 := rfl
  constructor
  · intro after
    by_contra empty
    have negative := after.first
    simp only at negative
    rw [if_pos (by omega)] at negative
    omega
  · intro nonempty
    constructor
    · simp only
      split <;> omega
    · simp only
      split <;> omega
    · intro _
      simp only
      split <;> omega

/-- The keys of PCI-LIST select a record that exists, or none if there is none, unless they
go on in an empty list. -/
theorem selected_selects_iff (key : BitVec 32) (table : PciTable) (selects : Selects table)
    (length : table.pciListLen ≤ maxPcibuf) :
    Selects { table with currIndex := selected key table } ↔
      (key = keyDown ∨ key = keyNpage → 0 < table.pciListLen) := by
  have backward := selects_backward table selects length
  have forward := selects_forward_iff table selects length
  by_cases up : key = keyUp
  · subst up
    refine iff_of_true (backward 1 (by decide)) fun later => ?_
    exact absurd later (by decide)
  · by_cases down : key = keyDown
    · subst down
      refine (forward 1 (by decide)).trans ?_
      simp
    · by_cases next : key = keyNpage
      · subst next
        refine (forward recordsPerPage (by decide)).trans ?_
        simp
      · have quiet : key = keyDown ∨ key = keyNpage → 0 < table.pciListLen := by
          rintro (same | same)
          · exact absurd same down
          · exact absurd same next
        refine iff_of_true ?_ quiet
        by_cases previous : key = keyPpage
        · subst previous
          exact backward recordsPerPage (by decide)
        · simp only [selected, if_neg up, if_neg down, if_neg next, if_neg previous]
          exact selects

/-- PCI-DEV keeps the index valid: it goes on to the next record, or back to the one before, only
where there is one. -/
theorem devStep_selected (ioctl : Ioctl LfddPcix δ) (window : DevWindow δ) (input : DevInput)
    (own : ∀ table lfddPciData, input ≠ .others table lfddPciData)
    (selects : Selects window.table) (length : window.table.pciListLen ≤ maxPcibuf) :
    Selects (devStep ioctl input window).2.table ∧
      (devStep ioctl input window).2.table.pciListLen ≤ maxPcibuf := by
  obtain ⟨first, last, scanned⟩ := selects
  rcases devStep_selects ioctl window input own with same | ⟨more, next⟩ | ⟨more, previous⟩
  · rw [same]
    exact ⟨⟨first, last, scanned⟩, length⟩
  · rw [next]
    refine ⟨⟨?_, ?_, fun _ => ?_⟩, length⟩
    · simp only
      omega
    · simp only
      omega
    · simp only
      omega
  · rw [previous]
    refine ⟨⟨?_, ?_, fun nonempty => ?_⟩, length⟩
    · simp only
      omega
    · simp only
      omega
    · have inside := scanned nonempty
      simp only
      omega

section Callbacks

variable (callback : Callback) (code : BitVec 32) (world : World δ) (held : Selected world)
  (running : world.ended = false)

include held running

/-- PCI-DEV keeps the index valid, and reads the selected record where it needs one. -/
theorem pciDev_valid_iff :
    (Selects (called env callback .pciDev code world).table ∧
        (∀ index ∈ recordsRead (.callback callback .pciDev code (by decide) : Event env) world,
          0 ≤ index ∧ index < world.table.pciListLen) ↔
      ∀ input ∈ devInput true code callback,
        input.reads world.dev = true → 0 < world.table.pciListLen) ∧
    (called env callback .pciDev code world).table.pciListLen ≤ maxPcibuf := by
  obtain ⟨selects, length⟩ := held
  have kept : Selects (called env callback .pciDev code world).table ∧
      (called env callback .pciDev code world).table.pciListLen ≤ maxPcibuf := by
    simp only [called, answer, running, Bool.false_eq_true, if_false, idle]
    cases asked : devInput true code callback with
    | none => exact ⟨selects, length⟩
    | some input =>
      exact devStep_selected env.pci world.devWindow input (devInput_own asked) selects length
  refine ⟨?_, kept.2⟩
  rw [and_iff_right kept.1]
  simp only [recordsRead, running, Bool.false_eq_true, if_false]
  cases devInput true code callback with
  | none => simp
  | some input =>
    cases read : input.reads world.dev with
    | false => simp [read]
    | true =>
      simp only [Option.any_some, read, if_true, List.mem_singleton, forall_eq,
        Option.mem_some_iff, forall_eq', forall_const]
      constructor
      · rintro ⟨first, inside⟩
        omega
      · exact fun nonempty => ⟨selects.first, selects.scanned nonempty⟩

/-- PCI-LIST keeps the index valid unless it goes on in an empty list. It prints scanned
records only. -/
theorem pciList_valid_iff :
    (Selects (called env callback .pciList code world).table ∧
        (∀ index ∈ recordsRead (.callback callback .pciList code (by decide) : Event env) world,
          0 ≤ index ∧ index < world.table.pciListLen) ↔
      (callback = .keyPress → code = keyDown ∨ code = keyNpage → 0 < world.table.pciListLen)) ∧
    (called env callback .pciList code world).table.pciListLen ≤ maxPcibuf := by
  obtain ⟨selects, length⟩ := held
  cases callback with
  | keyPress =>
    have after : (called env .keyPress .pciList code world).table =
        { world.table with currIndex := selected code world.table } := by
      simp only [called, answer, running, Bool.false_eq_true, if_false, pciList]
      split
      · rfl
      · rfl
    have unread : recordsRead (.callback .keyPress .pciList code (by decide) : Event env) world =
        [] := by
      simp [recordsRead]
    rw [after, unread, selected_selects_iff code world.table selects length]
    exact ⟨by simp, length⟩
  | paint =>
    have same : called env .paint .pciList code world = world := by
      simp [called, answer, running, pciList, idle]
    rw [same]
    refine ⟨iff_of_true ⟨selects, ?_⟩ (by simp), length⟩
    intro index member
    simp only [recordsRead, running, Bool.false_eq_true, if_false, if_true] at member
    obtain ⟨row, inside⟩ := List.mem_filter.mp member
    exact ⟨listRows_first world.table selects.first index row, of_decide_eq_true inside⟩
  | init | startWin | postStartWin | lostFocus | getFocus | destroyWin | moduleExit =>
    have same : ∀ other : Callback, other ≠ .keyPress →
        called env other .pciList code world = world := by
      intro other apart
      simp only [called, answer, running, Bool.false_eq_true, if_false]
      cases other <;> first | rfl | exact absurd rfl apart
    rw [same _ (by decide)]
    exact ⟨iff_of_true ⟨selects, by simp [recordsRead]⟩ (by simp), length⟩

end Callbacks

/-- A callback keeps the index valid and reads scanned records only, exactly when it needs no
record that does not exist. -/
theorem callback_valid_iff (callback : Callback) (window : Window) (code : BitVec 32)
    (other : window ≠ .pciScan) (world : World δ) (held : Selected world) :
    let event : Event env := .callback callback window code other
    (Selects (called env callback window code world).table ∧
        (∀ index ∈ recordsRead event world, 0 ≤ index ∧ index < world.table.pciListLen) ↔
      KeepsSelection event world) ∧
    (called env callback window code world).table.pciListLen ≤ maxPcibuf := by
  intro event
  by_cases ended : world.ended = true
  · rw [called_ended env _ _ _ _ ended]
    have unread : recordsRead event world = [] := if_pos ended
    have allowed : KeepsSelection event world := fun running => by
      rw [running] at ended
      cases ended
    refine ⟨iff_of_true ⟨held.selects, ?_⟩ allowed, held.length⟩
    rw [unread]
    exact fun index member => absurd member List.not_mem_nil
  · have running : world.ended = false := by simpa using ended
    have going : KeepsSelection event world ↔
        (window = .pciList → callback = .keyPress → code = keyDown ∨ code = keyNpage →
            0 < world.table.pciListLen) ∧
          (window = .pciDev → ∀ input ∈ devInput true code callback,
            input.reads world.dev = true → 0 < world.table.pciListLen) :=
      ⟨fun keeps => keeps running, fun keeps _ => keeps⟩
    rw [going]
    cases window with
    | pciScan => exact absurd rfl other
    | pciDev =>
      simp only [reduceCtorEq, false_implies, true_and, forall_const]
      exact pciDev_valid_iff callback code world held running
    | pciList =>
      simp only [reduceCtorEq, false_implies, and_true, forall_const]
      exact pciList_valid_iff callback code world held running
    | baseboard | ioSpace | cmosSpace | memSpace =>
      rw [(called_beside env _ ⟨by decide, other, by decide⟩ callback code world running).table]
      have unread : recordsRead event world = [] := by simp [event, recordsRead]
      rw [unread]
      exact ⟨iff_of_true ⟨held.selects, by simp⟩ (by simp), held.length⟩

/-- A step of the program keeps the selection valid exactly if it is one that keeps it, and a valid
selection is then left for the next step. -/
theorem selectionStep_valid_iff (event : Event env) (world : World δ) (held : Selected world) :
    (SelectionValid ⟨event, world, (selectionStep event world).1, (selectionStep event world).2⟩ ↔
        KeepsSelection event world) ∧
      (KeepsSelection event world → Selected (selectionStep event world).2) := by
  have split_ : ∀ output after, SelectionValid ⟨event, world, output, after⟩ ↔
      Selects after.table ∧
        ∀ index ∈ recordsRead event world, 0 ≤ index ∧ index < world.table.pciListLen :=
    fun _ _ => ⟨fun valid => ⟨valid.selects, valid.reads⟩, fun both => ⟨both.1, both.2⟩⟩
  rw [split_]
  cases event with
  | callback callback window code other =>
    obtain ⟨valid, length⟩ := callback_valid_iff callback window code other world held
    exact ⟨valid, fun keeps => ⟨(valid.mpr keeps).1, length⟩⟩
  | rescan result =>
    have unread : ∀ index ∈ recordsRead (.rescan result) world,
        0 ≤ index ∧ index < world.table.pciListLen :=
      fun index member => absurd member List.not_mem_nil
    rw [and_iff_left unread]
    by_cases ended : world.ended = true
    · have same : (selectionStep (.rescan result) world).2 = world := if_pos ended
      rw [same]
      refine ⟨iff_of_true held.selects fun running => ?_, fun _ => held⟩
      rw [running] at ended
      cases ended
    · have running : world.ended = false := by simpa using ended
      have listed : (selectionStep (.rescan result) world).2 = rescanned result world :=
        if_neg ended
      rw [listed]
      obtain ⟨first, last, _⟩ := held.selects
      have after : Selects (rescanned result world).table ↔
          KeepsSelection (.rescan result) world := by
        constructor
        · intro selects _
          have inside := selects.scanned
          by_cases empty : result.scan.pciListLen = 0
          · exact Or.inl empty
          · exact Or.inr (inside (Nat.pos_of_ne_zero empty))
        · intro keeps
          refine ⟨first, last, fun nonempty => ?_⟩
          rcases keeps running with empty | inside
          · exact absurd nonempty (Nat.not_lt.mpr (Nat.le_of_eq empty))
          · exact inside
      exact ⟨after, fun keeps => ⟨after.mpr keeps, result.length⟩⟩

end Steps

/-- From the start of the program, the index is valid after every key, repaint, change of the
focus and scan, and only scanned records are read, exactly when no step needs a record that
does not exist. -/
theorem selection_valid_iff (env : Environment δ) (driver : δ) (events : List (Event env)) :
    (∀ stage ∈ stages selectionStep events (World.starting driver), SelectionValid stage) ↔
      ∀ stage ∈ stages selectionStep events (World.starting driver),
        KeepsSelection stage.input stage.before := by
  apply stages_iff selectionStep Selected KeepsSelection SelectionValid events
  · have room : (0 : Int) < maxPcibuf := by decide
    exact ⟨⟨le_refl 0, room, fun nonempty => absurd nonempty (Nat.lt_irrefl 0)⟩, Nat.zero_le _⟩
  · exact fun event _ world held => (selectionStep_valid_iff event world held).1
  · exact fun event _ world held => (selectionStep_valid_iff event world held).2

/-- A program that is told to scan no bus. -/
def noBus : Environment Unit := { oneFunction with maxpcibus := 0 }

/-- The result of its scan. -/
def nothingScanned : Scanned noBus where
  ending := .completed
  scan := ⟨(), .atRegister 0 0 0, Vector.replicate 200 PciData.zero, 0⟩
  returns := Or.inl rfl
  scanned := ⟨0, 0, ⟨(), .atRegister 0 0 0, Vector.replicate 200 PciData.zero, 0⟩, rfl⟩

/-- The key that goes on in the empty list, and then PCI-DEV in front of it. -/
def emptyListEvents : List (Event noBus) :=
  [.rescan nothingScanned, .callback .keyPress .pciList keyDown (by decide),
    .callback .keyPress .pciList keyUp (by decide), .callback .paint .pciDev 0 (by decide)]

/-- In the empty list the key selects -1, and PCI-DEV shows a record that was not scanned. The
program gets to the first of it with two keys. -/
theorem empty_list_selects :
    ((stages selectionStep emptyListEvents (World.starting ())).map
        fun stage => (stage.after.table.currIndex, recordsRead stage.input stage.before)) =
      [(0, []), (-1, []), (0, []), (0, [0])] ∧
    (¬ ∀ stage ∈ stages selectionStep emptyListEvents (World.starting ()),
      SelectionValid stage) ∧
    (final (shippedTurn noBus makefileOrder) [-1, -1, keyDown]
      (starting noBus makefileOrder ())).system.world.table.currIndex = -1 := by
  refine ⟨by decide +kernel, fun valid => ?_, by decide +kernel⟩
  have second := valid _ (List.get_mem (stages selectionStep emptyListEvents (World.starting ()))
    ⟨1, by decide +kernel⟩)
  exact absurd second.selects.first (by decide +kernel)

end Lfdk.ShippedWindows
