import Lfdk.FaithfulScreens
import Lfdk.ScanResults
import Lfdk.SelectedIndex

/-!
# The pages of the list

PCI-LIST prints the page of 20 records that the selected one is on. A row has the names of a
function, and its ids and its place in hexadecimal digits with fixed widths. So each row tells
its function, and every function that a scan has found is on one row of one page.
-/

namespace Lfdk.ShippedWindows

open WindowManager HexEditors PciScan PciNames DeviceFile Runs

universe u

section Rows

/-- The `%s` of a text with a precision. -/
def printText (precision : Nat) (text : Text) : List (BitVec 32) :=
  ((text.toList.takeWhile (· ≠ 0)).take precision).map fun character => character.setWidth 32

/-- Blanks between the columns. -/
def blanks (count : Nat) : List (BitVec 32) := List.replicate count 0x20

/-- The line of a record in the window `devname`: a star for a function with a base, and the
names of vendor and device, or their ids where there are no names. -/
def nameText (record : PciData) : List (BitVec 32) :=
  let pcieSign : BitVec 32 := if record.phyBase ≠ 0 then 0x2a else 0x20
  let vendor := if record.ventxt[0]? = some 0 then hexText 4 record.venid.toNat
    else printText 10 record.ventxt
  let device := if record.devtxt[0]? = some 0 then hexText 4 record.devid.toNat
    else printText 35 record.devtxt
  [pcieSign, 0x20] ++ vendor ++ [0x2c, 0x20] ++ device

/-- The line in the window `vendev`. -/
def idText (venid devid : BitVec 16) (place : Place) : List (BitVec 32) :=
  hexText 4 venid.toNat ++ blanks 4 ++ hexText 4 devid.toNat ++ blanks 5 ++
    hexText 2 place.bus.toNat ++ blanks 3 ++ hexText 2 place.dev.toNat ++ blanks 3 ++
      hexText 2 place.func.toNat

/-- A row of PCI-LIST: the colour of the name, and the texts. -/
structure ListRow where
  color : Option Color
  name : List (BitVec 32)
  ids : List (BitVec 32)
deriving DecidableEq

/-- The row of a record. -/
def ListRow.shown (color : Color) (record : PciData) : ListRow :=
  ⟨some color, nameText record, idText record.venid record.devid record.place⟩

/-- What `PrintPCILScreen` prints. The row of the selected index is highlighted, and a row
behind the last record is empty. -/
def listScreen (table : PciTable) : List ListRow :=
  (printPCILScreen table).map fun entry =>
    { color :=
        if entry.1 = table.currIndex then some .blackYellow
        else if entry.1 < (table.pciListLen : Int) then some .whiteBlue else none
      name := entry.2.elim [] nameText
      ids := entry.2.elim [] fun record => idText record.venid record.devid record.place }

/-- The ids leave room at the end of their line of 30 characters. -/
theorem idText_length (venid devid : BitVec 16) (place : Place) :
    (idText venid devid place).length = 29 := by
  simp only [idText, blanks, List.length_append, List.length_replicate, hexText_length]

/-- The ids and the place can be read off a row: rows with the same text are of the same ids and
place. -/
theorem idText_inj {venid devid otherVenid otherDevid : BitVec 16} {place other : Place}
    (same : idText venid devid place = idText otherVenid otherDevid other) :
    venid = otherVenid ∧ devid = otherDevid ∧ place = other := by
  have digits : ∀ {width number : Nat} (value other : BitVec width), width = 4 * number →
      hexText number value.toNat = hexText number other.toNat → value = other := by
    intro width number value other whole text
    have room : 16 ^ number = 2 ^ width := by rw [whole, Nat.pow_mul]
    exact BitVec.eq_of_toNat_eq (hexText_inj (room ▸ value.isLt) (room ▸ other.isLt) text)
  have cut : ∀ {front front' rear rear' : List (BitVec 32)}, rear.length = rear'.length →
      front ++ rear = front' ++ rear' → front = front' ∧ rear = rear' :=
    fun long text => List.append_inj' text long
  rw [idText, idText] at same
  obtain ⟨same, func⟩ := cut (by simp only [hexText_length]) same
  obtain ⟨same, dev⟩ := cut (by simp only [hexText_length]) (cut rfl same).1
  obtain ⟨same, bus⟩ := cut (by simp only [hexText_length]) (cut rfl same).1
  obtain ⟨same, device⟩ := cut (by simp only [hexText_length]) (cut rfl same).1
  have vendor := (cut rfl same).1
  refine ⟨digits _ _ rfl vendor, digits _ _ rfl device, ?_⟩
  obtain ⟨bus₁, dev₁, func₁⟩ := place
  obtain ⟨bus₂, dev₂, func₂⟩ := other
  rw [digits bus₁ bus₂ rfl bus, digits dev₁ dev₂ rfl dev, digits func₁ func₂ rfl func]

end Rows

section Pages

/-- The row of the record at an index of the table. -/
def rowAt (table : PciTable) (index : Nat) : ListRow :=
  { color :=
      if (index : Int) = table.currIndex then some .blackYellow
      else if index < table.pciListLen then some .whiteBlue else none
    name := (if index < table.pciListLen then table.lfddPciList[index]? else none).elim [] nameText
    ids := (if index < table.pciListLen then table.lfddPciList[index]? else none).elim []
      fun record => idText record.venid record.devid record.place }

/-- The page of the selected record has 20 rows, from the first record of the page on, with none
behind the last record. -/
theorem printPCILScreen_rows (table : PciTable) (index : Nat) (selects : table.currIndex = index) :
    printPCILScreen table = (List.range 20).map fun row =>
      (((index / 20 * 20 + row : Nat) : Int),
        if index / 20 * 20 + row < table.pciListLen then
          table.lfddPciList[index / 20 * 20 + row]?
        else none) := by
  have start : table.currIndex.tdiv recordsPerPage * recordsPerPage =
      ((index / 20 * 20 : Nat) : Int) := by
    rw [selects, recordsPerPage]
    have quotient : (index : Int).tdiv 20 = ((index / 20 : Nat) : Int) := by
      rw [Int.tdiv_eq_ediv_of_nonneg (by omega)]
      rfl
    rw [quotient, Nat.cast_mul]
    rfl
  have count : recordsPerPage.toNat = 20 := by decide
  rw [printPCILScreen, listRows, start, count, List.map_map]
  apply List.map_congr_left
  intro row _
  have place : ((index / 20 * 20 : Nat) : Int) + (row : Int) =
      ((index / 20 * 20 + row : Nat) : Int) := (Nat.cast_add _ _).symm
  simp only [Function.comp_apply, place, Nat.cast_lt, PciTable.record, Int.toNat_natCast,
    if_pos (Int.natCast_nonneg _)]

/-- So they are printed, each in its row: the rows of the page are the entries of the list from the
page's first on. -/
theorem listScreen_rows (table : PciTable) (index : Nat) (selects : table.currIndex = index) :
    listScreen table =
      (List.range 20).map fun row => rowAt table (index / 20 * 20 + row) := by
  rw [listScreen, printPCILScreen_rows table index selects, List.map_map]
  apply List.map_congr_left
  intro row _
  simp only [Function.comp_apply, Nat.cast_lt, rowAt]

/-- The row of a record that exists shows it, highlighted exactly if it is the selected one. -/
theorem rowAt_listed (table : PciTable) (length : table.pciListLen ≤ 200) (index : Nat)
    (listed : index < table.pciListLen) :
    rowAt table index = .shown
      (if (index : Int) = table.currIndex then .blackYellow else .whiteBlue)
      table.lfddPciList[index] := by
  have inside : index < 200 := by omega
  simp only [rowAt, if_pos listed, Vector.getElem?_eq_getElem inside, Option.elim_some,
    ListRow.shown]
  split
  · rfl
  · rfl

/-- Behind the last record there is nothing, so the ids window keeps an empty line there. -/
theorem rowAt_behind (table : PciTable) (index : Nat) (behind : ¬ index < table.pciListLen) :
    (rowAt table index).ids = [] := by
  simp only [rowAt, if_neg behind, Option.elim_none]

end Pages

section Scans

variable {δ : Type u} (ioctl : Ioctl LfddPcix δ) (pcixMmioBase : BitVec 64)
  (database : NameDatabase) (population : Population)

/-- The table after a scan, with the first record of a page selected. -/
def pageTable (scan : Scan δ) (page : Nat) : PciTable :=
  ⟨scan.lfddPciList, scan.pciListLen, ((20 * page : Nat) : Int)⟩

/-- A position on the pages of the list shows a function with its ids. -/
def Lists (scan : Scan δ) (place : Place) (position : Nat × Nat) : Prop :=
  ((listScreen (pageTable scan position.1))[position.2]?).map ListRow.ids =
    some (idText (population.venid place) (population.devid place) place)

/-- What stands on a page of a list whose records have the ids of a population. -/
theorem lists_iff {scan : Scan δ} (length : scan.pciListLen ≤ 200)
    (ids : ∀ record ∈ scan.records, record.venid = population.venid record.place ∧
      record.devid = population.devid record.place) (place : Place) (position : Nat × Nat) :
    Lists population scan place position ↔
      position.2 < 20 ∧
        (scan.records.map PciData.place)[20 * position.1 + position.2]? = some place := by
  obtain ⟨page, row⟩ := position
  have start : 20 * page / 20 * 20 = 20 * page := by omega
  rw [Lists, listScreen_rows (pageTable scan page) (20 * page) rfl, start]
  simp only
  by_cases inside : row < 20
  · rw [List.getElem?_map, List.getElem?_range inside, Option.map_some, Option.map_some,
      Option.some.injEq, List.getElem?_map]
    by_cases listed : 20 * page + row < scan.pciListLen
    · have entry := scan.records_entry _ listed
      rw [Vector.getElem?_eq_getElem (by omega)] at entry
      obtain ⟨venid, devid⟩ := ids _ (List.mem_of_getElem? entry)
      rw [entry, Option.map_some, Option.some.injEq,
        rowAt_listed (pageTable scan page) length _ listed]
      change idText _ _ _ = _ ↔ _
      constructor
      · intro same
        exact ⟨inside, (idText_inj same).2.2⟩
      · rintro ⟨_, rfl⟩
        rw [← venid, ← devid]
        rfl
    · have behind : scan.records[20 * page + row]? = none := by
        apply List.getElem?_eq_none
        rw [Scan.records, List.length_take]
        omega
      rw [behind, rowAt_behind (pageTable scan page) _ listed]
      constructor
      · intro same
        have long := idText_length (population.venid place) (population.devid place) place
        rw [← same] at long
        cases long
      · rintro ⟨_, wrong⟩
        cases wrong
  · have behind : ((List.range 20).map fun row =>
        rowAt (pageTable scan page) (20 * page + row))[row]? = none := by
      apply List.getElem?_eq_none
      rw [List.length_map, List.length_range]
      omega
    rw [behind]
    simp [inside]

/-- After a scan whose lookups return, each of the first 200 functions that are present stands
with its ids on exactly one row of exactly one page of the list. -/
theorem functions_listed (shows_ : PciScan.Shows ioctl population) (maxpcibus : Int)
    (accepted : maxpcibus < maxPcibus)
    (answers : ∀ place ∈ (population.present maxpcibus).take maxPcibuf,
      Answers database population place) (scan : Scan δ) (place : Place)
    (member : place ∈ (population.present maxpcibus).take maxPcibuf) :
    ∃! position : Nat × Nat,
      Lists population (scanPCIDevice ioctl pcixMmioBase database 256 maxpcibus scan).2 place
        position := by
  obtain ⟨after, scanned, len, places, ids⟩ := scan_places ioctl pcixMmioBase database population
    shows_ maxpcibus accepted 256 (le_refl 256) scan
  have surveyed := survey_spec database population (population.present maxpcibus) 200 (by decide)
  have returned := surveyed.returns_iff.mpr answers
  have length : after.pciListLen ≤ 200 := len ▸ surveyed.within
  have all : after.records.map PciData.place =
      (population.present maxpcibus).take maxPcibuf := by
    rw [places, surveyed.places_eq]
    rcases surveyed.ended with ⟨_, all, room⟩ | ⟨_, all⟩ | ⟨fault, _, stopped, _⟩
    · have few : (population.present maxpcibus).length ≤ maxPcibuf := by
        change _ ≤ 200
        omega
      rw [List.take_of_length_le (by omega), List.take_of_length_le few]
    · rw [all]
      rfl
    · exact absurd stopped (returned.not_lookup fault)
  have distinct : (after.records.map PciData.place).Nodup := by
    rw [all]
    exact (population.present_nodup maxpcibus (le_of_lt accepted)).sublist (List.take_sublist _ _)
  rw [← all] at member
  obtain ⟨index, inside, own⟩ := List.getElem_of_mem member
  rw [scanned]
  refine ⟨(index / 20, index % 20), ?_, ?_⟩
  · have whole : 20 * (index / 20) + index % 20 = index := by omega
    refine (lists_iff population length ids place _).mpr ⟨by simp only; omega, ?_⟩
    simp only [whole]
    rw [List.getElem?_eq_getElem inside, own]
  · rintro ⟨page, row⟩ listed
    obtain ⟨small, found⟩ := (lists_iff population length ids place _).mp listed
    simp only at small found
    obtain ⟨below, same⟩ := List.getElem?_eq_some_iff.mp found
    have equal : 20 * page + row = index :=
      (distinct.getElem_inj_iff).mp (same.trans own.symm)
    rw [← equal]
    apply Prod.ext
    · simp only
      omega
    · simp only
      omega

end Scans

/-- A bus with 25 bridges, which are the first functions of its first devices. -/
def bridgeBus : Platform Unit :=
  { Platform.constant 0xffffffff 0 (fun _ => false) with
    configRead := fun _ address =>
      if address % 0x800 = 0 ∧ address < 0x8000c800 then hostBridge else 0xffffffff }

/-- The first dword of each function. -/
def bridgeDword (place : Place) : BitVec 32 :=
  if place.configAddress % 0x800 = 0 ∧ place.configAddress < 0x8000c800 then hostBridge
  else 0xffffffff

/-- Its ids. -/
def bridgeIds : Population :=
  ⟨fun place => (bridgeDword place).setWidth 16,
    fun place => (bridgeDword place >>> 16).setWidth 16⟩

/-- A read of the ids of this bus through the ports gives those of the population. -/
theorem bridgeBus_shows : PciScan.Shows (lfddIoctl bridgeBus) bridgeIds :=
  lfddIoctl_shows bridgeBus bridgeDword fun _ _ _ => rfl

/-- The scan of this bus. -/
def bridgeScan : Scan (Machine Unit) :=
  (scanPCIDevice (lfddIoctl bridgeBus) 0 ⟨none, 0⟩ 256 1 (Scan.starting (Machine.loaded () 0))).2

/-- The fourth bridge stands on the first page only, and the last one on the second page only. -/
theorem bridges_on_pages :
    (bridgeIds.present 1).length = 25 ∧
      ((∃! position : Nat × Nat, Lists bridgeIds bridgeScan ⟨0, 3, 0⟩ position) ∧
        Lists bridgeIds bridgeScan ⟨0, 3, 0⟩ (0, 3)) ∧
      (∃! position : Nat × Nat, Lists bridgeIds bridgeScan ⟨0, 24, 0⟩ position) ∧
        Lists bridgeIds bridgeScan ⟨0, 24, 0⟩ (1, 4) := by
  have listed := functions_listed (lfddIoctl bridgeBus) 0 ⟨none, 0⟩ bridgeIds bridgeBus_shows 1
    (by decide) (fun _ _ => ⟨⟨none, none⟩, rfl⟩) (Scan.starting (Machine.loaded () 0))
  refine ⟨by decide +kernel, ⟨listed ⟨0, 3, 0⟩ (by decide +kernel), ?_⟩,
    listed ⟨0, 24, 0⟩ (by decide +kernel), ?_⟩
  · unfold Lists
    decide +kernel
  · unfold Lists
    decide +kernel

end Lfdk.ShippedWindows
