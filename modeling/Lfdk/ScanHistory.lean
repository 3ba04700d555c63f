import Lfdk.ScanOutcomes
import Lfdk.ScanResults

/-!
# What an earlier scan leaves in a record

The list is a global array. A scan starts it over by setting its length to zero and
fills the records again, but a name that is not in the database leaves the text of the
record as it was. Two scans of the same machine with the same database agree on their
records exactly when each text that is not found was the same before.

A list that only scans have written keeps the zero byte behind every text, and without
a window the bases it started with, so these never make a difference.
-/

namespace Lfdk.PciScan

open CountedLoops PciNames

universe u
variable {δ : Type u}

/-- The list as scans leave it: zeroed at first, then written by any scans with the window
the program found. -/
inductive LeftByScans (δ : Type u) (pcixMmioBase : BitVec 64) : Vector PciData 200 → Prop where
  | starting : LeftByScans δ pcixMmioBase (Vector.replicate 200 PciData.zero)
  | scanned (ioctl : Ioctl LfddPcix δ) (database : NameDatabase) (fuel : Nat) (maxpcibus : Int)
      (scan : Scan δ) (before : LeftByScans δ pcixMmioBase scan.lfddPciList) :
      LeftByScans δ pcixMmioBase
        (scanPCIDevice ioctl pcixMmioBase database fuel maxpcibus scan).2.lfddPciList

/-- Both texts of a record end in a zero byte, and without a window it has no base. -/
structure PciData.Tidy (pcixMmioBase : BitVec 64) (record : PciData) : Prop where
  ventxt : record.ventxt[75] = 0
  devtxt : record.devtxt[75] = 0
  phyBase : pcixMmioBase = 0 → record.phyBase = 0

/-- All records are tidy. -/
def Tidy (pcixMmioBase : BitVec 64) (list : Vector PciData 200) : Prop :=
  ∀ i (inside : i < 200), list[i].Tidy pcixMmioBase

/-- The last byte of a text is never written. -/
theorem storeName_last (found : Option (List (BitVec 8))) (text : Text) :
    (storeName found text)[75] = text[75] := by
  cases found with
  | none => rfl
  | some readBuffer => simp [storeName, copyName, maxPciname]

/-- Two texts are the same after a name is stored exactly when there was a name or they
were the same before. -/
theorem storeName_same_iff (found : Option (List (BitVec 8))) (left right : Text)
    (last : left[75] = right[75]) :
    storeName found left = storeName found right ↔ found.isSome = true ∨ left = right := by
  cases found with
  | none => simp [storeName]
  | some readBuffer =>
    simp only [storeName, Option.isSome_some, true_or, iff_true]
    apply Vector.ext
    intro i inside
    simp only [copyName, Vector.getElem_ofFn, Fin.getElem_fin]
    split
    · rfl
    · next beyond =>
      obtain rfl : i = 75 := by
        unfold maxPciname at beyond
        omega
      exact last

section Kept

variable (ioctl : Ioctl LfddPcix δ) (pcixMmioBase : BitVec 64) (database : NameDatabase)

/-- However a part of a scan ends, the list is tidy. -/
abbrev EndsTidy : Except (Ending × Scan δ) (Scan δ) → Prop :=
  Ends (fun scan => Tidy pcixMmioBase scan.lfddPciList)
    (fun ended => Tidy pcixMmioBase ended.2.lfddPciList)

variable {pcixMmioBase}

/-- A list stays tidy when a tidy record is stored in it. -/
theorem Tidy.set {list : Vector PciData 200} (tidy : Tidy pcixMmioBase list) (k : Nat)
    (inside : k < 200) {record : PciData} (stored : record.Tidy pcixMmioBase) :
    Tidy pcixMmioBase (list.set k record) := by
  intro i below
  rw [Vector.getElem_set]
  split
  · exact stored
  · exact tidy i below

/-- A command of the scan changes no record, whether it succeeds or ends the scan. -/
theorem callDriver_tidy (operation : Operation) (driver : δ) (request : LfddPcix)
    {list : Vector PciData 200} (len : Nat) (tidy : Tidy pcixMmioBase list) :
    EndsTidy pcixMmioBase (callDriver ioctl operation ⟨driver, request, list, len⟩) := by
  simp only [callDriver]
  split
  · exact tidy
  · exact tidy

variable {scan : Scan δ} (tidy : Tidy pcixMmioBase scan.lfddPciList)

include tidy

/-- A change that keeps records tidy keeps the list so, as only the record behind the last one is
changed. -/
theorem store_tidy (change : PciData → PciData)
    (keeps : ∀ record : PciData, record.Tidy pcixMmioBase → (change record).Tidy pcixMmioBase) :
    EndsTidy pcixMmioBase (store change scan) := by
  rw [store]
  split
  · next inside => exact tidy.set _ inside (keeps _ (tidy _ inside))
  · exact tidy

/-- The names are stored without their last byte, so the texts stay terminated. -/
theorem storeTexts_tidy : EndsTidy pcixMmioBase (storeTexts database scan) := by
  rw [storeTexts]
  split
  · next inside =>
    simp only [getVendorAndDeviceTexts_found]
    cases findNames database scan.lfddPciList[scan.pciListLen].venid
        scan.lfddPciList[scan.pciListLen].devid with
    | error fault => exact tidy
    | ok names =>
      have record := tidy scan.pciListLen inside
      refine store_tidy tidy _ fun other kept => ⟨?_, ?_, kept.phyBase⟩
      · exact (storeName_last names.vendor _).trans record.ventxt
      · exact (storeName_last names.device _).trans record.devtxt
  · exact tidy

/-- A base is stored only where one is given, so without one no record gets a base. -/
theorem storeBase_tidy : EndsTidy pcixMmioBase (storeBase ioctl pcixMmioBase scan) := by
  rw [storeBase]
  split
  · exact tidy
  · next window =>
    split
    · next inside =>
      have record := tidy scan.pciListLen inside
      simp only [assignMMIOBase, if_neg window]
      exact tidy.set _ inside ⟨record.ventxt, record.devtxt, fun none => absurd none window⟩
    · exact tidy

/-- Going on to the next record changes none: only the number of records grows. -/
theorem nextRecord_tidy : EndsTidy pcixMmioBase (nextRecord scan) := by
  simp only [nextRecord]
  split
  · exact tidy
  · exact tidy

/-- Recording a function is these steps, each of which keeps the list tidy. -/
theorem recordDevice_tidy (place : Place) :
    EndsTidy pcixMmioBase (recordDevice ioctl pcixMmioBase database place scan) := by
  rw [recordDevice]
  apply Ends.bind
  · exact store_tidy tidy _ fun _ kept => ⟨kept.ventxt, kept.devtxt, kept.phyBase⟩
  intro placed tidy
  apply Ends.bind
  · exact callDriver_tidy ioctl .readWord _ _ _ tidy
  intro read tidy
  apply Ends.bind
  · exact store_tidy tidy _ fun _ kept => ⟨kept.ventxt, kept.devtxt, kept.phyBase⟩
  intro identified tidy
  apply Ends.bind
  · exact storeTexts_tidy database tidy
  intro named tidy
  apply Ends.bind
  · exact storeBase_tidy ioctl tidy
  intro based tidy
  exact nextRecord_tidy tidy

/-- So is probing a place, which records the function if there is one. -/
theorem probe_tidy (place : Place) :
    EndsTidy pcixMmioBase (probe ioctl pcixMmioBase database place scan) := by
  rw [probe]
  apply Ends.bind
  · exact callDriver_tidy ioctl .readWord _ _ _ tidy
  intro read tidy
  split
  · exact tidy
  · exact recordDevice_tidy ioctl database tidy place

/-- A scan leaves a tidy list tidy, however it ends. So all lists that scans leave are. -/
theorem scan_tidy (fuel : Nat) (maxpcibus : Int) :
    Tidy pcixMmioBase
      (scanPCIDevice ioctl pcixMmioBase database fuel maxpcibus scan).2.lfddPciList := by
  have probed : ∀ place (scan : Scan δ), Tidy pcixMmioBase scan.lfddPciList →
      EndsTidy pcixMmioBase (probe ioctl pcixMmioBase database place scan) :=
    fun place _ kept => probe_tidy ioctl database kept place
  rcases scan_ends ioctl pcixMmioBase database (by exact fun _ kept => kept) probed fuel maxpcibus
    scan tidy with ⟨_, kept⟩ | kept
  · exact kept
  · exact kept

end Kept

/-- What scans leave is tidy. By induction on the scans, of which each keeps the list tidy. -/
theorem LeftByScans.tidy {pcixMmioBase : BitVec 64} {list : Vector PciData 200}
    (left : LeftByScans δ pcixMmioBase list) : Tidy pcixMmioBase list := by
  induction left with
  | starting =>
    intro i inside
    rw [Vector.getElem_replicate]
    exact ⟨rfl, rfl, fun _ => rfl⟩
  | scanned ioctl database fuel maxpcibus scan _ inductionHypothesis =>
    exact scan_tidy ioctl database inductionHypothesis fuel maxpcibus

/-- Which entries a survey has: those of the functions up to which all lookups return. The
induction is on the functions. -/
theorem survey_entry_iff (database : NameDatabase) (population : Population)
    (places : List Place) (room : Nat) (positive : 0 < room) (i : Nat) (place : Place)
    (names : Names) :
    (survey database population room places).1[i]? = some (place, names) ↔
      i < room ∧ places[i]? = some place ∧
        (∀ earlier ∈ places.take i, Answers database population earlier) ∧
        findNames database (population.venid place) (population.devid place) = .ok names := by
  induction places generalizing room i with
  | nil => simp [survey]
  | cons first rest inductionHypothesis =>
    cases found : findNames database (population.venid first) (population.devid first) with
    | error fault =>
      simp only [survey, found, List.getElem?_nil, false_iff, reduceCtorEq]
      rintro ⟨_, reached, answers, asked⟩
      cases i with
      | zero =>
        obtain rfl : first = place := by simpa using reached
        exact absurd (found.symm.trans asked) (by simp)
      | succ i =>
        obtain ⟨other, returned⟩ := answers first (by simp)
        exact absurd (found.symm.trans returned) (by simp)
    | ok firstNames =>
      have answered : Answers database population first := ⟨firstNames, found⟩
      simp only [survey, found]
      cases i with
      | zero =>
        have head : (if room ≤ 1 then ([(first, firstNames)], Ending.full) else
            ((first, firstNames) :: (survey database population (room - 1) rest).1,
              (survey database population (room - 1) rest).2)).1[0]? = some (first, firstNames) := by
          split
          · rfl
          · rfl
        rw [head, List.getElem?_cons_zero, List.take_zero]
        constructor
        · rintro ⟨rfl, rfl⟩
          exact ⟨positive, rfl, by simp, found⟩
        · rintro ⟨_, reached, _, asked⟩
          obtain rfl := Option.some.inj reached
          rw [Except.ok.inj (found.symm.trans asked)]
      | succ i =>
        by_cases last : room ≤ 1
        · rw [if_pos last]
          simp only [List.getElem?_cons_succ, List.getElem?_nil, reduceCtorEq, false_iff]
          rintro ⟨inside, _⟩
          omega
        · have inside : i < room - 1 ↔ i + 1 < room := by omega
          rw [if_neg last]
          simp only [List.getElem?_cons_succ, List.take_succ_cons, List.forall_mem_cons, answered,
            true_and]
          rw [inductionHypothesis (room - 1) (by omega) i, inside]

/-- Two records of a function are the same exactly when each text without a name was the
same before. -/
theorem described_same_iff (pcixMmioBase : BitVec 64) (population : Population)
    (entry : Place × Names) (assigned : BitVec 64) (left right : PciData)
    (leftTidy : left.Tidy pcixMmioBase) (rightTidy : right.Tidy pcixMmioBase) :
    described pcixMmioBase population entry assigned left =
        described pcixMmioBase population entry assigned right ↔
      (entry.2.vendor.isSome = true ∨ left.ventxt = right.ventxt) ∧
        (entry.2.device.isSome = true ∨ left.devtxt = right.devtxt) := by
  have bases : (if pcixMmioBase = 0 then left.phyBase else assigned) =
      if pcixMmioBase = 0 then right.phyBase else assigned := by
    split
    · next none => rw [leftTidy.phyBase none, rightTidy.phyBase none]
    · rfl
  simp only [described, PciData.mk.injEq, true_and, bases, and_true]
  rw [storeName_same_iff _ _ _ (leftTidy.ventxt.trans rightTidy.ventxt.symm),
    storeName_same_iff _ _ _ (leftTidy.devtxt.trans rightTidy.devtxt.symm)]

section Rescans

variable (ioctl : Ioctl LfddPcix δ) (pcixMmioBase : BitVec 64) (database : NameDatabase)
  (population : Population) (shows_ : Shows ioctl population) (maxpcibus : Int)
  (accepted : maxpcibus < maxPcibus) (fuel : Nat) (enough : 256 ≤ fuel)
  (request : LfddPcix) (driver : δ)

include shows_ accepted enough

/-- Two scans from tidy lists record the same exactly when the texts that are not found
were the same before. -/
theorem rescans_same_iff (left right : Vector PciData 200) (leftLen rightLen : Nat)
    (leftTidy : Tidy pcixMmioBase left) (rightTidy : Tidy pcixMmioBase right) :
    let first := scanPCIDevice ioctl pcixMmioBase database fuel maxpcibus
      ⟨driver, request, left, leftLen⟩
    let second := scanPCIDevice ioctl pcixMmioBase database fuel maxpcibus
      ⟨driver, request, right, rightLen⟩
    (first.2.pciListLen = second.2.pciListLen ∧ first.2.records = second.2.records) ↔
      ∀ i (inside : i < 200) (entry : Place × Names),
        (survey database population 200 (population.present maxpcibus)).1[i]? = some entry →
        (entry.2.vendor.isSome = true ∨ left[i].ventxt = right[i].ventxt) ∧
          (entry.2.device.isSome = true ∨ left[i].devtxt = right[i].devtxt) := by
  have within := (survey_spec database population (population.present maxpcibus) 200
    (by decide)).within
  obtain ⟨assigned, ran⟩ := scan_refines ioctl pcixMmioBase database population shows_ maxpcibus
    accepted fuel enough request driver
  obtain ⟨first, firstRan, firstLen, firstEntries⟩ := ran left leftLen
  obtain ⟨second, secondRan, secondLen, secondEntries⟩ := ran right rightLen
  rw [firstRan, secondRan]
  generalize (survey database population 200 (population.present maxpcibus)).1 = entries at *
  simp only [firstLen, secondLen, true_and]
  have recorded : ∀ i (inside : i < 200) entry, entries[i]? = some entry →
      first.records[i]? =
          some (described pcixMmioBase population entry (assigned i) left[i]) ∧
        second.records[i]? =
          some (described pcixMmioBase population entry (assigned i) right[i]) := by
    intro i inside entry listed
    have below : i < entries.length := (List.getElem?_eq_some_iff.mp listed).1
    constructor
    · rw [first.records_entry i (by omega), firstEntries i entry listed]
      simp [inside]
    · rw [second.records_entry i (by omega), secondEntries i entry listed]
      simp [inside]
  constructor
  · intro same i inside entry listed
    obtain ⟨firstRecord, secondRecord⟩ := recorded i inside entry listed
    rw [← described_same_iff pcixMmioBase population entry (assigned i) left[i] right[i]
      (leftTidy i inside) (rightTidy i inside)]
    rw [same, secondRecord, Option.some.injEq] at firstRecord
    exact firstRecord.symm
  · intro same
    apply List.ext_getElem?
    intro i
    by_cases below : i < entries.length
    · have listed := List.getElem?_eq_getElem below
      obtain ⟨firstRecord, secondRecord⟩ := recorded i (by omega) _ listed
      rw [firstRecord, secondRecord, (described_same_iff pcixMmioBase population entries[i]
        (assigned i) left[i] right[i] (leftTidy i (by omega)) (rightTidy i (by omega))).mpr
        (same i (by omega) _ listed)]
    · rw [List.getElem?_eq_none, List.getElem?_eq_none]
      · rw [Scan.records, List.length_take, Vector.length_toList]
        omega
      · rw [Scan.records, List.length_take, Vector.length_toList]
        omega

/-- Two scans, from lists that earlier scans left, record the same exactly when for every
function they reach each name is found or the texts at its index were the same. -/
theorem scan_history_iff (left right : Vector PciData 200) (leftLen rightLen : Nat)
    (leftBefore : LeftByScans δ pcixMmioBase left)
    (rightBefore : LeftByScans δ pcixMmioBase right) :
    let first := scanPCIDevice ioctl pcixMmioBase database fuel maxpcibus
      ⟨driver, request, left, leftLen⟩
    let second := scanPCIDevice ioctl pcixMmioBase database fuel maxpcibus
      ⟨driver, request, right, rightLen⟩
    (first.2.pciListLen = second.2.pciListLen ∧ first.2.records = second.2.records) ↔
      ∀ i (inside : i < 200) place names, (population.present maxpcibus)[i]? = some place →
        (∀ earlier ∈ (population.present maxpcibus).take i,
          Answers database population earlier) →
        findNames database (population.venid place) (population.devid place) = .ok names →
        (names.vendor.isSome = true ∨ left[i].ventxt = right[i].ventxt) ∧
          (names.device.isSome = true ∨ left[i].devtxt = right[i].devtxt) := by
  intro first second
  refine (rescans_same_iff ioctl pcixMmioBase database population shows_ maxpcibus accepted fuel
    enough request driver left right leftLen rightLen leftBefore.tidy rightBefore.tidy).trans ?_
  have entry := survey_entry_iff database population (population.present maxpcibus) 200 (by decide)
  constructor
  · intro same i inside place names reached answers found
    exact same i inside (place, names) ((entry i place names).mpr ⟨inside, reached, answers, found⟩)
  · intro same i inside surveyed listed
    obtain ⟨_, reached, answers, found⟩ := (entry i surveyed.1 surveyed.2).mp listed
    exact same i inside surveyed.1 surveyed.2 reached answers found

end Rescans

/-- A database of one vendor with one device: the lines `8086  A` and, after a tab,
`1237  B`. -/
def smallDatabase : NameDatabase :=
  ⟨some ([0x38, 0x30, 0x38, 0x36, 0x20, 0x20, 0x41, 0x0a,
    0x09, 0x31, 0x32, 0x33, 0x37, 0x20, 0x20, 0x42, 0x0a].map .byte ++ [.endOfFile]), 0⟩

/-- The small database has the names of this vendor and device, -/
theorem smallDatabase_bridge :
    findNames smallDatabase 0x8086 0x1237 =
      .ok ⟨some [0x38, 0x30, 0x38, 0x36, 0x20, 0x20, 0x41],
        some [0x31, 0x32, 0x33, 0x37, 0x20, 0x20, 0x42]⟩ := rfl

/-- and of another device of the vendor it has the vendor's name only. -/
theorem smallDatabase_other :
    findNames smallDatabase 0x8086 0x9999 =
      .ok ⟨some [0x38, 0x30, 0x38, 0x36, 0x20, 0x20, 0x41], none⟩ := rfl

/-- The list after a scan of the host bridge with this database. -/
def bridgeList : Vector PciData 200 := (hostScan smallDatabase 1).2.lfddPciList

/-- This list is one that a scan leaves: the first scan, of a computer with a host bridge alone. -/
theorem bridgeList_left : LeftByScans (Machine Unit) 0 bridgeList :=
  .scanned (lfddIoctl (soleFunction hostBridge)) smallDatabase 256 1
    (Scan.starting (Machine.loaded () 0)) .starting

/-- Scanning the bridge again gives what the first scan gave: both names are found. -/
theorem bridge_rescanned :
    let again := scanPCIDevice (lfddIoctl (soleFunction hostBridge)) 0 smallDatabase 256 1
      ⟨Machine.loaded () 0, LfddPcix.atRegister 0 0 0, bridgeList, 1⟩
    let first := scanPCIDevice (lfddIoctl (soleFunction hostBridge)) 0 smallDatabase 256 1
      ⟨Machine.loaded () 0, LfddPcix.atRegister 0 0 0, Vector.replicate 200 PciData.zero, 0⟩
    again.2.pciListLen = first.2.pciListLen ∧ again.2.records = first.2.records :=
  (scan_history_iff (lfddIoctl (soleFunction hostBridge)) 0 smallDatabase (soleIds hostBridge)
    (soleFunction_shows hostBridge) 1 (by decide) 256 (le_refl 256) (LfddPcix.atRegister 0 0 0)
    (Machine.loaded () 0) bridgeList (Vector.replicate 200 PciData.zero) 1 0 bridgeList_left
    .starting).mpr fun i inside place names reached _ found => by
      rw [soleIds_first hostBridge (by decide)] at reached
      obtain rfl : (⟨0, 0, 0⟩ : Place) = place := by
        cases i with
        | zero => exact Option.some.inj reached
        | succ i => simp at reached
      obtain rfl := Except.ok.inj (smallDatabase_bridge.symm.trans found)
      exact ⟨Or.inl rfl, Or.inl rfl⟩

/-- What the database has of the only function of a machine is surveyed. -/
theorem sole_surveyed (dword : BitVec 32) (answers : dword.setWidth 16 ≠ (0xffff : BitVec 16))
    (database : NameDatabase) (names : Names)
    (found : findNames database ((soleIds dword).venid ⟨0, 0, 0⟩)
      ((soleIds dword).devid ⟨0, 0, 0⟩) = .ok names) :
    (survey database (soleIds dword) 200 ((soleIds dword).present 1)).1[0]? =
      some (⟨0, 0, 0⟩, names) := by
  rw [survey_entry_iff database (soleIds dword) _ 200 (by decide), soleIds_first dword answers]
  exact ⟨by decide, rfl, by simp, found⟩

/-- The first record of the list has the bridge's name. -/
theorem bridgeList_named : bridgeList[0].devtxt[0] = 0x42 := by
  obtain ⟨assigned, ran⟩ := scan_refines (lfddIoctl (soleFunction hostBridge)) 0 smallDatabase
    (soleIds hostBridge) (soleFunction_shows hostBridge) 1 (by decide) 256 (le_refl 256)
    (LfddPcix.atRegister 0 0 0) (Machine.loaded () 0)
  obtain ⟨after, scanned, _, entries⟩ := ran (Vector.replicate 200 PciData.zero) 0
  have record := entries 0 _ (sole_surveyed hostBridge (by decide) smallDatabase _
    smallDatabase_bridge)
  have same : bridgeList = after.lfddPciList := by
    rw [bridgeList, hostScan, Scan.starting, scanned]
  rw [← same] at record
  have first : bridgeList[0]? = some bridgeList[0] := Vector.getElem?_eq_getElem (by decide)
  rw [first, Vector.getElem?_eq_getElem (by decide), Option.map_some, Option.some.injEq] at record
  rw [record]
  rfl

/-- When the bridge was replaced by a device that the database does not know, a scan leaves
the bridge's name in its record. -/
theorem old_name_shown :
    let again := scanPCIDevice (lfddIoctl (soleFunction 0x99998086)) 0 smallDatabase 256 1
      ⟨Machine.loaded () 0, LfddPcix.atRegister 0 0 0, bridgeList, 1⟩
    let first := scanPCIDevice (lfddIoctl (soleFunction 0x99998086)) 0 smallDatabase 256 1
      ⟨Machine.loaded () 0, LfddPcix.atRegister 0 0 0, Vector.replicate 200 PciData.zero, 0⟩
    LeftByScans (Machine Unit) 0 bridgeList ∧
      LeftByScans (Machine Unit) 0 (Vector.replicate 200 PciData.zero) ∧
      ¬ (again.2.pciListLen = first.2.pciListLen ∧ again.2.records = first.2.records) := by
  refine ⟨bridgeList_left, .starting, fun same => ?_⟩
  have zeroed : LeftByScans (Machine Unit) 0 (Vector.replicate 200 PciData.zero) := .starting
  have names := (rescans_same_iff (lfddIoctl (soleFunction 0x99998086)) 0 smallDatabase
    (soleIds 0x99998086) (soleFunction_shows 0x99998086) 1 (by decide) 256 (le_refl 256)
    (LfddPcix.atRegister 0 0 0) (Machine.loaded () 0) bridgeList
    (Vector.replicate 200 PciData.zero) 1 0 bridgeList_left.tidy zeroed.tidy).mp same 0 (by decide)
    _ (sole_surveyed 0x99998086 (by decide) smallDatabase _ smallDatabase_other)
  rcases names.2 with found | kept
  · exact absurd found (by simp)
  · have letter := bridgeList_named
    rw [kept] at letter
    exact absurd letter (by decide)

end Lfdk.PciScan
