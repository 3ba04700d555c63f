import Lfdk.PciScan

/-!
# However a scan ends

A scan can run through, fill the list, or stop in the middle: at a call that fails, at a
lookup that does not return, or for lack of iterations. What one function of the loops keeps,
whether it goes on or stops, the scan keeps. The first use is the bound of the list: between
two functions there is room for another record, and no record outside the list is touched.
-/

namespace Lfdk.PciScan

open CountedLoops PciNames

universe u
variable {δ : Type u}
variable (ioctl : Ioctl LfddPcix δ) (pcixMmioBase : BitVec 64) (database : NameDatabase)

/-- What each probe keeps, a scan that runs through keeps, and one that stops stops so. -/
theorem scan_ends {good : Scan δ → Prop} {stopped : Ending × Scan δ → Prop}
    (out : ∀ scan, good scan → stopped (.unfinished, scan))
    (probed : ∀ place scan, good scan →
      Ends good stopped (probe ioctl pcixMmioBase database place scan))
    (fuel : Nat) (maxpcibus : Int) (scan : Scan δ) (start : good { scan with pciListLen := 0 }) :
    let ran := scanPCIDevice ioctl pcixMmioBase database fuel maxpcibus scan
    ran.1 = .completed ∧ good ran.2 ∨ stopped ran := by
  have looped : Ends good stopped
      (forLoop (fun scan : Scan δ => (Ending.unfinished, scan))
        (fun bus : BitVec 8 => (bus.toNat : Int) < maxpcibus)
        (fun bus =>
          forLoop (fun scan : Scan δ => (Ending.unfinished, scan)) (fun dev : BitVec 8 => dev ≤ 0x1f)
            (fun dev =>
              forLoop (fun scan : Scan δ => (Ending.unfinished, scan))
                (fun func : BitVec 8 => func ≤ 0x07)
                (fun func => probe ioctl pcixMmioBase database ⟨bus, dev, func⟩) fuel 0) fuel 0)
        fuel 0 { scan with pciListLen := 0 }) := by
    apply forLoop_ends
    · exact out
    · intro bus _ kept
      apply forLoop_ends
      · exact out
      · intro dev _ kept
        apply forLoop_ends
        · exact out
        · intro func _ kept
          exact probed ⟨bus, dev, func⟩ _ kept
        · exact kept
      · exact kept
    · exact start
  simp only [scanPCIDevice]
  split
  · next after ended =>
    rw [ended] at looped
    exact Or.inl ⟨rfl, looped⟩
  · next ending ended =>
    rw [ended] at looped
    exact Or.inr looped

/-- A part of a scan goes on with room for a record, and does not stop outside the list. -/
abbrev EndsBounded : Except (Ending × Scan δ) (Scan δ) → Prop :=
  Ends (fun scan => scan.pciListLen < 200)
    (fun ended => ended.1 ≠ .undefined ∧ ended.2.pciListLen ≤ 200)

/-- A command of the scan leaves the number of records within the list. -/
theorem callDriver_bounded (operation : Operation) (driver : δ) (request : LfddPcix)
    (list : Vector PciData 200) {len : Nat} (room : len < 200) :
    EndsBounded (callDriver ioctl operation ⟨driver, request, list, len⟩) := by
  simp only [callDriver]
  split
  · exact room
  · exact ⟨by simp, le_of_lt room⟩

section Room

variable {scan : Scan δ} (room : scan.pciListLen < 200)

include room

/-- So does a change of the record behind the last one, -/
theorem store_bounded (change : PciData → PciData) : EndsBounded (store change scan) := by
  rw [store, dif_pos room]
  exact room

/-- storing its names, also where the lookup fails, -/
theorem storeTexts_bounded : EndsBounded (storeTexts database scan) := by
  rw [storeTexts, dif_pos room]
  simp only
  split
  · exact ⟨by simp, le_of_lt room⟩
  · exact store_bounded room _

/-- and storing its base, with the reads of the search for it. -/
theorem storeBase_bounded : EndsBounded (storeBase ioctl pcixMmioBase scan) := by
  rw [storeBase]
  split
  · exact room
  · exact room

/-- Going on counts the record, and ends the scan where the list is full then. -/
theorem nextRecord_bounded : EndsBounded (nextRecord scan) := by
  simp only [nextRecord]
  split
  · exact ⟨by simp, room⟩
  · next more =>
    simp only [maxPcibuf, not_le] at more
    exact more

/-- Recording a function counts one record at most, by its three steps and the last, which counts
it. -/
theorem recordDevice_bounded (place : Place) :
    EndsBounded (recordDevice ioctl pcixMmioBase database place scan) := by
  rw [recordDevice]
  apply Ends.bind
  · exact store_bounded room _
  intro placed room
  apply Ends.bind
  · exact callDriver_bounded ioctl .readWord _ _ _ room
  intro read room
  apply Ends.bind
  · exact store_bounded room _
  intro identified room
  apply Ends.bind
  · exact storeTexts_bounded database room
  intro named room
  apply Ends.bind
  · exact storeBase_bounded ioctl pcixMmioBase room
  intro based room
  exact nextRecord_bounded room

/-- So does probing a place. With the loops of the scan this bounds the list that it leaves. -/
theorem probe_bounded (place : Place) :
    EndsBounded (probe ioctl pcixMmioBase database place scan) := by
  rw [probe]
  apply Ends.bind
  · exact callDriver_bounded ioctl .readWord _ _ _ room
  intro read room
  split
  · exact room
  · exact recordDevice_bounded ioctl pcixMmioBase database room place

end Room

/-- A scan never touches a record outside the list. -/
theorem scan_bounded (fuel : Nat) (maxpcibus : Int) (scan : Scan δ) :
    let ran := scanPCIDevice ioctl pcixMmioBase database fuel maxpcibus scan
    ran.1 ≠ .undefined ∧ ran.2.pciListLen ≤ 200 := by
  intro ran
  have out : ∀ scan : Scan δ, scan.pciListLen < 200 →
      Ending.unfinished ≠ .undefined ∧ scan.pciListLen ≤ 200 :=
    fun _ room => ⟨by decide, le_of_lt room⟩
  have ends : ran.1 = .completed ∧ ran.2.pciListLen < 200 ∨
      ran.1 ≠ .undefined ∧ ran.2.pciListLen ≤ 200 :=
    scan_ends ioctl pcixMmioBase database out
      (fun place _ room => probe_bounded ioctl pcixMmioBase database room place)
      fuel maxpcibus scan (Nat.zero_lt_succ 199)
  rcases ends with ⟨completed, room⟩ | stopped
  · exact ⟨by rw [completed]; decide, le_of_lt room⟩
  · exact stopped

end Lfdk.PciScan
