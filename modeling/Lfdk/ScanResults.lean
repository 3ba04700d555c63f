import Lfdk.PciSurvey

/-!
# The records of a scan

A scan that is not stopped by a lookup records the first 200 of the present functions
below the maximum bus, in order, each with its own ids. With fewer than 200 recorded
there are no others. The maximum itself is not scanned: the option that sets it calls
it the maximum bus number to scan, and a function on that bus is not recorded.
-/

namespace Lfdk.PciScan

open CountedLoops PciNames

universe u v
variable {δ : Type u}

/-- `lfdd_pci_list[0]` to `lfdd_pci_list[pci_list_len - 1]` -/
def Scan.records (scan : Scan δ) : List PciData := scan.lfddPciList.toList.take scan.pciListLen

/-- The records of a scan are the first entries of its list. -/
theorem Scan.records_entry (scan : Scan δ) (i : Nat) (below : i < scan.pciListLen) :
    scan.records[i]? = scan.lfddPciList[i]? := by
  rw [Scan.records, List.getElem?_take_of_lt below, Vector.getElem?_toList]

def PciData.place (record : PciData) : Place := ⟨record.bus, record.dev, record.func⟩

/-- The scan returns, at the end of its loops or with a full list. -/
def Ending.Returns (ending : Ending) : Prop := ending = .completed ∨ ending = .full

/-- A scan that returns has not ended in a lookup. -/
theorem Ending.Returns.not_lookup {ending : Ending} (returned : ending.Returns) (fault : Fault) :
    ending ≠ .lookup fault := by
  rcases returned with rfl | rfl <;> simp

/-- The present functions of the buses below the maximum, in order. -/
def Population.present (population : Population) (maxpcibus : Int) : List Place :=
  (functions maxpcibus).filter population.isPresent

/-- A lookup of the names of a function returns. -/
def Answers (database : NameDatabase) (population : Population) (place : Place) : Prop :=
  ∃ names, findNames database (population.venid place) (population.devid place) = .ok names

/-- A survey ends well exactly when the lookups for all functions that fit the list
return. -/
theorem Surveyed.returns_iff {database : NameDatabase} {population : Population} {room : Nat}
    {places : List Place} {entries : List (Place × Names)} {ending : Ending}
    (surveyed : Surveyed database population room places entries ending) :
    ending.Returns ↔ ∀ place ∈ places.take room, Answers database population place := by
  have answered : ∀ place ∈ places.take entries.length, Answers database population place := by
    intro place member
    rw [← surveyed.places_eq] at member
    obtain ⟨entry, recorded, rfl⟩ := List.mem_map.mp member
    exact ⟨entry.2, surveyed.named entry recorded⟩
  constructor
  · intro returned
    rcases surveyed.ended with ⟨_, all, more⟩ | ⟨_, all⟩ | ⟨fault, place, stopped, _⟩
    · rw [List.take_of_length_le (by omega)]
      rwa [List.take_of_length_le (by omega)] at answered
    · rwa [all] at answered
    · exact absurd stopped (returned.not_lookup fault)
  · intro answers
    rcases surveyed.ended with ⟨completed, _⟩ | ⟨full, _⟩ |
      ⟨fault, place, _, more, reached, unfound⟩
    · exact Or.inl completed
    · exact Or.inr full
    · have fits : place ∈ places.take room := by
        apply List.mem_of_getElem? (i := entries.length)
        rw [List.getElem?_take_of_lt more]
        exact reached
      obtain ⟨names, found⟩ := answers place fits
      exact absurd (unfound.symm.trans found) (by simp)

/-- Of two places one comes first only, in the order of bus, device and function. -/
theorem Place.Before.asymm {first second : Place} (before : first.Before second) :
    ¬ second.Before first := by
  simp only [Place.Before, BitVec.lt_def, ← BitVec.toNat_inj] at before ⊢
  omega

/-- The present functions are those in range of the buses below the maximum that answer. -/
theorem Population.mem_present (population : Population) (maxpcibus : Int)
    (accepted : maxpcibus ≤ maxPcibus) (place : Place) :
    place ∈ population.present maxpcibus ↔ ((place.bus.toNat : Int) < maxpcibus ∧ place.InRange) ∧
      population.isPresent place = true := by
  rw [Population.present, List.mem_filter, mem_functions maxpcibus accepted]

/-- They are listed in the order of the loops: by bus, device and function. -/
theorem Population.present_increasing (population : Population) (maxpcibus : Int)
    (accepted : maxpcibus ≤ maxPcibus) : (population.present maxpcibus).Pairwise Place.Before :=
  (functions_increasing maxpcibus accepted).filter _

/-- None is listed twice, so the positions of a list tell its functions apart. -/
theorem Population.present_nodup (population : Population) (maxpcibus : Int)
    (accepted : maxpcibus ≤ maxPcibus) : (population.present maxpcibus).Nodup := by
  apply (population.present_increasing maxpcibus accepted).imp
  rintro place _ before rfl
  exact before.asymm before

/-- What comes before one of the first places is one of the first itself. -/
theorem earlier_taken {places : List Place} (sorted : places.Pairwise Place.Before) (count : Nat)
    {place later : Place} (member : place ∈ places) (taken : later ∈ places.take count)
    (before : place.Before later) : place ∈ places.take count := by
  rw [← List.take_append_drop count places] at member sorted
  rcases List.mem_append.mp member with first | rest
  · exact first
  · have after : later.Before place := (List.pairwise_append.mp sorted).2.2 later taken place rest
    exact absurd before after.asymm

/-- The port address of the first dword of a function. -/
def Place.configAddress (place : Place) : BitVec 32 :=
  BitVec.ofNat 32
    (2 ^ 31 + (place.bus.toNat * 2 ^ 8 + place.dev.toNat * 2 ^ 3 + place.func.toNat) * 2 ^ 8)

section Driver

variable {σ : Type v} (platform : Platform σ)

/-- The driver reads a word of the first dword through the ports. -/
theorem lfddIoctl_word (place : Place) (inRange : place.InRange) (dword : BitVec 32)
    (shown : ∀ device, platform.configRead device place.configAddress = dword)
    (reg : BitVec 16) (word : reg = 0 ∨ reg = 2) :
    ReadsWord (lfddIoctl platform) place reg ((dword >>> (reg.toNat * 8)).setWidth 16) := by
  intro request machine bus dev func asked ports
  have low : request.reg.toNat < 2 ^ 8 := by
    rw [asked]
    rcases word with rfl | rfl <;> decide
  have first : request.reg.toNat % 2 ^ 8 / 2 ^ 2 * 2 ^ 2 = 0 := by
    rw [asked]
    rcases word with rfl | rfl <;> rfl
  have selected : request.selected = place.configAddress := by
    have busBound := place.bus.isLt
    obtain ⟨devBound, funcBound⟩ := inRange
    rw [← BitVec.toNat_inj, selected_ports request ports, merged_low request low, first,
      LfddPcix.function, bus, dev, func, Place.configAddress, BitVec.toNat_ofNat]
    omega
  have lane : (request.addr &&& 0x3) * 8 = BitVec.ofNat 32 (reg.toNat * 8) := by
    have offset := addr_lane request (by rw [ports]; exact dvd_zero _)
    rw [asked] at offset
    rw [← BitVec.toNat_inj, BitVec.toNat_mul, offset]
    rcases word with rfl | rfl <;> rfl
  have served : lfddIoctl platform .readWord request machine =
      (true, { request with buf := (((dword >>> (reg.toNat * 8)) &&& 0xffff).setWidth 16).setWidth 32 },
        (lfddPcixReadWord platform request machine).2) := by
    have shift : (BitVec.ofNat 32 (reg.toNat * 8)).toNat = reg.toNat * 8 := by
      rcases word with rfl | rfl <;> rfl
    simp only [lfddIoctl, lfddPcixReadWord, readSingle, invalidMmio_ports platform request _ ports,
      Bool.false_eq_true, if_false, mapBlock, ports, if_true, readAccess, inl, outl, selected,
      Machine.logged_device, Machine.logged_configAddress, shown, lane, BitVec.ushiftRight_eq', shift]
  refine ⟨_, _, served, ?_⟩
  have half : ((dword >>> (reg.toNat * 8)) &&& 0xffff).toNat =
      (dword >>> (reg.toNat * 8)).toNat % 2 ^ 16 :=
    Words.low_toNat (k := 16) (dword >>> (reg.toNat * 8)) (by decide)
  rw [← BitVec.toNat_inj]
  simp only [BitVec.toNat_setWidth, half]
  omega

/-- The driver shows the ids that are in the first dwords. -/
theorem lfddIoctl_shows (dword : Place → BitVec 32)
    (shown : ∀ device (place : Place), place.InRange →
      platform.configRead device place.configAddress = dword place) :
    Shows (lfddIoctl platform)
      ⟨fun place => (dword place).setWidth 16, fun place => (dword place >>> 16).setWidth 16⟩ := by
  constructor
  · intro place inRange
    exact lfddIoctl_word platform place inRange (dword place)
      (fun device => shown device place inRange) 0 (Or.inl rfl)
  · intro place inRange
    exact lfddIoctl_word platform place inRange (dword place)
      (fun device => shown device place inRange) 2 (Or.inr rfl)

end Driver
/-- A machine whose only function is the first one of the first bus. -/
def soleFunction (dword : BitVec 32) : Platform Unit :=
  { Platform.constant 0xffffffff 0 (fun _ => false) with
    configRead := fun _ address => if address = 0x80000000 then dword else 0xffffffff }

/-- The first dword of each of its functions. -/
def soleDword (dword : BitVec 32) (place : Place) : BitVec 32 :=
  if place.configAddress = 0x80000000 then dword else 0xffffffff

/-- The ids of its functions. -/
def soleIds (dword : BitVec 32) : Population :=
  ⟨fun place => (soleDword dword place).setWidth 16,
    fun place => (soleDword dword place >>> 16).setWidth 16⟩

/-- A read of the ids through the ports gives those of the population with one function. -/
theorem soleFunction_shows (dword : BitVec 32) :
    Shows (lfddIoctl (soleFunction dword)) (soleIds dword) :=
  lfddIoctl_shows (soleFunction dword) (soleDword dword) fun _ _ _ => rfl

/-- Its only function is the first one of the first bus. -/
theorem soleIds_present (dword : BitVec 32) (place : Place) (inRange : place.InRange)
    (present : (soleIds dword).isPresent place = true) : place = ⟨0, 0, 0⟩ := by
  have first : place.configAddress = 0x80000000 := by
    by_contra other
    have ones : soleDword dword place = 0xffffffff := if_neg other
    simp [soleIds, Population.isPresent, ones] at present
  obtain ⟨bus, dev, func⟩ := place
  obtain ⟨devBound, funcBound⟩ := inRange
  have busBound := bus.isLt
  have address : (2 ^ 31 + (bus.toNat * 2 ^ 8 + dev.toNat * 2 ^ 3 + func.toNat) * 2 ^ 8) % 2 ^ 32 =
      2 ^ 31 := congrArg BitVec.toNat first
  simp only at devBound funcBound
  simp only [Place.mk.injEq, ← BitVec.toNat_inj]
  change bus.toNat = 0 ∧ dev.toNat = 0 ∧ func.toNat = 0
  omega

/-- The buses below a maximum have that function only. -/
theorem soleIds_only (dword : BitVec 32) (maxpcibus : Int) (accepted : maxpcibus ≤ maxPcibus) :
    (soleIds dword).present maxpcibus ⊆ [⟨0, 0, 0⟩] := by
  intro place member
  obtain ⟨⟨_, inRange⟩, present⟩ := ((soleIds dword).mem_present maxpcibus accepted place).mp member
  exact List.mem_singleton.mpr (soleIds_present dword place inRange present)

/-- So there is room for all of them in the list of 200. -/
theorem soleIds_few (dword : BitVec 32) :
    ((soleIds dword).present maxPcibus).length ≤ maxPcibuf := by
  have distinct := (soleIds dword).present_nodup maxPcibus (le_refl _)
  exact (distinct.length_le_of_subset (soleIds_only dword maxPcibus (le_refl _))).trans (by decide)

/-- The first bus has it, when it answers with a vendor id that is not all ones. -/
theorem soleIds_first (dword : BitVec 32) (answers : dword.setWidth 16 ≠ (0xffff : BitVec 16)) :
    (soleIds dword).present 1 = [⟨0, 0, 0⟩] := by
  have distinct := (soleIds dword).present_nodup 1 (by decide)
  have short := distinct.length_le_of_subset (soleIds_only dword 1 (by decide))
  have first : (⟨0, 0, 0⟩ : Place) ∈ (soleIds dword).present 1 := by
    refine ((soleIds dword).mem_present 1 (by decide) ⟨0, 0, 0⟩).mpr
      ⟨⟨by decide, by decide, by decide⟩, ?_⟩
    exact decide_eq_true answers
  obtain ⟨place, one⟩ := List.length_eq_one_iff.mp
    (le_antisymm short (List.length_pos_of_mem first))
  rw [one] at first ⊢
  rw [List.mem_singleton.mp first]

/-- The first dword of the host bridge. -/
def hostBridge : BitVec 32 := 0x12378086

/-- The scanner right after the program was started. -/
def Scan.starting (machine : Machine Unit) : Scan (Machine Unit) :=
  ⟨machine, LfddPcix.atRegister 0 0 0, Vector.replicate 200 PciData.zero, 0⟩

/-- The first scan on a machine that has the host bridge only. -/
def hostScan (database : NameDatabase) (maxpcibus : Int) : Ending × Scan (Machine Unit) :=
  scanPCIDevice (lfddIoctl (soleFunction hostBridge)) 0 database 256 maxpcibus
    (Scan.starting (Machine.loaded () 0))

section Scans

variable (ioctl : Ioctl LfddPcix δ) (pcixMmioBase : BitVec 64) (database : NameDatabase)
  (population : Population)

/-- A scan does what the survey of the present functions says. -/
theorem scan_refines (shows_ : Shows ioctl population) (maxpcibus : Int)
    (accepted : maxpcibus < maxPcibus) (fuel : Nat) (enough : 256 ≤ fuel) (request : LfddPcix)
    (driver : δ) :
    let surveyed := survey database population 200 (population.present maxpcibus)
    ∃ assigned : Nat → BitVec 64, ∀ list len, ∃ after : Scan δ,
      scanPCIDevice ioctl pcixMmioBase database fuel maxpcibus ⟨driver, request, list, len⟩ =
        (surveyed.2, after) ∧
      after.pciListLen = surveyed.1.length ∧
      ∀ i entry, surveyed.1[i]? = some entry →
        after.lfddPciList[i]? =
          (list[i]?).map (described pcixMmioBase population entry (assigned i)) := by
  intro surveyed
  have inRange : ∀ place ∈ functions maxpcibus, place.InRange := fun place member =>
    ((mem_functions maxpcibus (le_of_lt accepted) place).mp member).2
  obtain ⟨assigned, ran⟩ := probes_refine ioctl pcixMmioBase database population shows_
    (functions maxpcibus) inRange request driver 0 (by decide)
  refine ⟨assigned, fun list len => ?_⟩
  obtain ⟨after, folded, len', _, entries⟩ := ran list
  simp only [Nat.zero_add] at len' entries
  refine ⟨after, ?_, len', entries⟩
  rw [scanPCIDevice_functions ioctl pcixMmioBase database maxpcibus accepted fuel enough]
  simp only [folded]
  exact ended_outcome surveyed.2 after

/-- The places that a scan has records of, and what each record says. -/
theorem scan_places (shows_ : Shows ioctl population) (maxpcibus : Int)
    (accepted : maxpcibus < maxPcibus) (fuel : Nat) (enough : 256 ≤ fuel) (scan : Scan δ) :
    let surveyed := survey database population 200 (population.present maxpcibus)
    ∃ after : Scan δ,
      scanPCIDevice ioctl pcixMmioBase database fuel maxpcibus scan = (surveyed.2, after) ∧
      after.pciListLen = surveyed.1.length ∧
      after.records.map PciData.place = surveyed.1.map Prod.fst ∧
      ∀ record ∈ after.records, record.venid = population.venid record.place ∧
        record.devid = population.devid record.place := by
  intro surveyed
  obtain ⟨assigned, ran⟩ := scan_refines ioctl pcixMmioBase database population shows_ maxpcibus
    accepted fuel enough scan.lfddPciData scan.driver
  have within : surveyed.1.length ≤ 200 :=
    (survey_spec database population (population.present maxpcibus) 200 (by decide)).within
  obtain ⟨after, scanned, len, entries⟩ := ran scan.lfddPciList scan.pciListLen
  change _ = (surveyed.2, after) at scanned
  change _ = surveyed.1.length at len
  change ∀ i entry, surveyed.1[i]? = some entry → _ at entries
  clear_value surveyed
  have length : after.records.length = surveyed.1.length := by
    rw [Scan.records, List.length_take, Vector.length_toList, len]
    omega
  have recorded : ∀ i (inside : i < surveyed.1.length), ∃ assigned before,
      after.records[i]? = some (described pcixMmioBase population surveyed.1[i] assigned before) := by
    intro i inside
    refine ⟨assigned i, scan.lfddPciList[i], ?_⟩
    have entry := entries i surveyed.1[i] (List.getElem?_eq_getElem inside)
    rw [after.records_entry i (by omega), entry]
    simp [show i < 200 by omega]
  refine ⟨after, scanned, len, ?_, ?_⟩
  · apply List.ext_getElem?
    intro i
    rw [List.getElem?_map, List.getElem?_map]
    by_cases inside : i < surveyed.1.length
    · obtain ⟨assigned, before, record⟩ := recorded i inside
      rw [record, List.getElem?_eq_getElem inside]
      rfl
    · rw [List.getElem?_eq_none (by omega), List.getElem?_eq_none (by omega)]
      rfl
  · intro record member
    obtain ⟨i, inside, rfl⟩ := List.getElem_of_mem member
    obtain ⟨assigned, before, record⟩ := recorded i (by omega)
    rw [List.getElem?_eq_getElem inside, Option.some.injEq] at record
    rw [record]
    exact ⟨rfl, rfl⟩

/-- What a scan is to leave: at the end of the loops or with a full list, records of the
first present functions, in order and each with its own ids, and of all of them when the
list is not full. -/
structure RecordsPresent (population : Population) (maxpcibus : Int) (ending : Ending)
    (scan : Scan δ) : Prop where
  returns : ending.Returns
  within : scan.pciListLen ≤ maxPcibuf
  increasing : (scan.records.map PciData.place).Pairwise Place.Before
  present : ∀ record ∈ scan.records,
    record.place.InRange ∧ population.isPresent record.place = true ∧
      record.venid = population.venid record.place ∧ record.devid = population.devid record.place
  earlier : ∀ record ∈ scan.records, ∀ place : Place, place.InRange →
    population.isPresent place = true → place.Before record.place →
      place ∈ scan.records.map PciData.place
  complete : scan.pciListLen < maxPcibuf → ∀ place : Place, place.InRange →
    population.isPresent place = true → (place.bus.toNat : Int) < maxpcibus →
      place ∈ scan.records.map PciData.place

/-- A scan records what it is to record exactly when the lookups for the first 200 present
functions return. -/
theorem scan_records_iff (shows_ : Shows ioctl population) (maxpcibus : Int)
    (accepted : maxpcibus < maxPcibus) (fuel : Nat) (enough : 256 ≤ fuel) (scan : Scan δ) :
    let result := scanPCIDevice ioctl pcixMmioBase database fuel maxpcibus scan
    RecordsPresent population maxpcibus result.1 result.2 ↔
      ∀ place ∈ (population.present maxpcibus).take maxPcibuf,
        Answers database population place := by
  obtain ⟨after, scanned, len, places, ids⟩ := scan_places ioctl pcixMmioBase database population
    shows_ maxpcibus accepted fuel enough scan
  have surveyed := survey_spec database population (population.present maxpcibus) 200 (by decide)
  rw [scanned]
  simp only
  constructor
  · intro recorded
    exact surveyed.returns_iff.mp recorded.returns
  · intro answers
    have returned := surveyed.returns_iff.mpr answers
    have sorted := population.present_increasing maxpcibus (le_of_lt accepted)
    have listed := population.mem_present maxpcibus (le_of_lt accepted)
    rw [surveyed.places_eq] at places
    have taken : ∀ record ∈ after.records, record.place ∈ (population.present maxpcibus).take
        (survey database population 200 (population.present maxpcibus)).1.length := by
      intro record member
      rw [← places]
      exact List.mem_map_of_mem member
    refine ⟨returned, ?_, ?_, ?_, ?_, ?_⟩
    · rw [len]
      exact surveyed.within
    · rw [places]
      exact sorted.sublist (List.take_sublist _ _)
    · intro record member
      obtain ⟨⟨_, inRange⟩, present⟩ := (listed record.place).mp
        (List.mem_of_mem_take (taken record member))
      exact ⟨inRange, present, ids record member⟩
    · intro record member place inRange present before
      obtain ⟨⟨below, _⟩, _⟩ := (listed record.place).mp
        (List.mem_of_mem_take (taken record member))
      have lower : place.bus.toNat ≤ record.place.bus.toNat := by
        simp only [Place.Before, BitVec.lt_def, ← BitVec.toNat_inj] at before
        omega
      rw [places]
      exact earlier_taken sorted _ ((listed place).mpr ⟨⟨by omega, inRange⟩, present⟩)
        (taken record member) before
    · intro free place inRange present below
      rw [places]
      rcases surveyed.ended with ⟨_, all, _⟩ | ⟨_, all⟩ | ⟨fault, _, stopped, _⟩
      · rw [List.take_of_length_le (by omega)]
        exact (listed place).mpr ⟨⟨below, inRange⟩, present⟩
      · rw [len, all] at free
        exact absurd free (by decide)
      · exact absurd stopped (returned.not_lookup fault)

/-- Without a name database, the host bridge is recorded. -/
theorem host_bridge_recorded :
    RecordsPresent (soleIds hostBridge) 1 (hostScan ⟨none, 0⟩ 1).1 (hostScan ⟨none, 0⟩ 1).2 :=
  (scan_records_iff (lfddIoctl (soleFunction hostBridge)) 0 ⟨none, 0⟩ (soleIds hostBridge)
    (soleFunction_shows hostBridge) 1 (by decide) 256 (le_refl 256)
    (Scan.starting (Machine.loaded () 0))).mpr fun _ _ => ⟨⟨none, none⟩, rfl⟩

/-- A database whose reads fail keeps the scan from ending, however often it reads: with a
directory in its place, the host bridge is never recorded. -/
theorem failing_database_stops :
    ¬ ∃ reads, RecordsPresent (soleIds hostBridge) 1
      (hostScan ⟨some (List.replicate reads .failed), 0⟩ 1).1
      (hostScan ⟨some (List.replicate reads .failed), 0⟩ 1).2 := by
  rintro ⟨reads, recorded⟩
  obtain ⟨after, scanned, _⟩ := scan_places (lfddIoctl (soleFunction hostBridge)) 0
    ⟨some (List.replicate reads .failed), 0⟩ (soleIds hostBridge) (soleFunction_shows hostBridge) 1
    (by decide) 256 (le_refl 256) (Scan.starting (Machine.loaded () 0))
  rw [hostScan, scanned, soleIds_first hostBridge (by decide)] at recorded
  have answers := (survey_spec _ (soleIds hostBridge) [⟨0, 0, 0⟩] 200
    (by decide)).returns_iff.mp recorded.returns
  obtain ⟨names, found⟩ := answers ⟨0, 0, 0⟩ (List.mem_singleton.mpr rfl)
  obtain ⟨fault, failed⟩ := findNames_failed reads ((soleIds hostBridge).venid ⟨0, 0, 0⟩)
    ((soleIds hostBridge).devid ⟨0, 0, 0⟩)
  exact absurd (failed.symm.trans found) (by simp)

/-- With at most 200 present functions on all buses, the list has room for those below any
maximum. -/
theorem present_fits (few : (population.present maxPcibus).length ≤ maxPcibuf)
    (maxpcibus : Int) (accepted : maxpcibus ≤ maxPcibus) :
    (population.present maxpcibus).length ≤ maxPcibuf := by
  have distinct := population.present_nodup maxpcibus accepted
  have included : population.present maxpcibus ⊆ population.present maxPcibus := by
    intro place member
    obtain ⟨⟨below, inRange⟩, present⟩ := (population.mem_present maxpcibus accepted place).mp member
    exact (population.mem_present maxPcibus (le_refl _) place).mpr
      ⟨⟨lt_of_lt_of_le below accepted, inRange⟩, present⟩
  exact (distinct.length_le_of_subset included).trans few

/-- The scan ends, with records of all present functions up to a bus and on it. -/
def ListsUpTo (population : Population) (bus : Int) (ending : Ending) (scan : Scan δ) : Prop :=
  ending.Returns ∧ ∀ place : Place, place.InRange → population.isPresent place = true →
    (place.bus.toNat : Int) ≤ bus → place ∈ scan.records.map PciData.place

/-- A scan with a maximum lists all functions up to it exactly when the lookups for those
below return and there is none on the bus with the maximum's number. -/
theorem scan_complete_iff (shows_ : Shows ioctl population) (maxpcibus : Int)
    (accepted : maxpcibus < maxPcibus)
    (few : (population.present maxPcibus).length ≤ maxPcibuf) (fuel : Nat) (enough : 256 ≤ fuel)
    (scan : Scan δ) :
    let result := scanPCIDevice ioctl pcixMmioBase database fuel maxpcibus scan
    ListsUpTo population maxpcibus result.1 result.2 ↔
      ∀ place : Place, place.InRange → population.isPresent place = true →
        ((place.bus.toNat : Int) < maxpcibus → Answers database population place) ∧
          (place.bus.toNat : Int) ≠ maxpcibus := by
  obtain ⟨after, scanned, _, places, _⟩ := scan_places ioctl pcixMmioBase database population
    shows_ maxpcibus accepted fuel enough scan
  have surveyed := survey_spec database population (population.present maxpcibus) 200 (by decide)
  have listed := population.mem_present maxpcibus (le_of_lt accepted)
  have fits := present_fits population few maxpcibus (le_of_lt accepted)
  have all : (population.present maxpcibus).take 200 = population.present maxpcibus :=
    List.take_of_length_le fits
  have returned := surveyed.returns_iff
  rw [all] at returned
  rw [surveyed.places_eq] at places
  rw [scanned]
  simp only
  constructor
  · rintro ⟨ended, complete⟩ place inRange present
    constructor
    · intro below
      exact returned.mp ended place ((listed place).mpr ⟨⟨below, inRange⟩, present⟩)
    · intro last
      have recorded := complete place inRange present (le_of_eq last)
      rw [places] at recorded
      obtain ⟨⟨below, _⟩, _⟩ := (listed place).mp (List.mem_of_mem_take recorded)
      omega
  · intro condition
    have ended := returned.mpr fun place member => by
      obtain ⟨⟨below, inRange⟩, present⟩ := (listed place).mp member
      exact (condition place inRange present).1 below
    refine ⟨ended, fun place inRange present upTo => ?_⟩
    have below : (place.bus.toNat : Int) < maxpcibus :=
      lt_of_le_of_ne upTo (condition place inRange present).2
    have whole : (population.present maxpcibus).length ≤
        (survey database population 200 (population.present maxpcibus)).1.length := by
      unfold maxPcibuf at fits
      rcases surveyed.ended with ⟨_, all, _⟩ | ⟨_, all⟩ | ⟨fault, _, stopped, _⟩
      · exact le_of_eq all.symm
      · rw [all]
        exact fits
      · exact absurd stopped (ended.not_lookup fault)
    rw [places, List.take_of_length_le whole]
    exact (listed place).mpr ⟨⟨below, inRange⟩, present⟩

/-- With a maximum above the only bus that has functions, the list is complete. -/
theorem host_bridge_listed :
    ListsUpTo (soleIds hostBridge) 1 (hostScan ⟨none, 0⟩ 1).1 (hostScan ⟨none, 0⟩ 1).2 :=
  (scan_complete_iff (lfddIoctl (soleFunction hostBridge)) 0 ⟨none, 0⟩ (soleIds hostBridge)
    (soleFunction_shows hostBridge) 1 (by decide) (soleIds_few hostBridge) 256 (le_refl 256)
    (Scan.starting (Machine.loaded () 0))).mpr fun place inRange present => by
      rw [soleIds_present hostBridge place inRange present]
      exact ⟨fun _ => ⟨⟨none, none⟩, rfl⟩, by decide⟩

/-- With a maximum of zero, the bridge on bus zero is not found. -/
theorem last_bus_missed :
    ¬ ListsUpTo (soleIds hostBridge) 0 (hostScan ⟨none, 0⟩ 0).1 (hostScan ⟨none, 0⟩ 0).2 := by
  rintro ⟨_, complete⟩
  have recorded := complete ⟨0, 0, 0⟩ ⟨by decide, by decide⟩ (by decide) (by decide)
  exact absurd recorded List.not_mem_nil

end Scans

end Lfdk.PciScan
