import Lfdk.PciScan

/-!
# What a scan records

The functions of the machine have a vendor and a device id each, and absent ones read
as 0xFFFF. A survey goes through the present functions in order, looks up their names,
and ends when the list is full or a lookup does not return. It is decided by the ids,
the name database and the maximum bus.

A scan does what the survey says, whatever the driver remembers, whatever the walk
through the capabilities left in the global request, and whatever the list held before.
-/

namespace Lfdk.PciScan

open CountedLoops PciNames

universe u
variable {δ : Type u}

/-- The vendor and device ids of all functions. -/
structure Population where
  venid : Place → BitVec 16
  devid : Place → BitVec 16

/-- A function that answers with a vendor id. -/
def Population.isPresent (population : Population) (place : Place) : Bool :=
  decide (population.venid place ≠ 0xffff)

/-- The device numbers and function numbers that exist. -/
def Place.InRange (place : Place) : Prop := place.dev.toNat < 32 ∧ place.func.toNat < 8

/-- A word of a function's first dword is read through the ports: the call succeeds, and
leaves the word in the low half of the buffer and the rest of the request as it was. -/
def ReadsWord (ioctl : Ioctl LfddPcix δ) (place : Place) (reg value : BitVec 16) : Prop :=
  ∀ (request : LfddPcix) (driver : δ), request.bus = place.bus → request.dev = place.dev →
    request.func = place.func → request.reg = reg → request.phyBase = 0 →
    ∃ buf after, ioctl .readWord request driver = (true, { request with buf := buf }, after) ∧
      buf.setWidth 16 = value

/-- A driver that shows the ids of all functions, in every state. -/
structure Shows (ioctl : Ioctl LfddPcix δ) (population : Population) : Prop where
  venid : ∀ place : Place, place.InRange → ReadsWord ioctl place 0 (population.venid place)
  devid : ∀ place : Place, place.InRange → ReadsWord ioctl place 2 (population.devid place)

/-- The functions of the buses below the maximum, in the order of the loops. -/
def functions (maxpcibus : Int) : List Place :=
  (below 8 maxpcibus.toNat).flatMap fun bus =>
    (below 8 32).flatMap fun dev => (below 8 8).map fun func => ⟨bus, dev, func⟩

/-- What is recorded of the present functions, in order, with room for so many records:
their places and names, and how it ends if not with the last of them. -/
def survey (database : NameDatabase) (population : Population) :
    Nat → List Place → List (Place × Names) × Ending
  | _, [] => ([], .completed)
  | room, place :: rest =>
    match findNames database (population.venid place) (population.devid place) with
    | .error fault => ([], .lookup fault)
    | .ok names =>
      if room ≤ 1 then ([(place, names)], .full)
      else
        let (more, ending) := survey database population (room - 1) rest
        ((place, names) :: more, ending)

/-- The record of a function. A text without a name in the database stays as it was, and
so does the base without a window. -/
def described (pcixMmioBase : BitVec 64) (population : Population) (entry : Place × Names)
    (assigned : BitVec 64) (before : PciData) : PciData where
  venid := population.venid entry.1
  devid := population.devid entry.1
  bus := entry.1.bus
  dev := entry.1.dev
  func := entry.1.func
  ventxt := storeName entry.2.vendor before.ventxt
  devtxt := storeName entry.2.device before.devtxt
  phyBase := if pcixMmioBase = 0 then before.phyBase else assigned

/-- The test for an absent function looks at the low half of the buffer. -/
theorem absent_iff (buf : BitVec 32) : buf &&& 0xffff = 0xffff ↔ buf.setWidth 16 = 0xffff := by
  have low : (buf &&& 0xffff).toNat = buf.toNat % 2 ^ 16 := Words.low_toNat (k := 16) buf (by decide)
  rw [← BitVec.toNat_inj, ← BitVec.toNat_inj, low, BitVec.toNat_setWidth]
  rfl

section Steps

variable (ioctl : Ioctl LfddPcix δ) (pcixMmioBase : BitVec 64) (database : NameDatabase)
  (population : Population)

/-- A call on the global request that reads a word succeeds, and leaves the word in the request. -/
theorem callDriver_word (place : Place) (reg value : BitVec 16)
    (reads : ReadsWord ioctl place reg value) (request : LfddPcix) (driver : δ)
    (bus : request.bus = place.bus) (dev : request.dev = place.dev)
    (func : request.func = place.func) (asked : request.reg = reg) (ports : request.phyBase = 0) :
    ∃ buf after, buf.setWidth 16 = value ∧
      ∀ list len, callDriver ioctl .readWord ⟨driver, request, list, len⟩ =
        .ok ⟨after, { request with buf := buf }, list, len⟩ := by
  obtain ⟨buf, after, called, shown⟩ := reads request driver bus dev func asked ports
  refine ⟨buf, after, shown, fun list len => ?_⟩
  simp [callDriver, called]

section Room

variable (request : LfddPcix) (driver : δ) (list : Vector PciData 200) (len : Nat)
  (room : len < 200)

include room

/-- Storing where the list has room changes the entry behind the last one, and nothing else. -/
theorem store_room (change : PciData → PciData) :
    store change ⟨driver, request, list, len⟩ =
      .ok ⟨driver, request, list.set len (change list[len]), len⟩ := by
  rw [store, dif_pos room]

/-- The texts that are stored where there is room for the record: the names found for its ids, cut
to their buffers, or the fault of the lookup. -/
theorem storeTexts_room :
    storeTexts database ⟨driver, request, list, len⟩ =
      match findNames database list[len].venid list[len].devid with
      | .error fault => .error (.lookup fault, ⟨driver, request, list, len⟩)
      | .ok names => .ok ⟨driver, request,
          list.set len { list[len] with
            ventxt := storeName names.vendor list[len].ventxt
            devtxt := storeName names.device list[len].devtxt }, len⟩ := by
  rw [storeTexts, dif_pos room]
  simp only
  rw [getVendorAndDeviceTexts_found]
  cases findNames database list[len].venid list[len].devid with
  | error fault => rfl
  | ok names => exact store_room request driver list len room _

end Room

/-- The base that is stored does not depend on the list, but on what the driver answers. -/
theorem storeBase_room (request : LfddPcix) (driver : δ) :
    ∃ assigned request' driver', ∀ list len (room : len < 200),
      storeBase ioctl pcixMmioBase ⟨driver, request, list, len⟩ = .ok ⟨driver', request',
        list.set len { list[len] with
          phyBase := if pcixMmioBase = 0 then list[len].phyBase else assigned }, len⟩ := by
  by_cases without : pcixMmioBase = 0
  · refine ⟨0, request, driver, fun list len room => ?_⟩
    rw [storeBase, if_pos without]
    simp only [without, if_true]
    congr 2
    exact (Vector.set_getElem_self room).symm
  · rcases found : findBase ioctl pcixMmioBase request driver with ⟨assigned, request', driver'⟩
    refine ⟨assigned, request', driver', fun list len room => ?_⟩
    rw [storeBase, if_neg without, dif_pos room]
    simp only [assignMMIOBase, if_neg without, found]

/-- The record of a function that is present is stored, and the scan moves on; or its
lookup does not return. What is stored depends on the list at this record only. -/
theorem recordDevice_spec (shows_ : Shows ioctl population) (place : Place)
    (inRange : place.InRange) (request : LfddPcix) (driver : δ)
    (bus : request.bus = place.bus) (dev : request.dev = place.dev)
    (func : request.func = place.func) (reg : request.reg = 0) (ports : request.phyBase = 0)
    (shown : request.buf.setWidth 16 = population.venid place) :
    ∃ assigned request' driver', ∀ list len (room : len < 200),
      match findNames database (population.venid place) (population.devid place) with
      | .error fault => ∃ stopped : Scan δ, stopped.pciListLen = len ∧
          (∀ i, i < len → stopped.lfddPciList[i]? = list[i]?) ∧
          recordDevice ioctl pcixMmioBase database place ⟨driver, request, list, len⟩ =
            .error (.lookup fault, stopped)
      | .ok names =>
          recordDevice ioctl pcixMmioBase database place ⟨driver, request, list, len⟩ =
            nextRecord ⟨driver', request', list.set len (described pcixMmioBase population
              (place, names) assigned list[len]), len⟩ := by
  obtain ⟨buf, driver₁, devid, called⟩ := callDriver_word ioctl place 2 (population.devid place)
    (shows_.devid place inRange) { request with reg := request.reg + 0x02 } driver bus dev func
    (by simp [reg]) ports
  obtain ⟨assigned, request', driver', based⟩ := storeBase_room ioctl pcixMmioBase
    { request with reg := request.reg + 0x02, buf := buf } driver₁
  refine ⟨assigned, request', driver', fun list len room => ?_⟩
  simp only [recordDevice, store_room _ _ _ _ room, called, storeTexts_room database _ _ _ _ room,
    bind, Except.bind, Vector.getElem_set_self, Vector.set_set, shown, devid]
  cases findNames database (population.venid place) (population.devid place) with
  | error fault =>
    refine ⟨_, rfl, fun i before => ?_, rfl⟩
    simp only
    rw [Vector.getElem?_set_ne room (by omega)]
  | ok names =>
    simp only [based _ len room, Vector.getElem_set_self, Vector.set_set]
    rfl

/-- An absent function leaves the list alone: its vendor id is read, and nothing is recorded. -/
theorem probe_absent (shows_ : Shows ioctl population) (place : Place) (inRange : place.InRange)
    (absent : population.isPresent place = false) (request : LfddPcix) (driver : δ) :
    ∃ request' driver', ∀ list len,
      probe ioctl pcixMmioBase database place ⟨driver, request, list, len⟩ =
        .ok ⟨driver', request', list, len⟩ := by
  obtain ⟨buf, driver', venid, called⟩ := callDriver_word ioctl place 0 (population.venid place)
    (shows_.venid place inRange)
    { request with bus := place.bus, dev := place.dev, func := place.func, reg := 0, phyBase := 0 }
    driver rfl rfl rfl rfl rfl
  have ones : buf &&& 0xffff = 0xffff := by
    rw [absent_iff, venid]
    simpa [Population.isPresent] using absent
  refine ⟨{ request with
    bus := place.bus, dev := place.dev, func := place.func, reg := 0, phyBase := 0, buf := buf },
    driver', fun list len => ?_⟩
  simp only [probe, called, bind, Except.bind]
  rw [if_pos ones]

/-- A present function is recorded behind those found before, or its lookup does not return. -/
theorem probe_present (shows_ : Shows ioctl population) (place : Place) (inRange : place.InRange)
    (present : population.isPresent place = true) (request : LfddPcix) (driver : δ) :
    ∃ assigned request' driver', ∀ list len (room : len < 200),
      match findNames database (population.venid place) (population.devid place) with
      | .error fault => ∃ stopped : Scan δ, stopped.pciListLen = len ∧
          (∀ i, i < len → stopped.lfddPciList[i]? = list[i]?) ∧
          probe ioctl pcixMmioBase database place ⟨driver, request, list, len⟩ =
            .error (.lookup fault, stopped)
      | .ok names =>
          probe ioctl pcixMmioBase database place ⟨driver, request, list, len⟩ =
            nextRecord ⟨driver', request', list.set len (described pcixMmioBase population
              (place, names) assigned list[len]), len⟩ := by
  obtain ⟨buf, driver₁, venid, called⟩ := callDriver_word ioctl place 0 (population.venid place)
    (shows_.venid place inRange)
    { request with bus := place.bus, dev := place.dev, func := place.func, reg := 0, phyBase := 0 }
    driver rfl rfl rfl rfl rfl
  have answers : ¬ buf &&& 0xffff = 0xffff := by
    rw [absent_iff, venid]
    simpa [Population.isPresent] using present
  obtain ⟨assigned, request', driver', recorded⟩ := recordDevice_spec ioctl pcixMmioBase database
    population shows_ place inRange
    { request with
      bus := place.bus, dev := place.dev, func := place.func, reg := 0, phyBase := 0, buf := buf }
    driver₁ rfl rfl rfl rfl rfl venid
  refine ⟨assigned, request', driver', fun list len room => ?_⟩
  simp only [probe, called, bind, Except.bind]
  rw [if_neg answers]
  exact recorded list len room

/-- How the loops end with a scan. -/
def ended (ending : Ending) (scan : Scan δ) : Except (Ending × Scan δ) (Scan δ) :=
  if ending = .completed then .ok scan else .error (ending, scan)

/-- How a scan has ended is read off its outcome, for a completed scan as for one that stopped. -/
theorem ended_outcome (ending : Ending) (scan : Scan δ) :
    (match ended ending scan with
      | .ok scan => (.completed, scan)
      | .error stopped => stopped) = (ending, scan) := by
  by_cases completed : ending = .completed
  · rw [ended, if_pos completed, completed]
  · rw [ended, if_neg completed]

/-- A record is stored at the length of the list, and what follows is stored behind it. -/
theorem entries_cons (entry : Place × Names) (entries : List (Place × Names))
    (assigned : BitVec 64) (assignedRest : Nat → BitVec 64) {len : Nat} (room : len < 200)
    (list after : Vector PciData 200)
    (before : ∀ i, i < len + 1 → after[i]? =
      (list.set len (described pcixMmioBase population entry assigned list[len]))[i]?)
    (later : ∀ i next, entries[i]? = some next → after[len + 1 + i]? =
      ((list.set len (described pcixMmioBase population entry assigned list[len]))[len + 1 + i]?).map
        (described pcixMmioBase population next (assignedRest i))) :
    (∀ i, i < len → after[i]? = list[i]?) ∧
      ∀ i next, (entry :: entries)[i]? = some next → after[len + i]? =
        (list[len + i]?).map (described pcixMmioBase population next
          (if i = 0 then assigned else assignedRest (i - 1))) := by
  constructor
  · intro i below
    rw [before i (by omega)]
    exact Vector.getElem?_set_ne room (by omega)
  · intro i next member
    cases i with
    | zero =>
      obtain rfl : entry = next := by simpa using member
      rw [Nat.add_zero, before len (by omega)]
      simp [room]
    | succ i =>
      have shifted : len + (i + 1) = len + 1 + i := by omega
      rw [shifted, later i next (by simpa using member), Vector.getElem?_set_ne room (by omega)]
      simp

/-- From any record on, the loops over a list of functions do what a survey of the present
ones says. The driver, the global request and the bases that were assigned do not depend
on the list. The induction is on the functions, with the list left open. -/
theorem probes_refine (shows_ : Shows ioctl population) (places : List Place)
    (inRange : ∀ place ∈ places, place.InRange) (request : LfddPcix) (driver : δ) (len : Nat)
    (room : len < 200) :
    let surveyed := survey database population (200 - len) (places.filter population.isPresent)
    ∃ assigned : Nat → BitVec 64, ∀ list, ∃ after : Scan δ,
      places.foldlM (fun scan place => probe ioctl pcixMmioBase database place scan)
        ⟨driver, request, list, len⟩ = ended surveyed.2 after ∧
      after.pciListLen = len + surveyed.1.length ∧
      (∀ i, i < len → after.lfddPciList[i]? = list[i]?) ∧
      ∀ i entry, surveyed.1[i]? = some entry →
        after.lfddPciList[len + i]? =
          (list[len + i]?).map (described pcixMmioBase population entry (assigned i)) := by
  induction places generalizing request driver len with
  | nil => exact ⟨fun _ => 0, fun list => ⟨_, rfl, rfl, fun _ _ => rfl, by simp [survey]⟩⟩
  | cons place rest inductionHypothesis =>
    obtain ⟨first, others⟩ := List.forall_mem_cons.mp inRange
    cases present : population.isPresent place with
    | false =>
      obtain ⟨request', driver', skipped⟩ := probe_absent ioctl pcixMmioBase database population
        shows_ place first present request driver
      have unlisted : (place :: rest).filter population.isPresent =
          rest.filter population.isPresent := by
        rw [List.filter_cons, present]
        rfl
      obtain ⟨assigned, ran⟩ := inductionHypothesis others request' driver' len room
      refine ⟨assigned, fun list => ?_⟩
      rw [unlisted, List.foldlM_cons, skipped list len]
      exact ran list
    | true =>
      obtain ⟨assigned, request', driver', recorded⟩ := probe_present ioctl pcixMmioBase database
        population shows_ place first present request driver
      have listed : (place :: rest).filter population.isPresent =
          place :: rest.filter population.isPresent := by
        rw [List.filter_cons, present]
        rfl
      rw [listed]
      cases found : findNames database (population.venid place) (population.devid place) with
      | error fault =>
        simp only [survey, found] at recorded ⊢
        refine ⟨fun _ => 0, fun list => ?_⟩
        obtain ⟨stopped, len', before, probed⟩ := recorded list len room
        refine ⟨stopped, ?_, len', before, by simp⟩
        rw [List.foldlM_cons, probed]
        rfl
      | ok names =>
        simp only [survey, found] at recorded ⊢
        by_cases last : 200 - len ≤ 1
        · rw [if_pos last]
          refine ⟨fun i => if i = 0 then assigned else 0, fun list => ⟨⟨driver', request',
            list.set len (described pcixMmioBase population (place, names) assigned list[len]),
            len + 1⟩, ?_, rfl, ?_⟩⟩
          · have full : maxPcibuf ≤ len + 1 := by
              unfold maxPcibuf
              omega
            rw [List.foldlM_cons, recorded list len room, nextRecord, if_pos full]
            rfl
          · exact entries_cons pcixMmioBase population (place, names) [] assigned (fun _ => 0) room
              list _ (fun _ _ => rfl) (by simp)
        · obtain ⟨assignedRest, ran⟩ := inductionHypothesis others request' driver' (len + 1)
            (by omega)
          rw [if_neg last, Nat.sub_sub]
          refine ⟨fun i => if i = 0 then assigned else assignedRest (i - 1), fun list => ?_⟩
          obtain ⟨after, folded, len', before, entries⟩ := ran (list.set len (described
            pcixMmioBase population (place, names) assigned list[len]))
          refine ⟨after, ?_, ?_, ?_⟩
          · have more : ¬ maxPcibuf ≤ len + 1 := by
              unfold maxPcibuf
              omega
            rw [List.foldlM_cons, recorded list len room, nextRecord, if_neg more]
            exact folded
          · rw [len', List.length_cons]
            omega
          · exact entries_cons pcixMmioBase population (place, names) _ assigned assignedRest room
              list after.lfddPciList before entries

/-- With an accepted maximum, the counters of the loops reach their bounds, and the loops
go through the functions in order. -/
theorem scanPCIDevice_functions (maxpcibus : Int) (accepted : maxpcibus < maxPcibus) (fuel : Nat)
    (enough : 256 ≤ fuel) (scan : Scan δ) :
    scanPCIDevice ioctl pcixMmioBase database fuel maxpcibus scan =
      match (functions maxpcibus).foldlM
          (fun scan place => probe ioctl pcixMmioBase database place scan)
          { scan with pciListLen := 0 } with
      | .ok scan => (.completed, scan)
      | .error ended => ended := by
  have buses : ∀ bus : BitVec 8, decide ((bus.toNat : Int) < maxpcibus) =
      decide (bus.toNat < maxpcibus.toNat) := by
    intro bus
    rw [decide_eq_decide]
    omega
  have devs : ∀ dev : BitVec 8, decide (dev ≤ 0x1f) = decide (dev.toNat < 32) := by
    intro dev
    rw [decide_eq_decide, BitVec.le_def]
    exact Nat.lt_succ_iff.symm
  have funcs : ∀ func : BitVec 8, decide (func ≤ 0x07) = decide (func.toNat < 8) := by
    intro func
    rw [decide_eq_decide, BitVec.le_def]
    exact Nat.lt_succ_iff.symm
  unfold maxPcibus at accepted
  simp only [scanPCIDevice]
  rw [forLoop_below _ _ _ maxpcibus.toNat (by omega) buses fuel (by omega)]
  simp only [forLoop_below _ _ _ 32 (by decide) devs fuel (by omega),
    forLoop_below _ _ _ 8 (by decide) funcs fuel (by omega)]
  have inner : ∀ bus dev (scan : Scan δ), (below 8 8).foldlM
      (fun scan func => probe ioctl pcixMmioBase database ⟨bus, dev, func⟩ scan) scan =
        ((below 8 8).map fun func => (⟨bus, dev, func⟩ : Place)).foldlM
          (fun scan place => probe ioctl pcixMmioBase database place scan) scan := by
    intro bus dev scan
    rw [List.foldlM_map]
  simp only [inner, foldlM_flatMap]
  rfl

end Steps

/-- The order of the loops. -/
def Place.Before (first second : Place) : Prop :=
  first.bus < second.bus ∨ first.bus = second.bus ∧
    (first.dev < second.dev ∨ first.dev = second.dev ∧ first.func < second.func)

section Functions

variable (maxpcibus : Int) (accepted : maxpcibus ≤ maxPcibus)

include accepted

/-- The loops visit the functions in range of the buses below the maximum, and no others. -/
theorem mem_functions (place : Place) :
    place ∈ functions maxpcibus ↔ (place.bus.toNat : Int) < maxpcibus ∧ place.InRange := by
  unfold maxPcibus at accepted
  simp only [functions, List.mem_flatMap, List.mem_map, mem_below (by decide : 32 ≤ 2 ^ 8),
    mem_below (by decide : 8 ≤ 2 ^ 8), mem_below (by omega : maxpcibus.toNat ≤ 2 ^ 8)]
  constructor
  · rintro ⟨bus, busBelow, dev, devBelow, func, funcBelow, rfl⟩
    refine ⟨?_, devBelow, funcBelow⟩
    simp only
    omega
  · rintro ⟨busBelow, devBelow, funcBelow⟩
    exact ⟨place.bus, by omega, place.dev, devBelow, place.func, funcBelow, rfl⟩

/-- The loops go through the functions in increasing order of bus, device and function, so through
none twice. -/
theorem functions_increasing : (functions maxpcibus).Pairwise Place.Before := by
  unfold maxPcibus at accepted
  have inOrder : ∀ bus dev, ((below 8 8).map fun func => (⟨bus, dev, func⟩ : Place)).Pairwise
      Place.Before := by
    intro bus dev
    rw [List.pairwise_map]
    exact (below_increasing (by decide)).imp fun ordered => Or.inr ⟨rfl, Or.inr ⟨rfl, ordered⟩⟩
  have devices : ∀ bus, ((below 8 32).flatMap fun dev =>
      (below 8 8).map fun func => (⟨bus, dev, func⟩ : Place)).Pairwise Place.Before := by
    intro bus
    refine List.pairwise_flatMap.mpr ⟨fun dev _ => inOrder bus dev, ?_⟩
    refine (below_increasing (by decide)).imp fun {first second} ordered => ?_
    rintro place member other otherMember
    obtain ⟨func, _, rfl⟩ := List.mem_map.mp member
    obtain ⟨otherFunc, _, rfl⟩ := List.mem_map.mp otherMember
    exact Or.inr ⟨rfl, Or.inl ordered⟩
  refine List.pairwise_flatMap.mpr ⟨fun bus _ => devices bus, ?_⟩
  refine (below_increasing (by omega)).imp fun {first second} ordered => ?_
  rintro place member other otherMember
  obtain ⟨dev, _, inner⟩ := List.mem_flatMap.mp member
  obtain ⟨func, _, rfl⟩ := List.mem_map.mp inner
  obtain ⟨otherDev, _, otherInner⟩ := List.mem_flatMap.mp otherMember
  obtain ⟨otherFunc, _, rfl⟩ := List.mem_map.mp otherInner
  exact Or.inl ordered

end Functions

/-- What a survey finds: the first of the places with their names, and an end for which
there is a reason. -/
structure Surveyed (database : NameDatabase) (population : Population) (room : Nat)
    (places : List Place) (entries : List (Place × Names)) (ending : Ending) : Prop where
  within : entries.length ≤ room
  places_eq : entries.map Prod.fst = places.take entries.length
  named : ∀ entry ∈ entries,
    findNames database (population.venid entry.1) (population.devid entry.1) = .ok entry.2
  ended : (ending = .completed ∧ entries.length = places.length ∧ entries.length < room) ∨
    (ending = .full ∧ entries.length = room) ∨
    ∃ fault place, ending = .lookup fault ∧ entries.length < room ∧
      places[entries.length]? = some place ∧
      findNames database (population.venid place) (population.devid place) = .error fault

/-- A survey records what it says it does: in order, as long as there is room, and up to a lookup
that does not return. -/
theorem survey_spec (database : NameDatabase) (population : Population) (places : List Place)
    (room : Nat) (positive : 0 < room) :
    Surveyed database population room places (survey database population room places).1
      (survey database population room places).2 := by
  induction places generalizing room with
  | nil => exact ⟨Nat.zero_le _, rfl, by simp [survey], Or.inl ⟨rfl, rfl, positive⟩⟩
  | cons place rest inductionHypothesis =>
    cases found : findNames database (population.venid place) (population.devid place) with
    | error fault =>
      simp only [survey, found]
      exact ⟨Nat.zero_le _, rfl, by simp,
        Or.inr (Or.inr ⟨fault, place, rfl, positive, rfl, found⟩)⟩
    | ok names =>
      simp only [survey, found]
      by_cases last : room ≤ 1
      · rw [if_pos last]
        have one : room = 1 := by omega
        exact ⟨positive, rfl, by simp [found], Or.inr (Or.inl ⟨rfl, one.symm⟩)⟩
      · rw [if_neg last]
        obtain ⟨within, same, named, ended⟩ := inductionHypothesis (room - 1) (by omega)
        refine ⟨?_, ?_, ?_, ?_⟩
        · rw [List.length_cons]
          omega
        · rw [List.map_cons, same, List.length_cons, List.take_succ_cons]
        · exact List.forall_mem_cons.mpr ⟨found, named⟩
        · simp only [List.length_cons, List.getElem?_cons_succ]
          rcases ended with ⟨completed, all, more⟩ | ⟨full, all⟩ |
            ⟨fault, place, stopped, more, reached, unfound⟩
          · exact Or.inl ⟨completed, by omega, by omega⟩
          · exact Or.inr (Or.inl ⟨full, by omega⟩)
          · exact Or.inr (Or.inr ⟨fault, place, stopped, by omega, reached, unfound⟩)

end Lfdk.PciScan
