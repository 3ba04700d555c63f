import Mathlib.Tactic

/-!
# Looking names up in the PCI database

This is `ReadLine`, `CompareID` and `GetVendorAndDeviceTexts` of `lib_pci_scan.c`.
The database is read one byte at a time. What the reads give is a list of results,
which may end in an end of file or go on with errors; a lookup that needs more
results than the list has is waiting for them, and so never returns when all further
reads give the same. `read_buffer` has 512 bytes, and nothing checks that a line
fits in.

A lookup writes into the texts it is given when it finds a name, and leaves them
alone otherwise. What it finds is decided by the database and the two numbers, so a
lookup is the same as finding names and then storing those that were found.
-/

namespace Lfdk.PciNames

/-- What one call of `read(fd, &buf, 1)` gives. -/
inductive ReadResult where
  | byte (value : BitVec 8)
  | endOfFile
  | failed
deriving DecidableEq, Repr

/-- Why a lookup does not return. -/
inductive Fault where
  /-- an access outside `read_buffer` -/
  | overrun
  /-- all results that were given are used up -/
  | waiting
deriving DecidableEq, Repr

/-- `LFDK_MAX_READBUF` -/
def maxReadbuf : Nat := 512

/-- `LFDK_MAX_PCINAME` -/
def maxPciname : Nat := 75

/-- What `ReadLine` leaves: its return value, the bytes it put into `read_buffer`, which
is zero after them, and the results of the reads to come. -/
structure Line where
  tabs : Int
  readBuffer : List (BitVec 8)
  rest : List ReadResult

/-- The loop that skips a comment. A read that fails leaves `buf` as it is. -/
def skipComment : BitVec 8 → List ReadResult → Except Fault (List ReadResult)
  | _, [] => .error .waiting
  | _, .endOfFile :: rest => .ok rest
  | buf, .failed :: rest => if buf = 0x0a then .ok rest else skipComment buf rest
  | _, .byte buf :: rest => if buf = 0x0a then .ok rest else skipComment buf rest

/-- What the loop of `ReadLine` does with the byte in `buf`: end, or go on with another
buffer and count of tabs. -/
def lineStep (readBuffer : List (BitVec 8)) (tabs : Nat) (buf : BitVec 8)
    (rest : List ReadResult) : Except Fault (Line ⊕ List (BitVec 8) × Nat) :=
  if buf = 0x23 then
    (skipComment buf rest).map fun rest => .inl ⟨-1, readBuffer, rest⟩
  else if buf = 0x0a then
    -- `strlen` reads on past a buffer without a zero byte
    if maxReadbuf ≤ readBuffer.length ∧ 0 ∉ readBuffer then .error .overrun
    else .ok (.inl ⟨if readBuffer.headD 0 = 0 then -1 else tabs, readBuffer, rest⟩)
  else if buf = 0x09 then .ok (.inr (readBuffer, tabs + 1))
  else if maxReadbuf ≤ readBuffer.length then .error .overrun
  else .ok (.inr (readBuffer ++ [buf], tabs))

/-- The loop of `ReadLine`. -/
def readLineFrom (readBuffer : List (BitVec 8)) (tabs : Nat) :
    BitVec 8 → List ReadResult → Except Fault Line
  | _, [] => .error .waiting
  | _, .endOfFile :: rest => .ok ⟨-2, readBuffer, rest⟩
  | buf, .failed :: rest => do
    match ← lineStep readBuffer tabs buf rest with
    | .inl line => .ok line
    | .inr (readBuffer, tabs) => readLineFrom readBuffer tabs buf rest
  | _, .byte buf :: rest => do
    match ← lineStep readBuffer tabs buf rest with
    | .inl line => .ok line
    | .inr (readBuffer, tabs) => readLineFrom readBuffer tabs buf rest

/-- `ReadLine`, with what its local `buf` holds before the first read. -/
def readLine (buf : BitVec 8) (results : List ReadResult) : Except Fault Line :=
  readLineFrom [] 0 buf results

/-- A digit below sixteen in `printf`'s `%x`. -/
def hexDigit (value : BitVec 16) : BitVec 8 :=
  if value < 10 then value.setWidth 8 + 0x30 else value.setWidth 8 + 0x57

/-- `snprintf(temp, 5, "%4.4x", id)` -/
def idText (id : BitVec 16) : List (BitVec 8) :=
  [hexDigit (id >>> 12 &&& 0xf), hexDigit (id >>> 8 &&& 0xf), hexDigit (id >>> 4 &&& 0xf),
    hexDigit (id &&& 0xf)]

/-- Whether `CompareID` returns a value other than zero. -/
def compareID (id : BitVec 16) (readBuffer : List (BitVec 8)) : Bool :=
  decide ((List.range 4).map (fun i => readBuffer.getD i 0) ≠ idText id)

/-- `ventxt` and `devtxt` -/
abbrev Text := Vector (BitVec 8) 76

/-- `strncpy(text, read_buffer + 6, LFDK_MAX_PCINAME)`, which leaves the last byte of the
text alone. -/
def copyName (readBuffer : List (BitVec 8)) (text : Text) : Text :=
  Vector.ofFn fun i =>
    if (i : Nat) < maxPciname then ((readBuffer.drop 6).takeWhile (· ≠ 0)).getD i 0 else text[i]

/-- The database as `open` and `read` present it. -/
structure NameDatabase where
  /-- the results of the reads, unless `open` fails -/
  opened : Option (List ReadResult)
  /-- what the local `buf` of `ReadLine` holds before the first read -/
  stale : BitVec 8

variable (stale : BitVec 8) (venid devid : BitVec 16)

/-- The loop of `GetVendorAndDeviceTexts`. Each line takes a result at least, so the
number of results bounds the number of lines. -/
def getTexts : Nat → List ReadResult → Bool → Text → Text → Except Fault (Text × Text)
  | 0, _, _, _, _ => .error .waiting
  | fuel + 1, results, findven, ventxt, devtxt => do
    let line ← readLine stale results
    if line.tabs = 0 ∧ compareID venid line.readBuffer = false then
      getTexts fuel line.rest true (copyName line.readBuffer ventxt) devtxt
    else if line.tabs = 1 ∧ findven = true ∧ compareID devid line.readBuffer = false then
      .ok (ventxt, copyName line.readBuffer devtxt)
    else if line.tabs = -2 then .ok (ventxt, devtxt)
    else getTexts fuel line.rest findven ventxt devtxt

/-- `GetVendorAndDeviceTexts` -/
def getVendorAndDeviceTexts (database : NameDatabase) (venid devid : BitVec 16)
    (ventxt devtxt : Text) : Except Fault (Text × Text) :=
  match database.opened with
  | none => .ok (ventxt, devtxt)
  | some results =>
    getTexts database.stale venid devid (results.length + 1) results false ventxt devtxt

/-- The lines whose names a lookup copied last, if any. -/
structure Names where
  vendor : Option (List (BitVec 8))
  device : Option (List (BitVec 8))

/-- Store a name that was found. -/
def storeName (found : Option (List (BitVec 8))) (text : Text) : Text :=
  match found with
  | none => text
  | some readBuffer => copyName readBuffer text

/-- The loop again, for the names only. -/
def findTexts : Nat → List ReadResult → Option (List (BitVec 8)) → Except Fault Names
  | 0, _, _ => .error .waiting
  | fuel + 1, results, vendor => do
    let line ← readLine stale results
    if line.tabs = 0 ∧ compareID venid line.readBuffer = false then
      findTexts fuel line.rest (some line.readBuffer)
    else if line.tabs = 1 ∧ vendor.isSome = true ∧ compareID devid line.readBuffer = false then
      .ok ⟨vendor, some line.readBuffer⟩
    else if line.tabs = -2 then .ok ⟨vendor, none⟩
    else findTexts fuel line.rest vendor

/-- The names that a database has for two numbers. -/
def findNames (database : NameDatabase) (venid devid : BitVec 16) : Except Fault Names :=
  match database.opened with
  | none => .ok ⟨none, none⟩
  | some results => findTexts database.stale venid devid (results.length + 1) results none

/-- A name that is copied over another one leaves nothing of it. -/
theorem copyName_copyName (first second : List (BitVec 8)) (text : Text) :
    copyName second (copyName first text) = copyName second text := by
  apply Vector.ext
  intro i inside
  simp only [copyName, Vector.getElem_ofFn, Fin.getElem_fin]
  split
  · rfl
  · rfl

/-- The loop of the program finds what the loop without texts finds, and stores it. So the search
can be looked at without the texts. -/
theorem getTexts_found (fuel : Nat) (results : List ReadResult)
    (vendor : Option (List (BitVec 8))) (ventxt devtxt : Text) :
    getTexts stale venid devid fuel results vendor.isSome (storeName vendor ventxt) devtxt =
      (findTexts stale venid devid fuel results vendor).map fun names =>
        (storeName names.vendor ventxt, storeName names.device devtxt) := by
  induction fuel generalizing results vendor with
  | zero => rfl
  | succ fuel inductionHypothesis =>
    rw [getTexts, findTexts]
    cases readLine stale results with
    | error fault => rfl
    | ok line =>
      have copied : copyName line.readBuffer (storeName vendor ventxt) =
          storeName (some line.readBuffer) ventxt := by
        cases vendor with
        | none => rfl
        | some earlier => exact copyName_copyName earlier line.readBuffer ventxt
      simp only [bind, Except.bind]
      split
      · rw [copied]
        exact inductionHypothesis line.rest (some line.readBuffer)
      · split
        · rfl
        · split
          · rfl
          · exact inductionHypothesis line.rest vendor

/-- A lookup stores the names that the database has, each cut to the text it is stored in. -/
theorem getVendorAndDeviceTexts_found (database : NameDatabase) (ventxt devtxt : Text) :
    getVendorAndDeviceTexts database venid devid ventxt devtxt =
      (findNames database venid devid).map fun names =>
        (storeName names.vendor ventxt, storeName names.device devtxt) := by
  unfold getVendorAndDeviceTexts findNames
  cases database.opened with
  | none => rfl
  | some results =>
    exact getTexts_found database.stale venid devid (results.length + 1) results none ventxt devtxt

/-- A line of reads that all fail does not end: the byte that is not read is stored over
and over. -/
theorem readLineFrom_failed (readBuffer : List (BitVec 8)) (tabs reads : Nat) :
    ∃ fault, readLineFrom readBuffer tabs 0 (List.replicate reads .failed) = .error fault := by
  induction reads generalizing readBuffer with
  | zero => exact ⟨.waiting, rfl⟩
  | succ reads inductionHypothesis =>
    rw [List.replicate_succ, readLineFrom, lineStep, if_neg (by decide), if_neg (by decide),
      if_neg (by decide)]
    by_cases full : maxReadbuf ≤ readBuffer.length
    · rw [if_pos full]
      exact ⟨.overrun, rfl⟩
    · rw [if_neg full]
      exact inductionHypothesis (readBuffer ++ [0])

/-- With a file whose reads all fail, no number of reads is enough: the search never returns. -/
theorem findNames_failed (reads : Nat) (venid devid : BitVec 16) :
    ∃ fault, findNames ⟨some (List.replicate reads .failed), 0⟩ venid devid = .error fault := by
  obtain ⟨fault, failed⟩ := readLineFrom_failed [] 0 reads
  refine ⟨fault, ?_⟩
  simp only [findNames, findTexts, readLine, failed]
  rfl

end Lfdk.PciNames
