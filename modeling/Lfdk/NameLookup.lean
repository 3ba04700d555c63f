import Lfdk.LineReader

/-!
# Names of vendors and devices

The database lists vendors, each with its devices behind it, and each device with its
subsystems. A vendor has its own block: the lines from its own up to the next vendor's. The
name of a device is looked for there, since other vendors give the same number to devices
of theirs.

`GetVendorAndDeviceTexts` remembers that it has seen the vendor and never forgets it. So it
finds the device in the vendor's block if it is there, and otherwise in the block of any
vendor that follows.
-/

namespace Lfdk.PciNames

/-- A line of `pci.ids`. -/
inductive IdLine where
  | vendor (id : BitVec 16) (name : List (BitVec 8))
  | device (id : BitVec 16) (name : List (BitVec 8))
  | subsystem (subvendor subdevice : BitVec 16) (name : List (BitVec 8))

namespace IdLine

/-- The tabs in front of a line. -/
def tabs : IdLine → Nat
  | .vendor _ _ => 0
  | .device _ _ => 1
  | .subsystem _ _ _ => 2

def name : IdLine → List (BitVec 8)
  | .vendor _ name | .device _ name | .subsystem _ _ name => name

/-- The text behind the tabs: the numbers, two blanks and the name. -/
def text : IdLine → List (BitVec 8)
  | .vendor id name | .device id name => idText id ++ [0x20, 0x20] ++ name
  | .subsystem subvendor subdevice name =>
    idText subvendor ++ [0x20] ++ idText subdevice ++ [0x20, 0x20] ++ name

/-- The line without its newline. -/
def bytes (line : IdLine) : List (BitVec 8) := List.replicate line.tabs 0x09 ++ line.text

def vendorId : IdLine → Option (BitVec 16)
  | .vendor id _ => some id
  | .device _ _ | .subsystem _ _ _ => none

def deviceId : IdLine → Option (BitVec 16)
  | .device id _ => some id
  | .vendor _ _ | .subsystem _ _ _ => none

end IdLine

/-- A text of such lines. -/
def idBytes (lines : List IdLine) : List (BitVec 8) := lines.flatMap fun line => line.bytes ++ [0x0a]

/-- The names have no `#`, no tab and no newline, the lines are shorter than 512 bytes, and no
vendor is listed twice. -/
structure IdFile (lines : List IdLine) : Prop where
  plain : ∀ line ∈ lines, 0x23 ∉ line.name ∧ 0x09 ∉ line.name ∧ 0x0a ∉ line.name
  short : ∀ line ∈ lines, line.bytes.length < 512
  vendorsOnce : (lines.filterMap IdLine.vendorId).Nodup

/-- The line of a vendor. -/
def vendorLine (lines : List IdLine) (venid : BitVec 16) : Option IdLine :=
  lines.find? fun line => line.vendorId = some venid

/-- The lines behind the one of a vendor. -/
def afterVendor (lines : List IdLine) (venid : BitVec 16) : List IdLine :=
  (lines.dropWhile fun line => line.vendorId ≠ some venid).drop 1

/-- The vendor's own block. -/
def ownBlock (lines : List IdLine) (venid : BitVec 16) : List IdLine :=
  (afterVendor lines venid).takeWhile fun line => line.vendorId = none

/-- The blocks of the vendors that follow. -/
def laterBlocks (lines : List IdLine) (venid : BitVec 16) : List IdLine :=
  (afterVendor lines venid).dropWhile fun line => line.vendorId = none

/-- The first line of a device. -/
def deviceLine (lines : List IdLine) (devid : BitVec 16) : Option IdLine :=
  lines.find? fun line => line.deviceId = some devid

/-- The line of a device in the vendor's own block. -/
def ownDevice (lines : List IdLine) (venid devid : BitVec 16) : Option IdLine :=
  deviceLine (ownBlock lines venid) devid

/-- A text with the first 75 bytes of a name in it, which zero bytes follow. A name ends at a
zero byte, as a string does. -/
def withName (name : List (BitVec 8)) (text : Text) : Text :=
  Vector.ofFn fun i =>
    if (i : Nat) < maxPciname then ((name.takeWhile (· ≠ 0)).take maxPciname).getD i 0
    else text.get i

/-- A lookup stores the name of the vendor and the name that this vendor gives to the device,
and leaves a text alone if there is no such name. -/
def LookupExact (stale : BitVec 8) (lines : List IdLine) (venid devid : BitVec 16) : Prop :=
  ∀ ventxt devtxt,
    getVendorAndDeviceTexts ⟨some (fileReads (idBytes lines)), stale⟩ venid devid ventxt devtxt =
      .ok ((vendorLine lines venid).elim ventxt fun line => withName line.name ventxt,
        (ownDevice lines venid devid).elim devtxt fun line => withName line.name devtxt)

section Numbers

/-- A hex digit is a character of its own: no two nibbles share one, and it is none that `ReadLine`
treats apart. -/
theorem hexDigit_spec : ∀ value < 16, ∀ other < 16,
    (hexDigit (BitVec.ofNat 16 value) = hexDigit (BitVec.ofNat 16 other) → value = other) ∧
      hexDigit (BitVec.ofNat 16 value) ∉ [0x00, 0x09, 0x0a, 0x23] := by
  decide

/-- A digit of an id is four of its bits, taken out by a shift and a mask. -/
theorem hexDigit_nibble (id : BitVec 16) (shift : Nat) :
    id >>> shift &&& 0xf = BitVec.ofNat 16 (id.toNat / 2 ^ shift % 16) := by
  apply BitVec.eq_of_toNat_eq
  rw [BitVec.toNat_and, BitVec.toNat_ushiftRight, Nat.shiftRight_eq_div_pow, BitVec.toNat_ofNat]
  have mask : (0xf : BitVec 16).toNat = 2 ^ 4 - 1 := rfl
  rw [mask, Nat.and_two_pow_sub_one_eq_mod]
  have small : id.toNat / 2 ^ shift % 2 ^ 4 < 2 ^ 4 := Nat.mod_lt _ (by decide)
  exact (Nat.mod_eq_of_lt (by omega)).symm

/-- The digits of a number are those of its four nibbles, the highest first. -/
theorem idText_digits (id : BitVec 16) :
    idText id = [12, 8, 4, 0].map fun shift =>
      hexDigit (BitVec.ofNat 16 (id.toNat / 2 ^ shift % 16)) := by
  have last : id &&& 0xf = BitVec.ofNat 16 (id.toNat / 2 ^ 0 % 16) := by
    rw [← hexDigit_nibble id 0, BitVec.ushiftRight_zero]
  rw [idText, hexDigit_nibble, hexDigit_nibble, hexDigit_nibble, last]
  rfl

/-- Ids with the same digits are the same. So a line of the database is taken for its own id only.
-/
theorem idText_injective (id other : BitVec 16) (same : idText id = idText other) :
    id = other := by
  rw [idText_digits, idText_digits] at same
  simp only [List.map_cons, List.map_nil, List.cons.injEq, and_true] at same
  obtain ⟨first, second, third, fourth⟩ := same
  have digit : ∀ left right : Nat,
      hexDigit (BitVec.ofNat 16 (left % 16)) = hexDigit (BitVec.ofNat 16 (right % 16)) →
        left % 16 = right % 16 := fun left right =>
    (hexDigit_spec _ (Nat.mod_lt _ (by decide)) _ (Nat.mod_lt _ (by decide))).1
  have highest := digit _ _ first
  have high := digit _ _ second
  have low := digit _ _ third
  have lowest := digit _ _ fourth
  have bound := id.isLt
  have otherBound := other.isLt
  apply BitVec.eq_of_toNat_eq
  omega

/-- The digits of a number are no tab, no newline, no `#` and no zero byte. -/
theorem idText_plain (id : BitVec 16) : ∀ byte ∈ idText id, byte ∉ [0x00, 0x09, 0x0a, 0x23] := by
  rw [idText_digits]
  intro byte member
  obtain ⟨shift, _, rfl⟩ := List.mem_map.mp member
  exact (hexDigit_spec _ (Nat.mod_lt _ (by decide)) 0 (by decide)).2

end Numbers

section OneLine

variable {line : IdLine}

/-- A text begins with a digit and holds no tab, no newline and no `#` but those of the name. -/
theorem text_plain (byte : BitVec 8) (marked : byte ∈ [0x09, 0x0a, 0x23])
    (free : byte ∉ line.name) : byte ∉ line.text := by
  have digits : ∀ id, byte ∉ idText id := fun id member => by
    have plain := idText_plain id byte member
    exact plain (List.mem_cons_of_mem _ marked)
  have blank : byte ≠ 0x20 := by
    rintro rfl
    exact absurd marked (by decide)
  have single : byte ∉ [0x20] := fun member => blank (List.mem_singleton.mp member)
  have none : byte ∉ [0x20, 0x20] := List.not_mem_cons_of_ne_of_not_mem blank single
  cases line with
  | vendor id name =>
    have own : byte ∉ name := free
    simp only [IdLine.text, List.mem_append, digits, none, own, or_self, not_false_eq_true]
  | device id name =>
    have own : byte ∉ name := free
    simp only [IdLine.text, List.mem_append, digits, none, own, or_self, not_false_eq_true]
  | subsystem subvendor subdevice name =>
    have own : byte ∉ name := free
    simp only [IdLine.text, List.mem_append, digits, single, none, own, or_self, not_false_eq_true]

/-- The text of a line begins with a digit, so it is not empty for the reader. -/
theorem text_begins (line : IdLine) : line.text.headD 0 ≠ 0 := by
  have first : ∀ id, (idText id).headD 0 ≠ 0 := fun id zero => by
    have plain := idText_plain id ((idText id).headD 0) (List.mem_cons_self ..)
    rw [zero] at plain
    exact plain List.mem_cons_self
  cases line with
  | vendor id name => exact first id
  | device id name => exact first id
  | subsystem subvendor subdevice name => exact first subvendor

/-- The four bytes that are compared are those of the first number of the line. -/
theorem compareID_idText (id other : BitVec 16) (rest : List (BitVec 8)) :
    compareID id (idText other ++ rest) = false ↔ other = id := by
  have front : (List.range 4).map (fun i => (idText other ++ rest).getD i 0) = idText other := rfl
  rw [compareID, front, decide_eq_false_iff_not, Decidable.not_not]
  exact ⟨idText_injective other id, fun same => same ▸ rfl⟩

/-- A line is taken for the vendor's if it is one of that number. -/
theorem vendor_taken (line : IdLine) (venid : BitVec 16) :
    ((line.tabs : Int) = 0 ∧ compareID venid line.text = false) ↔ line.vendorId = some venid := by
  cases line with
  | vendor id name =>
    have compared := compareID_idText venid id ([0x20, 0x20] ++ name)
    simpa [IdLine.tabs, IdLine.text, IdLine.vendorId] using compared
  | device id name => simp [IdLine.tabs, IdLine.vendorId]
  | subsystem subvendor subdevice name => simp [IdLine.tabs, IdLine.vendorId]

/-- The line that the search takes for a device is one that has its id behind one tab. -/
theorem device_taken (line : IdLine) (devid : BitVec 16) :
    ((line.tabs : Int) = 1 ∧ compareID devid line.text = false) ↔ line.deviceId = some devid := by
  cases line with
  | vendor id name => simp [IdLine.tabs, IdLine.deviceId]
  | device id name =>
    have compared := compareID_idText devid id ([0x20, 0x20] ++ name)
    simpa [IdLine.tabs, IdLine.text, IdLine.deviceId] using compared
  | subsystem subvendor subdevice name => simp [IdLine.tabs, IdLine.deviceId]

/-- What is copied of a line is its name, behind the digits of the id and the two blanks. -/
theorem copyName_name {id : BitVec 16} {name : List (BitVec 8)} {text : Text}
    (numbered : line = .vendor id name ∨ line = .device id name) :
    copyName line.text text = withName line.name text := by
  have behind : line.text.drop 6 = line.name := by
    rcases numbered with rfl | rfl <;> rfl
  apply Vector.ext
  intro i inside
  simp only [copyName, withName, behind, Vector.getElem_ofFn]
  by_cases short : i < maxPciname
  · rw [if_pos short, if_pos short, List.getD_eq_getElem?_getD, List.getD_eq_getElem?_getD,
      List.getElem?_take_of_lt short]
  · rw [if_neg short, if_neg short]
    rfl

/-- `ReadLine` on a line with its newline returns the number of its tabs and the text behind them,
and leaves the rest of the file. -/
theorem readLine_idLine (stale : BitVec 8) (rest : List ReadResult)
    (plain : 0x23 ∉ line.name ∧ 0x09 ∉ line.name ∧ 0x0a ∉ line.name)
    (short : line.bytes.length < 512) :
    readLine stale (delivered line.bytes ++ .byte 0x0a :: rest) =
      .ok ⟨line.tabs, line.text, rest⟩ := by
  obtain ⟨comment, tab, newline⟩ := plain
  have free := text_plain 0x23 (by decide) comment
  have flat := text_plain 0x09 (by decide) tab
  have ended := text_plain 0x0a (by decide) newline
  obtain ⟨unmarked, bytes, tabs⟩ := tabs_text_stored line.tabs flat free
  have whole : 0x0a ∉ line.bytes := by
    rintro member
    rcases List.mem_append.mp member with front | behind
    · exact absurd (List.eq_of_mem_replicate front) (by decide)
    · exact ended behind
  have fits : ¬ Overruns line.bytes line.text .newline := by
    have size : maxReadbuf = 512 := rfl
    have length : line.bytes.length = line.tabs + line.text.length := by
      rw [IdLine.bytes, List.length_append, List.length_replicate]
    rintro (long | ⟨full, _⟩)
    · omega
    · omega
  have read := readLine_line whole .newline rest stale
  rw [show line.bytes = List.replicate line.tabs 0x09 ++ line.text from rfl, bytes, tabs,
    returned_newline unmarked, if_neg (text_begins line)] at read
  rw [show List.replicate line.tabs 0x09 ++ line.text = line.bytes from rfl, if_neg fits] at read
  exact read

end OneLine

/-- The scan over lines: the text of the vendor's line, and of the device line that ends it. -/
def search (venid devid : BitVec 16) : List IdLine → Option (List (BitVec 8)) → Names
  | [], vendor => ⟨vendor, none⟩
  | line :: lines, vendor =>
    if line.vendorId = some venid then search venid devid lines (some line.text)
    else if vendor.isSome = true ∧ line.deviceId = some devid then ⟨vendor, some line.text⟩
    else search venid devid lines vendor

/-- The loop scans the lines of the file, one call of `ReadLine` for each, with fuel for one call
more. By induction on the lines. -/
theorem findTexts_lines (stale : BitVec 8) (venid devid : BitVec 16) (lines : List IdLine)
    (plain : ∀ line ∈ lines, 0x23 ∉ line.name ∧ 0x09 ∉ line.name ∧ 0x0a ∉ line.name)
    (short : ∀ line ∈ lines, line.bytes.length < 512) (fuel : Nat) (enough : lines.length < fuel)
    (vendor : Option (List (BitVec 8))) :
    findTexts stale venid devid fuel (fileReads (idBytes lines)) vendor =
      .ok (search venid devid lines vendor) := by
  induction lines generalizing fuel vendor with
  | nil =>
    obtain ⟨more, rfl⟩ := Nat.exists_eq_add_of_le' enough
    rfl
  | cons line lines inductionHypothesis =>
    obtain ⟨ownPlain, otherPlain⟩ := List.forall_mem_cons.mp plain
    obtain ⟨ownShort, otherShort⟩ := List.forall_mem_cons.mp short
    cases fuel with
    | zero => exact absurd enough (Nat.not_lt_zero _)
    | succ more =>
      have later := inductionHypothesis otherPlain otherShort more (Nat.lt_of_succ_lt_succ enough)
      have reads : fileReads (idBytes (line :: lines)) =
          delivered line.bytes ++ .byte 0x0a :: fileReads (idBytes lines) := by
        simp [fileReads, idBytes, delivered]
      rw [reads, findTexts, readLine_idLine stale _ ownPlain ownShort, search]
      simp only [bind, Except.bind, vendor_taken]
      by_cases own : line.vendorId = some venid
      · rw [if_pos own, if_pos own]
        exact later (some line.text)
      · rw [if_neg own, if_neg own]
        have taken : ((line.tabs : Int) = 1 ∧ vendor.isSome = true ∧
            compareID devid line.text = false) ↔
              (vendor.isSome = true ∧ line.deviceId = some devid) := by
          rw [← device_taken line devid]
          tauto
        simp only [taken]
        by_cases found : vendor.isSome = true ∧ line.deviceId = some devid
        · rw [if_pos found, if_pos found]
        · have more : (line.tabs : Int) ≠ -2 := by omega
          rw [if_neg found, if_neg found, if_neg more]
          exact later vendor

section Scan

variable (venid devid : BitVec 16)

/-- Once the vendor has been seen, the first line of the device ends the scan. -/
theorem search_behind (lines : List IdLine) (seen : List (BitVec 8))
    (once : ∀ line ∈ lines, line.vendorId ≠ some venid) :
    search venid devid lines (some seen) =
      ⟨some seen, (deviceLine lines devid).map IdLine.text⟩ := by
  induction lines with
  | nil => rfl
  | cons line lines inductionHypothesis =>
    obtain ⟨other, others⟩ := List.forall_mem_cons.mp once
    rw [search, if_neg other]
    by_cases found : line.deviceId = some devid
    · have first : deviceLine (line :: lines) devid = some line :=
        List.find?_cons_of_pos (decide_eq_true found)
      rw [if_pos ⟨rfl, found⟩, first]
      rfl
    · have later : deviceLine (line :: lines) devid = deviceLine lines devid :=
        List.find?_cons_of_neg (by simpa using found)
      rw [if_neg fun both => found both.2, inductionHypothesis others, later]

/-- A scan from the start, which no line of a device ends before the vendor is seen. -/
theorem search_lines (lines : List IdLine) (once : (lines.filterMap IdLine.vendorId).Nodup) :
    search venid devid lines none =
      ⟨(vendorLine lines venid).map IdLine.text,
        (deviceLine (afterVendor lines venid) devid).map IdLine.text⟩ := by
  induction lines with
  | nil => rfl
  | cons line lines inductionHypothesis =>
    by_cases own : line.vendorId = some venid
    · have others : ∀ other ∈ lines, other.vendorId ≠ some venid := by
        intro other member again
        rw [List.filterMap_cons_some own, List.nodup_cons] at once
        exact once.1 (List.mem_filterMap.mpr ⟨other, member, again⟩)
      have first : vendorLine (line :: lines) venid = some line :=
        List.find?_cons_of_pos (decide_eq_true own)
      have behind : afterVendor (line :: lines) venid = lines := by
        rw [afterVendor, List.dropWhile_cons_of_neg (by simpa using own), List.drop_one,
          List.tail_cons]
      rw [search, if_pos own, search_behind venid devid lines line.text others, first, behind]
      rfl
    · have fewer : (lines.filterMap IdLine.vendorId).Nodup := by
        cases numbered : line.vendorId with
        | none => rwa [List.filterMap_cons_none numbered] at once
        | some id =>
          rw [List.filterMap_cons_some numbered] at once
          exact (List.nodup_cons.mp once).2
      have first : vendorLine (line :: lines) venid = vendorLine lines venid :=
        List.find?_cons_of_neg (by simpa using own)
      have behind : afterVendor (line :: lines) venid = afterVendor lines venid := by
        rw [afterVendor, List.dropWhile_cons_of_pos (by simpa using own), afterVendor]
      rw [search, if_neg own, if_neg fun both => Bool.false_ne_true both.1,
        inductionHypothesis fewer, first, behind]

/-- The device is looked for in the vendor's own block first, and then in all the blocks behind it.
-/
theorem device_blocks (lines : List IdLine) :
    deviceLine (afterVendor lines venid) devid =
      (ownDevice lines venid devid).or (deviceLine (laterBlocks lines venid) devid) := by
  have parts : ownBlock lines venid ++ laterBlocks lines venid = afterVendor lines venid :=
    List.takeWhile_append_dropWhile
  rw [← parts, deviceLine, List.find?_append]
  rfl

/-- Without the vendor there is no device either: no line stands behind the one that is missing. -/
theorem afterVendor_absent (lines : List IdLine) (absent : vendorLine lines venid = none) :
    afterVendor lines venid = [] := by
  have none : lines.dropWhile (fun line => line.vendorId ≠ some venid) = [] := by
    rw [List.dropWhile_eq_nil_iff]
    intro line member
    simpa using List.find?_eq_none.mp absent line member
  rw [afterVendor, none, List.drop_nil]

/-- The line that is found for a vendor has its id, and is a line of a vendor. -/
theorem vendorLine_numbered {lines : List IdLine} {line : IdLine}
    (found : vendorLine lines venid = some line) : ∃ name, line = .vendor venid name := by
  have numbered := List.find?_some found
  simp only [decide_eq_true_eq] at numbered
  cases line with
  | vendor id name => exact ⟨name, congrArg (IdLine.vendor · name) (Option.some.inj numbered)⟩
  | device id name => cases numbered
  | subsystem subvendor subdevice name => cases numbered

/-- The line that is found for a device has its id, whichever vendor it belongs to. -/
theorem deviceLine_numbered {lines : List IdLine} {line : IdLine}
    (found : deviceLine lines devid = some line) : ∃ name, line = .device devid name := by
  have numbered := List.find?_some found
  simp only [decide_eq_true_eq] at numbered
  cases line with
  | vendor id name => cases numbered
  | device id name => exact ⟨name, congrArg (IdLine.device · name) (Option.some.inj numbered)⟩
  | subsystem subvendor subdevice name => cases numbered

/-- What a lookup stores: each of the two texts is replaced by the name of the line that was found,
or stays if none was. -/
theorem lookup_stores (stale : BitVec 8) {lines : List IdLine} (file : IdFile lines)
    (ventxt devtxt : Text) :
    getVendorAndDeviceTexts ⟨some (fileReads (idBytes lines)), stale⟩ venid devid ventxt devtxt =
      .ok ((vendorLine lines venid).elim ventxt fun line => withName line.name ventxt,
        (deviceLine (afterVendor lines venid) devid).elim devtxt
          fun line => withName line.name devtxt) := by
  have enough : lines.length < (fileReads (idBytes lines)).length + 1 := by
    have bytes : lines.length ≤ (idBytes lines).length := by
      have sizes : lines.length =
          (lines.map fun line : IdLine => (line.bytes ++ [0x0a]).length).length :=
        (List.length_map _).symm
      rw [idBytes, List.length_flatMap, sizes]
      refine List.length_le_sum_of_one_le _ ?_
      intro size member
      obtain ⟨line, _, rfl⟩ := List.mem_map.mp member
      simp
    simp only [fileReads, delivered, List.length_append, List.length_map]
    omega
  have found : findNames ⟨some (fileReads (idBytes lines)), stale⟩ venid devid =
      .ok (search venid devid lines none) :=
    findTexts_lines stale venid devid lines file.plain file.short _ enough none
  have vendors : storeName ((vendorLine lines venid).map IdLine.text) ventxt =
      (vendorLine lines venid).elim ventxt fun line => withName line.name ventxt := by
    cases named : vendorLine lines venid with
    | none => rfl
    | some line =>
      obtain ⟨name, numbered⟩ := vendorLine_numbered venid named
      exact copyName_name (Or.inl numbered)
  rw [getVendorAndDeviceTexts_found, found, search_lines venid devid lines file.vendorsOnce]
  have devices : storeName ((deviceLine (afterVendor lines venid) devid).map IdLine.text) devtxt =
      (deviceLine (afterVendor lines venid) devid).elim devtxt
        fun line => withName line.name devtxt := by
    cases named : deviceLine (afterVendor lines venid) devid with
    | none => rfl
    | some line =>
      obtain ⟨name, numbered⟩ := deviceLine_numbered devid named
      exact copyName_name (Or.inr numbered)
  simp only [Except.map, vendors, devices]

/-- A name cannot be what two texts hold already that differ in every byte. -/
theorem withName_changes (name : List (BitVec 8)) :
    ∃ devtxt, withName name devtxt ≠ devtxt := by
  by_cases keeps : withName name (Vector.replicate 76 1) = Vector.replicate 76 1
  · refine ⟨Vector.replicate 76 2, fun again => ?_⟩
    have first := congrArg (fun text : Text => text[0]) keeps
    have second := congrArg (fun text : Text => text[0]) again
    simp only [withName, Vector.getElem_ofFn, Vector.getElem_replicate,
      if_pos (by decide : 0 < maxPciname)] at first second
    exact absurd (first.symm.trans second) (by decide)
  · exact ⟨Vector.replicate 76 1, keeps⟩

end Scan

/-- A lookup is exact unless the vendor is listed without the device, and a vendor that
follows lists a device of that number. -/
theorem lookup_exact_iff (stale : BitVec 8) (lines : List IdLine) (venid devid : BitVec 16)
    (file : IdFile lines) :
    LookupExact stale lines venid devid ↔
      vendorLine lines venid = none ∨ (ownDevice lines venid devid).isSome ∨
        ∀ line ∈ laterBlocks lines venid, line.deviceId ≠ some devid := by
  have stores := lookup_stores venid devid stale file
  rw [device_blocks] at stores
  cases own : ownDevice lines venid devid with
  | some line =>
    rw [own, Option.some_or] at stores
    have exact_ : LookupExact stale lines venid devid := by
      intro ventxt devtxt
      rw [stores, own]
    exact iff_of_true exact_ (Or.inr (Or.inl rfl))
  | none =>
    rw [own, Option.none_or] at stores
    cases later : deviceLine (laterBlocks lines venid) devid with
    | none =>
      have absent : ∀ line ∈ laterBlocks lines venid, line.deviceId ≠ some devid := by
        intro line member
        simpa using List.find?_eq_none.mp later line member
      have exact_ : LookupExact stale lines venid devid := by
        intro ventxt devtxt
        rw [stores, own, later]
      exact iff_of_true exact_ (Or.inr (Or.inr absent))
    | some line =>
      obtain ⟨name, rfl⟩ := deviceLine_numbered devid later
      have member := List.mem_of_find?_eq_some later
      refine iff_of_false ?_ ?_
      · intro exact_
        obtain ⟨devtxt, changes⟩ := withName_changes name
        have both := (stores devtxt devtxt).symm.trans (exact_ devtxt devtxt)
        rw [own, later] at both
        have texts := congrArg Prod.snd (Except.ok.inj both)
        exact changes texts
      · rintro (absent | present | none)
        · rw [laterBlocks, afterVendor_absent venid lines absent] at member
          exact absurd member List.not_mem_nil
        · cases present
        · exact none _ member rfl

/-- The lines `8086  A`, `\t1234  B`, and a lookup of both ids, which finds `A` and `B`. -/
theorem listed_device_found :
    LookupExact 0 [.vendor 0x8086 [0x41], .device 0x1234 [0x42]] 0x8086 0x1234 :=
  (lookup_exact_iff 0 [.vendor 0x8086 [0x41], .device 0x1234 [0x42]] 0x8086 0x1234
    ⟨by decide, by decide, by decide⟩).mpr (Or.inr (Or.inl rfl))

/-- The lines `8086  A`, `8087  C`, `\t1234  B`. -/
def twoVendors : List IdLine :=
  [.vendor 0x8086 [0x41], .vendor 0x8087 [0x43], .device 0x1234 [0x42]]

/-- A device that only the second vendor lists is found for the first. -/
theorem other_vendors_device :
    IdFile twoVendors ∧ ownDevice twoVendors 0x8086 0x1234 = none ∧
      (∀ ventxt devtxt,
        getVendorAndDeviceTexts ⟨some (fileReads (idBytes twoVendors)), 0⟩ 0x8086 0x1234
            ventxt devtxt =
          .ok (withName [0x41] ventxt, withName [0x42] devtxt)) ∧
      ¬ LookupExact 0 twoVendors 0x8086 0x1234 := by
  have file : IdFile twoVendors := ⟨by decide, by decide, by decide⟩
  have stores := lookup_stores 0x8086 0x1234 0 file
  have vendor : vendorLine twoVendors 0x8086 = some (.vendor 0x8086 [0x41]) := rfl
  have device : deviceLine (afterVendor twoVendors 0x8086) 0x1234 =
      some (.device 0x1234 [0x42]) := rfl
  have absent : ownDevice twoVendors 0x8086 0x1234 = none := rfl
  rw [vendor, device] at stores
  refine ⟨file, absent, stores, ?_⟩
  intro exact_
  obtain ⟨devtxt, changes⟩ := withName_changes [0x42]
  have both := (stores devtxt devtxt).symm.trans (exact_ devtxt devtxt)
  rw [absent] at both
  have texts := congrArg Prod.snd (Except.ok.inj both)
  exact changes texts

end Lfdk.PciNames
