import Lfdk.ScanOnce

/-!
# The command line

`main` reads its options one after the other. An option that is unknown, a bus number that is
too large or a base above 4 GB ends the program. Otherwise the last option of each letter
decides, and the order of different letters does not matter.

Two of the options are paths. They are copied into 40 bytes by `strncpy`, which does not end
a string that fills them. So a path arrives exactly if it is shorter.
-/

namespace Lfdk.CommandLine

/-- An argument without the zero byte at its end. -/
abbrev Argument := List (BitVec 8)

section Numbers

/-- `isspace` -/
def isspace (character : BitVec 8) : Bool :=
  character = 0x20 || (0x09 ≤ character && character ≤ 0x0d)

/-- The value of a digit. -/
def digitValue (character : BitVec 8) : Option Nat :=
  if 0x30 ≤ character ∧ character ≤ 0x39 then some (character.toNat - 0x30)
  else if 0x41 ≤ character ∧ character ≤ 0x5a then some (character.toNat - 0x37)
  else if 0x61 ≤ character ∧ character ≤ 0x7a then some (character.toNat - 0x57)
  else none

/-- The digits that a text begins with. -/
def leadingDigits (base : Nat) : Argument → List Nat
  | [] => []
  | character :: rest =>
    match digitValue character with
    | some digit => if digit < base then digit :: leadingDigits base rest else []
    | none => []

/-- The text behind `0x`. -/
def hexBody (text : Argument) : Argument :=
  if text[0]? = some 0x30 ∧ (text[1]? = some 0x78 ∨ text[1]? = some 0x58) then text.drop 2 else text

/-- The value of the digits. -/
def magnitude (base : Nat) (text : Argument) : Nat :=
  (leadingDigits base text).foldl (fun value digit => value * base + digit) 0

/-- The text behind the sign. -/
def unsigned (text : Argument) : Argument :=
  if text[0]? = some 0x2d ∨ text[0]? = some 0x2b then text.drop 1 else text

/-- `strtoll` for base 10 or 16. A value that is too large is replaced by the largest one. -/
def strtoll (base : Nat) (text : Argument) : Int :=
  let text := text.dropWhile isspace
  let digits := if base = 16 then hexBody (unsigned text) else unsigned text
  if text[0]? = some 0x2d then max (-0x8000000000000000) (-magnitude base digits)
  else min 0x7fffffffffffffff (magnitude base digits)

/-- `atoi`, the low 32 bits of the number. -/
def atoi (text : Argument) : Int := (BitVec.ofInt 32 (strtoll 10 text)).toInt

end Numbers

section Options

/-- A path in `LFDK_MAX_PATH` bytes. -/
abbrev Path := Vector (BitVec 8) 40

/-- `strncpy` of `LFDK_MAX_PATH` bytes. -/
def strncpy (source : Argument) : Path := Vector.ofFn fun place => source[(place : Nat)]?.getD 0

/-- The string in a path, if it ends. -/
def Path.string (path : Path) : Option Argument :=
  if path.toList.contains 0 then some (path.toList.takeWhile (· ≠ 0)) else none

/-- An option that `getopt` returns, with its argument. -/
structure CommandOption where
  letter : Char
  optarg : Argument
deriving DecidableEq, Repr

/-- What the options set. -/
structure Settings where
  device : Path
  pciname : Path
  maxpcibus : Int
  debugLv : Int
  phyPcixMmioBase : BitVec 64
deriving DecidableEq, Repr

/-- The bytes of a text. -/
def bytes (text : String) : Argument :=
  text.toList.map fun character => BitVec.ofNat 8 character.toNat

/-- Without options. -/
def Settings.default : Settings :=
  ⟨strncpy (bytes "/dev/lfdd"), strncpy (bytes "/usr/share/misc/pci.ids"), 255, 4, 0⟩

/-- The level that `-D` sets, below `DEBUG_MAX`. -/
def debugLevel (optarg : Argument) : Int := if 6 ≤ atoi optarg then 5 else atoi optarg

/-- One option; `none` is the end of the program. -/
def readOption (settings : Settings) (option : CommandOption) : Option Settings :=
  if option.letter = 'd' then some { settings with device := strncpy option.optarg }
  else if option.letter = 'n' then some { settings with pciname := strncpy option.optarg }
  else if option.letter = 'b' then
    let maxpcibus := atoi option.optarg
    if PciScan.maxPcibus ≤ maxpcibus then none else some { settings with maxpcibus := maxpcibus }
  else if option.letter = 'D' then some { settings with debugLv := debugLevel option.optarg }
  else if option.letter = 'B' then
    let base : BitVec 64 := BitVec.ofInt 64 (strtoll 16 option.optarg)
    if 2 ^ 32 ≤ base.toNat then none else some { settings with phyPcixMmioBase := base }
  else none

/-- The options in `main`. -/
def readOptions (options : List CommandOption) : Option Settings :=
  options.foldlM readOption .default

/-- An option that does not end the program. -/
def CommandOption.Valid (option : CommandOption) : Prop :=
  option.letter ∈ ['d', 'n', 'D'] ∨
    (option.letter = 'b' ∧ atoi option.optarg < PciScan.maxPcibus) ∨
    (option.letter = 'B' ∧ 0 ≤ strtoll 16 option.optarg ∧ strtoll 16 option.optarg < 2 ^ 32)

/-- The argument of the last option of a letter. -/
def lastOf (letter : Char) (options : List CommandOption) : Option Argument :=
  ((options.filter fun option => option.letter = letter).getLast?).map CommandOption.optarg

/-- The settings that the last options give. -/
def Settings.given (options : List CommandOption) : Settings where
  device := (lastOf 'd' options).elim Settings.default.device strncpy
  pciname := (lastOf 'n' options).elim Settings.default.pciname strncpy
  maxpcibus := (lastOf 'b' options).elim Settings.default.maxpcibus atoi
  debugLv := (lastOf 'D' options).elim Settings.default.debugLv debugLevel
  phyPcixMmioBase := (lastOf 'B' options).elim Settings.default.phyPcixMmioBase fun optarg =>
    BitVec.ofInt 64 (strtoll 16 optarg)

/-- The range of `strtoll`: a number that does not fit is cut to the nearest value of 64 bits that
does. -/
theorem strtoll_bounds (base : Nat) (text : Argument) :
    -2 ^ 63 ≤ strtoll base text ∧ strtoll base text < 2 ^ 63 := by
  simp only [strtoll]
  generalize magnitude base _ = value
  split
  · omega
  · omega

/-- A base is accepted if the number is not negative and below 4 GB. -/
theorem base_accepted_iff (optarg : Argument) :
    (BitVec.ofInt 64 (strtoll 16 optarg)).toNat < 2 ^ 32 ↔
      0 ≤ strtoll 16 optarg ∧ strtoll 16 optarg < 2 ^ 32 := by
  obtain ⟨low, high⟩ := strtoll_bounds 16 optarg
  rw [BitVec.toNat_ofInt]
  omega

/-- The last one of some options is the new one, if it has the letter. This is how one step of
`getopt` changes what was given last. -/
theorem lastOf_append (letter : Char) (options : List CommandOption) (option : CommandOption) :
    lastOf letter (options ++ [option]) =
      if option.letter = letter then some option.optarg else lastOf letter options := by
  rw [lastOf, List.filter_append]
  by_cases same : option.letter = letter
  · simp [same]
  · simp [same, lastOf]

/-- What was given last was given. So a condition on all options holds of the ones that count. -/
theorem lastOf_mem {letter : Char} {options : List CommandOption} {optarg : Argument}
    (last : lastOf letter options = some optarg) : ⟨letter, optarg⟩ ∈ options := by
  obtain ⟨option, found, rfl⟩ := Option.map_eq_some_iff.mp last
  obtain ⟨member, same⟩ := List.mem_filter.mp (List.mem_of_getLast? found)
  obtain rfl := of_decide_eq_true same
  exact member

/-- What is given by valid options is in range: the number of buses, the base below 4 GiB, and the
level of messages. -/
theorem given_bounds {options : List CommandOption} (valid : ∀ option ∈ options, option.Valid) :
    (Settings.given options).maxpcibus < PciScan.maxPcibus ∧
      (Settings.given options).phyPcixMmioBase.toNat < 2 ^ 32 ∧
        (Settings.given options).debugLv ≤ 5 := by
  refine ⟨?_, ?_, ?_⟩
  · simp only [Settings.given]
    cases last : lastOf 'b' options with
    | none => decide
    | some optarg =>
      rcases valid _ (lastOf_mem last) with plain | ⟨_, small⟩ | ⟨other, _⟩
      · exact absurd plain (show 'b' ∉ ['d', 'n', 'D'] by decide)
      · exact small
      · exact absurd other (show 'b' ≠ 'B' by decide)
  · simp only [Settings.given]
    cases last : lastOf 'B' options with
    | none => decide
    | some optarg =>
      rcases valid _ (lastOf_mem last) with plain | ⟨other, _⟩ | ⟨_, range⟩
      · exact absurd plain (show 'B' ∉ ['d', 'n', 'D'] by decide)
      · exact absurd other (show 'B' ≠ 'b' by decide)
      · exact (base_accepted_iff optarg).mpr range
  · simp only [Settings.given]
    cases lastOf 'D' options with
    | none => decide
    | some optarg =>
      simp only [Option.elim_some, debugLevel]
      split
      · exact le_refl 5
      · omega

/-- A valid option sets what is given by it, on top of what the options before it gave, ... -/
theorem readOption_valid (options : List CommandOption) (option : CommandOption)
    (valid : option.Valid) :
    readOption (.given options) option = some (.given (options ++ [option])) := by
  rcases valid with plain | ⟨same, small⟩ | ⟨same, range⟩
  · simp only [List.mem_cons, List.not_mem_nil, or_false] at plain
    rcases plain with same | same | same
    · simp [readOption, Settings.given, lastOf_append, same]
    · simp [readOption, Settings.given, lastOf_append, same]
    · simp [readOption, Settings.given, lastOf_append, same]
  · simp [readOption, Settings.given, lastOf_append, same, small]
  · have low := (base_accepted_iff option.optarg).mpr range
    simpa [readOption, Settings.given, lastOf_append, same, -BitVec.toNat_ofInt] using low

/-- ... and another one ends the program, before any later option is read. -/
theorem readOption_invalid (settings : Settings) (option : CommandOption)
    (invalid : ¬ option.Valid) : readOption settings option = none := by
  have plain : option.letter ∉ ['d', 'n', 'D'] := fun member => invalid (.inl member)
  simp only [List.mem_cons, List.not_mem_nil, or_false, not_or] at plain
  obtain ⟨device, pciname, level⟩ := plain
  rw [readOption, if_neg device, if_neg pciname, if_neg level]
  split
  · next bus =>
    have large : ¬ atoi option.optarg < PciScan.maxPcibus := fun small =>
      invalid (.inr (.inl ⟨bus, small⟩))
    exact if_pos (Int.not_lt.mp large)
  · split
    · next base =>
      have high : ¬ (BitVec.ofInt 64 (strtoll 16 option.optarg)).toNat < 2 ^ 32 := fun low =>
        invalid (.inr (.inr ⟨base, (base_accepted_iff option.optarg).mp low⟩))
      exact if_pos (Nat.not_lt.mp high)
    · rfl

/-- All options are read, or one of them ends the program. The induction is on the last option,
which is read in the state that the others give. -/
theorem readOptions_given (options : List CommandOption) :
    ((∀ option ∈ options, option.Valid) → readOptions options = some (.given options)) ∧
      ((∃ option ∈ options, ¬ option.Valid) → readOptions options = none) := by
  induction options using List.reverseRecOn with
  | nil =>
    constructor
    · intro _
      rfl
    · rintro ⟨option, member, _⟩
      exact absurd member List.not_mem_nil
  | append_singleton options last inductionHypothesis =>
    obtain ⟨passes, ends⟩ := inductionHypothesis
    have single : ∀ settings, [last].foldlM readOption settings = readOption settings last := by
      intro settings
      rw [List.foldlM_cons]
      exact bind_pure _
    have read : readOptions (options ++ [last]) =
        (readOptions options).bind fun settings => readOption settings last := by
      rw [readOptions, List.foldlM_append]
      simp only [single]
      rfl
    rw [read]
    constructor
    · intro valid
      rw [passes fun option member => valid option (List.mem_append_left _ member)]
      exact readOption_valid options last
        (valid last (List.mem_append_right _ (List.mem_singleton_self last)))
    · rintro ⟨option, member, invalid⟩
      cases before : readOptions options with
      | none => rfl
      | some settings =>
        rcases List.mem_append.mp member with earlier | same
        · rw [ends ⟨option, earlier, invalid⟩] at before
          cases before
        · rw [List.mem_singleton.mp same] at invalid
          exact readOption_invalid settings last invalid

end Options

section Paths

variable (source : Argument)

/-- The bytes of the source, and zero bytes behind them if there is room. -/
theorem strncpy_toList :
    (strncpy source).toList = source.take 40 ++ List.replicate (40 - source.length) 0 := by
  apply List.ext_getElem
  · simp only [Vector.length_toList, List.length_append, List.length_take, List.length_replicate]
    omega
  · intro place first second
    have inside : place < 40 := by simpa using first
    rw [Vector.getElem_toList]
    simp only [strncpy, Vector.getElem_ofFn]
    by_cases copied : place < source.length
    · rw [List.getElem_append_left (by rw [List.length_take]; omega), List.getElem_take,
        List.getElem?_eq_getElem copied, Option.getD_some]
    · rw [List.getElem_append_right (by rw [List.length_take]; omega), List.getElem_replicate,
        List.getElem?_eq_none (by omega), Option.getD_none]

/-- A path arrives if it is shorter than the array of 40 bytes: a longer one is cut, and its end is
missing. -/
theorem strncpy_string_iff (plain : 0 ∉ source) :
    (strncpy source).string = some source ↔ source.length < 40 := by
  have all : ∀ byte ∈ source, decide (byte ≠ 0) = true := fun byte member =>
    decide_eq_true fun zero => plain (zero ▸ member)
  rw [Path.string, strncpy_toList]
  by_cases short : source.length < 40
  · obtain ⟨count, rest⟩ : ∃ count, 40 - source.length = count + 1 := ⟨39 - source.length, by omega⟩
    rw [List.take_of_length_le (by omega), rest, List.replicate_succ, if_pos (by simp),
      List.takeWhile_append_of_pos all]
    simp [short]
  · have none : 40 - source.length = 0 := by omega
    have open_ : ¬ (source.take 40).contains 0 = true := fun ended =>
      plain (List.mem_of_mem_take (List.contains_iff_mem.mp ended))
    rw [none, List.replicate_zero, List.append_nil, if_neg open_]
    simp [short]

/-- The default paths are short enough for their buffers, so both are strings before any option is
read. -/
theorem default_paths : Settings.default.device.string = some (bytes "/dev/lfdd") ∧
    Settings.default.pciname.string = some (bytes "/usr/share/misc/pci.ids") := by
  constructor
  · exact (strncpy_string_iff _ (by decide)).mpr (by decide)
  · exact (strncpy_string_iff _ (by decide)).mpr (by decide)

end Paths

/-- For all options: the program goes on exactly if each is valid, and then the settings are the
ones that the last option of each letter gives, or the default. The bus number, the base and
the level are in their ranges. A path that is given is the string that is opened exactly if it
is shorter than 40 characters. -/
theorem options_settle (options : List CommandOption) (settings : Settings) :
    (readOptions options = some settings ↔
      (∀ option ∈ options, option.Valid) ∧ settings = .given options) ∧
    (readOptions options = some settings →
      settings.maxpcibus < PciScan.maxPcibus ∧ settings.phyPcixMmioBase.toNat < 2 ^ 32 ∧
        settings.debugLv ≤ 5 ∧
        (∀ path, 0 ∉ path → lastOf 'd' options = some path →
          (settings.device.string = some path ↔ path.length < 40)) ∧
        ∀ path, 0 ∉ path → lastOf 'n' options = some path →
          (settings.pciname.string = some path ↔ path.length < 40)) := by
  obtain ⟨passes, ends⟩ := readOptions_given options
  have exact_ : readOptions options = some settings ↔
      (∀ option ∈ options, option.Valid) ∧ settings = .given options := by
    by_cases valid : ∀ option ∈ options, option.Valid
    · rw [passes valid, Option.some.injEq]
      exact ⟨fun same => ⟨valid, same.symm⟩, fun both => both.2.symm⟩
    · rw [ends (by simpa using valid)]
      exact ⟨fun read => (by cases read), fun both => absurd both.1 valid⟩
  refine ⟨exact_, fun read => ?_⟩
  obtain ⟨valid, rfl⟩ := exact_.mp read
  obtain ⟨bus, base, level⟩ := given_bounds valid
  refine ⟨bus, base, level, ?_, ?_⟩
  · intro path plain last
    simp only [Settings.given, last, Option.elim_some]
    exact strncpy_string_iff path plain
  · intro path plain last
    simp only [Settings.given, last, Option.elim_some]
    exact strncpy_string_iff path plain

section Bases

/-- A hexadecimal digit, with `first` for ten. -/
def hexByte (first : BitVec 8) (digit : Nat) : BitVec 8 :=
  if digit < 10 then BitVec.ofNat 8 (0x30 + digit) else first + BitVec.ofNat 8 (digit - 10)

/-- A value in so many digits. -/
def hexBytes (first : BitVec 8) : Nat → Nat → Argument
  | 0, _ => []
  | digits + 1, value => hexBytes first digits (value / 16) ++ [hexByte first (value % 16)]

variable {first : BitVec 8} (letters : first = 0x41 ∨ first = 0x61)

include letters

/-- The digits that `%X` and `%x` would print are read back by `strtoull`, in both cases of the
letters. -/
theorem digitValue_hexByte (digit : Nat) (small : digit < 16) :
    digitValue (hexByte first digit) = some digit := by
  have both : ∀ digit < 16, digitValue (hexByte 0x41 digit) = some digit ∧
      digitValue (hexByte 0x61 digit) = some digit := by
    decide
  rcases letters with rfl | rfl
  · exact (both digit small).1
  · exact (both digit small).2

/-- All digits are read, in the order in which they stand. -/
theorem leadingDigits_hexBytes (digits value : Nat) (behind : Argument) :
    leadingDigits 16 (hexBytes first digits value ++ behind) =
      (leadingDigits 16 (hexBytes first digits value)) ++ leadingDigits 16 behind := by
  induction digits generalizing value behind with
  | zero => rfl
  | succ digits inductionHypothesis =>
    have small : value % 16 < 16 := Nat.mod_lt _ (by decide)
    have last : ∀ behind, leadingDigits 16 (hexByte first (value % 16) :: behind) =
        value % 16 :: leadingDigits 16 behind := by
      intro behind
      simp only [leadingDigits, digitValue_hexByte letters _ small, if_pos small]
    rw [hexBytes, List.append_assoc, inductionHypothesis, inductionHypothesis,
      List.singleton_append, last, last]
    simp [leadingDigits]

/-- Reading the digits gives the value back, by induction on their number. -/
theorem magnitude_hexBytes (digits value : Nat) (small : value < 16 ^ digits) :
    magnitude 16 (hexBytes first digits value) = value := by
  induction digits generalizing value with
  | zero =>
    have zero : value = 0 := by omega
    rw [zero]
    rfl
  | succ digits inductionHypothesis =>
    have smaller : value / 16 < 16 ^ digits := by
      rw [Nat.pow_succ] at small
      omega
    have lower : value % 16 < 16 := Nat.mod_lt _ (by decide)
    have front := inductionHypothesis _ smaller
    rw [magnitude] at front
    rw [magnitude, hexBytes, leadingDigits_hexBytes letters, List.foldl_append, front]
    simp only [leadingDigits, digitValue_hexByte letters _ lower, if_pos lower, List.foldl_cons,
      List.foldl_nil]
    omega

/-- A number behind `0x`, as the options `-B` and `-b` are usually given one, is read as it was
written. -/
theorem strtoll_hexBytes (digits value : Nat) (small : value < 16 ^ digits)
    (fits : value < 2 ^ 63) : strtoll 16 ([0x30, 0x78] ++ hexBytes first digits value) = value := by
  have text : hexBody ([0x30, 0x78] ++ hexBytes first digits value) = hexBytes first digits value :=
    if_pos ⟨rfl, .inl rfl⟩
  have front : ([0x30, 0x78] ++ hexBytes first digits value).dropWhile isspace =
      [0x30, 0x78] ++ hexBytes first digits value := by
    have visible : isspace 0x30 = false := by decide
    rw [List.cons_append, List.dropWhile_cons, if_neg (by rw [visible]; decide)]
  have minus : ¬ ([0x30, 0x78] ++ hexBytes first digits value)[0]? = some 0x2d := by simp
  have plain : unsigned ([0x30, 0x78] ++ hexBytes first digits value) =
      [0x30, 0x78] ++ hexBytes first digits value := if_neg (by simp)
  simp only [strtoll, front, plain, if_neg minus, if_true, text,
    magnitude_hexBytes letters digits value small]
  omega

/-- A base below 4 GB that is given in digits, of either case and with any number of zeros in
front, is the base that `pci_scan_init` sets, if the program goes on. -/
theorem given_base_used {δ : Type} (env : ShippedWindows.Environment δ)
    (world : ShippedWindows.World δ) (options : List CommandOption) (settings : Settings)
    (read : readOptions options = some settings) (digits : Nat) (base : BitVec 64)
    (room : base.toNat < 16 ^ digits) (low : base.toNat < 2 ^ 32) (present : base ≠ 0)
    (last : lastOf 'B' options = some ([0x30, 0x78] ++ hexBytes first digits base.toNat)) :
    (ShippedWindows.pciScanInit { env with phyPcixMmioBase := settings.phyPcixMmioBase }
      world).pcixMmioBase = base := by
  have settled : settings = .given options := by
    obtain ⟨passes, ends⟩ := readOptions_given options
    by_cases valid : ∀ option ∈ options, option.Valid
    · rw [passes valid, Option.some.injEq] at read
      exact read.symm
    · rw [ends (by simpa using valid)] at read
      cases read
  have given : settings.phyPcixMmioBase = base := by
    rw [settled]
    simp only [Settings.given, last, Option.elim_some]
    rw [strtoll_hexBytes letters digits base.toNat room (by omega), BitVec.ofInt_natCast,
      BitVec.ofNat_toNat, BitVec.setWidth_eq]
  simp only [ShippedWindows.pciScanInit, given, if_pos present]

end Bases

/-- Two options name the base, and the last one counts, which `init` of PCI-SCAN then takes over. -/
theorem last_base_used :
    (ShippedWindows.pciScanInit { ShippedWindows.oneFunction with phyPcixMmioBase := 0xe0000000 }
      (ShippedWindows.World.starting ())).pcixMmioBase = 0xe0000000 := by
  have read : readOptions [⟨'B', bytes "10"⟩, ⟨'b', bytes "4"⟩, ⟨'B', bytes "0xE0000000"⟩] =
      some (.given [⟨'B', bytes "10"⟩, ⟨'b', bytes "4"⟩, ⟨'B', bytes "0xE0000000"⟩]) := by
    decide +kernel
  have used := given_base_used (.inl rfl : (0x41 : BitVec 8) = 0x41 ∨ (0x41 : BitVec 8) = 0x61)
    ShippedWindows.oneFunction (.starting ()) _ _ read 8 0xe0000000 (by decide) (by decide)
    (by decide) (by decide +kernel)
  exact used

end Lfdk.CommandLine
