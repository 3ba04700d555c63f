import Lfdk.DigitRegister
import Lfdk.EditorEffects

/-!
# The value that is typed

While a value or the address of a page is typed, each hex digit is shifted into `wbuf` and
backspace takes the last one back. A field has places for so many digits: two for each byte
of a value, six for the address of a page of memory, and two for that of a page of ports. A
mask drops the digits that have no place.

So `wbuf` is the value of a register of digits, whatever is typed, and what Enter uses is a
number with no more digits than the field has places.
-/

namespace Lfdk.HexEditors

open HexPages PciScan DigitRegister

universe u v
variable {δ : Type u} {ω : Type v}

/-- A key that changes the number that is typed. -/
def TypingKey (key : BitVec 32) : Prop := isxdigit key = true ∨ key = keyBackspace

instance (key : BitVec 32) : Decidable (TypingKey key) := inferInstanceAs (Decidable (_ ∨ _))

/-- The digit that a character stands for. -/
def hexValue (key : BitVec 32) : Fin 16 :=
  if key ≤ 0x39 then Fin.ofNat 16 (key.toNat - 0x30)
  else if key ≤ 0x46 then Fin.ofNat 16 (key.toNat - 0x41 + 10)
  else Fin.ofNat 16 (key.toNat - 0x61 + 10)

/-- What a key does to the digits. -/
def typeInto {places : Nat} (digits : Register 16 places) (key : BitVec 32) :
    Register 16 places :=
  if key = keyBackspace then digits.pop else digits.push (hexValue key)

/-- The digits of a field after these keys. -/
def typed (places : Nat) (keys : List (BitVec 32)) : Register 16 places :=
  keys.foldl typeInto Register.empty

/-- The window after these keys. -/
def pressed (press : BitVec 32 → ω → ω) (keys : List (BitVec 32)) (window : ω) : ω :=
  keys.foldl (fun window key => press key window) window

/-- The value field of PCI-DEV. Typing begins with a digit while the page is browsed. -/
def DevTyped (ioctl : Ioctl LfddPcix δ) : Prop :=
  ∀ (window : DevWindow δ) (first : BitVec 32) (keys : List (BitVec 32)),
    window.halted = none → window.dev.input = false → isxdigit first = true →
    (∀ key ∈ keys, TypingKey key) →
    let places := 2 * 2 ^ window.dev.displayMode.shift
    let after := pressed (fun key window => (pciDevKeyPress ioctl key window).2) (first :: keys)
      window
    after.dev.input = true ∧ after.dev.wbuf.toNat = (typed places (first :: keys)).value ∧
      after.dev.wbuf.toNat < 16 ^ places ∧
      ∀ call ∈ (pciDevKeyPress ioctl keyEnter after).1, call.2.buf = after.dev.wbuf

/-- The value field of MEM-SPACE and IO-SPACE. -/
def SpaceTyped {α μ : Type} (space : AddressSpace α μ) (ioctl : Ioctl LfddSpace δ) : Prop :=
  ∀ (window : SpaceWindow α μ δ) (first : BitVec 32) (keys : List (BitVec 32)),
    window.halted = none → window.editor.input = .noInput → isxdigit first = true →
    (∀ key ∈ keys, TypingKey key) →
    let places := 2 * 2 ^ space.shift window.editor.displayMode
    let after := pressed (fun key window => (spaceKeyPress space ioctl key window).2)
      (first :: keys) window
    after.editor.input = .inputValue ∧
      after.editor.wbuf.toNat = (typed places (first :: keys)).value ∧
      after.editor.wbuf.toNat < 16 ^ places ∧
      ∀ call ∈ (spaceKeyPress space ioctl keyEnter after).1, call.2.buf = after.editor.wbuf

/-- Their address field, of so many places. The short key opens it, and so does the focus.
Enter takes what was typed for the number of a page, in a space that ends at a limit. -/
def AddressTyped {α μ : Type} (space : AddressSpace α μ) (ioctl : Ioctl LfddSpace δ)
    (places : Nat) (number : α → Int) (limit : Int) : Prop :=
  ∀ (window opened : SpaceWindow α μ δ) (keys : List (BitVec 32)),
    window.halted = none →
    (window.editor.input = .noInput ∧
        opened = (spaceKeyPress space ioctl space.shortKey window).2 ∨
      opened = spaceGetFocus window) →
    (∀ key ∈ keys, TypingKey key) →
    let after := pressed (fun key window => (spaceKeyPress space ioctl key window).2) keys opened
    let entered := (spaceKeyPress space ioctl keyEnter after).2
    after.editor.input = .inputAddr ∧ after.editor.wbuf.toNat = (typed places keys).value ∧
      after.editor.wbuf.toNat < 16 ^ places ∧
      number entered.editor.page = after.editor.wbuf.toNat * 256 ∧
      number entered.editor.page < limit

/-- The value field of CMOS-SPACE. -/
def CmosTyped (ports : CmosPorts δ) : Prop :=
  ∀ (window : CmosWindow δ) (first : BitVec 32) (keys : List (BitVec 32)),
    window.editor.input = false → isxdigit first = true → (∀ key ∈ keys, TypingKey key) →
    let after := pressed (fun key window => (cmosKeyPress ports key window).2) (first :: keys)
      window
    after.editor.input = true ∧ after.editor.wbuf.toNat = (typed 2 (first :: keys)).value ∧
      after.editor.wbuf.toNat < 16 ^ 2 ∧
      ∃ index value, (cmosKeyPress ports keyEnter after).1 = some (index, value) ∧
        value.toNat = after.editor.wbuf.toNat

section Word

/-- Every digit is decoded to what its character stands for. -/
theorem digitOf_characters : ∀ code < 128, isxdigit (BitVec.ofNat 32 code) = true →
    (digitOf (BitVec.ofNat 32 code)).toNat = hexValue (BitVec.ofNat 32 code) := by
  decide +kernel

/-- What the editors take for a digit is its value, in both cases of the letters. -/
theorem digitOf_hexValue {key : BitVec 32} (digit : isxdigit key = true) :
    (digitOf key).toNat = hexValue key := by
  have range := of_decide_eq_true digit
  simp only [BitVec.le_def, BitVec.ofNat_eq_ofNat, BitVec.toNat_ofNat] at range
  have small : key.toNat < 128 := by omega
  have code : BitVec.ofNat 32 key.toNat = key := by
    rw [BitVec.ofNat_toNat, BitVec.setWidth_eq]
  have known := digitOf_characters key.toNat small
  rw [code] at known
  exact known digit

/-- A digit is none of the other keys that an editor knows, so no key is taken for two things. -/
theorem xdigit_other {key : BitVec 32} (digit : isxdigit key = true) :
    key ∉ [keyEnter, keyBackspace, keyUp, keyDown, keyLeft, keyRight, keyNpage, keyPpage,
      keyF7] := by
  intro member
  simp only [List.mem_cons, List.not_mem_nil, or_false] at member
  rcases member with rfl | rfl | rfl | rfl | rfl | rfl | rfl | rfl | rfl <;>
    exact absurd digit (by decide)

/-- A mask for so many digits, of a word whose lowest digit is not there yet. -/
def Keeps (mask : BitVec 32) (places : Nat) : Prop :=
  0 < places ∧ places ≤ 8 ∧ mask ||| 0xf = BitVec.ofNat 32 (16 ^ places - 1)

instance (mask : BitVec 32) (places : Nat) : Decidable (Keeps mask places) :=
  inferInstanceAs (Decidable (_ ∧ _))

/-- The mask of a width keeps as many digits as its cells have. -/
theorem displayMode_keeps (mode : DisplayMode) : Keeps mode.mask (2 * 2 ^ mode.shift) := by
  cases mode with
  | byteMode => decide
  | wordMode => decide
  | dwordMode => decide

/-- So does the mask of a width of ports. -/
theorem ioDisplayMode_keeps (mode : IoDisplayMode) :
    Keeps (ioSpace.mask mode) (2 * 2 ^ ioSpace.shift mode) := by
  cases mode with
  | byteMode => decide
  | wordMode => decide

/-- The shift leaves room for one digit in the low four bits. -/
theorem shifted_low (wbuf : BitVec 32) : wbuf <<< 4 &&& 0xf = 0#32 := by
  apply BitVec.eq_of_toNat_eq
  have mask : (0xf : BitVec 32).toNat = 2 ^ 4 - 1 := rfl
  have zero : (0#32).toNat = 0 := rfl
  rw [BitVec.toNat_and, mask, Nat.and_two_pow_sub_one_eq_mod, BitVec.toNat_shiftLeft,
    Nat.shiftLeft_eq]
  omega

/-- The word after a digit has been shifted in. -/
theorem shifted_toNat {mask : BitVec 32} {places : Nat} (keeps : Keeps mask places)
    (wbuf digit : BitVec 32) (small : digit.toNat < 16) :
    (wbuf <<< 4 &&& mask ||| digit).toNat = 16 * wbuf.toNat % 16 ^ places + digit.toNat := by
  obtain ⟨room, most, ones⟩ := keeps
  have base : 16 ^ places = 2 ^ (4 * places) := by
    rw [Nat.pow_mul]
  have power : 16 ^ places ≤ 2 ^ 32 := by
    rw [base]
    exact Nat.pow_le_pow_right (by decide) (by omega)
  have divides : 16 ^ places ∣ 2 ^ 32 := by
    rw [base]
    exact Nat.pow_dvd_pow 2 (by omega)
  have positive : 0 < 16 ^ places := Nat.pow_pos (by decide)
  have masked : wbuf <<< 4 &&& mask = wbuf <<< 4 &&& BitVec.ofNat 32 (16 ^ places - 1) := by
    rw [← ones, BitVec.and_or_distrib_left, shifted_low, BitVec.or_zero]
  have kept : (wbuf <<< 4 &&& mask).toNat = 16 * wbuf.toNat % 16 ^ places := by
    rw [masked, BitVec.toNat_and, BitVec.toNat_ofNat, Nat.mod_eq_of_lt (by omega), base,
      Nat.and_two_pow_sub_one_eq_mod, ← base, BitVec.toNat_shiftLeft, Nat.shiftLeft_eq,
      Nat.mod_mod_of_dvd _ divides, Nat.mul_comm]
  have multiple : 16 * wbuf.toNat % 16 ^ places = 2 ^ 4 * (wbuf.toNat % 16 ^ (places - 1)) := by
    obtain ⟨more, rfl⟩ := Nat.exists_eq_succ_of_ne_zero room.ne'
    rw [Nat.pow_succ', Nat.mul_mod_mul_left]
    rfl
  rw [BitVec.toNat_or, kept, multiple, Nat.two_pow_add_eq_or_of_lt small]

/-- While a field is typed, its word follows its digits. -/
theorem typeKey_typing {mask : BitVec 32} {places : Nat} (keeps : Keeps mask places)
    {wbuf key : BitVec 32} {digits : Register 16 places} (same : wbuf.toNat = digits.value)
    (typing : TypingKey key) :
    ∃ number, typeKey mask wbuf key = .number number ∧
      number.toNat = (typeInto digits key).value := by
  have other : key ≠ keyEnter := by
    rintro rfl
    exact absurd typing (by decide)
  by_cases back : key = keyBackspace
  · refine ⟨wbuf >>> 4, ?_, ?_⟩
    · rw [typeKey, if_neg other, if_pos back]
    · rw [typeInto, if_pos back, Register.value_pop digits (by decide), ← same,
        BitVec.toNat_ushiftRight, Nat.shiftRight_eq_div_pow]
  · have digit : isxdigit key = true := typing.resolve_right back
    have value := digitOf_hexValue digit
    have small := digitOf_lt key digit
    refine ⟨wbuf <<< 4 &&& mask ||| digitOf key, ?_, ?_⟩
    · rw [typeKey, if_neg other, if_neg back, if_pos digit]
    · rw [typeInto, if_neg back, Register.value_push _ _ keeps.1, shifted_toNat keeps _ _ small,
        same, value]

/-- The first digit of a value is what the register holds when it alone has been typed. -/
theorem typed_first {places : Nat} (room : 0 < places) {first : BitVec 32}
    (digit : isxdigit first = true) :
    (digitOf first).toNat = (typeInto (Register.empty : Register 16 places) first).value := by
  have back : first ≠ keyBackspace := fun same => xdigit_other digit (by simp [same])
  rw [typeInto, if_neg back, Register.value_push _ _ room, Register.value_empty, Nat.mul_zero,
    Nat.zero_mod, Nat.zero_add, digitOf_hexValue digit]

end Word

/-- What one key keeps, all keys keep. By induction on the keys typed. -/
theorem pressed_typed (press : BitVec 32 → ω → ω) (Typing : ω → Prop) (wbuf : ω → BitVec 32)
    {places : Nat}
    (step : ∀ window (digits : Register 16 places) key, Typing window →
      (wbuf window).toNat = digits.value → TypingKey key →
        Typing (press key window) ∧ (wbuf (press key window)).toNat = (typeInto digits key).value)
    (keys : List (BitVec 32)) (all : ∀ key ∈ keys, TypingKey key) (window : ω)
    (digits : Register 16 places) (start : Typing window)
    (same : (wbuf window).toNat = digits.value) :
    Typing (pressed press keys window) ∧
      (wbuf (pressed press keys window)).toNat = (keys.foldl typeInto digits).value := by
  induction keys generalizing window digits with
  | nil => exact ⟨start, same⟩
  | cons key keys inductionHypothesis =>
    obtain ⟨own, others⟩ := List.forall_mem_cons.mp all
    obtain ⟨typing, follows⟩ := step window digits key start same own
    exact inductionHypothesis others (press key window) (typeInto digits key) typing follows

/-- A value that begins with a digit: the word is that of all digits, and has a place for each. -/
theorem value_typed (press : BitVec 32 → ω → ω) (Typing : ω → Prop) (wbuf : ω → BitVec 32)
    {places : Nat} (room : 0 < places)
    (step : ∀ window (digits : Register 16 places) key, Typing window →
      (wbuf window).toNat = digits.value → TypingKey key →
        Typing (press key window) ∧ (wbuf (press key window)).toNat = (typeInto digits key).value)
    {window : ω} {first : BitVec 32} (digit : isxdigit first = true)
    (start : Typing (press first window)) (begins : wbuf (press first window) = digitOf first)
    (keys : List (BitVec 32)) (all : ∀ key ∈ keys, TypingKey key) :
    Typing (pressed press (first :: keys) window) ∧
      (wbuf (pressed press (first :: keys) window)).toNat = (typed places (first :: keys)).value ∧
      (wbuf (pressed press (first :: keys) window)).toNat < 16 ^ places := by
  have same : (wbuf (press first window)).toNat =
      (typeInto (Register.empty : Register 16 places) first).value := by
    rw [begins]
    exact typed_first room digit
  obtain ⟨typing, value⟩ := pressed_typed press Typing wbuf step keys all _ _ start same
  have bound := (typed places (first :: keys)).value_lt (by decide)
  exact ⟨typing, value, value ▸ bound⟩

section Editors

/-- Enter commits what was typed, whatever it is, an empty value included. -/
theorem typeKey_keyEnter (mask wbuf : BitVec 32) : typeKey mask wbuf keyEnter = .enter := if_pos rfl

/-- A value is typed in PCI-DEV. -/
def DevWindow.Types (mode : DisplayMode) (window : DevWindow δ) : Prop :=
  window.halted = none ∧ window.dev.input = true ∧ window.dev.displayMode = mode

/-- While a value is typed in PCI-DEV, its word follows its digits. -/
theorem pciDevKeyPress_typing (ioctl : Ioctl LfddPcix δ) (mode : DisplayMode)
    (window : DevWindow δ) (digits : Register 16 (2 * 2 ^ mode.shift)) (key : BitVec 32)
    (typing : window.Types mode) (same : window.dev.wbuf.toNat = digits.value)
    (allowed : TypingKey key) :
    (pciDevKeyPress ioctl key window).2.Types mode ∧
      (pciDevKeyPress ioctl key window).2.dev.wbuf.toNat = (typeInto digits key).value := by
  obtain ⟨running, input, shown⟩ := typing
  obtain ⟨number, follows, value⟩ := typeKey_typing (displayMode_keeps mode) same allowed
  have changed : pciDevKeyPress ioctl key window =
      ([], { window with dev := { window.dev with wbuf := number } }) := by
    simp only [pciDevKeyPress, input, if_true, shown, follows, window.edit_running running]
  rw [changed]
  exact ⟨⟨running, input, shown⟩, value⟩

/-- Enter writes what was typed: every call it makes has the typed value in its buffer. -/
theorem pciDevKeyPress_commits (ioctl : Ioctl LfddPcix δ) (window : DevWindow δ)
    (typing : window.dev.input = true) :
    ∀ call ∈ (pciDevKeyPress ioctl keyEnter window).1, call.2.buf = window.dev.wbuf := by
  have calls : (pciDevKeyPress ioctl keyEnter window).1 = (writePCIValue ioctl window).1 := by
    simp only [pciDevKeyPress, typing, if_true, typeKey_keyEnter]
  rw [calls, writePCIValue, callSelected]
  cases window.table.current with
  | none => exact fun call member => absurd member List.not_mem_nil
  | some record =>
    intro call member
    obtain rfl := List.mem_singleton.mp member
    rfl

/-- In every run of PCI-DEV a value that is typed and committed has the last digits that were typed,
by induction on the keys. -/
theorem dev_typed (ioctl : Ioctl LfddPcix δ) : DevTyped ioctl := by
  intro window first keys running browsing digit all places after
  have keeps := displayMode_keeps window.dev.displayMode
  have apart := xdigit_other digit
  simp only [List.mem_cons, List.not_mem_nil, or_false, not_or] at apart
  have opened : (pciDevKeyPress ioctl first window).2 =
      { window with dev := { window.dev with input := true, wbuf := digitOf first } } := by
    simp only [pciDevKeyPress, browsing, Bool.false_eq_true, if_false, apart, digit, if_true,
      window.edit_running running]
  have start : (pciDevKeyPress ioctl first window).2.Types window.dev.displayMode := by
    rw [opened]
    exact ⟨running, rfl, rfl⟩
  have begins : (pciDevKeyPress ioctl first window).2.dev.wbuf = digitOf first := by
    rw [opened]
  obtain ⟨⟨_, typing, _⟩, value, bound⟩ := value_typed
    (fun key window => (pciDevKeyPress ioctl key window).2)
    (DevWindow.Types window.dev.displayMode) (fun window => window.dev.wbuf) keeps.1
    (pciDevKeyPress_typing ioctl window.dev.displayMode) digit start begins keys all
  exact ⟨typing, value, bound, pciDevKeyPress_commits ioctl after typing⟩

variable {α μ : Type} (space : AddressSpace α μ) (ioctl : Ioctl LfddSpace δ)

/-- A value is typed in a space. -/
def SpaceWindow.TypesValue (mode : μ) (window : SpaceWindow α μ δ) : Prop :=
  window.halted = none ∧ window.editor.input = .inputValue ∧ window.editor.displayMode = mode

/-- An address is. -/
def SpaceWindow.TypesAddress (window : SpaceWindow α μ δ) : Prop :=
  window.halted = none ∧ window.editor.input = .inputAddr

/-- While a value is typed in a space, its word follows its digits. -/
theorem spaceKeyPress_value (keeps : ∀ mode, Keeps (space.mask mode) (2 * 2 ^ space.shift mode))
    (mode : μ) (window : SpaceWindow α μ δ) (digits : Register 16 (2 * 2 ^ space.shift mode))
    (key : BitVec 32) (typing : window.TypesValue mode)
    (same : window.editor.wbuf.toNat = digits.value) (allowed : TypingKey key) :
    (spaceKeyPress space ioctl key window).2.TypesValue mode ∧
      (spaceKeyPress space ioctl key window).2.editor.wbuf.toNat =
        (typeInto digits key).value := by
  obtain ⟨running, input, shown⟩ := typing
  obtain ⟨number, follows, value⟩ := typeKey_typing (keeps mode) same allowed
  have changed : spaceKeyPress space ioctl key window =
      ([], { window with editor := { window.editor with wbuf := number } }) := by
    simp only [spaceKeyPress, input, shown, follows, window.edit_running running]
  rw [changed]
  exact ⟨⟨running, input, shown⟩, value⟩

/-- What Enter sends to the driver is what was typed. -/
theorem spaceKeyPress_commits (window : SpaceWindow α μ δ)
    (typing : window.editor.input = .inputValue) :
    ∀ call ∈ (spaceKeyPress space ioctl keyEnter window).1, call.2.buf = window.editor.wbuf := by
  have calls : (spaceKeyPress space ioctl keyEnter window).1 =
      (writeSpaceValue space ioctl window).1 := by
    simp only [spaceKeyPress, typing, typeKey_keyEnter]
  rw [calls]
  intro call member
  obtain rfl := List.mem_singleton.mp member
  rfl

/-- So it is in a space, whose mask keeps the digits of a cell and whose short key is no digit. -/
theorem space_typed (keeps : ∀ mode, Keeps (space.mask mode) (2 * 2 ^ space.shift mode))
    (shortKey : isxdigit space.shortKey = false) : SpaceTyped space ioctl := by
  intro window first keys running browsing digit all places after
  have apart := xdigit_other digit
  simp only [List.mem_cons, List.not_mem_nil, or_false, not_or] at apart
  have short : first ≠ space.shortKey := by
    rintro rfl
    exact Bool.false_ne_true (shortKey.symm.trans digit)
  have opened : (spaceKeyPress space ioctl first window).2 =
      { window with
        editor := { window.editor with input := .inputValue, wbuf := digitOf first } } := by
    simp only [spaceKeyPress, browsing, if_false, apart, short, digit, if_true,
      window.edit_running running]
  have start : (spaceKeyPress space ioctl first window).2.TypesValue
      window.editor.displayMode := by
    rw [opened]
    exact ⟨running, rfl, rfl⟩
  have begins : (spaceKeyPress space ioctl first window).2.editor.wbuf = digitOf first := by
    rw [opened]
  obtain ⟨⟨_, typing, _⟩, value, bound⟩ := value_typed
    (fun key window => (spaceKeyPress space ioctl key window).2)
    (SpaceWindow.TypesValue window.editor.displayMode) (fun window => window.editor.wbuf)
    (keeps window.editor.displayMode).1
    (spaceKeyPress_value space ioctl keeps window.editor.displayMode) digit start begins keys all
  exact ⟨typing, value, bound, spaceKeyPress_commits space ioctl after typing⟩

/-- While an address is typed, its word follows its digits. -/
theorem spaceKeyPress_address {places : Nat} (keeps : Keeps space.addrMask places)
    (window : SpaceWindow α μ δ) (digits : Register 16 places) (key : BitVec 32)
    (typing : window.TypesAddress) (same : window.editor.wbuf.toNat = digits.value)
    (allowed : TypingKey key) :
    (spaceKeyPress space ioctl key window).2.TypesAddress ∧
      (spaceKeyPress space ioctl key window).2.editor.wbuf.toNat =
        (typeInto digits key).value := by
  obtain ⟨running, input⟩ := typing
  obtain ⟨number, follows, value⟩ := typeKey_typing keeps same allowed
  have changed : spaceKeyPress space ioctl key window =
      ([], { window with editor := { window.editor with wbuf := number } }) := by
    simp only [spaceKeyPress, input, follows, window.edit_running running]
  rw [changed]
  exact ⟨⟨running, input⟩, value⟩

/-- An address that is typed opens the page whose number has the digits, inside the space. -/
theorem address_typed {places : Nat} (keeps : Keeps space.addrMask places)
    (shortKey : space.shortKey ∉ [keyUp, keyDown, keyLeft, keyRight, keyNpage, keyPpage, keyF7])
    (number : α → Int) (limit : Int)
    (page : ∀ wbuf : BitVec 32, wbuf.toNat < 16 ^ places →
      number (space.typedPage wbuf) = wbuf.toNat * 256 ∧ number (space.typedPage wbuf) < limit) :
    AddressTyped space ioctl places number limit := by
  intro window opened keys running opening all after entered
  have begins : opened =
      { window with editor := { window.editor with input := .inputAddr, wbuf := 0 } } := by
    rcases opening with ⟨browsing, rfl⟩ | rfl
    · simp only [List.mem_cons, List.not_mem_nil, or_false, not_or] at shortKey
      simp only [spaceKeyPress, browsing, if_false, shortKey, if_true,
        window.edit_running running]
    · exact window.edit_running running _
  have start : opened.TypesAddress := by
    rw [begins]
    exact ⟨running, rfl⟩
  have empty : opened.editor.wbuf.toNat = (Register.empty : Register 16 places).value := by
    rw [begins]
    rfl
  obtain ⟨⟨runs, typing⟩, value⟩ := pressed_typed
    (fun key window => (spaceKeyPress space ioctl key window).2) SpaceWindow.TypesAddress
    (fun window => window.editor.wbuf) (spaceKeyPress_address space ioctl keeps) keys all opened
    Register.empty start empty
  have bound := (typed places keys).value_lt (by decide)
  have small : after.editor.wbuf.toNat < 16 ^ places := value ▸ bound
  have committed : entered.editor.page = space.typedPage after.editor.wbuf := by
    have mode : after.editor.input = .inputAddr := typing
    have edited := after.edit_running runs
    simp only [entered, spaceKeyPress, mode, typeKey_keyEnter, edited]
  obtain ⟨number_, fits⟩ := page after.editor.wbuf small
  exact ⟨typing, value, small, committed ▸ number_, committed ▸ fits⟩

/-- The page of MEM-SPACE is the number that was typed, times 256, which fits 32 bits. -/
theorem mem_page (wbuf : BitVec 32) (small : wbuf.toNat < 16 ^ 6) :
    ((memSpace.typedPage wbuf).toNat : Int) = wbuf.toNat * 256 ∧
      ((memSpace.typedPage wbuf).toNat : Int) < 0x100000000 := by
  have page : (memSpace.typedPage wbuf).toNat = wbuf.toNat * 256 := by
    have whole : (wbuf <<< 8).toNat = wbuf.toNat * 2 ^ 8 % 2 ^ 32 := by
      rw [BitVec.toNat_shiftLeft, Nat.shiftLeft_eq]
    exact whole.trans (Nat.mod_eq_of_lt (by omega))
  rw [page]
  omega

/-- So is the page of IO-SPACE, inside the ports. -/
theorem io_page (wbuf : BitVec 32) (small : wbuf.toNat < 16 ^ 2) :
    ioSpace.typedPage wbuf = (wbuf.toNat : Int) * 256 ∧ ioSpace.typedPage wbuf < 0x10000 := by
  have whole : (wbuf <<< 8).toNat = wbuf.toNat * 256 := by
    rw [BitVec.toNat_shiftLeft, Nat.shiftLeft_eq]
    exact Nat.mod_eq_of_lt (by omega)
  have page : ioSpace.typedPage wbuf = ((wbuf <<< 8).toNat : Int) :=
    BitVec.toInt_eq_toNat_of_lt (by omega)
  rw [page, whole]
  omega

/-- In CMOS-SPACE, the word follows the digits as well. -/
theorem cmosKeyPress_typing (ports : CmosPorts δ) (window : CmosWindow δ)
    (digits : Register 16 2) (key : BitVec 32) (typing : window.editor.input = true)
    (same : window.editor.wbuf.toNat = digits.value) (allowed : TypingKey key) :
    (cmosKeyPress ports key window).2.editor.input = true ∧
      (cmosKeyPress ports key window).2.editor.wbuf.toNat = (typeInto digits key).value := by
  have keeps : Keeps 0xf0 2 := by decide
  obtain ⟨number, follows, value⟩ := typeKey_typing keeps same allowed
  have changed : cmosKeyPress ports key window =
      (none, window.edit fun editor => { editor with wbuf := number }) := by
    simp only [cmosKeyPress, typing, if_true, follows]
  rw [changed]
  exact ⟨typing, value⟩

/-- In every run of CMOS-SPACE the byte that is committed has the last two digits that were typed.
-/
theorem cmos_typed (ports : CmosPorts δ) : CmosTyped ports := by
  intro window first keys browsing digit all after
  have apart := xdigit_other digit
  simp only [List.mem_cons, List.not_mem_nil, or_false, not_or] at apart
  have opened : (cmosKeyPress ports first window).2 =
      window.edit fun editor => { editor with input := true, wbuf := digitOf first } := by
    simp only [cmosKeyPress, browsing, Bool.false_eq_true, if_false, apart, digit, if_true]
  have start : (cmosKeyPress ports first window).2.editor.input = true := by
    rw [opened]
    rfl
  have begins : (cmosKeyPress ports first window).2.editor.wbuf = digitOf first := by
    rw [opened]
    rfl
  obtain ⟨typing, value, small⟩ := value_typed
    (fun key window => (cmosKeyPress ports key window).2)
    (fun window => window.editor.input = true) (fun window => window.editor.wbuf) (by decide)
    (cmosKeyPress_typing ports) digit start begins keys all
  have bound : after.editor.wbuf.toNat < 16 ^ 2 := small
  refine ⟨typing, value, small, after.editor.written.1, after.editor.written.2, ?_, ?_⟩
  · have mode : after.editor.input = true := typing
    simp only [cmosKeyPress, mode, if_true, typeKey_keyEnter]
  · rw [CmosEditor.written, BitVec.toNat_setWidth]
    omega

end Editors

/-- In all fields of the four editors, the word is the value of the digits that were typed,
what Enter uses has no more digits than the field, and the page it goes to is one of the
space. -/
theorem typed_value_digits (pci : Ioctl LfddPcix δ) (mem io : Ioctl LfddSpace δ)
    (ports : CmosPorts δ) :
    DevTyped pci ∧ SpaceTyped memSpace mem ∧ SpaceTyped ioSpace io ∧ CmosTyped ports ∧
      AddressTyped memSpace mem 6 (fun page => page.toNat) 0x100000000 ∧
      AddressTyped ioSpace io 2 id 0x10000 :=
  ⟨dev_typed pci, space_typed memSpace mem displayMode_keeps (by decide),
    space_typed ioSpace io ioDisplayMode_keeps (by decide), cmos_typed ports,
    address_typed memSpace mem (by decide) (by decide) _ _ mem_page,
    address_typed ioSpace io (by decide) (by decide) _ _ io_page⟩

/-- IO-SPACE as the program starts, with a driver that answers nothing. -/
def idleIo : SpaceWindow Int IoDisplayMode Unit :=
  ⟨ioStarting, ⟨0, 0, Vector.replicate 256 0⟩, (), none⟩

/-- `1`, `A` and Enter go to the page at 1A00h. -/
theorem page_1a_entered :
    (spaceKeyPress ioSpace (fun _ request driver => (true, request, driver)) keyEnter
      (pressed
        (fun key window =>
          (spaceKeyPress ioSpace (fun _ request driver => (true, request, driver)) key window).2)
        [0x31, 0x41] (spaceGetFocus idleIo))).2.editor.page = 0x1a00 := by
  have digits : ∀ key ∈ [0x31, 0x41], TypingKey key :=
    List.forall_mem_cons.mpr ⟨by decide, List.forall_mem_singleton.mpr (by decide)⟩
  have fields := typed_value_digits (δ := Unit) (fun _ target driver => (true, target, driver))
    (fun _ request driver => (true, request, driver))
    (fun _ request driver => (true, request, driver)) ⟨fun _ _ driver => driver, fun _ driver =>
      (0, driver)⟩
  obtain ⟨_, value, _, page, _⟩ := fields.2.2.2.2.2 idleIo (spaceGetFocus idleIo) [0x31, 0x41]
    rfl (Or.inr rfl) digits
  rw [value] at page
  exact page

/-- `1`, `A`, `3`, backspace, `f` in a field of two places. -/
example : (typed 2 [0x31, 0x41, 0x33, keyBackspace, 0x66]).value = 0xaf := by decide

end Lfdk.HexEditors
