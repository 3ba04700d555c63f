import Lfdk.HexEditors

/-!
# What a key does in a hex editor

A key press changes one thing: the value that is typed, the cursor, the width of the
cells, the page, the selected function, or, with Enter, what is written. Everything else
stays. The effects of a key are listed once for PCI-DEV and once for the two editors of
address spaces, and all invariants are proved along these lists.

An editor is settled when its cursor stands at the start of a cell and its page is inside
the space it looks at.
-/

namespace Lfdk.HexEditors

open HexPages PciScan

universe u
variable {δ : Type u}

/-- A cell has sixteen bytes at most, so that a line has one cell at least. The lemmas about cursors
ask for this. -/
theorem DisplayMode.shift_le (mode : DisplayMode) : mode.shift ≤ 4 := by
  cases mode <;> decide

/-- A page lies inside a space of this size. -/
structure PageIn (limit page : Int) : Prop where
  aligned : 256 ∣ page
  first : 0 ≤ page
  last : page + 256 ≤ limit

/-- The first page is inside every space that has room for a page. All editors start there. -/
theorem PageIn.zero {limit : Int} (room : 256 ≤ limit) : PageIn limit 0 :=
  ⟨dvd_zero _, le_refl _, room⟩

/-- The cursor is on a page with cells of this width, and the page in a space of this
size. -/
structure Settled (shift : Nat) (cursor : Cursor) (page limit : Int) : Prop where
  onPage : cursor.OnPage shift
  inside : PageIn limit page

section PciDevices

/-- What a key changes in the variables of PCI-DEV when it does not turn a page. -/
inductive DevChange (dev : PciDev) : PciDev → Prop where
  | typed (input : Bool) (wbuf : BitVec 32) : DevChange dev { dev with input := input, wbuf := wbuf }
  | moved (cursor : Cursor) (move : dev.cursor.Move dev.displayMode.shift cursor) :
      DevChange dev { dev with cursor := cursor }
  | widened : DevChange dev { dev with
      displayMode := dev.displayMode.next
      cursor := dev.cursor.realign dev.displayMode.next.shift }

/-- The two ways of turning a page. -/
inductive Turn : (Int → Int) → Prop where
  | previous : Turn fun page => if 256 ≤ page then page - 256 else page
  | next : Turn fun page => if page + 256 < 0x1000 then page + 256 else page

/-- What a key press does in PCI-DEV. -/
inductive DevEffect (ioctl : Ioctl LfddPcix δ) (window : DevWindow δ) :
    Ran LfddPcix (DevWindow δ) → Prop where
  | wrote (typing : window.dev.input = true) :
      DevEffect ioctl window ((writePCIValue ioctl window).1,
        (writePCIValue ioctl window).2.edit fun dev => { dev with input := false, wbuf := 0 })
  | edited (dev : PciDev) (change : DevChange window.dev dev) :
      DevEffect ioctl window ([], { window with dev := dev })
  | turned (change : Int → Int) (turn : Turn change) :
      DevEffect ioctl window ([], turnPage change window)
  | following (more : window.table.currIndex < (window.table.pciListLen : Int) - 1) :
      DevEffect ioctl window ([], selectFunction 1 window)
  | preceding (more : 0 < window.table.currIndex) :
      DevEffect ioctl window ([], selectFunction (-1) window)
  | nothing : DevEffect ioctl window ([], window)

variable (ioctl : Ioctl LfddPcix δ) (window : DevWindow δ)

/-- While the program runs, an edit changes the variables of the editor and nothing else. -/
theorem DevWindow.edit_running (running : window.halted = none) (change : PciDev → PciDev) :
    window.edit change = { window with dev := change window.dev } := if_pos running

/-- An edit changes the variables of PCI-DEV or, after the end of the program, nothing. -/
theorem DevWindow.edit_cases (change : PciDev → PciDev) :
    (window.edit change).dev = change window.dev ∨ (window.edit change).dev = window.dev := by
  rw [edit]
  split
  · exact Or.inl rfl
  · exact Or.inr rfl

/-- An edit leaves the list of functions and the selected index as they are. -/
theorem DevWindow.edit_table (change : PciDev → PciDev) :
    (window.edit change).table = window.table := by
  rw [edit]
  split
  · rfl
  · rfl

/-- A key has one of the listed effects on PCI-DEV. All invariants of the editor are derived from
this list. -/
theorem pciDevKeyPress_effect (running : window.halted = none) (key : BitVec 32) :
    DevEffect ioctl window (pciDevKeyPress ioctl key window) := by
  have edited := window.edit_running running
  simp only [pciDevKeyPress, edited]
  -- One key after the other, so that each step looks at the first test only.
  apply iteInduction
  · intro typing
    cases typeKey window.dev.displayMode.mask window.dev.wbuf key with
    | enter => exact .wrote typing
    | number wbuf => exact .edited _ (.typed window.dev.input wbuf)
    | left => exact .edited _ (.typed false 0)
  intro _
  apply iteInduction
  · intro _
    exact iteInduction (fun _ => .edited _ (.moved _ .up)) fun _ => .turned _ .previous
  intro _
  apply iteInduction
  · intro _
    exact iteInduction (fun _ => .edited _ (.moved _ .down)) fun _ => .turned _ .next
  intro _
  apply iteInduction
  · exact fun _ => .edited _ (.moved _ .left)
  intro _
  apply iteInduction
  · exact fun _ => .edited _ (.moved _ .right)
  intro _
  apply iteInduction
  · intro _
    exact iteInduction .following fun _ => .nothing
  intro _
  apply iteInduction
  · intro _
    exact iteInduction .preceding fun _ => .nothing
  intro _
  apply iteInduction
  · exact fun _ => .edited _ .widened
  intro _
  exact iteInduction (fun _ => .edited _ (.typed true (digitOf key))) fun _ => .nothing

/-- A command changes none of PCI-DEV's own variables and not the list. -/
theorem callSelected_keeps (operation : Operation) (reg : BitVec 16) (buf : BitVec 32) :
    (callSelected ioctl operation reg buf window).2.dev = window.dev ∧
      (callSelected ioctl operation reg buf window).2.table = window.table := by
  rw [callSelected]
  split
  · exact ⟨rfl, rfl⟩
  · exact ⟨rfl, rfl⟩

/-- The command that is issued, if there is a selected function, names it and carries its base. -/
theorem callSelected_calls (operation : Operation) (reg : BitVec 16) (buf : BitVec 32)
    (call : Operation × LfddPcix)
    (issued : call ∈ (callSelected ioctl operation reg buf window).1) :
    ∃ record, window.table.current = some record ∧ call = (operation,
      { window.lfddPciData with
        bus := record.bus, dev := record.dev, func := record.func, reg := reg
        phyBase := record.phyBase, buf := buf }) := by
  rw [callSelected] at issued
  split at issued
  · exact absurd issued List.not_mem_nil
  · next record current => exact ⟨record, current, List.mem_singleton.mp issued⟩

/-- PCI-DEV is settled in the 4096 bytes of a function. -/
def DevWindow.Settled (window : DevWindow δ) : Prop :=
  HexEditors.Settled window.dev.displayMode.shift window.dev.cursor window.dev.buffPage 0x1000

variable {window}

/-- A change of the variables keeps the cursor on the page and the page inside, in the width that
the editor then has. -/
theorem DevChange.settled {limit : Int} {dev after : PciDev} (change : DevChange dev after)
    (settled : Settled dev.displayMode.shift dev.cursor dev.buffPage limit) :
    Settled after.displayMode.shift after.cursor after.buffPage limit := by
  obtain ⟨onPage, inside⟩ := settled
  have fits := dev.displayMode.shift_le
  cases change with
  | typed input wbuf => exact ⟨onPage, inside⟩
  | moved cursor move => exact ⟨move.onPage fits onPage, inside⟩
  | widened => exact ⟨Cursor.realign_onPage dev.displayMode.next.shift_le onPage, inside⟩

/-- Turning a page stays among the registers of a function: the turns at both ends are cut off. -/
theorem Turn.inside {change : Int → Int} (turn : Turn change) {page : Int}
    (inside : PageIn 0x1000 page) : PageIn 0x1000 (change page) := by
  obtain ⟨aligned, first, last⟩ := inside
  cases turn with
  | previous =>
    simp only
    split
    · exact ⟨by omega, by omega, by omega⟩
    · exact ⟨aligned, first, last⟩
  | next =>
    simp only
    split
    · exact ⟨by omega, by omega, by omega⟩
    · exact ⟨aligned, first, last⟩

/-- Only a function with a base has other pages than the first. -/
theorem turnPage_cases (window : DevWindow δ) (change : Int → Int) :
    (turnPage change window).dev = window.dev ∨
      ∃ record, window.table.current = some record ∧ record.phyBase ≠ 0 ∧
        (turnPage change window).dev =
          { window.dev with buffPage := change window.dev.buffPage } := by
  rw [turnPage]
  split
  · exact Or.inl rfl
  · next record current =>
    split
    · next based =>
      rw [DevWindow.edit]
      split
      · exact Or.inr ⟨record, current, based, rfl⟩
      · exact Or.inl rfl
    · exact Or.inl rfl

/-- Every effect of a key keeps the editor settled. Together with the list of effects this is the
step of the invariant. -/
theorem DevEffect.settled {ran : Ran LfddPcix (DevWindow δ)} (effect : DevEffect ioctl window ran)
    (settled : window.Settled) : ran.2.Settled := by
  cases effect with
  | wrote typing =>
    obtain ⟨dev, _⟩ := callSelected_keeps ioctl window window.dev.displayMode.write
      (BitVec.ofInt 16 (window.dev.buffPage + window.dev.cursor.offset)) window.dev.wbuf
    change (writePCIValue ioctl window).2.dev = window.dev at dev
    rcases (writePCIValue ioctl window).2.edit_cases
      (fun dev => { dev with input := false, wbuf := 0 }) with edited | same
    · simp only [DevWindow.Settled, edited, dev]
      exact (DevChange.typed false 0).settled settled
    · simp only [DevWindow.Settled, same, dev]
      exact settled
  | edited dev change => exact change.settled settled
  | turned change turn =>
    rcases turnPage_cases window change with same | ⟨_, _, _, turned⟩
    · simp only [DevWindow.Settled, same]
      exact settled
    · simp only [DevWindow.Settled, turned]
      exact ⟨settled.onPage, turn.inside settled.inside⟩
  | following => exact ⟨settled.onPage, PageIn.zero (by decide)⟩
  | preceding => exact ⟨settled.onPage, PageIn.zero (by decide)⟩
  | nothing => exact settled

/-- So does every input, also a loss of the focus, a gain of it and a painting. -/
theorem devStep_settled (settled : window.Settled) (input : DevInput) :
    (devStep ioctl input window).2.Settled := by
  unfold devStep
  split
  · exact settled
  · next running =>
    have running : window.halted = none := by simpa using running
    cases input with
    | key code => exact (pciDevKeyPress_effect ioctl window running code).settled ioctl settled
    | getFocus => exact settled
    | lostFocus =>
      simp only [pciDevLostFocus, window.edit_running running]
      exact ⟨Cursor.start_onPage window.dev.displayMode.shift_le, PageIn.zero (by decide)⟩
    | paint =>
      obtain ⟨dev, _⟩ := callSelected_keeps ioctl window .read256byte
        (BitVec.ofInt 16 window.dev.buffPage) window.lfddPciData.buf
      simp only [DevWindow.Settled, printPCIScreen, dev]
      exact settled
    | others table lfddPciData => exact settled

/-- Turning a page leaves the list of functions and the selected index as they are. -/
theorem turnPage_table (window : DevWindow δ) (change : Int → Int) :
    (turnPage change window).table = window.table := by
  rw [turnPage]
  split
  · rfl
  · split
    · exact window.edit_table _
    · rfl

/-- PCI-DEV leaves the table alone, or selects a neighbour that exists. -/
theorem devStep_selects (window : DevWindow δ) (input : DevInput)
    (own : ∀ table lfddPciData, input ≠ .others table lfddPciData) :
    let after := (devStep ioctl input window).2.table
    after = window.table ∨
      (window.table.currIndex < (window.table.pciListLen : Int) - 1 ∧
        after = { window.table with currIndex := window.table.currIndex + 1 }) ∨
      (0 < window.table.currIndex ∧
        after = { window.table with currIndex := window.table.currIndex + -1 }) := by
  unfold devStep
  split
  · exact Or.inl rfl
  · next going =>
    have running : window.halted = none := by simpa using going
    cases input with
    | key code =>
      have effect := pciDevKeyPress_effect ioctl window running code
      simp only
      generalize pciDevKeyPress ioctl code window = ran at effect
      cases effect with
      | wrote typing =>
        left
        rw [DevWindow.edit_table]
        exact (callSelected_keeps ioctl window _ _ _).2
      | edited dev change => exact Or.inl rfl
      | turned change turn => exact Or.inl (turnPage_table window change)
      | following more => exact Or.inr (Or.inl ⟨more, rfl⟩)
      | preceding more => exact Or.inr (Or.inr ⟨more, rfl⟩)
      | nothing => exact Or.inl rfl
    | getFocus => exact Or.inl rfl
    | lostFocus => exact Or.inl (window.edit_table _)
    | paint => exact Or.inl (callSelected_keeps ioctl window _ _ _).2
    | others table lfddPciData => exact absurd rfl (own table lfddPciData)

/-- A request for the function of a record. -/
structure IsFor (record : PciData) (request : LfddPcix) : Prop where
  bus : request.bus = record.bus
  dev : request.dev = record.dev
  func : request.func = record.func
  phyBase : request.phyBase = record.phyBase

/-- The commands of PCI-DEV: Enter writes the value that is typed to the byte at the cursor,
and painting reads the page. Both go to the selected function. -/
theorem devStep_calls (input : DevInput) (call : Operation × LfddPcix)
    (issued : call ∈ (devStep ioctl input window).1) :
    ∃ record, window.table.current = some record ∧ IsFor record call.2 ∧
      (window.dev.input = true ∧ call.1 = window.dev.displayMode.write ∧
          call.2.reg = BitVec.ofInt 16 (window.dev.buffPage + window.dev.cursor.offset) ∨
        call.1 = .read256byte ∧ call.2.reg = BitVec.ofInt 16 window.dev.buffPage) := by
  unfold devStep at issued
  split at issued
  · exact absurd issued List.not_mem_nil
  · next running =>
    have running : window.halted = none := by simpa using running
    cases input with
    | key code =>
      have effect := pciDevKeyPress_effect ioctl window running code
      simp only at issued
      generalize pciDevKeyPress ioctl code window = ran at effect issued
      cases effect with
      | wrote typing =>
        obtain ⟨record, current, rfl⟩ := callSelected_calls ioctl window _ _ _ call issued
        exact ⟨record, current, ⟨rfl, rfl, rfl, rfl⟩, Or.inl ⟨typing, rfl, rfl⟩⟩
      | edited dev change => exact absurd issued List.not_mem_nil
      | turned change turn => exact absurd issued List.not_mem_nil
      | following more => exact absurd issued List.not_mem_nil
      | preceding more => exact absurd issued List.not_mem_nil
      | nothing => exact absurd issued List.not_mem_nil
    | getFocus => exact absurd issued List.not_mem_nil
    | lostFocus => exact absurd issued List.not_mem_nil
    | paint =>
      obtain ⟨record, current, rfl⟩ := callSelected_calls ioctl window _ _ _ call issued
      exact ⟨record, current, ⟨rfl, rfl, rfl, rfl⟩, Or.inr ⟨rfl, rfl⟩⟩
    | others table lfddPciData => exact absurd issued List.not_mem_nil

/-- What PCI-DEV writes: the value that is typed, to the byte at the cursor. -/
theorem devStep_writes (input : DevInput) (call : Operation × LfddPcix)
    (issued : call ∈ (devStep ioctl input window).1) (write : call.1.isRead = false) :
    window.dev.input = true ∧ call.1 = window.dev.displayMode.write ∧
      call.2.reg = BitVec.ofInt 16 (window.dev.buffPage + window.dev.cursor.offset) := by
  obtain ⟨_, _, _, written | ⟨read, _⟩⟩ := devStep_calls ioctl input call issued
  · exact written
  · rw [read] at write
    exact absurd write (by decide)

end PciDevices

section Spaces

variable {α μ : Type}

/-- What the space of an editor is like: its size in bytes, how many digits the address of
a page has, and that every way of changing the page leads to a page. -/
structure AddressSpace.Paged (space : AddressSpace α μ) (start : α → Int) (limit : Int)
    (digits : Nat) : Prop where
  shift_le : ∀ mode, space.shift mode ≤ 4
  digits_pos : 0 < digits
  mask : space.addrMask.toNat < 16 ^ digits
  typed : ∀ wbuf : BitVec 32, wbuf.toNat < 16 ^ digits → PageIn limit (start (space.typedPage wbuf))
  next : ∀ page, PageIn limit (start page) → PageIn limit (start (space.nextPage page))
  previous : ∀ page, PageIn limit (start page) → PageIn limit (start (space.previousPage page))
  address : ∀ page offset, PageIn limit (start page) → 0 ≤ offset → offset < 256 →
    ((space.address page offset).toNat : Int) = start page + offset

/-- A digit has a value below sixteen. So a value that is typed fits the bytes of its cell. -/
theorem digitOf_lt (key : BitVec 32) (digit : isxdigit key = true) : (digitOf key).toNat < 16 := by
  have cases_ := of_decide_eq_true digit
  unfold digitOf
  split
  · bv_omega
  · split
    · bv_omega
    · bv_omega

/-- Only Enter commits what was typed; every other key goes into the number or is ignored. -/
theorem typeKey_enter {mask wbuf key : BitVec 32} (enter : typeKey mask wbuf key = .enter) :
    key = keyEnter := by
  by_contra other
  rw [typeKey, if_neg other] at enter
  split at enter
  · exact absurd enter (by simp)
  · split at enter
    · exact absurd enter (by simp)
    · exact absurd enter (by simp)

/-- A number keeps its room when a digit is typed or taken back. -/
theorem typeKey_bound {mask wbuf key : BitVec 32} {digits : Nat} (positive : 0 < digits)
    (masked : mask.toNat < 16 ^ digits) (bounded : wbuf.toNat < 16 ^ digits) {next : BitVec 32}
    (typed : typeKey mask wbuf key = .number next) : next.toNat < 16 ^ digits := by
  have power : 16 ^ digits = 2 ^ (4 * digits) := by rw [pow_mul]; rfl
  rw [typeKey] at typed
  split at typed
  · exact absurd typed (by simp)
  · split at typed
    · obtain rfl := Typed.number.inj typed
      rw [BitVec.toNat_ushiftRight, Nat.shiftRight_eq_div_pow]
      exact lt_of_le_of_lt (Nat.div_le_self _ _) bounded
    · split at typed
      · next digit =>
        obtain rfl := Typed.number.inj typed
        have low : (digitOf key).toNat < 16 ^ digits :=
          lt_of_lt_of_le (digitOf_lt key digit) (Nat.le_self_pow positive.ne' 16)
        have high : (wbuf <<< 4 &&& mask).toNat < 16 ^ digits := by
          rw [BitVec.toNat_and]
          exact lt_of_le_of_lt Nat.and_le_right masked
        rw [power] at low high ⊢
        rw [BitVec.toNat_or]
        exact Nat.or_lt_two_pow high low
      · exact absurd typed (by simp)

/-- What a key changes in the variables of an editor. -/
inductive SpaceChange (space : AddressSpace α μ) (editor : SpaceEditor α μ) :
    SpaceEditor α μ → Prop where
  | typedAddr (key wbuf : BitVec 32) (typing : editor.input = .inputAddr)
      (typed : typeKey space.addrMask editor.wbuf key = .number wbuf) :
      SpaceChange space editor { editor with input := .inputAddr, wbuf := wbuf }
  | typedValue (wbuf : BitVec 32) :
      SpaceChange space editor { editor with input := .inputValue, wbuf := wbuf }
  | asked : SpaceChange space editor { editor with input := .inputAddr, wbuf := 0 }
  | left : SpaceChange space editor { editor with input := .noInput, wbuf := 0 }
  | entered (typing : editor.input = .inputAddr) :
      SpaceChange space editor { editor with
        input := .noInput, page := space.typedPage editor.wbuf, wbuf := 0 }
  | moved (cursor : Cursor) (move : editor.cursor.Move (space.shift editor.displayMode) cursor) :
      SpaceChange space editor { editor with input := .noInput, cursor := cursor }
  | following :
      SpaceChange space editor { editor with
        input := .noInput, page := space.nextPage editor.page }
  | preceding :
      SpaceChange space editor { editor with
        input := .noInput, page := space.previousPage editor.page }
  | widened :
      SpaceChange space editor { editor with
        input := .noInput
        displayMode := space.nextMode editor.displayMode
        cursor := editor.cursor.realign (space.shift (space.nextMode editor.displayMode)) }

/-- What a key press does in an editor. -/
inductive SpaceEffect (space : AddressSpace α μ) (ioctl : Ioctl LfddSpace δ)
    (window : SpaceWindow α μ δ) : Ran LfddSpace (SpaceWindow α μ δ) → Prop where
  | wrote (typing : window.editor.input = .inputValue) :
      SpaceEffect space ioctl window ((writeSpaceValue space ioctl window).1,
        (writeSpaceValue space ioctl window).2.edit fun editor =>
          { editor with input := .noInput, wbuf := 0 })
  | edited (editor : SpaceEditor α μ) (change : SpaceChange space window.editor editor) :
      SpaceEffect space ioctl window ([], { window with editor := editor })
  | nothing : SpaceEffect space ioctl window ([], window)

variable (space : AddressSpace α μ) (ioctl : Ioctl LfddSpace δ) (window : SpaceWindow α μ δ)

/-- While the program runs, an edit changes the variables of the space and nothing else. -/
theorem SpaceWindow.edit_running (running : window.halted = none)
    (change : SpaceEditor α μ → SpaceEditor α μ) :
    window.edit change = { window with editor := change window.editor } := if_pos running

/-- An edit changes the variables of the editor or, after the end of the program, nothing. -/
theorem SpaceWindow.edit_cases (change : SpaceEditor α μ → SpaceEditor α μ) :
    (window.edit change).editor = change window.editor ∨
      (window.edit change).editor = window.editor := by
  rw [edit]
  split
  · exact Or.inl rfl
  · exact Or.inr rfl

/-- A key has one of the listed effects on a space. The three spaces share the list, with their own
widths and limits. -/
theorem spaceKeyPress_effect (running : window.halted = none) (key : BitVec 32) :
    SpaceEffect space ioctl window (spaceKeyPress space ioctl key window) := by
  have edited := window.edit_running running
  simp only [spaceKeyPress, edited]
  cases mode : window.editor.input with
  | inputAddr =>
    simp only
    cases typed : typeKey space.addrMask window.editor.wbuf key with
    | enter => exact .edited _ (.entered mode)
    | number wbuf => exact .edited _ (.typedAddr key wbuf mode typed)
    | left => exact .edited _ .left
  | inputValue =>
    simp only
    cases typeKey (space.mask window.editor.displayMode) window.editor.wbuf key with
    | enter => exact .wrote mode
    | number wbuf => exact .edited _ (.typedValue wbuf)
    | left => exact .edited _ .left
  | noInput =>
    apply iteInduction
    · exact fun _ => .edited _ (.moved _ .up)
    intro _
    apply iteInduction
    · exact fun _ => .edited _ (.moved _ .down)
    intro _
    apply iteInduction
    · exact fun _ => .edited _ (.moved _ .left)
    intro _
    apply iteInduction
    · exact fun _ => .edited _ (.moved _ .right)
    intro _
    apply iteInduction
    · exact fun _ => .edited _ .following
    intro _
    apply iteInduction
    · exact fun _ => .edited _ .preceding
    intro _
    apply iteInduction
    · exact fun _ => .edited _ .widened
    intro _
    apply iteInduction
    · exact fun _ => .edited _ .asked
    intro _
    exact iteInduction (fun _ => .edited _ (.typedValue (digitOf key))) fun _ => .nothing

/-- An editor is settled in its space, and an address that is typed has its digits only. -/
structure SpaceEditor.Settled (space : AddressSpace α μ) (start : α → Int) (limit : Int)
    (digits : Nat) (editor : SpaceEditor α μ) : Prop where
  settled : HexEditors.Settled (space.shift editor.displayMode) editor.cursor (start editor.page)
    limit
  typed : editor.input = .inputAddr → editor.wbuf.toNat < 16 ^ digits

variable {space window} {start : α → Int} {limit : Int} {digits : Nat}
  (paged : space.Paged start limit digits)

include paged

/-- A change of the variables keeps the cursor on the page, the page inside, and the digits of an
address that is typed in their bounds. -/
theorem SpaceChange.settled {editor after : SpaceEditor α μ}
    (change : SpaceChange space editor after)
    (settled : editor.Settled space start limit digits) :
    after.Settled space start limit digits := by
  obtain ⟨⟨onPage, inside⟩, typed⟩ := settled
  have fits := paged.shift_le
  have zero : (0 : BitVec 32).toNat < 16 ^ digits := pow_pos (by decide) digits
  cases change with
  | typedAddr key wbuf typing number =>
    exact ⟨⟨onPage, inside⟩, fun _ => typeKey_bound paged.digits_pos paged.mask (typed typing) number⟩
  | typedValue wbuf => exact ⟨⟨onPage, inside⟩, fun asked => nomatch asked⟩
  | asked => exact ⟨⟨onPage, inside⟩, fun _ => zero⟩
  | left => exact ⟨⟨onPage, inside⟩, fun asked => nomatch asked⟩
  | entered typing =>
    exact ⟨⟨onPage, paged.typed editor.wbuf (typed typing)⟩, fun asked => nomatch asked⟩
  | moved cursor move =>
    exact ⟨⟨move.onPage (fits editor.displayMode) onPage, inside⟩, fun asked => nomatch asked⟩
  | following => exact ⟨⟨onPage, paged.next _ inside⟩, fun asked => nomatch asked⟩
  | preceding => exact ⟨⟨onPage, paged.previous _ inside⟩, fun asked => nomatch asked⟩
  | widened =>
    exact ⟨⟨Cursor.realign_onPage (fits _) onPage, inside⟩, fun asked => nomatch asked⟩

/-- So does every input. The editors of memory and ports start settled, so they are settled
throughout every run. -/
theorem spaceStep_settled (settled : window.editor.Settled space start limit digits)
    (input : SpaceInput) :
    (spaceStep space ioctl input window).2.editor.Settled space start limit digits := by
  unfold spaceStep
  split
  · exact settled
  · next running =>
    have running : window.halted = none := by simpa using running
    cases input with
    | key code =>
      have effect := spaceKeyPress_effect space ioctl window running code
      simp only
      generalize spaceKeyPress space ioctl code window = ran at effect
      cases effect with
      | wrote typing =>
        rcases (writeSpaceValue space ioctl window).2.edit_cases
          (fun editor => { editor with input := .noInput, wbuf := 0 }) with edited | same
        · simp only [edited]
          exact SpaceChange.left.settled paged settled
        · simp only [same]
          exact settled
      | edited editor change => exact change.settled paged settled
      | nothing => exact settled
    | getFocus =>
      simp only [spaceGetFocus, window.edit_running running]
      exact SpaceChange.asked.settled paged settled
    | lostFocus =>
      simp only [spaceLostFocus, window.edit_running running]
      exact SpaceChange.left.settled paged settled
    | paint =>
      simp only [printSpaceScreen]
      split
      · exact settled
      · exact settled

omit paged

/-- The calls of an editor: painting reads a page, and Enter writes the value that was typed,
in the width that is chosen, to the byte at the cursor. -/
theorem spaceStep_calls (input : SpaceInput) (call : Operation × LfddSpace)
    (issued : call ∈ (spaceStep space ioctl input window).1) :
    call.1 = .read256byte ∨
      input = .key keyEnter ∧ window.editor.input = .inputValue ∧
        call.1 = space.write window.editor.displayMode ∧
        call.2.addr = space.address window.editor.page window.editor.cursor.offset := by
  unfold spaceStep at issued
  split at issued
  · exact absurd issued List.not_mem_nil
  · next running =>
    have running : window.halted = none := by simpa using running
    cases input with
    | key code =>
      simp only at issued
      by_cases typing : window.editor.input = .inputValue
      · simp only [spaceKeyPress, typing] at issued
        cases typed : typeKey (space.mask window.editor.displayMode) window.editor.wbuf code with
        | enter =>
          rw [typed] at issued
          obtain rfl := List.mem_singleton.mp issued
          exact Or.inr ⟨by rw [typeKey_enter typed], typing, rfl, rfl⟩
        | number wbuf =>
          rw [typed] at issued
          exact absurd issued List.not_mem_nil
        | left =>
          rw [typed] at issued
          exact absurd issued List.not_mem_nil
      · have effect := spaceKeyPress_effect space ioctl window running code
        generalize spaceKeyPress space ioctl code window = ran at effect issued
        cases effect with
        | wrote value => exact absurd value typing
        | edited editor change => exact absurd issued List.not_mem_nil
        | nothing => exact absurd issued List.not_mem_nil
    | getFocus => exact absurd issued List.not_mem_nil
    | lostFocus => exact absurd issued List.not_mem_nil
    | paint =>
      simp only [printSpaceScreen] at issued
      split at issued
      · exact absurd issued List.not_mem_nil
      · obtain rfl := List.mem_singleton.mp issued
        exact Or.inl rfl

/-- What an editor writes: a call that is no read is made while a value is typed, in the mode that
is shown, to the address of the cell under the cursor. -/
theorem spaceStep_writes (input : SpaceInput) (call : Operation × LfddSpace)
    (issued : call ∈ (spaceStep space ioctl input window).1) (write : call.1.isRead = false) :
    window.editor.input = .inputValue ∧ call.1 = space.write window.editor.displayMode ∧
      call.2.addr = space.address window.editor.page window.editor.cursor.offset := by
  rcases spaceStep_calls ioctl input call issued with read | ⟨_, typing, operation, addr⟩
  · rw [read] at write
    exact absurd write (by decide)
  · exact ⟨typing, operation, addr⟩

/-- The memory editor looks at 2^32 bytes, with six digits for a page. -/
theorem memSpace_paged : memSpace.Paged (fun phyaddr => (phyaddr.toNat : Int)) (2 ^ 32) 6 where
  shift_le := DisplayMode.shift_le
  digits_pos := by decide
  mask := by decide
  typed := by
    intro wbuf bounded
    have value : (memSpace.typedPage wbuf).toNat = wbuf.toNat * 2 ^ 8 := by
      change (wbuf <<< 8).toNat = _
      rw [BitVec.toNat_shiftLeft, Nat.shiftLeft_eq]
      omega
    constructor
    · omega
    · omega
    · omega
  next := by
    intro page inside
    obtain ⟨aligned, first, last⟩ := inside
    simp only [memSpace]
    split
    · next more =>
      have value : (page + 256).toNat = (page.toNat + 256) % 2 ^ 32 := BitVec.toNat_add page 256
      rw [BitVec.lt_def, value] at more
      constructor
      · omega
      · omega
      · omega
    · exact ⟨aligned, first, last⟩
  previous := by
    intro page inside
    obtain ⟨aligned, first, last⟩ := inside
    simp only [memSpace]
    split
    · next more =>
      have value : (page - 256).toNat = (2 ^ 32 - 256 + page.toNat) % 2 ^ 32 :=
        BitVec.toNat_sub page 256
      rw [BitVec.lt_def, value] at more
      constructor
      · omega
      · omega
      · omega
    · exact ⟨aligned, first, last⟩
  address := by
    intro page offset inside first last
    obtain ⟨_, _, below⟩ := inside
    have value : (memSpace.address page offset).toNat =
        (page.toNat + (offset % 2 ^ 32).toNat) % 2 ^ 32 := by
      change (page + BitVec.ofInt 32 offset).toNat = _
      rw [BitVec.toNat_add, BitVec.toNat_ofInt]
      rfl
    rw [value]
    omega

/-- The port editor looks at 2^16 ports, with two digits for a page. -/
theorem ioSpace_paged : ioSpace.Paged (fun ioaddr => ioaddr) (2 ^ 16) 2 where
  shift_le := by
    intro mode
    cases mode with
    | byteMode => decide
    | wordMode => decide
  digits_pos := by decide
  mask := by decide
  typed := by
    intro wbuf bounded
    have small : (wbuf <<< 8).toNat = wbuf.toNat * 2 ^ 8 := by
      rw [BitVec.toNat_shiftLeft, Nat.shiftLeft_eq]
      omega
    have value : ioSpace.typedPage wbuf = wbuf.toNat * 2 ^ 8 := by
      change (wbuf <<< 8).toInt = _
      rw [BitVec.toInt_eq_toNat_of_lt (by omega), small]
      push_cast
      rfl
    constructor
    · omega
    · omega
    · omega
  next := by
    intro page inside
    obtain ⟨aligned, first, last⟩ := inside
    simp only [ioSpace]
    split
    · exact ⟨by decide, by decide, by decide⟩
    · exact ⟨by omega, by omega, by omega⟩
  previous := by
    intro page inside
    obtain ⟨aligned, first, last⟩ := inside
    simp only [ioSpace]
    split
    · exact PageIn.zero (by decide)
    · exact ⟨by omega, by omega, by omega⟩
  address := by
    intro page offset inside first last
    obtain ⟨_, start, below⟩ := inside
    have value : (ioSpace.address page offset).toNat = ((page + offset) % 2 ^ 32).toNat :=
      BitVec.toNat_ofInt (page + offset)
    rw [value]
    omega

end Spaces

end Lfdk.HexEditors
