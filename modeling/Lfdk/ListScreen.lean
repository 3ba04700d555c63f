import Lfdk.ListPages
import Lfdk.ScreenText

/-!
# The list on the screen

PCI-LIST prints the names of a page into one window, and the ids and places into another one to
the right of it. Both are printed line by line, and a name in two pieces. A name of characters
that take one column each leaves room at the end of its line, so the lines of the two windows
stand beside each other; a character that takes more columns, or moves the cursor, would shift
the names that follow against their ids.

Then exactly one line of the list is highlighted, and Enter opens the registers of the function
whose names, ids and place stand in it.
-/

namespace Lfdk.ShippedWindows

open WindowManager HexEditors PciScan PciNames DeviceFile Runs TextWindow

universe u

section Printing

/-- The first piece of a name: the star, and the name of the vendor up to the comma. -/
def vendorPiece (record : PciData) : List (BitVec 32) :=
  let pcieSign : BitVec 32 := if record.phyBase ≠ 0 then 0x2a else 0x20
  [pcieSign, 0x20] ++
    (if record.ventxt[0]? = some 0 then hexText 4 record.venid.toNat
      else printText 10 record.ventxt) ++ [0x2c, 0x20]

/-- The second piece: the name of the device. -/
def devicePiece (record : PciData) : List (BitVec 32) :=
  if record.devtxt[0]? = some 0 then hexText 4 record.devid.toNat else printText 35 record.devtxt

/-- The colour of a name. -/
def rowShade (table : PciTable) (index : Int) : Attribute :=
  if index = table.currIndex then .value .blackYellow
  else if index < (table.pciListLen : Int) then .value .whiteBlue else .normal

/-- What `PrintPCILScreen` prints into the window `devname`. -/
def devnameTexts (table : PciTable) : List (List (Sign Glyph)) :=
  (printPCILScreen table).flatMap fun entry =>
    let shade := rowShade table entry.1
    match entry.2 with
    | some record =>
      [signs shade (vendorPiece record), signs shade (devicePiece record ++ [0x0a])]
    | none => [signs shade [0x0a]]

/-- What it prints into the window `vendev`. -/
def vendevTexts (table : PciTable) : List (List (Sign Glyph)) :=
  (printPCILScreen table).map fun entry =>
    signs (.value .whiteBlue) (entry.2.elim [] (fun record =>
      idText record.venid record.devid record.place) ++ [0x0a])

/-- The sizes of the windows. -/
def devnameFrame : Frame := ⟨20, 50⟩

def vendevFrame : Frame := ⟨20, 30⟩

/-- The windows of PCI-LIST, which are made when they are needed. -/
structure ListWindows (terminal : Ncurses) where
  devname : Option (terminal.Window devnameFrame)
  vendev : Option (terminal.Window vendevFrame)

variable {terminal : Ncurses}

/-- The screen after a page of the list was printed, with the windows that lie below. -/
def listPanels (table : PciTable) (windows : ListWindows terminal)
    (below : List (Panel terminal.Window)) : List (Panel terminal.Window) :=
  [(printFixedWin (vendevTexts table) windows.vendev).map (Panel.mk vendevFrame 2 50),
    (printFixedWin (devnameTexts table) windows.devname).map (Panel.mk devnameFrame 2 0)].filterMap
      id ++ below

/-- The parts of its names that are printed have characters that take one column each. -/
def PlainNames (record : PciData) : Prop :=
  ∀ character ∈ printText 10 record.ventxt ++ printText 35 record.devtxt, Ascii character

instance (record : PciData) : Decidable (PlainNames record) :=
  inferInstanceAs (Decidable (∀ character ∈ _, _))

/-- So have the names of the page that is printed. -/
def PlainPage (table : PciTable) : Prop :=
  ∀ entry ∈ printPCILScreen table, ∀ record ∈ entry.2, PlainNames record

instance (table : PciTable) : Decidable (PlainPage table) :=
  inferInstanceAs (Decidable (∀ entry ∈ _, _))

end Printing

section Lines

/-- The two pieces, printed one after the other, are the text of the name. -/
theorem nameText_pieces (record : PciData) :
    vendorPiece record ++ devicePiece record = nameText record := by
  simp only [vendorPiece, devicePiece, nameText, List.append_assoc]

/-- A name leaves room at the end of its line of 50 characters. -/
theorem nameText_length (record : PciData) : (nameText record).length < 50 := by
  have text : ∀ precision (text : Text), (printText precision text).length ≤ precision := by
    intro precision text
    rw [printText, List.length_map, List.length_take]
    exact Nat.min_le_left _ _
  have vendor : (if record.ventxt[0]? = some 0 then hexText 4 record.venid.toNat
      else printText 10 record.ventxt).length ≤ 10 := by
    split
    · rw [hexText_length]
      decide
    · exact text 10 _
  have device : (if record.devtxt[0]? = some 0 then hexText 4 record.devid.toNat
      else printText 35 record.devtxt).length ≤ 35 := by
    split
    · rw [hexText_length]
      decide
    · exact text 35 _
  simp only [nameText, List.length_append, List.length_cons, List.length_nil]
  omega

/-- A name has digits and characters of the texts only, so it is plain where they are. -/
theorem nameText_plain {record : PciData} (plain : PlainNames record) :
    ∀ character ∈ nameText record, Ascii character := by
  have vendor : ∀ character ∈ (if record.ventxt[0]? = some 0 then hexText 4 record.venid.toNat
      else printText 10 record.ventxt), Ascii character := by
    intro character member
    split at member
    · exact hexText_plain _ _ character member
    · exact plain character (List.mem_append_left _ member)
  have device : ∀ character ∈ (if record.devtxt[0]? = some 0 then hexText 4 record.devid.toNat
      else printText 35 record.devtxt), Ascii character := by
    intro character member
    split at member
    · exact hexText_plain _ _ character member
    · exact plain character (List.mem_append_right _ member)
  have sign : ∀ character ∈ [if record.phyBase ≠ 0 then (0x2a : BitVec 32) else 0x20, 0x20],
      Ascii character := by
    intro character member
    rcases List.mem_pair.mp member with rfl | rfl
    · split
      · decide
      · decide
    · decide
  have comma : ∀ character ∈ [(0x2c : BitVec 32), 0x20], Ascii character := by
    intro character member
    rcases List.mem_pair.mp member with rfl | rfl
    · decide
    · decide
  intro character member
  simp only [nameText, List.mem_append] at member
  rcases member with ((front | name) | between) | name
  · exact sign character front
  · exact vendor character name
  · exact comma character between
  · exact device character name

/-- A record without names has plain names: what is printed of it are the digits of its ids and
blanks. -/
theorem unnamed_plain {record : PciData} (vendor : record.ventxt[0]? = some 0)
    (device : record.devtxt[0]? = some 0) : PlainNames record := by
  have none : ∀ precision (text : Text), text[0]? = some 0 → printText precision text = [] := by
    intro precision text first
    have bytes : text.toList = 0 :: text.toList.tail := by
      rw [← Vector.getElem?_toList] at first
      cases list : text.toList with
      | nil =>
        rw [list] at first
        cases first
      | cons byte rest =>
        rw [list, List.getElem?_cons_zero, Option.some.injEq] at first
        rw [first, List.tail_cons]
    rw [printText, bytes, List.takeWhile_cons_of_neg (by decide), List.take_nil, List.map_nil]
  rw [PlainNames, none 10 _ vendor, none 35 _ device]
  exact fun character member => absurd member List.not_mem_nil

/-- A page has names of the list only, so it is plain where all names of the list are. -/
theorem listed_plain {table : PciTable}
    (plain : ∀ index < table.pciListLen, ∀ record ∈ table.lfddPciList[index]?, PlainNames record) :
    PlainPage table := by
  intro entry member record held
  obtain ⟨index, _, rfl⟩ := List.mem_map.mp member
  simp only at held
  split at held
  · next listed =>
    rw [PciTable.record] at held
    split at held
    · next first => exact plain index.toNat (by omega) record held
    · cases held
  · cases held

/-- So have the ids digits and blanks, one column for each. -/
theorem idText_plain (venid devid : BitVec 16) (place : Place) :
    ∀ character ∈ idText venid devid place, Ascii character := by
  intro character member
  simp only [idText, blanks, List.mem_append] at member
  rcases member with (((((((digit | rest) | digit) | rest) | digit) | rest) | digit) | rest) | digit
  · exact hexText_plain _ _ character digit
  · exact blanks_plain _ character rest
  · exact hexText_plain _ _ character digit
  · exact blanks_plain _ character rest
  · exact hexText_plain _ _ character digit
  · exact blanks_plain _ character rest
  · exact hexText_plain _ _ character digit
  · exact blanks_plain _ character rest
  · exact hexText_plain _ _ character digit

/-- A text with its end, once shaded, is a line of glyphs as a window is read. -/
theorem signs_line {text : List (BitVec 32)} (plain : ∀ character ∈ text, Ascii character)
    (shade : Attribute) : signs shade (text ++ [0x0a]) = line (glyphs shade text) := by
  rw [signs_append, signs_plain shade text plain, line]
  rfl

/-- The line of names of an entry. -/
def nameGlyphs (table : PciTable) (entry : Int × Option PciData) : List Glyph :=
  glyphs (rowShade table entry.1) (entry.2.elim [] nameText)

/-- The line of its ids. -/
def idGlyphs (entry : Int × Option PciData) : List Glyph :=
  glyphs (.value .whiteBlue) (entry.2.elim [] fun record =>
    idText record.venid record.devid record.place)

/-- A page has 20 rows, also where the list ends before its last. -/
theorem printPCILScreen_length (table : PciTable) : (printPCILScreen table).length = 20 := by
  rw [printPCILScreen, List.length_map, listRows, List.length_map, List.length_range]
  decide

/-- The names are 20 lines, one for every row of the page. -/
theorem devnameTexts_lines {table : PciTable} (plain : PlainPage table) :
    (devnameTexts table).flatten = ((printPCILScreen table).map (nameGlyphs table)).flatMap line := by
  rw [devnameTexts, ← List.flatMap_id, List.flatMap_assoc, List.flatMap_map]
  refine List.flatMap_congr fun entry member => ?_
  obtain ⟨index, entry⟩ := entry
  rw [List.flatMap_id]
  cases entry with
  | none => rfl
  | some record =>
    have names := nameText_plain (plain _ member record rfl)
    simp only [List.flatten_cons, List.flatten_nil, List.append_nil, nameGlyphs, Option.elim_some]
    rw [← signs_append, ← List.append_assoc, nameText_pieces, signs_line names]

/-- None of their pieces is empty, so each of them is a call of `wprintw` that prints. -/
theorem devnameTexts_pieces (table : PciTable) : ∀ piece ∈ devnameTexts table, piece ≠ [] := by
  intro piece member
  obtain ⟨⟨index, entry⟩, _, piece_of⟩ := List.mem_flatMap.mp member
  cases entry with
  | none =>
    rw [List.mem_singleton.mp piece_of]
    exact List.cons_ne_nil _ _
  | some record =>
    rcases List.mem_pair.mp piece_of with rfl | rfl
    · exact List.cons_ne_nil _ _
    · rw [signs_append]
      exact List.append_ne_nil_of_right_ne_nil _ (List.cons_ne_nil _ _)

/-- The ids are 20 lines as well, one beside each line of names. -/
theorem vendevTexts_lines (table : PciTable) :
    (vendevTexts table).flatten = ((printPCILScreen table).map idGlyphs).flatMap line := by
  rw [vendevTexts, ← List.flatMap_def, List.flatMap_map]
  refine List.flatMap_congr fun entry _ => ?_
  refine signs_line ?_ _
  cases entry.2 with
  | none => exact fun character member => absurd member List.not_mem_nil
  | some record => exact idText_plain _ _ _

end Lines

section Reading

variable {terminal : Ncurses} (table : PciTable) (windows : ListWindows terminal)
  (below : List (Panel terminal.Window))

/-- The windows after printing: that of the ids on top of that of the names, and all others below.
-/
theorem listPanels_windows :
    listPanels table windows below =
      ⟨vendevFrame, 2, 50, terminal.printAll (vendevTexts table) (homeOf windows.vendev)⟩ ::
        ⟨devnameFrame, 2, 0, terminal.printAll (devnameTexts table) (homeOf windows.devname)⟩ ::
        below :=
  rfl

variable {table}

/-- A page of 20 lines that was printed from the first place of a window on is held there line by
line, whatever the window held before. The lines may be printed in pieces. -/
theorem page_held {frame : Frame} (window : Option (terminal.Window frame)) (tall : frame.height = 20)
    (shown : Int × Option PciData → List Glyph)
    (printable : ∀ entry ∈ printPCILScreen table, ∀ glyph ∈ shown entry, Ascii glyph.1)
    (narrow : ∀ entry, (shown entry).length < frame.width) (pieces : List (List (Sign Glyph)))
    (parts : pieces.flatten = ((printPCILScreen table).map shown).flatMap line)
    (ends : ∀ piece ∈ pieces, piece ≠ []) (row : Nat) (low : row < 20) (column : Nat)
    (within : column < frame.width) :
    terminal.winch (terminal.printAll pieces (homeOf window)) row column =
      (((printPCILScreen table).map shown).getD row []).getD column blank := by
  have count : ((printPCILScreen table).map shown).length = 20 := by
    rw [List.length_map, printPCILScreen_length]
  obtain ⟨start, first⟩ := homeOf_cursor window (by omega) (by omega)
  have written := printAll_lines terminal first ((printPCILScreen table).map shown)
    (by
      intro text member
      obtain ⟨entry, listed, rfl⟩ := List.mem_map.mp member
      exact printable entry listed)
    (by
      intro text member
      obtain ⟨entry, _, rfl⟩ := List.mem_map.mp member
      exact narrow entry)
    (by omega) pieces parts (fun piece member => ends piece (List.mem_of_getLast? member))
    row column (by omega) within
  rw [written, start, count, if_pos ⟨Nat.zero_le _, by omega⟩, Nat.sub_zero]

/-- A line of names on the screen: the place in its window is read through the panels, no other
window being above it there. -/
theorem names_shown (plain : PlainPage table) (row : Nat) (low : row < 20) (column : Nat)
    (within : column < 50) :
    terminal.doupdate (listPanels table windows below) (2 + row) column =
      (((printPCILScreen table).map (nameGlyphs table)).getD row []).getD column blank := by
  have held := page_held windows.devname rfl (nameGlyphs table)
    (by
      rintro ⟨index, entry⟩ listed
      cases entry with
      | none => exact fun glyph member => absurd member List.not_mem_nil
      | some record => exact glyphs_plain _ (nameText_plain (plain _ listed record rfl)))
    (by
      rintro ⟨index, entry⟩
      cases entry with
      | none => exact Nat.zero_lt_succ 49
      | some record =>
        rw [nameGlyphs, glyphs_length]
        exact nameText_length record)
    (devnameTexts table) (devnameTexts_lines plain) (devnameTexts_pieces table) row low column within
  rw [listPanels_windows, ← held]
  refine (terminal.doupdate_top [_] _ _ _ _ (by omega) (by omega) ?_ ?_).trans ?_
  · intro other member
    rw [List.mem_singleton] at member
    subst member
    rintro ⟨_, left, _⟩
    simp only at left
    omega
  · refine ⟨⟨Nat.le_add_right 2 row, Nat.add_lt_add_left low 2⟩, Nat.zero_le _, ?_⟩
    exact Nat.lt_of_lt_of_eq within (Nat.zero_add 50).symm
  · simp only [Nat.add_sub_cancel_left, Nat.sub_zero]

/-- The ids beside them, in the 30 columns to the right of the names. -/
theorem ids_shown (row : Nat) (low : row < 20) (column : Nat) (within : column < 30) :
    terminal.doupdate (listPanels table windows below) (2 + row) (50 + column) =
      (((printPCILScreen table).map idGlyphs).getD row []).getD column blank := by
  have held := page_held windows.vendev rfl idGlyphs
    (by
      rintro ⟨index, entry⟩ _
      cases entry with
      | none => exact fun glyph member => absurd member List.not_mem_nil
      | some record => exact glyphs_plain _ (idText_plain _ _ _))
    (by
      rintro ⟨index, entry⟩
      cases entry with
      | none => exact Nat.zero_lt_succ 29
      | some record =>
        rw [idGlyphs, glyphs_length]
        simp only [Option.elim_some, idText_length]
        decide)
    (vendevTexts table) (vendevTexts_lines table)
    (by
      intro piece member
      obtain ⟨entry, _, rfl⟩ := List.mem_map.mp member
      rw [signs_append]
      exact List.append_ne_nil_of_right_ne_nil _ (List.cons_ne_nil _ _))
    row low column within
  rw [listPanels_windows, ← held]
  refine (terminal.doupdate_top [] _ _ _ _ (by omega) (by omega) ?_ ?_).trans ?_
  · exact fun other member => absurd member List.not_mem_nil
  · refine ⟨⟨Nat.le_add_right 2 row, Nat.add_lt_add_left low 2⟩, Nat.le_add_right 50 column, ?_⟩
    exact Nat.add_lt_add_left within 50
  · simp only [Nat.add_sub_cancel_left]

/-- One line of the list is highlighted, and it has the names, the ids and the place of a
function. -/
structure Highlights (terminal : Ncurses) (screen : List (Panel terminal.Window))
    (record : PciData) (row : Nat) : Prop where
  inside : row < 20
  name : terminal.readAt screen (2 + row) 0 (nameText record).length =
    glyphs (.value .blackYellow) (nameText record)
  ids : terminal.readAt screen (2 + row) 50 29 =
    glyphs (.value .whiteBlue) (idText record.venid record.devid record.place)
  only : ∀ other < 20, ∀ column < 80,
    (terminal.doupdate screen (2 + other) column).2 = .value .blackYellow → other = row

/-- A character of a line has the colour of its text or of a blank. -/
theorem glyphs_shade (shade : Attribute) (text : List (BitVec 32)) (i : Nat) :
    ((glyphs shade text).getD i blank).2 = shade ∨
      ((glyphs shade text).getD i blank).2 = .normal := by
  by_cases inside : i < text.length
  · exact .inl (congrArg Prod.snd (glyphs_getD shade text i inside blank))
  · rw [List.getD_eq_default _ _ (by rw [glyphs_length]; omega)]
    exact .inr rfl

/-- Names are highlighted in the row of the selected record only: the names of the other rows are
white on blue, and a row without a record has no colour of its own. -/
theorem rowShade_highlighted {index : Int}
    (highlighted : rowShade table index = .value .blackYellow) : index = table.currIndex := by
  unfold rowShade at highlighted
  split at highlighted
  · next same => exact same
  · split at highlighted
    · exact absurd highlighted (by decide)
    · exact absurd highlighted (by decide)

/-- The entry in a row of the page, counted from the page's first record, and none behind the end of
the list. -/
theorem page_entry {β : Type u} (index : Nat) (selects : table.currIndex = index)
    (shown : Int × Option PciData → List β) (row : Nat) (low : row < 20) :
    ((printPCILScreen table).map shown).getD row [] =
      shown (((index / 20 * 20 + row : Nat) : Int),
        if index / 20 * 20 + row < table.pciListLen then
          table.lfddPciList[index / 20 * 20 + row]?
        else none) := by
  rw [printPCILScreen_rows table index selects, List.map_map,
    List.getD_eq_getElem _ _ (by rw [List.length_map, List.length_range]; exact low),
    List.getElem_map, List.getElem_range]
  rfl

/-- The line of the selected record is highlighted, and no other one. -/
theorem list_highlights (plain : PlainPage table) (index : Nat) (inside : index < 200)
    (selects : table.currIndex = index) (listed : index < table.pciListLen) :
    Highlights terminal (listPanels table windows below) table.lfddPciList[index]
      (index % 20) := by
  have low : index % 20 < 20 := Nat.mod_lt _ (by decide)
  have own : index / 20 * 20 + index % 20 = index := by omega
  have entry : ∀ shown : Int × Option PciData → List Glyph,
      ((printPCILScreen table).map shown).getD (index % 20) [] =
        shown ((index : Int), some table.lfddPciList[index]) := by
    intro shown
    rw [page_entry index selects shown _ low, own, if_pos listed,
      Vector.getElem?_eq_getElem inside]
  refine ⟨low, ?_, ?_, ?_⟩
  · have name := nameText_length table.lfddPciList[index]
    have read := readAt_text terminal (listPanels table windows below) (2 + index % 20) 0
      (glyphs (.value .blackYellow) (nameText table.lfddPciList[index])) (by
        intro i small
        rw [glyphs_length] at small
        rw [Nat.zero_add, names_shown windows below plain _ low i (by omega), entry, nameGlyphs,
          rowShade, if_pos selects.symm]
        exact List.getD_eq_getElem _ _ _)
    rw [glyphs_length] at read
    exact read
  · have read := readAt_text terminal (listPanels table windows below) (2 + index % 20) 50
      (glyphs (.value .whiteBlue) (idText table.lfddPciList[index].venid
        table.lfddPciList[index].devid table.lfddPciList[index].place)) (by
        intro i small
        rw [glyphs_length, idText_length] at small
        rw [ids_shown windows below _ low i (by omega), entry]
        exact List.getD_eq_getElem _ _ _)
    rw [glyphs_length, idText_length] at read
    exact read
  · intro other small column within colored
    by_cases left : column < 50
    · -- a name is highlighted in the row of the selected index only
      rw [names_shown windows below plain other small column left, page_entry index selects _ _
        small, nameGlyphs] at colored
      have shade : rowShade table ((index / 20 * 20 + other : Nat) : Int) =
          .value .blackYellow := by
        rcases glyphs_shade (rowShade table ((index / 20 * 20 + other : Nat) : Int)) _ column with
          same | same
        · exact same.symm.trans colored
        · exact absurd (same.symm.trans colored) (by decide)
      have same := rowShade_highlighted shade
      rw [selects] at same
      omega
    · -- ids never are
      obtain ⟨right, rfl⟩ := Nat.exists_eq_add_of_le (Nat.not_lt.mp left)
      rw [ids_shown windows below other small right (by omega), page_entry index selects _ _ small,
        idGlyphs] at colored
      rcases glyphs_shade (.value .whiteBlue) _ right with same | same
      · exact absurd (same.symm.trans colored) (by decide)
      · exact absurd (same.symm.trans colored) (by decide)

end Reading

section Opening

variable {δ : Type u} (computer : Computer δ) (order : LinkOrder)

/-- Enter hands over from PCI-LIST to PCI-DEV in the same turn: the row's record is selected, and
PCI-DEV gets the focus. -/
theorem pressed_list (world : World (Attached ConfigSpace δ)) (running : world.ended = false) :
    let desk : Desk (Attached ConfigSpace δ) := ⟨some .pciList, none, world⟩
    let delivered := deliver computer.env (desk.pressed computer.env order keyEnter).1 desk.fore
      (desk.pressed computer.env order keyEnter).2
    delivered.2.1 = some .pciDev ∧ delivered.2.2.table = world.table ∧
      delivered.2.2.dev = world.dev ∧ delivered.2.2.scans = world.scans ∧
        delivered.2.2.ended = false := by
  intro desk delivered
  have halted : ¬ world.devWindow.halted.isSome = true := by
    change ¬ world.ended = true
    rw [running]
    decide
  have positive : 0 < keyEnter.toInt := by decide
  have unmoved : called computer.env .keyPress .pciList keyEnter world = world := by
    rw [called_enter _ running]
    rfl
  have left : called computer.env .lostFocus .pciList 0 world = world := by
    simp [called, answer, pciList, idle]
  have got : called computer.env .getFocus .pciDev 0 world =
      pciDev computer.env .getFocus world := by
    simp [called, answer, running, devInput, idle]
  have pressed : desk.pressed computer.env order keyEnter =
      ([(.callback, .xferControl .pciList .pciDev)], world) := by
    simp only [desk, Desk.pressed, asked_enter, if_pos positive, unmoved]
    rfl
  have refocused : refocus computer.env (some .pciList) .pciDev world =
      pciDev computer.env .getFocus world := by
    rw [refocus, Option.elim_some, left, got]
  have reached : delivered.2 = (some .pciDev, pciDev computer.env .getFocus world) := by
    simp only [delivered, pressed]
    rw [deliver_given computer.env .callback (.xferControl .pciList .pciDev) [] _ _ .pciDev
      (by simp [desk, Post.given])]
    simp only [desk, refocused]
    rfl
  have stayed : devStep computer.env.pci .getFocus world.devWindow = ([], world.devWindow) :=
    if_neg halted
  rw [reached, pciDev, stayed]
  exact ⟨rfl, rfl, rfl, rfl, running⟩

end Opening

end Lfdk.ShippedWindows
