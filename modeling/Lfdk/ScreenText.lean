import Lfdk.CmosWrites
import Lfdk.ShownCells
import Lfdk.TextWindow

/-!
# The text of a page

The editors print into windows of their own: the values of the page, the labels of its lines
and columns, a line that tells what is shown, and a window beside the values. The windows are
kept from one painting to the next, also when the width of the cells changes, and they lie
over each other on the screen, and over the windows that were painted before them.

On every terminal that obeys the laws of its windows, and whatever was painted before, a cell
stands below the label of its column and to the right of the label of its line, in so many
digits as its width has, and typing these digits gives its value. The place of the cursor stands
above the labels, and beside the values of a memory stand their characters. The laws are used
for the characters from the blank to the tilde only, and no other ones are printed.
-/

namespace Lfdk.HexEditors

open HexPages TextWindow Runs PciScan

universe u
variable {δ : Type u}

section Printing

/-- How a character is shown: in the colors of the window, or in other ones. -/
inductive Attribute where
  | normal
  | redBlue
  | cyanBlue
  | value (color : Color)
deriving DecidableEq

/-- A character on the screen. -/
abbrev Glyph := BitVec 32 × Attribute

/-- A blank in the colors of a window. -/
def blank : Glyph := (0x20, .normal)

/-- A character that takes one column of the screen, from the blank to the tilde. -/
def Ascii (character : BitVec 32) : Prop := 0x20 ≤ character ∧ character ≤ 0x7e

instance : DecidablePred Ascii := fun _ => inferInstanceAs (Decidable (_ ∧ _))

/-- The windows of `ncurses`, on a screen of 24 lines and 80 columns at least. -/
abbrev Ncurses := Terminal Glyph blank (fun glyph => Ascii glyph.1) 24 80

/-- Windows that are grids of characters. -/
def gridWindows : Ncurses := gridTerminal blank _ 24 80

/-- A text in one color. -/
def glyphs (shade : Attribute) (text : List (BitVec 32)) : List Glyph :=
  text.map fun character => (character, shade)

/-- What `wprintw` prints for a text. -/
def signs (shade : Attribute) (text : List (BitVec 32)) : List (Sign Glyph) :=
  text.map fun character => if character = 0x0a then .newline else .character (character, shade)

/-- The characters of a string. -/
def characters (text : String) : List (BitVec 32) :=
  text.toList.map fun character => BitVec.ofNat 32 character.toNat

/-- `%X` with a precision: at least so many digits. -/
def printX (digits value : Nat) : List (BitVec 32) :=
  hexText (max digits (Nat.digits 16 value).length) value

/-- The blanks between two cells, by `gap_pattern`. -/
def gap : Nat → Nat
  | 0 => 1
  | 1 => 2
  | _ => 5

/-- The labels of the columns. -/
def columnLabels : Nat → String
  | 0 => " 00 01 02 03 04 05 06 07 08 09 0A 0B 0C 0D 0E 0F"
  | 1 => " 0000  0002  0004  0006  0008  000A  000C  000E"
  | _ => " 00000000     00000004     00000008     0000000C"

/-- The labels of the lines. -/
def lineLabels : String :=
  "\n0000\n0010\n0020\n0030\n0040\n0050\n0060\n0070" ++
  "\n0080\n0090\n00A0\n00B0\n00C0\n00D0\n00E0\n00F0"

/-- `CreateOffsetText` for the number of the place of the cursor. -/
def createOffsetText (shift position : Nat) : List (BitVec 32) :=
  printX 4 position ++ characters (columnLabels shift) ++ characters lineLabels

/-- The loops that print the values of a page. -/
def valueTexts (shift : Nat) (cell : Nat × Nat → Cell) : List (List (Sign Glyph)) :=
  (List.range 16).flatMap fun row =>
    ((columns shift).flatMap fun column =>
      let here := cell (row, column)
      signs (.value here.color) (printX (2 * 2 ^ shift) here.value.toNat) ::
        if column + 2 ^ shift < 16 then [signs .normal (List.replicate (gap shift) 0x20)] else []) ++
    [signs .normal [0x0a]]

/-- The character of a byte, or a dot. -/
def asciiOf (value : BitVec 8) : BitVec 32 :=
  if 0x21 ≤ value ∧ value ≤ 0x7e then value.setWidth 32 else 0x2e

/-- The loop that prints the characters of a page. -/
def asciiTexts (massBuf : Vector (BitVec 8) 256) : List (List (Sign Glyph)) :=
  signs .cyanBlue (characters "0123456789ABCDEF") ::
    massBuf.toList.map fun value => signs .cyanBlue [asciiOf value]

/-- What an editor prints: the width of its cells, the number above the labels, the line
about the page, the window beside the values, which has a size of its own, and the cells. -/
structure PageText (sideFrame : Frame) where
  shift : Nat
  position : Nat
  info : List (List (Sign Glyph))
  sideLeft : Nat
  side : List (List (Sign Glyph))
  cell : Nat × Nat → Cell

/-- The sizes of the windows. -/
def offsetFrame : Frame := ⟨17, 53⟩

def infoFrame : Frame := ⟨1, 47⟩

def valueFrame : Frame := ⟨17, 50⟩

def asciiFrame : Frame := ⟨17, 16⟩

def rtitleFrame : Frame := ⟨17, 24⟩

variable {terminal : Ncurses}

/-- The windows of an editor, which are made when they are needed. -/
structure PageWindows (terminal : Ncurses) (sideFrame : Frame) where
  offset : Option (terminal.Window offsetFrame)
  info : Option (terminal.Window infoFrame)
  side : Option (terminal.Window sideFrame)
  value : Option (terminal.Window valueFrame)

/-- Print texts from the start of a window, which is a new one if there is none. -/
def printFixedWin {frame : Frame} (texts : List (List (Sign Glyph)))
    (window : Option (terminal.Window frame)) : Option (terminal.Window frame) :=
  some (terminal.printAll texts (terminal.wmove 0 0 (window.getD (terminal.newwin frame))))

variable {sideFrame : Frame}

/-- Print a page into its windows. -/
def PageText.print (page : PageText sideFrame) (windows : PageWindows terminal sideFrame) :
    PageWindows terminal sideFrame where
  offset := printFixedWin [signs .redBlue (createOffsetText page.shift page.position)]
    windows.offset
  info := printFixedWin page.info windows.info
  side := printFixedWin page.side windows.side
  value := printFixedWin (valueTexts page.shift page.cell) windows.value

/-- The windows on the screen. The values are on top. -/
def PageText.panels (page : PageText sideFrame) (windows : PageWindows terminal sideFrame) :
    List (Panel terminal.Window) :=
  [windows.value.map (Panel.mk valueFrame 5 6),
    windows.side.map (Panel.mk sideFrame 4 page.sideLeft),
    windows.info.map (Panel.mk infoFrame 22 0),
    windows.offset.map (Panel.mk offsetFrame 4 1)].filterMap id

/-- The screen after a page was printed, with the windows that lie below those of the page. -/
def PageText.screen (page : PageText sideFrame) (windows : PageWindows terminal sideFrame)
    (below : List (Panel terminal.Window)) : List (Panel terminal.Window) :=
  page.panels (page.print windows) ++ below

end Printing

section Editors

/-- The window `rtitle` of PCI-DEV, which reads three bytes of the page. -/
def rtitleTexts (record : PciData) (massBuf : Vector (BitVec 8) 256) : List (List (Sign Glyph)) :=
  let byte := fun (index : Nat) => printX 2 (massBuf[index]?.getD 0).toNat
  [characters "Refresh    : ON\n\n",
    characters "Data Width : 8 bits\n\n",
    characters "VID:DID = " ++ printX 4 record.venid.toNat ++ characters ":" ++
      printX 4 record.devid.toNat ++ characters "\n",
    characters "Rev ID        : " ++ byte 0x08 ++ characters "\n",
    characters "Int Line (IRQ): " ++ byte 0x3c ++ characters "\n",
    characters "Int Pin       : " ++ byte (0x3c + 8) ++ characters "\n\n",
    characters "Mem: 00000000 00000000\n",
    characters "Mem: 00000000 00000000\n",
    characters "Mem: 00000000 00000000\n",
    characters "Mem: 00000000 00000000\n",
    characters "Mem: 00000000 00000000\n",
    characters "Mem: 00000000 00000000\n\n",
    characters "ROM: 00000000\n"].map (signs .cyanBlue)

/-- What `PrintPCIScreen` prints for the selected function. -/
def pciPageText (window : DevWindow δ) (record : PciData) : PageText rtitleFrame where
  shift := window.dev.displayMode.shift
  position := (BitVec.ofInt 16 (window.dev.buffPage + window.dev.cursor.offset)).toNat
  info := [signs (.value .whiteBlue) (characters "Type: PCI    Bus " ++ printX 2 record.bus.toNat ++
    characters "    Device " ++ printX 2 record.dev.toNat ++
    characters "    Function " ++ printX 2 record.func.toNat)]
  sideLeft := 56
  side := rtitleTexts record window.lfddPciData.massBuf
  cell := cellAt window.dev.displayMode.shift window.dev.input true window.dev.cursor
    window.dev.wbuf window.lfddPciData.massBuf

/-- What `PrintMemScreen` prints. While an address is typed, two zeros follow its digits. -/
def memPageText (window : SpaceWindow (BitVec 32) DisplayMode δ) : PageText asciiFrame where
  shift := window.editor.displayMode.shift
  position := ((window.editor.page + BitVec.ofInt 32 window.editor.cursor.offset) &&& 0xffff).toNat
  info := signs (.value .whiteBlue) (characters "Type: Memory    Address: ") ::
    (if window.editor.input = .inputAddr then
      [signs (.value .yellowRed) (printX 6 window.editor.wbuf.toNat),
        signs (.value .whiteBlue) (characters "00")]
    else [signs (.value .whiteBlue) (printX 8 window.editor.page.toNat)]) ++
    [signs (.value .whiteBlue) (characters "h")]
  sideLeft := 58
  side := asciiTexts window.lfddData.massBuf
  cell := cellAt window.editor.displayMode.shift (window.editor.input = .inputValue)
    (window.editor.input = .noInput) window.editor.cursor window.editor.wbuf window.lfddData.massBuf

/-- What `PrintIOScreen` prints. -/
def ioPageText (window : SpaceWindow Int IoDisplayMode δ) : PageText asciiFrame where
  shift := ioSpace.shift window.editor.displayMode
  position := (BitVec.ofInt 32 (window.editor.page + window.editor.cursor.offset)).toNat
  info := signs (.value .whiteBlue) (characters "Type: I/O Space Address:     ") ::
    (if window.editor.input = .inputAddr then
      [signs (.value .yellowRed) (printX 2 window.editor.wbuf.toNat),
        signs (.value .whiteBlue) (characters "00")]
    else [signs (.value .whiteBlue) (printX 4 (BitVec.ofInt 32 window.editor.page).toNat)]) ++
    [signs (.value .whiteBlue) (characters "h")]
  sideLeft := 58
  side := asciiTexts window.lfddData.massBuf
  cell := cellAt (ioSpace.shift window.editor.displayMode) (window.editor.input = .inputValue)
    (window.editor.input = .noInput) window.editor.cursor window.editor.wbuf window.lfddData.massBuf

/-- What `PrintCmosScreen` prints. -/
def cmosPageText (window : CmosWindow δ) : PageText asciiFrame where
  shift := 0
  position := (BitVec.ofInt 32 window.editor.cursor.offset).toNat
  info := [signs (.value .whiteBlue) (characters "Type: CMOS")]
  sideLeft := 58
  side := asciiTexts window.massBuf
  cell := cellAt 0 window.editor.input true window.editor.cursor window.editor.wbuf window.massBuf

end Editors

section Texts

variable (shade : Attribute)

/-- A text in one colour has a glyph for each character. -/
theorem glyphs_length (text : List (BitVec 32)) : (glyphs shade text).length = text.length :=
  List.length_map _

/-- Texts in one colour are put together glyph by glyph. -/
theorem glyphs_append (first second : List (BitVec 32)) :
    glyphs shade (first ++ second) = glyphs shade first ++ glyphs shade second := List.map_append

/-- So are the signs that they are printed as. -/
theorem signs_append (first second : List (BitVec 32)) :
    signs shade (first ++ second) = signs shade first ++ signs shade second := List.map_append

/-- A line feed is none of the characters from the blank on. -/
theorem Ascii.not_feed {character : BitVec 32} (ascii : Ascii character) : character ≠ 0x0a := by
  rintro rfl
  exact absurd ascii (by decide)

/-- A text without line feeds is printed character by character. -/
theorem signs_plain (text : List (BitVec 32)) (plain : ∀ character ∈ text, Ascii character) :
    signs shade text = (glyphs shade text).map .character := by
  rw [signs, glyphs, List.map_map]
  exact List.map_congr_left fun character member => if_neg (plain character member).not_feed

/-- The characters of a string that was checked take one column each. The check is done by
evaluation. -/
theorem characters_plain {text : String}
    (plain : (characters text).all (fun character => decide (Ascii character)) = true) :
    ∀ character ∈ characters text, Ascii character :=
  fun character member => of_decide_eq_true (List.all_eq_true.mp plain character member)

/-- Such a string is printed character by character, each in a column of its own. -/
theorem characters_signs (text : String)
    (plain : (characters text).all (fun character => decide (Ascii character)) = true) :
    signs shade (characters text) = (glyphs shade (characters text)).map .character :=
  signs_plain shade _ (characters_plain plain)

/-- The characters of a text are those of its glyphs. -/
theorem glyphs_plain {text : List (BitVec 32)} (plain : ∀ character ∈ text, Ascii character) :
    ∀ glyph ∈ glyphs shade text, Ascii glyph.1 := by
  intro glyph member
  obtain ⟨character, listed, rfl⟩ := List.mem_map.mp member
  exact plain character listed

/-- Digits take one column each, as they are characters of ASCII. -/
theorem hexText_plain (digits value : Nat) : ∀ character ∈ hexText digits value, Ascii character := by
  have digit : ∀ value < 16, Ascii (hexCharacter value) := by decide
  induction digits generalizing value with
  | zero => exact fun character member => absurd member List.not_mem_nil
  | succ digits inductionHypothesis =>
    intro character member
    rcases List.mem_append.mp member with front | last
    · exact inductionHypothesis (value / 16) character front
    · rw [List.mem_singleton.mp last]
      exact digit (value % 16) (Nat.mod_lt _ (by decide))

/-- Blanks take one column each, so they can be used to move on in a line. -/
theorem blanks_plain (count : Nat) :
    ∀ character ∈ List.replicate count (0x20 : BitVec 32), Ascii character := by
  intro character member
  rw [List.eq_of_mem_replicate member]
  decide

/-- Lines with their ends are what a window reads as lines of glyphs. -/
theorem lines_signs (lines : List (List (BitVec 32)))
    (plain : ∀ text ∈ lines, ∀ character ∈ text, Ascii character) :
    signs shade (lines.flatMap fun text => text ++ [0x0a]) =
      (lines.map (glyphs shade)).flatMap line := by
  rw [signs, List.map_flatMap, List.flatMap_map]
  refine List.flatMap_congr fun text member => ?_
  rw [line, ← signs_plain shade text (plain text member), List.map_append]
  rfl

/-- A value that is small enough has the digits of the precision. -/
theorem printX_small (digits value : Nat) (small : value < 16 ^ digits) :
    printX digits value = hexText digits value := by
  have least : (Nat.digits 16 value).length ≤ digits :=
    (Nat.digits_length_le_iff (by decide) value).mpr small
  rw [printX, max_eq_left least]

/-- A text of digits is printed character by character. -/
theorem signs_hexText (digits value : Nat) :
    signs shade (hexText digits value) = (glyphs shade (hexText digits value)).map .character :=
  signs_plain shade _ (hexText_plain digits value)

end Texts

section Values

/-- The characters of a line of cells. -/
def lineText (shift : Nat) (cell : Nat × Nat → Cell) (row : Nat) : List Glyph :=
  (columns shift).flatMap fun column =>
    glyphs (.value (cell (row, column)).color)
      (hexText (2 * 2 ^ shift) (cell (row, column)).value.toNat) ++
    if column + 2 ^ shift < 16 then glyphs .normal (List.replicate (gap shift) 0x20) else []

/-- The columns from the start of a cell to the start of the next one. -/
def pitch (shift : Nat) : Nat := 2 * 2 ^ shift + gap shift

variable {shift : Nat} (fits : shift ≤ 2) (cell : Nat × Nat → Cell)
  (small : ∀ place, (cell place).value.toNat < 16 ^ (2 * 2 ^ shift))

include small in
/-- The texts of the values are sixteen lines, each with its end. -/
theorem valueTexts_flatten :
    (valueTexts shift cell).flatten = ((List.range 16).map (lineText shift cell)).flatMap line := by
  have blanks : signs .normal (List.replicate (gap shift) 0x20) =
      (glyphs .normal (List.replicate (gap shift) 0x20)).map .character :=
    signs_plain _ _ (blanks_plain _)
  have cells : ∀ row, ((columns shift).flatMap fun column =>
      signs (.value (cell (row, column)).color)
          (printX (2 * 2 ^ shift) (cell (row, column)).value.toNat) ::
        if column + 2 ^ shift < 16 then [signs .normal (List.replicate (gap shift) 0x20)]
        else []).flatten = (lineText shift cell row).map .character := by
    intro row
    rw [← List.flatMap_id, List.flatMap_assoc, lineText, List.map_flatMap]
    refine List.flatMap_congr fun column _ => ?_
    rw [List.flatMap_id, List.flatten_cons, printX_small _ _ (small _), signs_hexText, List.map_append]
    congr 1
    split
    · rw [List.flatten_singleton, blanks]
    · rfl
  rw [valueTexts, List.flatMap_map, ← List.flatMap_id, List.flatMap_assoc]
  refine List.flatMap_congr fun row _ => ?_
  rw [List.flatMap_id, List.flatten_append, line, ← cells row]
  rfl

include fits in
/-- Blanks at the end make the cells of a line equally long. -/
theorem lineText_even (row : Nat) :
    lineText shift cell row ++ List.replicate (gap shift) blank =
      (columns shift).flatMap fun column =>
        glyphs (.value (cell (row, column)).color)
          (hexText (2 * 2 ^ shift) (cell (row, column)).value.toNat) ++
        List.replicate (gap shift) blank := by
  have blanks : glyphs .normal (List.replicate (gap shift) 0x20) =
      List.replicate (gap shift) blank := List.map_replicate
  obtain ⟨before, last, parts, early, late⟩ : ∃ before last, columns shift = before ++ [last] ∧
      (∀ column ∈ before, column + 2 ^ shift < 16) ∧ ¬ last + 2 ^ shift < 16 := by
    interval_cases shift
    · exact ⟨List.range 15, 15, by decide⟩
    · exact ⟨[0, 2, 4, 6, 8, 10, 12], 14, by decide⟩
    · exact ⟨[0, 4, 8], 12, by decide⟩
  rw [lineText, parts, List.flatMap_append, List.flatMap_append, List.flatMap_singleton,
    List.flatMap_singleton, if_neg late, List.append_nil, List.append_assoc]
  congr 1
  refine List.flatMap_congr fun column member => ?_
  rw [if_pos (early column member), blanks]

/-- The number of the cell at a column of the page. -/
theorem columns_number {column : Nat} (member : column ∈ columns shift) :
    column / 2 ^ shift < (columns shift).length ∧
      ∀ inside : column / 2 ^ shift < (columns shift).length,
        (columns shift)[column / 2 ^ shift] = column := by
  have positive : 0 < 2 ^ shift := Nat.two_pow_pos shift
  rw [columns] at member
  obtain ⟨number, small, rfl⟩ := List.mem_range'.mp member
  rw [Nat.zero_add, Nat.mul_div_cancel_left _ positive]
  refine ⟨by rw [columns, List.length_range']; exact small, fun inside => ?_⟩
  simp only [columns, List.getElem_range', Nat.zero_add]

include fits in
/-- A line of cells leaves room at the end of its line of the window. -/
theorem lineText_length (row : Nat) : (lineText shift cell row).length < 50 := by
  have even := congrArg List.length (lineText_even fits cell row)
  have count : (columns shift).length = 16 / 2 ^ shift := List.length_range'
  simp only [List.length_append, List.length_replicate, List.length_flatMap, glyphs_length,
    hexText_length, List.map_const', List.sum_replicate, count, smul_eq_mul] at even
  interval_cases shift
  · simp only [gap] at even
    omega
  · simp only [gap] at even
    omega
  · simp only [gap] at even
    omega

/-- A line of cells has digits and blanks only. -/
theorem lineText_plain (row : Nat) : ∀ glyph ∈ lineText shift cell row, Ascii glyph.1 := by
  intro glyph member
  obtain ⟨column, _, text⟩ := List.mem_flatMap.mp member
  rcases List.mem_append.mp text with digit | rest
  · exact glyphs_plain _ (hexText_plain _ _) glyph digit
  · split at rest
    · exact glyphs_plain _ (blanks_plain _) glyph rest
    · exact absurd rest List.not_mem_nil

include fits in
/-- The characters of a cell in its line: they begin at the cell's place in the pitch of the mode,
and are the digits of its value. -/
theorem lineText_cell (row column : Nat) (member : column ∈ columns shift) (i : Nat)
    (within : i < 2 * 2 ^ shift) :
    (lineText shift cell row).getD (pitch shift * (column / 2 ^ shift) + i) blank =
      (glyphs (.value (cell (row, column)).color)
        (hexText (2 * 2 ^ shift) (cell (row, column)).value.toNat)).getD i blank := by
  obtain ⟨inside, here⟩ := columns_number member
  rw [← getD_padded _ (gap shift), lineText_even fits]
  rw [getD_pieces (columns shift) _ (pitch shift) _ _ _ inside i (by rw [pitch]; omega), here inside,
    getD_padded]
  intro other _
  rw [List.length_append, glyphs_length, hexText_length, List.length_replicate, pitch]

include fits in
/-- The digits of a cell are inside the window. -/
theorem cell_narrow {column : Nat} (member : column ∈ columns shift) {i : Nat}
    (digit : i < 2 * 2 ^ shift) : pitch shift * (column / 2 ^ shift) + i < 47 := by
  obtain ⟨inside, _⟩ := columns_number member
  rw [columns, List.length_range'] at inside
  interval_cases shift
  · simp only [pitch, gap] at digit ⊢
    omega
  · simp only [pitch, gap] at digit ⊢
    omega
  · simp only [pitch, gap] at digit ⊢
    omega

include fits small in
/-- A cell in the window of the values, whatever the window held before. -/
theorem value_printed (terminal : Ncurses) (window : terminal.Window valueFrame)
    (start : terminal.getcury window = 0) (first : terminal.getcurx window = 0) (row column : Nat)
    (within : row < 16) (member : column ∈ columns shift) (i : Nat)
    (digit : i < 2 * 2 ^ shift) :
    terminal.winch (terminal.printAll (valueTexts shift cell) window) row
        (pitch shift * (column / 2 ^ shift) + i) =
      (glyphs (.value (cell (row, column)).color)
        (hexText (2 * 2 ^ shift) (cell (row, column)).value.toNat)).getD i blank := by
  have count : ((List.range 16).map (lineText shift cell)).length = 16 := by
    rw [List.length_map, List.length_range]
  have lines := wprintw_lines terminal first ((List.range 16).map (lineText shift cell)) (by
      intro text member
      obtain ⟨row, _, rfl⟩ := List.mem_map.mp member
      exact lineText_plain cell row) (by
      intro text member
      obtain ⟨row, _, rfl⟩ := List.mem_map.mp member
      exact lineText_length fits cell row) (by
      rw [start, count]
      decide)
  rw [← valueTexts_flatten cell small, start, count] at lines
  obtain ⟨goes, written⟩ := lines
  obtain ⟨done, _, _⟩ := goes (by decide)
  have narrow := cell_narrow fits member digit
  have here : ((List.range 16).map (lineText shift cell)).getD row [] = lineText shift cell row := by
    rw [List.getD_eq_getElem _ _ (by simpa using within), List.getElem_map, List.getElem_range]
  rw [printAll_flatten _ _ _ done, written row (by simp only [valueFrame]; omega) _
    (by simp only [valueFrame]; omega), if_pos ⟨Nat.zero_le _, by omega⟩, Nat.sub_zero, here]
  exact lineText_cell fits cell row column member i digit

end Values

section Labels

/-- The lines above and beside the values, but the last one. -/
def labelLines (shift position : Nat) : List (List Glyph) :=
  glyphs .redBlue (hexText 4 position ++ characters (columnLabels shift)) ::
    (List.range 15).map fun row => glyphs .redBlue (hexText 4 (16 * row))

variable {shift : Nat} (fits : shift ≤ 2) {position : Nat} (small : position < 0x10000)

include fits in
/-- The labels of the columns stand where the cells do. -/
theorem columnLabels_even :
    characters (columnLabels shift) ++ List.replicate (gap shift) 0x20 =
      0x20 :: (columns shift).flatMap fun column =>
        hexText (2 * 2 ^ shift) column ++ List.replicate (gap shift) 0x20 := by
  interval_cases shift
  · decide
  · decide
  · decide

include fits in
/-- The labels of the columns have digits and blanks only. -/
theorem columnLabels_plain : ∀ character ∈ characters (columnLabels shift), Ascii character := by
  intro character member
  have padded := List.mem_append_left (List.replicate (gap shift) 0x20) member
  rw [columnLabels_even fits] at padded
  rcases List.mem_cons.mp padded with rfl | label
  · decide
  · obtain ⟨column, _, text⟩ := List.mem_flatMap.mp label
    rcases List.mem_append.mp text with digit | rest
    · exact hexText_plain _ _ character digit
    · exact blanks_plain _ character rest

include fits small in
/-- The text of the labels is sixteen lines with their ends and the last label without one. -/
theorem createOffsetText_signs :
    signs .redBlue (createOffsetText shift position) =
      (labelLines shift position).flatMap line ++
        (glyphs .redBlue (hexText 4 (16 * 15))).map .character := by
  have labels : characters lineLabels =
      0x0a :: (List.range 15).flatMap (fun row => hexText 4 (16 * row) ++ [0x0a]) ++
        hexText 4 (16 * 15) := by
    decide
  have rows : signs .redBlue ((List.range 15).flatMap fun row => hexText 4 (16 * row) ++ [0x0a]) =
      ((List.range 15).map fun row => glyphs .redBlue (hexText 4 (16 * row))).flatMap line := by
    have texts := lines_signs .redBlue ((List.range 15).map fun row => hexText 4 (16 * row)) (by
      intro text member
      obtain ⟨row, _, rfl⟩ := List.mem_map.mp member
      exact hexText_plain 4 (16 * row))
    rw [List.flatMap_map, List.map_map] at texts
    exact texts
  rw [createOffsetText, printX_small 4 position (by omega), labels, signs_append, signs_append,
    signs_hexText, signs_plain _ _ (columnLabels_plain fits), ← List.map_append, ← glyphs_append,
    signs_append, signs_hexText, signs, List.map_cons, if_pos rfl, ← signs, rows, labelLines,
    List.flatMap_cons, line, List.append_assoc, List.append_assoc]
  rfl

/-- A glyph of a text is the character at its place, in the colour of the text. -/
theorem glyphs_getD (shade : Attribute) (text : List (BitVec 32)) (i : Nat)
    (inside : i < text.length) (other : Glyph) :
    (glyphs shade text).getD i other = (text.getD i 0x20, shade) := by
  rw [List.getD_eq_getElem _ _ (by rw [glyphs_length]; exact inside),
    List.getD_eq_getElem _ _ inside]
  exact List.getElem_map _

include fits in
/-- The labels leave room for the number before them and for one character more. -/
theorem columnLabels_length : (characters (columnLabels shift)).length < 49 := by
  interval_cases shift
  · decide
  · decide
  · decide

include fits in
/-- The label of a column, behind the number of the place of the cursor. -/
theorem columnLabels_digit (column : Nat) (member : column ∈ columns shift) (i : Nat)
    (digit : i < 2 * 2 ^ shift) :
    (glyphs .redBlue (hexText 4 position ++ characters (columnLabels shift))).getD
        (5 + pitch shift * (column / 2 ^ shift) + i) blank =
      (glyphs .redBlue (hexText (2 * 2 ^ shift) column)).getD i blank := by
  obtain ⟨number, here⟩ := columns_number member
  have inside : pitch shift * (column / 2 ^ shift) + i + 1 <
      (characters (columnLabels shift)).length := by
    rw [columns, List.length_range'] at number
    interval_cases shift
    · have length : (characters (columnLabels 0)).length = 48 := by decide
      simp only [pitch, gap] at digit ⊢
      omega
    · have length : (characters (columnLabels 1)).length = 47 := by decide
      simp only [pitch, gap] at digit ⊢
      omega
    · have length : (characters (columnLabels 2)).length = 48 := by decide
      simp only [pitch, gap] at digit ⊢
      omega
  have behind : 5 + pitch shift * (column / 2 ^ shift) + i - (hexText 4 position).length =
      pitch shift * (column / 2 ^ shift) + i + 1 := by
    rw [hexText_length]
    omega
  rw [glyphs_getD _ _ _ (by rw [List.length_append, hexText_length]; omega),
    glyphs_getD _ _ _ (by rw [hexText_length]; exact digit),
    List.getD_append_right _ _ _ _ (by rw [hexText_length]; omega), behind,
    ← getD_padded _ (gap shift), columnLabels_even fits, List.getD_cons_succ,
    getD_pieces (columns shift) _ (pitch shift) _ _ _ number i (by rw [pitch]; omega), here number,
    getD_padded]
  intro other _
  rw [List.length_append, hexText_length, List.length_replicate, pitch]

include fits in
/-- The labels have digits and blanks only, for every page and every mode. -/
theorem labelLines_plain :
    ∀ text ∈ labelLines shift position, ∀ glyph ∈ text, Ascii glyph.1 := by
  intro text member
  rcases List.mem_cons.mp member with rfl | label
  · refine glyphs_plain _ fun character member => ?_
    rcases List.mem_append.mp member with digit | label
    · exact hexText_plain _ _ character digit
    · exact columnLabels_plain fits character label
  · obtain ⟨row, _, rfl⟩ := List.mem_map.mp label
    exact glyphs_plain _ (hexText_plain _ _)

include fits in
/-- They leave room at the ends of their lines. -/
theorem labelLines_short : ∀ text ∈ labelLines shift position, text.length < 53 := by
  intro text member
  rcases List.mem_cons.mp member with rfl | label
  · have short := columnLabels_length fits
    rw [glyphs_length, List.length_append, hexText_length]
    exact Nat.add_lt_add_left short 4
  · obtain ⟨row, _, rfl⟩ := List.mem_map.mp label
    rw [glyphs_length, hexText_length]
    decide

include fits small in
/-- The labels in their window, whatever it held before. -/
theorem labels_printed (terminal : Ncurses) (window : terminal.Window offsetFrame)
    (start : terminal.getcury window = 0) (first : terminal.getcurx window = 0) (row column : Nat)
    (within : row < 17) (inside : column < 53) (there : row = 16 → column < 4) :
    terminal.winch
        (terminal.printAll [signs .redBlue (createOffsetText shift position)] window) row column =
      ((labelLines shift position ++ [glyphs .redBlue (hexText 4 (16 * 15))]).getD row []).getD
        column blank := by
  have count : (labelLines shift position).length = 16 := by
    rw [labelLines, List.length_cons, List.length_map, List.length_range]
  have lines := wprintw_lines terminal first (labelLines shift position) (labelLines_plain fits)
    (labelLines_short fits) (by
      rw [start, count]
      decide)
  rw [start, count, Nat.zero_add] at lines
  obtain ⟨goes, written⟩ := lines
  obtain ⟨done, last, home⟩ := goes (by decide)
  have four : (glyphs .redBlue (hexText 4 (16 * 15))).length = 4 := by
    rw [glyphs_length, hexText_length]
  -- the last label has no end of its line
  rw [createOffsetText_signs fits small, Terminal.printAll, List.foldl_cons, List.foldl_nil,
    wprintw_append, if_pos done]
  generalize terminal.wprintw ((labelLines shift position).flatMap line) window = printed at *
  obtain ⟨_, _, _, held⟩ := wprintw_short terminal
    (glyphs_plain .redBlue (hexText_plain 4 (16 * 15))) (by rw [four]; decide) home
    (by rw [last]; decide)
  rw [held row within column inside, last, four]
  by_cases under : row < 16
  · rw [if_neg (by omega), written row within column inside, if_pos ⟨Nat.zero_le _, under⟩,
      Nat.sub_zero, List.getD_append _ _ _ _ (by omega)]
  · obtain rfl : row = 16 := by omega
    rw [if_pos ⟨rfl, there rfl⟩, List.getD_append_right _ _ _ _ (le_of_eq count), count]
    rfl

/-- The labels of the sixteen lines, of which the last is printed apart. -/
theorem labels_lines (row : Nat) (low : row < 16) :
    (labelLines shift position ++ [glyphs .redBlue (hexText 4 (16 * 15))]).getD (1 + row) [] =
      glyphs .redBlue (hexText 4 (16 * row)) := by
  have rows : (List.range 16).map (fun row => glyphs .redBlue (hexText 4 (16 * row))) =
      (List.range 15).map (fun row => glyphs .redBlue (hexText 4 (16 * row))) ++
        [glyphs .redBlue (hexText 4 (16 * 15))] := by
    rw [List.range_succ, List.map_append, List.map_singleton]
  rw [labelLines, List.cons_append, ← rows, Nat.add_comm, List.getD_cons_succ,
    List.getD_eq_getElem _ _ (by rw [List.length_map, List.length_range]; exact low),
    List.getElem_map, List.getElem_range]

end Labels

section Reading

/-- The column of the screen at which a column of the page starts. -/
def cellColumn (shift column : Nat) : Nat := 6 + pitch shift * (column / 2 ^ shift)

/-- The page can be read off the screen. -/
structure ReadsOff (terminal : Ncurses) (screen : List (Panel terminal.Window)) (shift : Nat)
    (cells : List Cell) (position : Nat) : Prop where
  /-- A cell stands below the label of its column and beside the label of its line. -/
  value : ∀ cell ∈ cells,
    terminal.readAt screen (5 + cell.row) (cellColumn shift cell.column) (2 * 2 ^ shift) =
      glyphs (.value cell.color) (hexText (2 * 2 ^ shift) cell.value.toNat)
  column : ∀ cell ∈ cells,
    terminal.readAt screen 4 (cellColumn shift cell.column) (2 * 2 ^ shift) =
      glyphs .redBlue (hexText (2 * 2 ^ shift) cell.column)
  line : ∀ cell ∈ cells,
    terminal.readAt screen (5 + cell.row) 1 4 = glyphs .redBlue (hexText 4 (16 * cell.row))
  /-- Its digits, when they are typed, give its value. -/
  typed : ∀ cell ∈ cells,
    (typed (2 * 2 ^ shift) (hexText (2 * 2 ^ shift) cell.value.toNat)).value = cell.value.toNat
  /-- The number of the place of the cursor stands above the labels. -/
  position : terminal.readAt screen 4 1 4 = glyphs .redBlue (hexText 4 position)

/-- A value of a cell has no more digits than there is room for. -/
theorem cellAt_small (shift : Nat) (typing browsing : Bool) (cursor : Cursor) (wbuf : BitVec 32)
    (massBuf : Vector (BitVec 8) 256) (place : Nat × Nat) :
    (cellAt shift typing browsing cursor wbuf massBuf place).value.toNat <
      16 ^ (2 * 2 ^ shift) := by
  rw [cellAt]
  split
  · have positive := Nat.two_pow_pos (8 * 2 ^ shift)
    rw [digits_power, lowBytes, BitVec.toNat_and, BitVec.toNat_ofNat]
    refine Nat.lt_of_le_of_lt (Nat.and_le_right.trans (Nat.mod_le _ _)) ?_
    omega
  · rw [bytesAt_wordAt]
    exact wordAt_small _ _ _

section Pages

variable {terminal : Ncurses} {sideFrame : Frame} (page : PageText sideFrame)
  (windows : PageWindows terminal sideFrame) (below : List (Panel terminal.Window))

/-- A window before printing, at its first place. -/
def homeOf {frame : Frame} (window : Option (terminal.Window frame)) : terminal.Window frame :=
  terminal.wmove 0 0 (window.getD (terminal.newwin frame))

/-- The windows after printing: each has its texts, and the one of the values is on top. -/
theorem screen_windows :
    page.screen windows below =
      ⟨valueFrame, 5, 6, terminal.printAll (valueTexts page.shift page.cell)
          (homeOf windows.value)⟩ ::
        ⟨sideFrame, 4, page.sideLeft, terminal.printAll page.side (homeOf windows.side)⟩ ::
        ⟨infoFrame, 22, 0, terminal.printAll page.info (homeOf windows.info)⟩ ::
        ⟨offsetFrame, 4, 1, terminal.printAll
          [signs .redBlue (createOffsetText page.shift page.position)] (homeOf windows.offset)⟩ ::
        below :=
  rfl

/-- Printing starts at the first place, as every paint moves the cursor there. -/
theorem homeOf_cursor {frame : Frame} (window : Option (terminal.Window frame))
    (lines : 0 < frame.height) (columns : 0 < frame.width) :
    terminal.getcury (homeOf window) = 0 ∧ terminal.getcurx (homeOf window) = 0 :=
  terminal.wmove_cursor _ 0 0 lines columns

variable (fits : page.shift ≤ 2) (beside : 56 ≤ page.sideLeft) (position : page.position < 0x10000)

include fits in
/-- A cell on the screen is read off as the digits of its value, in the colour of the cell. -/
theorem value_read (small : ∀ place, (page.cell place).value.toNat < 16 ^ (2 * 2 ^ page.shift))
    (row column : Nat) (within : row < 16) (member : column ∈ columns page.shift) :
    terminal.readAt (page.screen windows below) (5 + row) (cellColumn page.shift column)
        (2 * 2 ^ page.shift) =
      glyphs (.value (page.cell (row, column)).color)
        (hexText (2 * 2 ^ page.shift) (page.cell (row, column)).value.toNat) := by
  have length : (glyphs (.value (page.cell (row, column)).color) (hexText (2 * 2 ^ page.shift)
      (page.cell (row, column)).value.toNat)).length = 2 * 2 ^ page.shift := by
    rw [glyphs_length, hexText_length]
  have right : cellColumn page.shift column + 2 * 2 ^ page.shift ≤ 53 := by
    have last := cell_narrow fits member
      (Nat.sub_lt (Nat.mul_pos (by decide) (Nat.two_pow_pos page.shift)) (Nat.one_pos))
    rw [cellColumn]
    omega
  rw [screen_windows]
  refine readAt_panel terminal [] _ _ _ _ _ length (by omega) (by omega) ?_ ?_ ?_
  · intro other member
    exact absurd member List.not_mem_nil
  · intro i digit
    refine ⟨⟨Nat.le_add_right 5 row, ?_⟩, ?_, ?_⟩
    · exact Nat.add_lt_add_left (Nat.lt_succ_of_lt within) 5
    · simp only [cellColumn]
      omega
    · simp only [valueFrame]
      omega
  · intro i digit
    have left : cellColumn page.shift column + i - 6 =
        pitch page.shift * (column / 2 ^ page.shift) + i := by
      rw [cellColumn]
      omega
    obtain ⟨start, first⟩ := homeOf_cursor windows.value (by decide) (by decide)
    simp only [left, Nat.add_sub_cancel_left]
    rw [value_printed fits page.cell small terminal _ start first row column within member i
      (length ▸ digit)]
    exact List.getD_eq_getElem _ _ digit

include fits beside position

/-- A label on the screen, where the values do not cover it. -/
theorem label_read (row column : Nat) (text : List Glyph)
    {count : Nat} (length : text.length = count) (within : row < 17) (inside : column + count ≤ 53)
    (clear : row = 0 ∨ column + count ≤ 5) (there : row = 16 → column + count ≤ 4)
    (held : ∀ i, ∀ small : i < text.length,
      ((labelLines page.shift page.position ++ [glyphs .redBlue (hexText 4 (16 * 15))]).getD row
        []).getD (column + i) blank = text[i]) :
    terminal.readAt (page.screen windows below) (4 + row) (1 + column) count = text := by
  rw [screen_windows]
  refine readAt_panel terminal [_, _, _] _ _ _ _ text length (by omega) (by omega) ?_ ?_ ?_
  · intro other member i digit
    simp only [List.mem_cons, List.not_mem_nil, or_false] at member
    rcases member with rfl | rfl | rfl
    · rintro ⟨⟨top, _⟩, left, _⟩
      simp only at top left
      omega
    · rintro ⟨_, left, _⟩
      simp only at left
      omega
    · rintro ⟨⟨top, _⟩, _⟩
      simp only at top
      omega
  · intro i digit
    refine ⟨⟨Nat.le_add_right 4 row, Nat.add_lt_add_left within 4⟩, ?_, ?_⟩
    · simp only
      omega
    · simp only [offsetFrame]
      omega
  · intro i digit
    have short := digit
    rw [length] at short
    have left : 1 + column + i - 1 = column + i := by omega
    obtain ⟨start, first⟩ := homeOf_cursor windows.offset (by decide) (by decide)
    simp only [left, Nat.add_sub_cancel_left]
    rw [labels_printed fits position terminal _ start first row (column + i) within (by omega)
      (by omega)]
    exact held i digit

/-- Whatever was printed before, a page can be read off the screen. -/
theorem printed_reads
    (placed : ∀ place, (page.cell place).row = place.1 ∧ (page.cell place).column = place.2)
    (small : ∀ place, (page.cell place).value.toNat < 16 ^ (2 * 2 ^ page.shift)) :
    ReadsOff terminal (page.screen windows below) page.shift ((cells page.shift).map page.cell)
      page.position := by
  have line : page.shift ≤ 4 := by omega
  have places : ∀ cell ∈ (cells page.shift).map page.cell, cell.row < 16 ∧
      cell.column ∈ columns page.shift ∧ page.cell (cell.row, cell.column) = cell := by
    intro cell member
    obtain ⟨⟨row, column⟩, listed, rfl⟩ := List.mem_map.mp member
    obtain ⟨low, aligned, narrow⟩ := (mem_cells line _).mp listed
    rw [(placed _).1, (placed _).2]
    exact ⟨low, (mem_columns line _).mpr ⟨aligned, narrow⟩, rfl⟩
  have digits : ∀ count value, (glyphs .redBlue (hexText count value)).length = count := by
    intro count value
    rw [glyphs_length, hexText_length]
  refine ⟨?_, ?_, ?_, ?_, ?_⟩
  · intro cell member
    obtain ⟨low, inside, same⟩ := places cell member
    have read := value_read page windows below fits small cell.row cell.column low inside
    rw [same] at read
    exact read
  · intro cell member
    obtain ⟨_, inside, _⟩ := places cell member
    have start : cellColumn page.shift cell.column =
        1 + (5 + pitch page.shift * (cell.column / 2 ^ page.shift)) := by
      rw [cellColumn]
      omega
    have narrow : 5 + pitch page.shift * (cell.column / 2 ^ page.shift) + 2 * 2 ^ page.shift ≤
        53 := by
      have last := cell_narrow fits inside
        (Nat.sub_lt (Nat.mul_pos (by decide) (Nat.two_pow_pos page.shift)) (Nat.one_pos))
      omega
    rw [start]
    refine label_read page windows below fits beside position 0 _ _ (digits _ _) (by decide) narrow
      (.inl rfl) (fun last => absurd last (by decide)) fun i digit => ?_
    rw [digits] at digit
    rw [List.getD_append _ _ _ _ (Nat.succ_pos _), labelLines, List.getD_cons_zero,
      columnLabels_digit fits cell.column inside i digit]
    exact List.getD_eq_getElem _ _ (by rw [digits]; exact digit)
  · intro cell member
    obtain ⟨low, _, _⟩ := places cell member
    have under : 5 + cell.row = 4 + (1 + cell.row) := by omega
    rw [under]
    refine label_read page windows below fits beside position (1 + cell.row) 0 _ (digits _ _) (by omega)
      (by decide) (.inr (by decide)) (fun _ => by decide) fun i digit => ?_
    rw [labels_lines cell.row low, Nat.zero_add]
    exact List.getD_eq_getElem _ _ digit
  · intro cell member
    obtain ⟨_, _, same⟩ := places cell member
    exact hexText_typed _ _ _ (le_refl _) (same ▸ small _)
  · refine label_read page windows below fits beside position 0 0 _ (digits _ _) (by decide) (by decide)
      (.inl rfl) (fun last => absurd last (by decide)) fun i digit => ?_
    have short : i < (hexText 4 page.position).length := by
      rw [digits] at digit
      rw [hexText_length]
      exact digit
    rw [List.getD_append _ _ _ _ (Nat.succ_pos _), labelLines, List.getD_cons_zero, Nat.zero_add,
      glyphs_append, List.getD_append _ _ _ _ digit]
    exact List.getD_eq_getElem _ _ digit

end Pages

end Reading

section Runs

variable {terminal : Ncurses}

/-- What a cell of a page shows is where it belongs and fits. -/
theorem cells_read {sideFrame : Frame} (page : PageText sideFrame)
    (windows : PageWindows terminal sideFrame) (below : List (Panel terminal.Window))
    (fits : page.shift ≤ 2) (beside : 56 ≤ page.sideLeft) (position : page.position < 0x10000)
    (typing browsing : Bool) (cursor : Cursor) (wbuf : BitVec 32)
    (massBuf : Vector (BitVec 8) 256)
    (cell : page.cell = cellAt page.shift typing browsing cursor wbuf massBuf) :
    ReadsOff terminal (page.screen windows below) page.shift
      (printCells page.shift typing browsing cursor wbuf massBuf) page.position := by
  have read := printed_reads page windows below fits beside position
    (fun place => cell ▸ cellAt_place page.shift typing browsing wbuf massBuf cursor place)
    (fun place => cell ▸ cellAt_small page.shift typing browsing cursor wbuf massBuf place)
  rw [cell] at read
  exact read

variable (below : List (Panel terminal.Window))

/-- The cells of PCI-DEV and MEM-SPACE have one, two or four bytes, so that a line of them fits its
window. -/
theorem DisplayMode.shift_le_two (mode : DisplayMode) : mode.shift ≤ 2 := by
  cases mode <;> decide

/-- The cells of IO-SPACE have one or two bytes, as it has no mode for dwords. -/
theorem ioSpace_shift_le_two (mode : IoDisplayMode) : ioSpace.shift mode ≤ 2 := by
  cases mode <;> decide

/-- The page of PCI-DEV is read off the screen, with the offset of the register under the cursor. -/
theorem pciPage_read (windows : PageWindows terminal rtitleFrame) (window : DevWindow δ)
    (settled : window.Settled) (record : PciData) :
    ReadsOff terminal ((pciPageText window record).screen windows below)
      window.dev.displayMode.shift
      window.cells (window.dev.buffPage + window.dev.cursor.offset).toNat := by
  obtain ⟨low, high⟩ := Cursor.offset_bounds settled.onPage
  obtain ⟨_, first, last⟩ := settled.inside
  have positive := width_pos window.dev.displayMode.shift
  have place : (pciPageText window record).position =
      (window.dev.buffPage + window.dev.cursor.offset).toNat := by
    simp only [pciPageText, BitVec.toNat_ofInt]
    omega
  rw [← place]
  exact cells_read (pciPageText window record) windows below window.dev.displayMode.shift_le_two
    (le_refl 56) (BitVec.isLt _) _ _ _ _ _ rfl

/-- The page of MEM-SPACE, with the low digits of the address of the cursor. -/
theorem memPage_read (windows : PageWindows terminal asciiFrame)
    (window : SpaceWindow (BitVec 32) DisplayMode δ)
    (onPage : window.editor.cursor.OnPage window.editor.displayMode.shift) :
    ReadsOff terminal ((memPageText window).screen windows below) window.editor.displayMode.shift
      (window.cells memSpace)
      ((window.editor.page.toNat + window.editor.cursor.offset).toNat % 0x10000) := by
  obtain ⟨low, high⟩ := Cursor.offset_bounds onPage
  have positive := width_pos window.editor.displayMode.shift
  have place : (memPageText window).position =
      (window.editor.page.toNat + window.editor.cursor.offset).toNat % 0x10000 := by
    have mask : (0xffff : BitVec 32).toNat = 2 ^ 16 - 1 := rfl
    simp only [memPageText, BitVec.toNat_and, mask, Nat.and_two_pow_sub_one_eq_mod, BitVec.toNat_add,
      BitVec.toNat_ofInt]
    omega
  have small : (memPageText window).position < 0x10000 := by
    rw [place]
    exact Nat.mod_lt _ (by decide)
  rw [← place]
  exact cells_read (memPageText window) windows below window.editor.displayMode.shift_le_two
    (by decide : 56 ≤ 58) small _ _ _ _ _ rfl

/-- The page of IO-SPACE is read off the screen, with the port under the cursor. -/
theorem ioPage_read (windows : PageWindows terminal asciiFrame)
    (window : SpaceWindow Int IoDisplayMode δ)
    (settled : Settled (ioSpace.shift window.editor.displayMode) window.editor.cursor
      window.editor.page 0x10000) :
    ReadsOff terminal ((ioPageText window).screen windows below)
      (ioSpace.shift window.editor.displayMode)
      (window.cells ioSpace) (window.editor.page + window.editor.cursor.offset).toNat := by
  obtain ⟨low, high⟩ := Cursor.offset_bounds settled.onPage
  obtain ⟨_, first, last⟩ := settled.inside
  have positive := width_pos (ioSpace.shift window.editor.displayMode)
  have place : (ioPageText window).position =
      (window.editor.page + window.editor.cursor.offset).toNat := by
    simp only [ioPageText, BitVec.toNat_ofInt]
    omega
  rw [← place]
  exact cells_read (ioPageText window) windows below (ioSpace_shift_le_two window.editor.displayMode)
    (by decide : 56 ≤ 58) (by rw [place]; omega) _ _ _ _ _ rfl

/-- The page of CMOS-SPACE is read off the screen, with the index under the cursor. -/
theorem cmosPage_read (windows : PageWindows terminal asciiFrame) (window : CmosWindow δ)
    (onPage : window.editor.cursor.OnPage 0) :
    ReadsOff terminal ((cmosPageText window).screen windows below) 0 window.cells
      window.editor.cursor.offset.toNat := by
  obtain ⟨low, high⟩ := Cursor.offset_bounds onPage
  have positive := width_pos 0
  have place : (cmosPageText window).position = window.editor.cursor.offset.toNat := by
    simp only [cmosPageText, BitVec.toNat_ofInt]
    omega
  rw [← place]
  exact cells_read (cmosPageText window) windows below (Nat.zero_le 2) (by decide : 56 ≤ 58)
    (by rw [place]; omega) _ _ _ _ _ rfl

/-- MEM-SPACE is settled before every step of any run from its start. -/
theorem mem_settled (ioctl : Ioctl LfddSpace δ) (lfddMemData : LfddSpace) (driver : δ)
    (inputs : List SpaceInput) :
    ∀ stage ∈ stages (spaceStep memSpace ioctl) inputs ⟨memStarting, lfddMemData, driver, none⟩,
      stage.before.editor.Settled memSpace (fun phyaddr => (phyaddr.toNat : Int)) (2 ^ 32) 6 :=
  fun stage member => (stages_invariant (spaceStep memSpace ioctl)
    (fun window => window.editor.Settled memSpace (fun phyaddr => (phyaddr.toNat : Int)) (2 ^ 32) 6)
    inputs ⟨memStarting, lfddMemData, driver, none⟩
    ⟨⟨Cursor.start_onPage (Nat.zero_le 4), PageIn.zero (by decide)⟩, fun asked => nomatch asked⟩
    (fun input _ current settled => spaceStep_settled ioctl memSpace_paged settled input) stage
    member).2.1

/-- So is IO-SPACE, whose addresses are ports. -/
theorem io_settled (ioctl : Ioctl LfddSpace δ) (lfddIoData : LfddSpace) (driver : δ)
    (inputs : List SpaceInput) :
    ∀ stage ∈ stages (spaceStep ioSpace ioctl) inputs ⟨ioStarting, lfddIoData, driver, none⟩,
      stage.before.editor.Settled ioSpace (fun ioaddr => ioaddr) (2 ^ 16) 2 :=
  fun stage member => (stages_invariant (spaceStep ioSpace ioctl)
    (fun window => window.editor.Settled ioSpace (fun ioaddr => ioaddr) (2 ^ 16) 2) inputs
    ⟨ioStarting, lfddIoData, driver, none⟩
    ⟨⟨Cursor.start_onPage (Nat.zero_le 4), PageIn.zero (by decide)⟩, fun asked => nomatch asked⟩
    (fun input _ current settled => spaceStep_settled ioctl ioSpace_paged settled input) stage
    member).2.1

end Runs

end Lfdk.HexEditors
