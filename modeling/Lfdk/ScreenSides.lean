import Lfdk.ScreenText

/-!
# What stands around a page

Below the values the editors print what the page is a part of, and beside them the
characters of its bytes, or what PCI-DEV knows about the function. The line about the page
of a memory shows the address of the page in all its digits, also while an address is typed:
then it is the page that Enter opens.
-/

namespace Lfdk.HexEditors

open HexPages TextWindow Runs PciScan

universe u
variable {δ : Type u} {terminal : Ncurses}

section Info

variable {sideFrame : Frame}

/-- Texts in the line about the page are read off where they were printed, as long as the last piece
fits the line as well. -/
theorem info_read (page : PageText sideFrame) (windows : PageWindows terminal sideFrame)
    (below : List (Panel terminal.Window)) (low : sideFrame.height ≤ 18)
    (texts : List (List Glyph)) (last : List Glyph)
    (plain : ∀ glyph ∈ texts.flatten ++ last, Ascii glyph.1)
    (parts : page.info = (texts ++ [last]).map (List.map .character))
    (before : texts.flatten.length < 47) (fits : (texts.flatten ++ last).length ≤ 47) :
    terminal.readAt (page.screen windows below) 22 0 (texts.flatten ++ last).length =
      texts.flatten ++ last := by
  rw [screen_windows, parts]
  refine readAt_panel terminal [_, _] _ _ _ _ _ rfl (by decide) (by omega) ?_ ?_ ?_
  · intro other member i _
    simp only [List.mem_cons, List.not_mem_nil, or_false] at member
    rcases member with rfl | rfl
    · rintro ⟨⟨_, high⟩, _⟩
      exact absurd high (Nat.lt_irrefl 22)
    · rintro ⟨⟨_, high⟩, _⟩
      simp only at high
      omega
  · intro i inside
    refine ⟨⟨le_refl 22, Nat.lt_succ_self 22⟩, Nat.zero_le _, ?_⟩
    simp only [infoFrame]
    omega
  · intro i inside
    obtain ⟨start, first⟩ := homeOf_cursor windows.info (by decide) (by decide)
    have place : terminal.place (homeOf windows.info) = 0 := by
      rw [Terminal.place, start, first, Nat.zero_mul]
    have written := printAll_chars terminal texts last plain (homeOf windows.info)
      ⟨start ▸ Nat.succ_pos 0, first ▸ Nat.succ_pos 46⟩
      (by rw [place, Nat.zero_add]; exact before) (by rw [place, Nat.zero_add]; exact fits) 0 i
      (Nat.succ_pos 0) (by simp only [infoFrame]; omega)
    rw [place, if_pos (Nat.zero_le _), Nat.zero_mul, Nat.zero_add, Nat.sub_zero] at written
    simp only [Nat.zero_add, Nat.sub_zero]
    rw [Nat.sub_self, written]
    exact List.getD_eq_getElem _ _ inside

end Info

section Sides

/-- The character of a byte takes one column: it is a printable one or a dot. -/
theorem asciiOf_plain : ∀ value : BitVec 8, Ascii (asciiOf value) := by
  decide

/-- The characters beside the values are those of the bytes. -/
theorem asciiTexts_parts (massBuf : Vector (BitVec 8) 256) :
    ∃ texts last, asciiTexts massBuf = (texts ++ [last]).map (List.map .character) ∧
      last.length = 1 ∧ texts.flatten ++ last = glyphs .cyanBlue
        (characters "0123456789ABCDEF" ++ massBuf.toList.map asciiOf) := by
  have shown : ∀ value, signs .cyanBlue [asciiOf value] =
      (glyphs .cyanBlue [asciiOf value]).map .character := fun value =>
    signs_plain _ _ fun character member => List.mem_singleton.mp member ▸ asciiOf_plain value
  have some_bytes : massBuf.toList ≠ [] := by
    intro none
    have length := congrArg List.length none
    simp at length
  obtain ⟨front, last, bytes⟩ : ∃ front last, massBuf.toList = front ++ [last] :=
    ⟨_, _, (List.dropLast_concat_getLast some_bytes).symm⟩
  refine ⟨glyphs .cyanBlue (characters "0123456789ABCDEF") ::
    front.map fun value => glyphs .cyanBlue [asciiOf value], glyphs .cyanBlue [asciiOf last],
    ?_, rfl, ?_⟩
  · rw [asciiTexts, bytes, characters_signs _ _ (by decide), List.map_append, List.map_singleton,
      List.cons_append, List.map_cons, List.map_append, List.map_singleton, List.map_map, shown last]
    simp only [Function.comp_def, shown]
  · have each : (front.map fun value => glyphs .cyanBlue [asciiOf value]).flatten =
        glyphs .cyanBlue (front.map asciiOf) := by
      rw [← List.flatMap_def, glyphs, List.map_map]
      exact List.map_eq_flatMap.symm
    rw [bytes, List.flatten_cons, each, List.map_append, glyphs_append, glyphs_append,
      List.append_assoc]
    rfl

/-- Whatever was printed before, the characters of the bytes stand beside the values. -/
theorem ascii_read (page : PageText asciiFrame) (windows : PageWindows terminal asciiFrame)
    (below : List (Panel terminal.Window)) (massBuf : Vector (BitVec 8) 256)
    (left : page.sideLeft = 58) (side : page.side = asciiTexts massBuf) (row : Nat)
    (within : row < 17) :
    terminal.readAt (page.screen windows below) (4 + row) 58 16 =
      ((glyphs .cyanBlue (characters "0123456789ABCDEF" ++ massBuf.toList.map asciiOf)).drop
        (16 * row)).take 16 := by
  obtain ⟨texts, last, parts, one, whole⟩ := asciiTexts_parts massBuf
  have header : (characters "0123456789ABCDEF").length = 16 := by decide
  have length : (texts.flatten ++ last).length = 272 := by
    rw [whole, glyphs_length, List.length_append, header, List.length_map, Vector.length_toList]
  have long : ((((texts.flatten ++ last).drop (16 * row)).take 16)).length = 16 := by
    rw [List.length_take, List.length_drop, length]
    omega
  have plain : ∀ glyph ∈ texts.flatten ++ last, Ascii glyph.1 := by
    rw [whole]
    refine glyphs_plain _ fun character member => ?_
    rcases List.mem_append.mp member with digit | byte
    · exact characters_plain (by decide) character digit
    · obtain ⟨value, _, rfl⟩ := List.mem_map.mp byte
      exact asciiOf_plain value
  rw [screen_windows, ← whole, left, side, parts]
  refine readAt_panel terminal [_] _ _ _ _ _ long (by omega) (by decide) ?_ ?_ ?_
  · intro other member i _
    rw [List.mem_singleton] at member
    subst member
    rintro ⟨_, _, right⟩
    simp only [valueFrame] at right
    omega
  · intro i inside
    refine ⟨⟨Nat.le_add_right 4 row, Nat.add_lt_add_left within 4⟩, Nat.le_add_right 58 i, ?_⟩
    exact Nat.add_lt_add_left inside 58
  · intro i inside
    rw [long] at inside
    obtain ⟨start, first⟩ := homeOf_cursor windows.side (by decide) (by decide)
    have place : terminal.place (homeOf windows.side) = 0 := by
      rw [Terminal.place, start, first, Nat.zero_mul]
    rw [List.length_append, one] at length
    have written := printAll_chars terminal texts last plain (homeOf windows.side)
      ⟨start ▸ Nat.succ_pos 16, first ▸ Nat.succ_pos 15⟩
      (by rw [place, Nat.zero_add]; simp only [asciiFrame]; omega)
      (by rw [place, List.length_append, one]; simp only [asciiFrame]; omega) row i within inside
    have number : row * asciiFrame.width + i = 16 * row + i := by
      rw [Nat.mul_comm]
      rfl
    rw [place, if_pos (Nat.zero_le _), Nat.sub_zero, number] at written
    simp only [Nat.add_sub_cancel_left]
    rw [written, List.getElem_take, List.getElem_drop]
    exact List.getD_eq_getElem _ _ _

/-- The lines of the window `rtitle`. -/
def rtitleLines (record : PciData) (massBuf : Vector (BitVec 8) 256) : List (List (BitVec 32)) :=
  let byte := fun (index : Nat) => hexText 2 (massBuf[index]?.getD 0).toNat
  [characters "Refresh    : ON", [], characters "Data Width : 8 bits", [],
    characters "VID:DID = " ++ hexText 4 record.venid.toNat ++ characters ":" ++
      hexText 4 record.devid.toNat,
    characters "Rev ID        : " ++ byte 0x08, characters "Int Line (IRQ): " ++ byte 0x3c,
    characters "Int Pin       : " ++ byte (0x3c + 8), []] ++
    List.replicate 6 (characters "Mem: 00000000 00000000") ++ [[], characters "ROM: 00000000"]

/-- They leave room at their ends, and have no character that takes more than a column. -/
theorem rtitleLines_short (record : PciData) (massBuf : Vector (BitVec 8) 256) :
    ∀ text ∈ rtitleLines record massBuf,
      text.length < 24 ∧ ∀ character ∈ text, Ascii character := by
  have both : ∀ {first second : List (BitVec 32)}, (∀ character ∈ first, Ascii character) →
      (∀ character ∈ second, Ascii character) →
        ∀ character ∈ first ++ second, Ascii character :=
    fun first second character member =>
      (List.mem_append.mp member).elim (first character) (second character)
  have word : ∀ text ∈ ["Refresh    : ON", "Data Width : 8 bits", "Mem: 00000000 00000000",
      "ROM: 00000000"], (characters text).length < 24 ∧
        ∀ character ∈ characters text, Ascii character := by
    have every : ∀ text ∈ ["Refresh    : ON", "Data Width : 8 bits", "Mem: 00000000 00000000",
        "ROM: 00000000"], (characters text).length < 24 ∧
          (characters text).all (fun character => decide (Ascii character)) = true := by decide
    exact fun text member => ⟨(every text member).1, characters_plain (every text member).2⟩
  have byte : ∀ text ∈ ["Rev ID        : ", "Int Line (IRQ): ", "Int Pin       : "], ∀ value,
      (characters text ++ hexText 2 value).length < 24 ∧
        ∀ character ∈ characters text ++ hexText 2 value, Ascii character := by
    have every : ∀ text ∈ ["Rev ID        : ", "Int Line (IRQ): ", "Int Pin       : "],
        (characters text).length = 16 ∧
          (characters text).all (fun character => decide (Ascii character)) = true := by decide
    intro text member value
    refine ⟨?_, both (characters_plain (every text member).2) (hexText_plain _ _)⟩
    rw [List.length_append, hexText_length, (every text member).1]
    decide
  have names : (characters "VID:DID = " ++ hexText 4 record.venid.toNat ++ characters ":" ++
      hexText 4 record.devid.toNat).length < 24 ∧
        ∀ character ∈ characters "VID:DID = " ++ hexText 4 record.venid.toNat ++
          characters ":" ++ hexText 4 record.devid.toNat, Ascii character := by
    refine ⟨?_, both (both (both (characters_plain (by decide)) (hexText_plain _ _))
      (characters_plain (by decide))) (hexText_plain _ _)⟩
    simp only [List.length_append, hexText_length]
    decide
  have none : ([] : List (BitVec 32)).length < 24 ∧
      ∀ character ∈ ([] : List (BitVec 32)), Ascii character :=
    ⟨by decide, fun character member => absurd member List.not_mem_nil⟩
  intro text member
  simp only [rtitleLines, List.mem_append, List.mem_cons, List.mem_replicate, List.not_mem_nil,
    or_false] at member
  rcases member with
    ((rfl | rfl | rfl | rfl | rfl | rfl | rfl | rfl | rfl) | ⟨_, rfl⟩) | rfl | rfl
  · exact word _ (by simp)
  · exact none
  · exact word _ (by simp)
  · exact none
  · exact names
  · exact byte _ (by simp) _
  · exact byte _ (by simp) _
  · exact byte _ (by simp) _
  · exact none
  · exact word _ (by simp)
  · exact none
  · exact word _ (by simp)

/-- The texts of `rtitle` are these lines, each with its end. -/
theorem rtitleTexts_lines (record : PciData) (massBuf : Vector (BitVec 8) 256) :
    (rtitleTexts record massBuf).flatten =
      ((rtitleLines record massBuf).map (glyphs .cyanBlue)).flatMap line := by
  have byte : ∀ index : Nat, printX 2 (massBuf[index]?.getD 0).toNat =
      hexText 2 (massBuf[index]?.getD 0).toNat :=
    fun index => printX_small 2 _ (massBuf[index]?.getD 0).isLt
  have vendor := printX_small 4 record.venid.toNat record.venid.isLt
  have device := printX_small 4 record.devid.toNat record.devid.isLt
  have refresh : characters "Refresh    : ON\n\n" =
      characters "Refresh    : ON" ++ [0x0a, 0x0a] := by decide
  have width : characters "Data Width : 8 bits\n\n" =
      characters "Data Width : 8 bits" ++ [0x0a, 0x0a] := by decide
  have memory : characters "Mem: 00000000 00000000\n" =
      characters "Mem: 00000000 00000000" ++ [0x0a] := by decide
  have memories : characters "Mem: 00000000 00000000\n\n" =
      characters "Mem: 00000000 00000000" ++ [0x0a, 0x0a] := by decide
  have rom : characters "ROM: 00000000\n" = characters "ROM: 00000000" ++ [0x0a] := by decide
  have once : characters "\n" = [0x0a] := by decide
  have twice : characters "\n\n" = [0x0a, 0x0a] := by decide
  rw [← lines_signs .cyanBlue (rtitleLines record massBuf) ?_]
  · simp only [rtitleTexts, rtitleLines, byte, vendor, device, refresh, width, memory, memories, rom,
      once, twice, List.map_cons, List.map_nil, List.flatten_cons, List.flatten_nil, ← signs_append,
      List.replicate_succ, List.replicate_zero, List.flatMap_cons, List.flatMap_nil,
      List.append_assoc, List.cons_append, List.nil_append, List.append_nil]
  · exact fun text member => (rtitleLines_short record massBuf text member).2

/-- Whatever was printed before, these lines stand beside the values. -/
theorem rtitle_read (page : PageText rtitleFrame) (windows : PageWindows terminal rtitleFrame)
    (below : List (Panel terminal.Window)) (record : PciData) (massBuf : Vector (BitVec 8) 256)
    (left : page.sideLeft = 56) (side : page.side = rtitleTexts record massBuf) (row : Nat)
    (within : row < 17) :
    let text := glyphs .cyanBlue ((rtitleLines record massBuf).getD row [])
    terminal.readAt (page.screen windows below) (4 + row) 56 text.length = text := by
  intro text
  have count : ((rtitleLines record massBuf).map (glyphs .cyanBlue)).length = 17 := rfl
  have plain : ∀ text ∈ (rtitleLines record massBuf).map (glyphs .cyanBlue),
      ∀ glyph ∈ text, Ascii glyph.1 := by
    intro text member
    obtain ⟨line, listed, rfl⟩ := List.mem_map.mp member
    exact glyphs_plain _ (rtitleLines_short record massBuf line listed).2
  have narrow : ∀ text ∈ (rtitleLines record massBuf).map (glyphs .cyanBlue),
      text.length < rtitleFrame.width := by
    intro text member
    obtain ⟨line, listed, rfl⟩ := List.mem_map.mp member
    rw [glyphs_length]
    exact (rtitleLines_short record massBuf line listed).1
  have here : ((rtitleLines record massBuf).map (glyphs .cyanBlue)).getD row [] = text := by
    have blank : ([] : List Glyph) = glyphs .cyanBlue [] := rfl
    rw [blank, List.getD_map]
  have short : text.length < 24 := by
    refine narrow text ?_
    rw [← here, List.getD_eq_getElem _ _ (by rw [count]; exact within)]
    exact List.getElem_mem _
  rw [screen_windows, left, side]
  refine readAt_panel terminal [_] _ _ _ _ _ rfl (by omega) (by omega) ?_ ?_ ?_
  · intro other member i _
    rw [List.mem_singleton] at member
    subst member
    rintro ⟨_, _, right⟩
    simp only [valueFrame] at right
    omega
  · intro i inside
    refine ⟨⟨Nat.le_add_right 4 row, Nat.add_lt_add_left within 4⟩, Nat.le_add_right 56 i, ?_⟩
    exact Nat.add_lt_add_left (inside.trans short) 56
  · intro i inside
    obtain ⟨start, first⟩ := homeOf_cursor windows.side (by decide) (by decide)
    have last : ∀ piece ∈ (rtitleTexts record massBuf).getLast?, piece ≠ [] := by
      intro piece member
      simp only [rtitleTexts, List.map_cons, List.map_nil, List.getLast?_cons_cons,
        List.getLast?_singleton] at member
      rw [← Option.mem_some.mp member]
      decide
    have written := printAll_lines terminal first _ plain narrow (by rw [start, count]; decide)
      (rtitleTexts record massBuf) (rtitleTexts_lines record massBuf) last row i within
      (inside.trans short)
    rw [start, count, if_pos ⟨Nat.zero_le _, by omega⟩, Nat.sub_zero, here] at written
    simp only [Nat.add_sub_cancel_left]
    rw [written]
    exact List.getD_eq_getElem _ _ inside

end Sides

section Lines

/-- The characters on the screen, without their colors. -/
def textAt (terminal : Ncurses) (screen : List (Panel terminal.Window))
    (line column count : Nat) : List (BitVec 32) :=
  (terminal.readAt screen line column count).map Prod.fst

/-- The characters of a text in one colour are the text. -/
theorem glyphs_text (shade : Attribute) (text : List (BitVec 32)) :
    (glyphs shade text).map Prod.fst = text := by
  rw [glyphs, List.map_map]
  exact List.map_id _

/-- Two more digits: a number of whole pages ends in two zeros. -/
theorem hexText_page (digits value : Nat) :
    hexText (digits + 2) (value * 256) = hexText digits value ++ characters "00" := by
  have low : value * 256 % 16 = 0 := by omega
  have next : value * 256 / 16 % 16 = 0 := by omega
  have rest : value * 256 / 16 / 16 = value := by omega
  rw [hexText, hexText, low, next, rest, List.append_assoc]
  rfl

variable (below : List (Panel terminal.Window))

/-- The line about a page of a memory: the words, the digits of the address, and an h. -/
theorem address_read {sideFrame : Frame} (windows : PageWindows terminal sideFrame)
    (page : PageText sideFrame) (low : sideFrame.height ≤ 18) (words : String)
    (plain : (characters words).all (fun character => decide (Ascii character)) = true)
    (digits : Nat) (room : (characters words).length + digits + 3 ≤ 47) (typing : Bool)
    (wbuf address : Nat) (small : typing = true → wbuf < 16 ^ digits) (fits : address < 16 ^ (digits + 2))
    (info : page.info = signs (.value .whiteBlue) (characters words) ::
      (if typing then
        [signs (.value .yellowRed) (printX digits wbuf),
          signs (.value .whiteBlue) (characters "00")]
      else [signs (.value .whiteBlue) (printX (digits + 2) address)]) ++
      [signs (.value .whiteBlue) (characters "h")]) :
    textAt terminal (page.screen windows below) 22 0
        ((characters words).length + (digits + 2) + 1) =
      characters words ++ hexText (digits + 2) (if typing then wbuf * 256 else address) ++
        characters "h" := by
  have words_signs := characters_signs (.value .whiteBlue) words plain
  have ended := characters_signs (.value .whiteBlue) "h" (by decide)
  have zeros := characters_signs (.value .whiteBlue) "00" (by decide)
  have one : (characters "h").length = 1 := by decide
  obtain ⟨texts, parts, shown⟩ : ∃ texts : List (List Glyph),
      page.info = (texts ++ [glyphs (.value .whiteBlue) (characters "h")]).map
        (List.map .character) ∧
      texts.flatten.map Prod.fst = characters words ++
        hexText (digits + 2) (if typing then wbuf * 256 else address) := by
    cases typing with
    | true =>
      refine ⟨[glyphs (.value .whiteBlue) (characters words),
        glyphs (.value .yellowRed) (hexText digits wbuf),
        glyphs (.value .whiteBlue) (characters "00")], ?_, ?_⟩
      · rw [info, words_signs, ended, printX_small _ _ (small rfl)]
        simp only [if_true, signs_hexText, zeros]
        rfl
      · simp only [if_true, hexText_page, List.flatten_cons, List.flatten_nil, List.map_append,
          glyphs_text, List.append_nil]
    | false =>
      refine ⟨[glyphs (.value .whiteBlue) (characters words),
        glyphs (.value .whiteBlue) (hexText (digits + 2) address)], ?_, ?_⟩
      · rw [info, words_signs, ended, printX_small _ _ fits]
        simp only [Bool.false_eq_true, if_false, signs_hexText]
        rfl
      · simp only [Bool.false_eq_true, if_false, List.flatten_cons, List.flatten_nil,
          List.map_append, glyphs_text, List.append_nil]
  have length : texts.flatten.length = (characters words).length + (digits + 2) := by
    rw [← List.length_map Prod.fst, shown, List.length_append, hexText_length]
  have whole : (texts.flatten ++ glyphs (.value .whiteBlue) (characters "h")).length =
      (characters words).length + (digits + 2) + 1 := by
    rw [List.length_append, length, glyphs_length, one]
  have printed : ∀ glyph ∈ texts.flatten ++ glyphs (.value .whiteBlue) (characters "h"),
      Ascii glyph.1 := by
    intro glyph member
    rcases List.mem_append.mp member with front | last
    · have character : glyph.1 ∈ texts.flatten.map Prod.fst := List.mem_map_of_mem front
      rw [shown] at character
      rcases List.mem_append.mp character with word | digit
      · exact characters_plain plain _ word
      · exact hexText_plain _ _ _ digit
    · exact glyphs_plain _ (characters_plain (by decide)) glyph last
  have read := info_read page windows below low texts _ printed parts (by omega) (by omega)
  rw [textAt, ← whole, read, List.map_append, shown, glyphs_text]

/-- The line of PCI-DEV has the numbers of the function, and fills its window. -/
theorem function_read (windows : PageWindows terminal rtitleFrame) (window : DevWindow δ)
    (record : PciData) :
    textAt terminal ((pciPageText window record).screen windows below) 22 0 47 =
      characters "Type: PCI    Bus " ++ hexText 2 record.bus.toNat ++ characters "    Device " ++
        hexText 2 record.dev.toNat ++ characters "    Function " ++
        hexText 2 record.func.toNat := by
  have number : ∀ value : BitVec 8, printX 2 value.toNat = hexText 2 value.toNat :=
    fun value => printX_small 2 _ value.isLt
  have first := characters_signs (.value .whiteBlue) "Type: PCI    Bus " (by decide)
  have second := characters_signs (.value .whiteBlue) "    Device " (by decide)
  have third := characters_signs (.value .whiteBlue) "    Function " (by decide)
  have long : (characters "Type: PCI    Bus " ++ hexText 2 record.bus.toNat ++
      characters "    Device " ++ hexText 2 record.dev.toNat ++ characters "    Function " ++
      hexText 2 record.func.toNat).length = 47 := by
    simp only [List.length_append, hexText_length]
    decide
  have plain : ∀ character ∈ characters "Type: PCI    Bus " ++ hexText 2 record.bus.toNat ++
      characters "    Device " ++ hexText 2 record.dev.toNat ++ characters "    Function " ++
      hexText 2 record.func.toNat, Ascii character := by
    simp only [List.mem_append]
    rintro character (((((word | digit) | word) | digit) | word) | digit)
    · exact characters_plain (by decide) character word
    · exact hexText_plain _ _ character digit
    · exact characters_plain (by decide) character word
    · exact hexText_plain _ _ character digit
    · exact characters_plain (by decide) character word
    · exact hexText_plain _ _ character digit
  have read := info_read (pciPageText window record) windows below (by decide : 17 ≤ 18) []
    (glyphs (.value .whiteBlue) (characters "Type: PCI    Bus " ++ hexText 2 record.bus.toNat ++
      characters "    Device " ++ hexText 2 record.dev.toNat ++ characters "    Function " ++
      hexText 2 record.func.toNat))
    (by
      rw [List.flatten_nil, List.nil_append]
      exact glyphs_plain _ plain)
    (by
      simp only [pciPageText, number, signs_append, glyphs_append, first, second, third,
        signs_hexText, ← List.map_append]
      rfl)
    (by decide) (by rw [List.flatten_nil, List.nil_append, glyphs_length, long])
  rw [List.flatten_nil, List.nil_append, glyphs_length, long] at read
  rw [textAt, read, glyphs_text]

/-- The page whose address is shown: the one that Enter opens, while an address is typed. -/
def SpaceWindow.addressed {α μ : Type} (space : AddressSpace α μ) (window : SpaceWindow α μ δ) : α :=
  if window.editor.input = .inputAddr then space.typedPage window.editor.wbuf
  else window.editor.page

/-- The line of MEM-SPACE has the eight digits of the address, also of one that is typed with six,
since two zeros follow these. -/
theorem memAddress_read (windows : PageWindows terminal asciiFrame)
    (window : SpaceWindow (BitVec 32) DisplayMode δ)
    (typed : window.editor.input = .inputAddr → window.editor.wbuf.toNat < 16 ^ 6) :
    textAt terminal ((memPageText window).screen windows below) 22 0 34 =
      characters "Type: Memory    Address: " ++ hexText 8 (window.addressed memSpace).toNat ++
        characters "h" := by
  have count : (characters "Type: Memory    Address: ").length + (6 + 2) + 1 = 34 := by decide
  have page : (window.addressed memSpace).toNat =
      if decide (window.editor.input = .inputAddr) then window.editor.wbuf.toNat * 256
      else window.editor.page.toNat := by
    rw [SpaceWindow.addressed]
    by_cases asked : window.editor.input = .inputAddr
    · have shifted := (mem_page window.editor.wbuf (typed asked)).1
      simp only [asked, if_true, decide_true]
      omega
    · simp only [asked, if_false, decide_false, Bool.false_eq_true]
  have read := address_read below windows (memPageText window) (by decide : 17 ≤ 18)
    "Type: Memory    Address: " (by decide) 6 (by decide)
    (decide (window.editor.input = .inputAddr)) window.editor.wbuf.toNat window.editor.page.toNat
    (fun asked => typed (of_decide_eq_true asked)) window.editor.page.isLt
    (by simp only [memPageText, decide_eq_true_eq])
  rw [count, ← page] at read
  exact read

/-- The line of IO-SPACE has the four digits of the port, of which two are typed. -/
theorem ioAddress_read (windows : PageWindows terminal asciiFrame)
    (window : SpaceWindow Int IoDisplayMode δ)
    (typed : window.editor.input = .inputAddr → window.editor.wbuf.toNat < 16 ^ 2)
    (inside : PageIn 0x10000 window.editor.page) :
    textAt terminal ((ioPageText window).screen windows below) 22 0 34 =
      characters "Type: I/O Space Address:     " ++ hexText 4 (window.addressed ioSpace).toNat ++
        characters "h" := by
  obtain ⟨_, first, last⟩ := inside
  have count : (characters "Type: I/O Space Address:     ").length + (2 + 2) + 1 = 34 := by decide
  have here : (BitVec.ofInt 32 window.editor.page).toNat = window.editor.page.toNat := by
    rw [BitVec.toNat_ofInt]
    omega
  have page : (window.addressed ioSpace).toNat =
      if decide (window.editor.input = .inputAddr) then window.editor.wbuf.toNat * 256
      else (BitVec.ofInt 32 window.editor.page).toNat := by
    rw [SpaceWindow.addressed, here]
    by_cases asked : window.editor.input = .inputAddr
    · have shifted := (io_page window.editor.wbuf (typed asked)).1
      simp only [asked, if_true, decide_true]
      omega
    · simp only [asked, if_false, decide_false, Bool.false_eq_true]
  have read := address_read below windows (ioPageText window) (by decide : 17 ≤ 18)
    "Type: I/O Space Address:     " (by decide) 2 (by decide)
    (decide (window.editor.input = .inputAddr)) window.editor.wbuf.toNat
    (BitVec.ofInt 32 window.editor.page).toNat (fun asked => typed (of_decide_eq_true asked))
    (by rw [here]; omega)
    (by simp only [ioPageText, decide_eq_true_eq])
  rw [count, ← page] at read
  exact read

end Lines

section Screens

/-- The characters of a page, below the digits of their columns. -/
structure CharactersRead (terminal : Ncurses) (screen : List (Panel terminal.Window))
    (massBuf : Vector (BitVec 8) 256) : Prop where
  columns : terminal.readAt screen 4 58 16 =
    glyphs .cyanBlue ((List.range 16).flatMap fun column => hexText 1 column)
  lines : ∀ row < 16, terminal.readAt screen (5 + row) 58 16 = glyphs .cyanBlue
    ((List.range 16).map fun column => asciiOf (massBuf[16 * row + column]?.getD 0))

/-- The window beside the values has a line for the digits of the columns and one for each line of
the page, which fill it to its last place. -/
theorem page_characters (page : PageText asciiFrame) (windows : PageWindows terminal asciiFrame)
    (below : List (Panel terminal.Window)) (massBuf : Vector (BitVec 8) 256)
    (left : page.sideLeft = 58) (side : page.side = asciiTexts massBuf) :
    CharactersRead terminal (page.screen windows below) massBuf := by
  have read := ascii_read page windows below massBuf left side
  have header : characters "0123456789ABCDEF" =
      (List.range 16).flatMap fun column => hexText 1 column := by decide
  have sixteen : (characters "0123456789ABCDEF").length = 16 := by decide
  refine ⟨?_, fun row within => ?_⟩
  · have first := read 0 (by decide)
    rw [← header, first, Nat.mul_zero, List.drop_zero, glyphs_append,
      List.take_left' ((glyphs_length _ _).trans sixteen)]
  · have under : 5 + row = 4 + (1 + row) := by omega
    have skip : 16 * (1 + row) = (characters "0123456789ABCDEF").length + 16 * row := by
      rw [sixteen]
      omega
    have bytes : ((massBuf.toList.map asciiOf).drop (16 * row)).take 16 =
        (List.range 16).map fun column => asciiOf (massBuf[16 * row + column]?.getD 0) := by
      apply List.ext_getElem
      · rw [List.length_take, List.length_drop, List.length_map, Vector.length_toList,
          List.length_map, List.length_range]
        omega
      · intro column _ inside
        rw [List.length_map, List.length_range] at inside
        have held : 16 * row + column < 256 := by omega
        rw [List.getElem_take, List.getElem_drop, List.getElem_map, List.getElem_map,
          List.getElem_range, Vector.getElem?_eq_getElem held, Option.getD_some,
          Vector.getElem_toList]
    rw [under, read (1 + row) (by omega), skip, glyphs, ← List.map_drop, ← List.map_take,
      List.drop_length_add_append, bytes]
    rfl

end Screens

end Lfdk.HexEditors
