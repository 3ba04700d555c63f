import Mathlib.Data.List.GetD
import Mathlib.Tactic

/-!
# Windows of a terminal

A program prints into windows through a library of its own, and reads nothing back. What is
known of the windows is what the manual of the library says, and these are the laws of a
terminal: a character that can be printed stands where the window was, and moves this place to
the right, or from the last column to the next line; the end of a line blanks what is left of
the line; a text is printed character by character, up to the first one that fails; and the
screen shows the topmost window. What a window does with other characters is left open, and so
is what it does behind its last place.

Characters are numbered line by line. So a text without line ends covers the places from its
first one on, and lines that are printed with their ends stand below each other, whatever the
window held before. A grid of characters obeys the laws, so there are terminals.
-/

namespace Lfdk.TextWindow

universe u

/-- What is printed. -/
inductive Sign (α : Type u) where
  | character (value : α)
  | newline

/-- The lines and columns of a window. -/
structure Frame where
  height : Nat
  width : Nat

/-- A window at a place of the screen. -/
structure Panel (Window : Frame → Type u) where
  frame : Frame
  top : Nat
  left : Nat
  window : Window frame

/-- It covers a place of the screen. -/
def Panel.Covers {Window : Frame → Type u} (panel : Panel Window) (line column : Nat) : Prop :=
  (panel.top ≤ line ∧ line < panel.top + panel.frame.height) ∧
    panel.left ≤ column ∧ column < panel.left + panel.frame.width

instance {Window : Frame → Type u} (panel : Panel Window) (line column : Nat) :
    Decidable (panel.Covers line column) :=
  inferInstanceAs (Decidable (_ ∧ _))

/-- The windows of a terminal that has so many lines and columns at least: the functions of the
library under its own names, and what its manual says of them. -/
structure Terminal (α : Type u) (blank : α) (Printable : α → Prop) (lines columns : Nat) where
  /-- The windows of a size. -/
  Window : Frame → Type u
  /-- A new window. -/
  newwin : ∀ frame : Frame, Window frame
  /-- Go to a line and a column. -/
  wmove : ∀ {frame : Frame}, Nat → Nat → Window frame → Window frame
  /-- Print a character or the end of a line, and tell whether this succeeds. -/
  waddch : ∀ {frame : Frame}, Sign α → Window frame → Bool × Window frame
  /-- Print a text. -/
  wprintw : ∀ {frame : Frame}, List (Sign α) → Window frame → Bool × Window frame
  /-- The line and the column of the next character. -/
  getcury : ∀ {frame : Frame}, Window frame → Nat
  getcurx : ∀ {frame : Frame}, Window frame → Nat
  /-- The character at a line and a column. -/
  winch : ∀ {frame : Frame}, Window frame → Nat → Nat → α
  /-- What stands at a line and a column of the screen. The first window is the topmost one. -/
  doupdate : List (Panel Window) → Nat → Nat → α
  /-- After a move the next character goes to this place. -/
  wmove_cursor : ∀ {frame : Frame} (window : Window frame) (row column : Nat),
    row < frame.height → column < frame.width →
      getcury (wmove row column window) = row ∧ getcurx (wmove row column window) = column
  /-- A character stands at its place, also at the last one. The others stay as they are. -/
  waddch_held : ∀ {frame : Frame} (value : α) (window : Window frame), Printable value →
    getcury window < frame.height → getcurx window < frame.width →
      ∀ row < frame.height, ∀ column < frame.width,
        winch (waddch (.character value) window).2 row column =
          if row = getcury window ∧ column = getcurx window then value
          else winch window row column
  /-- The next character goes to the right of it, -/
  waddch_next : ∀ {frame : Frame} (value : α) (window : Window frame), Printable value →
    getcury window < frame.height → getcurx window + 1 < frame.width →
      (waddch (.character value) window).1 = true ∧
        getcury (waddch (.character value) window).2 = getcury window ∧
        getcurx (waddch (.character value) window).2 = getcurx window + 1
  /-- or to the next line, from the last column. -/
  waddch_wrap : ∀ {frame : Frame} (value : α) (window : Window frame), Printable value →
    getcury window + 1 < frame.height → getcurx window + 1 = frame.width →
      (waddch (.character value) window).1 = true ∧
        getcury (waddch (.character value) window).2 = getcury window + 1 ∧
        getcurx (waddch (.character value) window).2 = 0
  /-- The end of a line blanks the rest of it, also in the last one. -/
  newline_held : ∀ {frame : Frame} (window : Window frame),
    getcury window < frame.height → getcurx window < frame.width →
      ∀ row < frame.height, ∀ column < frame.width,
        winch (waddch .newline window).2 row column =
          if row = getcury window ∧ getcurx window ≤ column then blank
          else winch window row column
  /-- The next character goes to the start of the next line. -/
  newline_next : ∀ {frame : Frame} (window : Window frame),
    getcury window + 1 < frame.height → getcurx window < frame.width →
      (waddch .newline window).1 = true ∧
        getcury (waddch .newline window).2 = getcury window + 1 ∧
        getcurx (waddch .newline window).2 = 0
  /-- A text is printed character by character, -/
  wprintw_nil : ∀ {frame : Frame} (window : Window frame), wprintw [] window = (true, window)
  /-- up to the first one that fails. -/
  wprintw_cons : ∀ {frame : Frame} (sign : Sign α) (text : List (Sign α)) (window : Window frame),
    wprintw (sign :: text) window =
      if (waddch sign window).1 = true then wprintw text (waddch sign window).2
      else (false, (waddch sign window).2)
  /-- The topmost window that covers a place of the screen is shown there. -/
  doupdate_top : ∀ (above below : List (Panel Window)) (panel : Panel Window) (line column : Nat),
    line < lines → column < columns → (∀ other ∈ above, ¬ other.Covers line column) →
      panel.Covers line column → doupdate (above ++ panel :: below) line column =
        winch panel.window (line - panel.top) (column - panel.left)

section Printing

variable {α : Type u} {blank : α} {Printable : α → Prop} {lines columns : Nat}
  (terminal : Terminal α blank Printable lines columns) {frame : Frame}

/-- Print texts one after the other, each from where the last one ended. -/
def Terminal.printAll (texts : List (List (Sign α))) (window : terminal.Window frame) :
    terminal.Window frame :=
  texts.foldl (fun window text => (terminal.wprintw text window).2) window

/-- The number of the place of the next character. -/
def Terminal.place (window : terminal.Window frame) : Nat :=
  terminal.getcury window * frame.width + terminal.getcurx window

/-- The place is in the window. -/
structure Terminal.Inside (window : terminal.Window frame) : Prop where
  row : terminal.getcury window < frame.height
  column : terminal.getcurx window < frame.width

/-- A text is printed part by part, and the second part only if the first one succeeds. -/
theorem wprintw_append (first second : List (Sign α)) (window : terminal.Window frame) :
    terminal.wprintw (first ++ second) window =
      if (terminal.wprintw first window).1 = true then
        terminal.wprintw second (terminal.wprintw first window).2
      else terminal.wprintw first window := by
  induction first generalizing window with
  | nil => rw [List.nil_append, terminal.wprintw_nil, if_pos rfl]
  | cons sign first inductionHypothesis =>
    rw [List.cons_append, terminal.wprintw_cons, terminal.wprintw_cons]
    by_cases done : (terminal.waddch sign window).1 = true
    · rw [if_pos done, if_pos done]
      exact inductionHypothesis _
    · rw [if_neg done, if_neg done, if_neg Bool.false_ne_true]

/-- What succeeds as a whole succeeded so far: if a text and what follows it are printed, so is the
text. -/
theorem wprintw_front {first second : List (Sign α)} {window : terminal.Window frame}
    (done : (terminal.wprintw (first ++ second) window).1 = true) :
    (terminal.wprintw first window).1 = true := by
  rw [wprintw_append] at done
  by_cases first : (terminal.wprintw first window).1 = true
  · exact first
  · rw [if_neg first] at done
    exact done

/-- Texts that do not reach the end are one text. -/
theorem printAll_flatten (texts : List (List (Sign α))) (window : terminal.Window frame)
    (done : (terminal.wprintw texts.flatten window).1 = true) :
    terminal.printAll texts window = (terminal.wprintw texts.flatten window).2 := by
  induction texts generalizing window with
  | nil =>
    rw [List.flatten_nil, terminal.wprintw_nil]
    rfl
  | cons text texts inductionHypothesis =>
    rw [List.flatten_cons] at done ⊢
    have first := wprintw_front terminal done
    rw [wprintw_append, if_pos first] at done ⊢
    exact inductionHypothesis _ done

/-- So are texts of which the last one reaches it. -/
theorem printAll_last (texts : List (List (Sign α))) (last : List (Sign α))
    (window : terminal.Window frame)
    (done : (terminal.wprintw texts.flatten window).1 = true) :
    terminal.printAll (texts ++ [last]) window =
      (terminal.wprintw (texts.flatten ++ last) window).2 := by
  rw [wprintw_append, if_pos done, ← printAll_flatten terminal texts window done,
    Terminal.printAll, List.foldl_append]
  rfl

section Characters

/-- Lines and columns are told by the number of a place. -/
theorem place_inj {width row column other last : Nat} (inside : column < width)
    (within : last < width) (same : row * width + column = other * width + last) :
    row = other ∧ column = last := by
  have columns := congrArg (· % width) same
  simp only [Nat.mul_add_mod_self_right, Nat.mod_eq_of_lt inside, Nat.mod_eq_of_lt within] at columns
  have rows : row * width = other * width := by omega
  exact ⟨Nat.eq_of_mul_eq_mul_right (by omega) rows, columns⟩

/-- A character that is not the last one of the window moves the place on by one. -/
theorem waddch_place (value : α) (printable : Printable value) (window : terminal.Window frame)
    (inside : terminal.Inside window)
    (before : terminal.place window + 1 < frame.height * frame.width) :
    (terminal.waddch (.character value) window).1 = true ∧
      terminal.Inside (terminal.waddch (.character value) window).2 ∧
      terminal.place (terminal.waddch (.character value) window).2 =
        terminal.place window + 1 := by
  by_cases room : terminal.getcurx window + 1 < frame.width
  · obtain ⟨done, row, column⟩ := terminal.waddch_next value window printable inside.row room
    exact ⟨done, ⟨row ▸ inside.row, column ▸ room⟩, by
      rw [Terminal.place, row, column, Terminal.place, Nat.add_assoc]⟩
  · have width : terminal.getcurx window + 1 = frame.width := by
      have narrow := inside.column
      omega
    have next : (terminal.getcury window + 1) * frame.width = terminal.place window + 1 := by
      rw [Terminal.place, Nat.add_mul, Nat.one_mul]
      omega
    have below : terminal.getcury window + 1 < frame.height := by
      rw [← next] at before
      exact Nat.lt_of_mul_lt_mul_right before
    obtain ⟨done, row, column⟩ := terminal.waddch_wrap value window printable below width
    exact ⟨done, ⟨row ▸ below, by rw [column]; omega⟩, by
      rw [Terminal.place, row, column, Nat.add_zero, next]⟩

/-- The characters of a text stand at the places from the first one on. The induction takes
the first character off, which may be the last of the window only if the text ends with it. -/
theorem wprintw_chars (text : List α) (printable : ∀ value ∈ text, Printable value)
    (window : terminal.Window frame) (inside : terminal.Inside window)
    (fits : terminal.place window + text.length ≤ frame.height * frame.width) (row column : Nat)
    (low : row < frame.height) (within : column < frame.width) :
    terminal.winch (terminal.wprintw (text.map .character) window).2 row column =
      if terminal.place window ≤ row * frame.width + column then
        text.getD (row * frame.width + column - terminal.place window)
          (terminal.winch window row column)
      else terminal.winch window row column := by
  induction text generalizing window with
  | nil => rw [List.map_nil, terminal.wprintw_nil, List.getD_nil, ite_self]
  | cons value text inductionHypothesis =>
    have here : row = terminal.getcury window ∧ column = terminal.getcurx window ↔
        row * frame.width + column = terminal.place window :=
      ⟨fun same => by rw [same.1, same.2, Terminal.place],
        fun same => place_inj within inside.column same⟩
    have own := printable value List.mem_cons_self
    rw [List.length_cons] at fits
    have first := terminal.waddch_held value window own inside.row inside.column row low column within
    rw [List.map_cons, terminal.wprintw_cons]
    by_cases last : terminal.place window + 1 < frame.height * frame.width
    · obtain ⟨done, still, next⟩ := waddch_place terminal value own window inside last
      rw [if_pos done, inductionHypothesis
        (fun other member => printable other (List.mem_cons_of_mem _ member)) _ still (by omega),
        next, first]
      simp only [here]
      rcases Nat.lt_trichotomy (row * frame.width + column) (terminal.place window) with
        less | same | more
      · rw [if_neg (by omega), if_neg (by omega), if_neg (by omega)]
      · rw [if_neg (by omega), if_pos same, if_pos (by omega), same, Nat.sub_self,
          List.getD_cons_zero]
      · have number : row * frame.width + column - terminal.place window =
            row * frame.width + column - (terminal.place window + 1) + 1 := by omega
        rw [if_pos (by omega), if_neg (by omega), if_pos (by omega), number, List.getD_cons_succ]
    · have ends : text = [] := List.eq_nil_of_length_eq_zero (by omega)
      have only : (if (terminal.waddch (.character value) window).1 = true then
          terminal.wprintw (text.map .character) (terminal.waddch (.character value) window).2
          else (false, (terminal.waddch (.character value) window).2)).2 =
            (terminal.waddch (.character value) window).2 := by
        rw [ends, List.map_nil, terminal.wprintw_nil]
        split
        · rfl
        · rfl
      rw [only, first, ends]
      simp only [here]
      by_cases same : row * frame.width + column = terminal.place window
      · rw [if_pos same, if_pos (by omega), same, Nat.sub_self, List.getD_cons_zero]
      · rw [if_neg same]
        split
        · next more =>
          rw [List.getD_eq_default]
          simp only [List.length_cons, List.length_nil]
          omega
        · rfl

/-- A text that does not reach the end of the window succeeds. -/
theorem wprintw_place (text : List α) (printable : ∀ value ∈ text, Printable value)
    (window : terminal.Window frame) (inside : terminal.Inside window)
    (fits : terminal.place window + text.length < frame.height * frame.width) :
    (terminal.wprintw (text.map .character) window).1 = true ∧
      terminal.Inside (terminal.wprintw (text.map .character) window).2 ∧
      terminal.place (terminal.wprintw (text.map .character) window).2 =
        terminal.place window + text.length := by
  induction text generalizing window with
  | nil =>
    rw [List.map_nil, terminal.wprintw_nil]
    exact ⟨rfl, inside, rfl⟩
  | cons value text inductionHypothesis =>
    rw [List.length_cons] at fits
    obtain ⟨done, still, next⟩ :=
      waddch_place terminal value (printable value List.mem_cons_self) window inside (by omega)
    obtain ⟨all, ends, place⟩ := inductionHypothesis
      (fun other member => printable other (List.mem_cons_of_mem _ member)) _ still (by omega)
    rw [List.map_cons, terminal.wprintw_cons, if_pos done]
    refine ⟨all, ends, ?_⟩
    rw [place, next, List.length_cons]
    omega

/-- Texts that end before the end of the window, and one more that may reach it. -/
theorem printAll_chars (texts : List (List α)) (last : List α)
    (printable : ∀ value ∈ texts.flatten ++ last, Printable value)
    (window : terminal.Window frame) (inside : terminal.Inside window)
    (before : terminal.place window + texts.flatten.length < frame.height * frame.width)
    (fits : terminal.place window + (texts.flatten ++ last).length ≤ frame.height * frame.width)
    (row column : Nat) (low : row < frame.height) (within : column < frame.width) :
    terminal.winch
        (terminal.printAll ((texts ++ [last]).map (List.map .character)) window) row column =
      if terminal.place window ≤ row * frame.width + column then
        (texts.flatten ++ last).getD (row * frame.width + column - terminal.place window)
          (terminal.winch window row column)
      else terminal.winch window row column := by
  have flat : (texts.map (List.map Sign.character)).flatten = texts.flatten.map .character :=
    List.map_flatten.symm
  have done := (wprintw_place terminal texts.flatten
    (fun value member => printable value (List.mem_append_left _ member)) window inside before).1
  rw [List.map_append, List.map_singleton,
    printAll_last terminal _ _ window (by rw [flat]; exact done), flat, ← List.map_append]
  exact wprintw_chars terminal _ printable window inside fits row column low within

end Characters

section Lines

/-- A line with its end. -/
def line (text : List α) : List (Sign α) := text.map .character ++ [.newline]

variable {text : List α} (printable : ∀ value ∈ text, Printable value)
  (narrow : text.length < frame.width) {window : terminal.Window frame}
  (start : terminal.getcurx window = 0) (low : terminal.getcury window < frame.height)

include printable narrow start low

/-- A text that is shorter than a line of the window, from the start of the line on. -/
theorem wprintw_short :
    (terminal.wprintw (text.map .character) window).1 = true ∧
      terminal.getcury (terminal.wprintw (text.map .character) window).2 =
        terminal.getcury window ∧
      terminal.getcurx (terminal.wprintw (text.map .character) window).2 = text.length ∧
      ∀ row < frame.height, ∀ column < frame.width,
        terminal.winch (terminal.wprintw (text.map .character) window).2 row column =
          if row = terminal.getcury window ∧ column < text.length then text.getD column blank
          else terminal.winch window row column := by
  have inside : terminal.Inside window := ⟨low, by omega⟩
  have place : terminal.place window = terminal.getcury window * frame.width := by
    rw [Terminal.place, start, Nat.add_zero]
  have next : (terminal.getcury window + 1) * frame.width ≤ frame.height * frame.width :=
    Nat.mul_le_mul_right _ low
  rw [Nat.add_mul, Nat.one_mul] at next
  obtain ⟨done, ends, after⟩ := wprintw_place terminal text printable window inside (by omega)
  have written := wprintw_chars terminal text printable window inside (by omega)
  rw [place, Terminal.place] at after
  obtain ⟨row, column⟩ := place_inj ends.column narrow after
  refine ⟨done, row, column, ?_⟩
  intro line inside character within
  rw [written line character inside within, place]
  by_cases here : line = terminal.getcury window
  · rw [if_pos (by rw [here]; omega), here, Nat.add_sub_cancel_left]
    by_cases left : character < text.length
    · rw [if_pos ⟨rfl, left⟩, List.getD_eq_getElem _ _ left, List.getD_eq_getElem _ _ left]
    · rw [if_neg (fun both => left both.2), List.getD_eq_default _ _ (by omega)]
  · rw [if_neg (fun both : line = _ ∧ _ => here both.1)]
    split
    · next more =>
      rw [List.getD_eq_default]
      have beyond : terminal.getcury window < line := by
        rcases Nat.lt_or_ge line (terminal.getcury window) with less | _
        · have rows : (line + 1) * frame.width ≤ terminal.getcury window * frame.width :=
            Nat.mul_le_mul_right _ less
          rw [Nat.add_mul, Nat.one_mul] at rows
          omega
        · omega
      have rows : (terminal.getcury window + 1) * frame.width ≤ line * frame.width :=
        Nat.mul_le_mul_right _ beyond
      rw [Nat.add_mul, Nat.one_mul] at rows
      omega
    · rfl

/-- A line that is shorter than those of the window, from its start on. -/
theorem wprintw_line :
    (terminal.getcury window + 1 < frame.height →
      (terminal.wprintw (line text) window).1 = true ∧
      terminal.getcury (terminal.wprintw (line text) window).2 = terminal.getcury window + 1 ∧
      terminal.getcurx (terminal.wprintw (line text) window).2 = 0) ∧
    ∀ row < frame.height, ∀ column < frame.width,
      terminal.winch (terminal.wprintw (line text) window).2 row column =
        if row = terminal.getcury window then text.getD column blank
        else terminal.winch window row column := by
  obtain ⟨done, row, column, written⟩ := wprintw_short terminal printable narrow start low
  rw [line, wprintw_append, if_pos done]
  generalize terminal.wprintw (text.map .character) window = printed at *
  have held := terminal.newline_held printed.2 (by omega) (by omega)
  have next := terminal.newline_next printed.2
  have ended : (terminal.wprintw [.newline] printed.2).2 = (terminal.waddch .newline printed.2).2 ∧
      (terminal.wprintw [.newline] printed.2).1 = (terminal.waddch .newline printed.2).1 := by
    rw [terminal.wprintw_cons, terminal.wprintw_nil]
    split
    · next ended => exact ⟨rfl, ended.symm⟩
    · next failed => exact ⟨rfl, (Bool.eq_false_iff.mpr failed).symm⟩
  rw [ended.1, ended.2]
  refine ⟨fun below => ?_, ?_⟩
  · rw [row, column] at next
    exact next below narrow
  · intro line inside character within
    rw [held line inside character within, row, column, written line inside character within]
    by_cases here : line = terminal.getcury window
    · by_cases left : text.length ≤ character
      · rw [if_pos ⟨here, left⟩, if_pos here, List.getD_eq_default _ _ left]
      · rw [if_neg (fun both => left both.2), if_pos ⟨here, by omega⟩, if_pos here]
    · rw [if_neg (fun both => here both.1), if_neg (fun both => here both.1), if_neg here]

omit printable narrow low

/-- Lines stand below each other, whatever the window held. The last one may be the last line
of the window, where its end fails. -/
theorem wprintw_lines (texts : List (List α))
    (printable : ∀ text ∈ texts, ∀ value ∈ text, Printable value)
    (narrow : ∀ text ∈ texts, text.length < frame.width)
    (fits : terminal.getcury window + texts.length ≤ frame.height) :
    (terminal.getcury window + texts.length < frame.height →
      (terminal.wprintw (texts.flatMap line) window).1 = true ∧
      terminal.getcury (terminal.wprintw (texts.flatMap line) window).2 =
        terminal.getcury window + texts.length ∧
      terminal.getcurx (terminal.wprintw (texts.flatMap line) window).2 = 0) ∧
    ∀ row < frame.height, ∀ column < frame.width,
      terminal.winch (terminal.wprintw (texts.flatMap line) window).2 row column =
        if terminal.getcury window ≤ row ∧ row < terminal.getcury window + texts.length then
          (texts.getD (row - terminal.getcury window) []).getD column blank
        else terminal.winch window row column := by
  induction texts generalizing window with
  | nil =>
    rw [List.flatMap_nil, terminal.wprintw_nil]
    refine ⟨fun _ => ⟨rfl, rfl, start⟩, ?_⟩
    intro row _ column _
    rw [if_neg (by simp only [List.length_nil]; omega)]
  | cons text texts inductionHypothesis =>
    rw [List.length_cons] at fits ⊢
    obtain ⟨goes, written⟩ := wprintw_line terminal (printable text List.mem_cons_self)
      (narrow text List.mem_cons_self) start (by omega)
    rw [List.flatMap_cons, wprintw_append]
    by_cases last : texts = []
    · subst last
      have only : (if (terminal.wprintw (line text) window).1 = true then
          terminal.wprintw (List.flatMap line []) (terminal.wprintw (line text) window).2
          else terminal.wprintw (line text) window) = terminal.wprintw (line text) window := by
        rw [List.flatMap_nil, terminal.wprintw_nil]
        split
        · next done => exact Prod.ext done.symm rfl
        · rfl
      rw [only]
      refine ⟨fun below => goes (by simpa using below), ?_⟩
      intro row inside column within
      rw [written row inside column within]
      by_cases here : row = terminal.getcury window
      · rw [if_pos here, if_pos ⟨by omega, by omega⟩, here, Nat.sub_self, List.getD_cons_zero]
      · rw [if_neg here, if_neg (by simp only [List.length_nil]; omega)]
    · have more : 0 < texts.length := List.length_pos_iff.mpr last
      obtain ⟨done, row, column⟩ := goes (by omega)
      obtain ⟨all, rest⟩ := inductionHypothesis column
        (fun other member => printable other (List.mem_cons_of_mem _ member))
        (fun other member => narrow other (List.mem_cons_of_mem _ member)) (by omega)
      rw [if_pos done]
      refine ⟨fun below => ?_, ?_⟩
      · obtain ⟨all, last, first⟩ := all (by omega)
        exact ⟨all, by omega, first⟩
      · intro line inside character within
        rw [rest line inside character within, row, written line inside character within]
        rcases Nat.lt_trichotomy line (terminal.getcury window) with less | same | more
        · rw [if_neg (by omega), if_neg (by omega), if_neg (by omega)]
        · rw [if_neg (by omega), if_pos same, if_pos (by omega), same, Nat.sub_self,
            List.getD_cons_zero]
        · have number : line - terminal.getcury window =
              line - (terminal.getcury window + 1) + 1 := by omega
          rw [number, List.getD_cons_succ]
          by_cases small : line < terminal.getcury window + 1 + texts.length
          · rw [if_pos ⟨by omega, small⟩, if_pos ⟨by omega, by omega⟩]
          · rw [if_neg (fun both => small both.2), if_neg (by omega), if_neg (by omega)]

/-- Texts that make up lines are one text, also if they reach the last line of the window: only
the end of the last one may fail. -/
theorem printAll_flat (texts : List (List α))
    (printable : ∀ text ∈ texts, ∀ value ∈ text, Printable value)
    (narrow : ∀ text ∈ texts, text.length < frame.width)
    (fits : terminal.getcury window + texts.length ≤ frame.height)
    (pieces : List (List (Sign α))) (parts : pieces.flatten = texts.flatMap line)
    (ends : ∀ piece ∈ pieces.getLast?, piece ≠ []) :
    terminal.printAll pieces window = (terminal.wprintw (texts.flatMap line) window).2 := by
  rcases List.eq_nil_or_concat' pieces with rfl | ⟨front, rear, rfl⟩
  · rw [← parts, List.flatten_nil, terminal.wprintw_nil]
    rfl
  have some : rear ≠ [] := ends rear (by rw [List.getLast?_concat, Option.mem_some])
  rw [List.flatten_append, List.flatten_singleton] at parts
  rcases List.eq_nil_or_concat' texts with rfl | ⟨before, last, rfl⟩
  · exact absurd (List.append_eq_nil_iff.mp parts).2 some
  have split : (before ++ [last]).flatMap line =
      (before.flatMap line ++ last.map .character) ++ [Sign.newline] := by
    rw [List.flatMap_append, List.flatMap_singleton, line, List.append_assoc]
  have count : (before ++ [last]).length = before.length + 1 := List.length_append
  have own : last ∈ before ++ [last] := List.mem_append_right _ (List.mem_singleton_self last)
  obtain ⟨goes, _⟩ := wprintw_lines terminal start before
    (fun text member => printable text (List.mem_append_left _ member))
    (fun text member => narrow text (List.mem_append_left _ member)) (by omega)
  obtain ⟨done, row, column⟩ := goes (by omega)
  have all : (terminal.wprintw (before.flatMap line ++ last.map .character) window).1 = true := by
    rw [wprintw_append, if_pos done]
    exact (wprintw_short terminal (printable last own) (narrow last own) column (by omega)).1
  have rest : front.flatten ++ rear.dropLast = before.flatMap line ++ last.map .character := by
    have same := congrArg List.dropLast parts
    rw [split, List.dropLast_append_of_ne_nil some, List.dropLast_concat] at same
    exact same
  rw [printAll_last terminal front rear window (wprintw_front terminal (rest ▸ all)), parts]

/-- So they stand below each other, also when the lines are printed in pieces. -/
theorem printAll_lines (texts : List (List α))
    (printable : ∀ text ∈ texts, ∀ value ∈ text, Printable value)
    (narrow : ∀ text ∈ texts, text.length < frame.width)
    (fits : terminal.getcury window + texts.length ≤ frame.height)
    (pieces : List (List (Sign α))) (parts : pieces.flatten = texts.flatMap line)
    (ends : ∀ piece ∈ pieces.getLast?, piece ≠ []) (row column : Nat) (low : row < frame.height)
    (within : column < frame.width) :
    terminal.winch (terminal.printAll pieces window) row column =
      if terminal.getcury window ≤ row ∧ row < terminal.getcury window + texts.length then
        (texts.getD (row - terminal.getcury window) []).getD column blank
      else terminal.winch window row column := by
  rw [printAll_flat terminal start texts printable narrow fits pieces parts ends]
  exact (wprintw_lines terminal start texts printable narrow fits).2 row low column within

end Lines

section Screens

/-- So many characters of the screen, from a place on. -/
def Terminal.readAt (panels : List (Panel terminal.Window)) (line column count : Nat) : List α :=
  (List.range count).map fun i => terminal.doupdate panels line (column + i)

/-- A text is read off the screen character by character. -/
theorem readAt_text (panels : List (Panel terminal.Window)) (line column : Nat) (text : List α)
    (shown : ∀ i, ∀ small : i < text.length,
      terminal.doupdate panels line (column + i) = text[i]) :
    terminal.readAt panels line column text.length = text := by
  apply List.ext_getElem
  · rw [Terminal.readAt, List.length_map, List.length_range]
  · intro i _ small
    rw [← shown i small]
    simp only [Terminal.readAt, List.getElem_map, List.getElem_range]

/-- A text in a window is read if no window above it covers it. -/
theorem readAt_panel (above below : List (Panel terminal.Window)) (panel : Panel terminal.Window)
    (line column : Nat) (text : List α) {count : Nat} (length : text.length = count)
    (low : line < lines) (within : column + count ≤ columns)
    (clear : ∀ other ∈ above, ∀ i < count, ¬ other.Covers line (column + i))
    (covers : ∀ i < count, panel.Covers line (column + i))
    (held : ∀ i, ∀ small : i < text.length,
      terminal.winch panel.window (line - panel.top) (column + i - panel.left) = text[i]) :
    terminal.readAt (above ++ panel :: below) line column count = text := by
  subst length
  refine readAt_text terminal _ line column text fun i small => ?_
  rw [← held i small]
  exact terminal.doupdate_top above below panel line (column + i) low (by omega)
    (fun other member => clear other member i small) (covers i small)

end Screens

end Printing

section Texts

variable {α : Type u}

/-- Blanks at the end of a text make no difference. -/
theorem getD_padded (text : List α) (count : Nat) (blank : α) (i : Nat) :
    (text ++ List.replicate count blank).getD i blank = text.getD i blank := by
  by_cases small : i < text.length
  · exact List.getD_append _ _ _ _ small
  · have rest : (List.replicate count blank).getD (i - text.length) blank = blank := by
      rw [List.getD_eq_getElem?_getD, List.getElem?_getD_replicate_default_eq]
    rw [List.getD_append_right _ _ _ _ (by omega), rest, List.getD_eq_default _ _ (by omega)]

/-- Pieces of one length in a line are found by their number. -/
theorem getD_pieces {β : Type u} (pieces : List β) (text : β → List α) (length : Nat)
    (even : ∀ piece ∈ pieces, (text piece).length = length) (blank : α) (number : Nat)
    (inside : number < pieces.length) (character : Nat) (within : character < length) :
    (pieces.flatMap text).getD (length * number + character) blank =
      (text pieces[number]).getD character blank := by
  induction pieces generalizing number with
  | nil => exact absurd inside (Nat.not_lt_zero _)
  | cons piece pieces inductionHypothesis =>
    have first := even piece List.mem_cons_self
    rw [List.flatMap_cons]
    cases number with
    | zero =>
      rw [Nat.mul_zero, Nat.zero_add, List.getD_append _ _ _ _ (by omega), List.getElem_cons_zero]
    | succ number =>
      have behind : length * (number + 1) + character - length = length * number + character := by
        rw [Nat.mul_add, Nat.mul_one]
        omega
      rw [List.getD_append_right _ _ _ _ (by rw [first, Nat.mul_add, Nat.mul_one]; omega), first,
        behind, List.getElem_cons_succ]
      exact inductionHypothesis (fun other member => even other (List.mem_cons_of_mem _ member))
        number (Nat.lt_of_succ_lt_succ inside)

end Texts

section Grids

variable {α : Type u} (blank : α) (frame : Frame)

/-- A window that is a grid of characters, and the place of the next one. -/
structure Grid (α : Type u) where
  chars : Nat → Nat → α
  row : Nat
  column : Nat

/-- Print a character or the end of a line. At the end of the window this fails. -/
def Grid.put (sign : Sign α) (grid : Grid α) : Bool × Grid α :=
  match sign with
  | .character value =>
    let written := { grid with
      chars := fun row column =>
        if row = grid.row ∧ column = grid.column then value else grid.chars row column }
    if grid.column + 1 < frame.width then (true, { written with column := grid.column + 1 })
    else if grid.row + 1 < frame.height then
      (true, { written with row := grid.row + 1, column := 0 })
    else (false, written)
  | .newline =>
    let cleared := { grid with
      chars := fun row column =>
        if row = grid.row ∧ grid.column ≤ column then blank else grid.chars row column }
    if grid.row + 1 < frame.height then
      (true, { cleared with row := grid.row + 1, column := 0 })
    else (false, cleared)

/-- Print a text, up to the first failure. -/
def Grid.print : List (Sign α) → Grid α → Bool × Grid α
  | [], grid => (true, grid)
  | sign :: text, grid =>
    if (grid.put blank frame sign).1 = true then Grid.print text (grid.put blank frame sign).2
    else (false, (grid.put blank frame sign).2)

/-- What stands at a place of the screen. -/
def gridAt : List (Panel fun _ => Grid α) → Nat → Nat → α
  | [], _, _ => blank
  | panel :: below, line, column =>
    if panel.Covers line column then
      panel.window.chars (line - panel.top) (column - panel.left)
    else gridAt below line column

/-- A character changes its own place of the grid only. -/
theorem Grid.put_chars (value : α) (grid : Grid α) (row column : Nat) :
    (grid.put blank frame (.character value)).2.chars row column =
      if row = grid.row ∧ column = grid.column then value else grid.chars row column := by
  simp only [Grid.put]
  split
  · rfl
  · split
    · rfl
    · rfl

/-- The end of a line blanks the rest of its own line only. -/
theorem Grid.end_chars (grid : Grid α) (row column : Nat) :
    (grid.put blank frame .newline).2.chars row column =
      if row = grid.row ∧ grid.column ≤ column then blank else grid.chars row column := by
  simp only [Grid.put]
  split
  · rfl
  · rfl

/-- The screen of grids shows the first one that covers a place. -/
theorem gridAt_top (above below : List (Panel fun _ => Grid α)) (panel : Panel fun _ => Grid α)
    (line column : Nat) (clear : ∀ other ∈ above, ¬ other.Covers line column)
    (covers : panel.Covers line column) :
    gridAt blank (above ++ panel :: below) line column =
      panel.window.chars (line - panel.top) (column - panel.left) := by
  induction above with
  | nil => rw [List.nil_append, gridAt, if_pos covers]
  | cons other above inductionHypothesis =>
    rw [List.cons_append, gridAt, if_neg (clear other List.mem_cons_self)]
    exact inductionHypothesis fun another member => clear another (List.mem_cons_of_mem _ member)

/-- A terminal whose windows are grids of characters, all of which it can print. -/
def gridTerminal (Printable : α → Prop) (lines columns : Nat) :
    Terminal α blank Printable lines columns where
  Window _ := Grid α
  newwin _ := ⟨fun _ _ => blank, 0, 0⟩
  wmove row column grid := { grid with row := row, column := column }
  waddch {frame} sign grid := grid.put blank frame sign
  wprintw {frame} text grid := Grid.print blank frame text grid
  getcury grid := grid.row
  getcurx grid := grid.column
  winch grid := grid.chars
  doupdate := gridAt blank
  wmove_cursor _ _ _ _ _ := ⟨rfl, rfl⟩
  waddch_held value grid _ _ _ row _ column _ := grid.put_chars blank _ value row column
  waddch_next value grid _ _ room := by
    simp only [Grid.put, if_pos room, and_self]
  waddch_wrap value grid _ below width := by
    simp only [Grid.put, if_neg (not_lt.mpr (le_of_eq width.symm)), if_pos below, and_self]
  newline_held grid _ _ row _ column _ := grid.end_chars blank _ row column
  newline_next grid below _ := by
    simp only [Grid.put, if_pos below, and_self]
  wprintw_nil _ := rfl
  wprintw_cons _ _ _ := rfl
  doupdate_top above below panel line column _ _ clear covers :=
    gridAt_top blank above below panel line column clear covers

end Grids

end Lfdk.TextWindow
