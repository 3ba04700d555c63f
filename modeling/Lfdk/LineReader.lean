import Mathlib.Data.List.TakeWhile
import Lfdk.DatabaseLines

/-!
# The entries of the name database

A database is a text of comments, which are the lines that begin with `#`, and of
entries: a text behind some tabs, which say whether it names a vendor, a device or a
subsystem. Its meaning is the list of its entries, in order.

`ReadLine` takes a `#` for a comment wherever it stands, so it loses an entry with a `#` in
its text; it asks `strlen` whether a line is empty, so it loses a text that begins with a
zero byte; and it does not return what stands after the last newline. All other entries it
delivers, so it delivers the meaning of a text exactly when it loses nothing.
-/

namespace Lfdk.PciNames

/-- The tabs and the text of a line, unless the line is a comment or has no text. -/
def entry (line : List (BitVec 8)) : Option (Nat × List (BitVec 8)) :=
  if line.head? = some 0x23 then none
  else
    let text := line.dropWhile (· = 0x09)
    if text = [] then none else some ((line.takeWhile (· = 0x09)).length, text)

/-- The entries of a text. -/
def entries (bytes : List (BitVec 8)) : List (Nat × List (BitVec 8)) :=
  (bytes.splitOn 0x0a).filterMap entry

/-- A text of comments and of tabs followed by text without tabs, in lines that are not
longer than 511 bytes. -/
structure DatabaseText (bytes : List (BitVec 8)) : Prop where
  short : ∀ line ∈ bytes.splitOn 0x0a, line.length ≤ 511
  shaped : ∀ line ∈ bytes.splitOn 0x0a,
    line.head? = some 0x23 ∨ 0x09 ∉ line.dropWhile (· = 0x09)

/-- What `ReadLine` delivers: the tabs and the contents of `read_buffer` of all calls but
those that return -1, until one returns -2. -/
def yielded (calls : List (Int × List (BitVec 8))) : List (Int × List (BitVec 8)) :=
  calls.filter fun call => call.1 ≠ -1 ∧ call.1 ≠ -2

/-- An entry as `ReadLine` delivers it. -/
def asCall (found : Nat × List (BitVec 8)) : Int × List (BitVec 8) := ((found.1 : Int), found.2)

/-- Nothing in the text of an entry hides it from `ReadLine`. -/
def Visible (found : Nat × List (BitVec 8)) : Prop :=
  0x23 ∉ found.2 ∧ found.2.head? ≠ some 0

instance (found : Nat × List (BitVec 8)) : Decidable (Visible found) :=
  inferInstanceAs (Decidable (_ ∧ _))

/-- The calls of `ReadLine` deliver the entries of the text. -/
def ReadsEntries (buf : BitVec 8) (bytes : List (BitVec 8)) : Prop :=
  ∃ calls, readFile buf bytes = .ok calls ∧ yielded calls = (entries bytes).map asCall

/-- The lines that calls yield are those of the first calls, and then those of the others. -/
theorem yielded_append (first second : List (Int × List (BitVec 8))) :
    yielded (first ++ second) = yielded first ++ yielded second :=
  List.filter_append first second

/-- A call for a skipped line yields nothing, and the calls behind it yield what they would without
it. -/
theorem yielded_skipped {call : Int × List (BitVec 8)} (skipped : call.1 = -1)
    (calls : List (Int × List (BitVec 8))) : yielded (call :: calls) = yielded calls :=
  List.filter_cons_of_neg (by simp [skipped])

/-- A call that finds a line yields it, with its tabs, as the number of these is never -1. -/
theorem yielded_asCall (found : Nat × List (BitVec 8)) (calls : List (Int × List (BitVec 8))) :
    yielded (asCall found :: calls) = asCall found :: yielded calls := by
  apply List.filter_cons_of_pos
  simp only [asCall]
  exact decide_eq_true ⟨by omega, by omega⟩

section Lines

/-- A line without `#` is looked at to its end, so all of its text counts. -/
theorem takeWhile_free {line : List (BitVec 8)} (free : 0x23 ∉ line) :
    line.takeWhile (· ≠ 0x23) = line := by
  rw [List.takeWhile_eq_self_iff]
  intro byte member
  exact decide_eq_true fun same => free (same ▸ member)

/-- No more is stored of a line than it has. So the buffer has room for a line that is shorter than
it. -/
theorem stored_length (line : List (BitVec 8)) : (stored line).length ≤ line.length :=
  (List.length_filter_le _ _).trans (List.takeWhile_sublist _).length_le

/-- The tabs at the front of a line and the text behind them. -/
theorem line_parts (line : List (BitVec 8)) :
    line = List.replicate (line.takeWhile (· = 0x09)).length 0x09 ++
      line.dropWhile (· = 0x09) := by
  have tabs : line.takeWhile (· = 0x09) =
      List.replicate (line.takeWhile (· = 0x09)).length 0x09 := by
    rw [List.eq_replicate_iff]
    refine ⟨rfl, fun byte member => ?_⟩
    have tab := List.mem_takeWhile_imp member
    exact of_decide_eq_true tab
  conv_lhs => rw [← List.takeWhile_append_dropWhile (p := (· = 0x09)) (l := line)]
  rw [← tabs]

/-- Of tabs and a text without tabs, the text is stored and the tabs are counted. -/
theorem tabs_text_stored (tabs : Nat) {text : List (BitVec 8)} (plain : 0x09 ∉ text)
    (free : 0x23 ∉ text) :
    0x23 ∉ List.replicate tabs 0x09 ++ text ∧ stored (List.replicate tabs 0x09 ++ text) = text ∧
      countedTabs (List.replicate tabs 0x09 ++ text) = tabs := by
  have none : 0x23 ∉ List.replicate tabs 0x09 ++ text := by
    intro member
    rcases List.mem_append.mp member with tab | inside
    · exact absurd (List.eq_of_mem_replicate tab) (by decide)
    · exact free inside
  refine ⟨none, ?_, ?_⟩
  · have kept : text.filter (· ≠ 0x09) = text := by
      rw [List.filter_eq_self]
      intro byte member
      exact decide_eq_true fun same => plain (same ▸ member)
    rw [stored, takeWhile_free none, List.filter_append, kept, List.filter_replicate,
      if_neg (by decide), List.nil_append]
  · rw [countedTabs, takeWhile_free none, List.count_append, List.count_replicate_self,
      List.count_eq_zero_of_not_mem plain, Nat.add_zero]

variable {line : List (BitVec 8)}

/-- A comment and a line without text count for nothing: the call returns -1 for either. -/
theorem lineCall_empty (absent : entry line = none) : (lineCall .newline line).1 = -1 := by
  unfold entry at absent
  split at absent
  · next comment =>
    have marked : 0x23 ∈ line := List.mem_of_mem_head? comment
    rw [lineCall, returned_comment marked]
  · simp only [ite_eq_left_iff, reduceCtorEq, imp_false, Decidable.not_not] at absent
    have parts := line_parts line
    rw [absent] at parts
    obtain ⟨free, nothing, _⟩ := tabs_text_stored (line.takeWhile (· = 0x09)).length
      (List.not_mem_nil (a := (0x09 : BitVec 8))) List.not_mem_nil
    rw [← parts] at free nothing
    rw [lineCall, returned_newline free, nothing]
    rfl

/-- A line with a text is its tabs and its text, which is not empty and has no tab itself. -/
theorem entry_parts {found : Nat × List (BitVec 8)} (present : entry line = some found)
    (shaped : line.head? = some 0x23 ∨ 0x09 ∉ line.dropWhile (· = 0x09)) :
    line = List.replicate found.1 0x09 ++ found.2 ∧ found.2 ≠ [] ∧ 0x09 ∉ found.2 := by
  unfold entry at present
  split at present
  · cases present
  · next other =>
    simp only at present
    split at present
    · cases present
    · next text =>
      obtain rfl := Option.some.inj present
      exact ⟨line_parts line, text, shaped.resolve_left other⟩

/-- An entry is delivered with its tabs and its text if nothing hides it. -/
theorem lineCall_visible {found : Nat × List (BitVec 8)} (present : entry line = some found)
    (shaped : line.head? = some 0x23 ∨ 0x09 ∉ line.dropWhile (· = 0x09))
    (visible : Visible found) : lineCall .newline line = asCall found := by
  obtain ⟨same, text, plain⟩ := entry_parts present shaped
  obtain ⟨free, stored_, tabs⟩ := tabs_text_stored found.1 plain visible.1
  rw [← same] at free stored_ tabs
  have first : found.2.headD 0 ≠ 0 := by
    have begins := visible.2
    cases bytes : found.2 with
    | nil => exact absurd bytes text
    | cons byte rest =>
      rw [bytes] at begins
      exact fun zero => begins (congrArg some zero)
  rw [lineCall, returned_newline free, stored_, tabs, if_neg first]
  rfl

/-- An entry is lost otherwise: `ReadLine` returns -1 for its line, as for a comment. -/
theorem lineCall_hidden {found : Nat × List (BitVec 8)} (present : entry line = some found)
    (shaped : line.head? = some 0x23 ∨ 0x09 ∉ line.dropWhile (· = 0x09))
    (hidden : ¬ Visible found) : (lineCall .newline line).1 = -1 := by
  obtain ⟨same, _, plain⟩ := entry_parts present shaped
  by_cases marked : 0x23 ∈ found.2
  · have comment : 0x23 ∈ line := by
      rw [same]
      exact List.mem_append_right _ marked
    rw [lineCall, returned_comment comment]
  · obtain ⟨free, stored_, _⟩ := tabs_text_stored found.1 plain marked
    rw [← same] at free stored_
    have zero : found.2.head? = some 0 := by
      by_contra other
      exact hidden ⟨marked, other⟩
    have first : found.2.headD 0 = 0 := by rw [List.headD_eq_head?_getD, zero]; rfl
    rw [lineCall, returned_newline free, stored_, if_pos first]

/-- The calls for lines with newlines deliver the entries that are visible. -/
theorem yielded_ended (ended : List (List (BitVec 8)))
    (shaped : ∀ line ∈ ended, line.head? = some 0x23 ∨ 0x09 ∉ line.dropWhile (· = 0x09)) :
    yielded (ended.map (lineCall .newline)) =
      ((ended.filterMap entry).filter (Visible ·)).map asCall := by
  induction ended with
  | nil => rfl
  | cons line ended inductionHypothesis =>
    obtain ⟨own, others⟩ := List.forall_mem_cons.mp shaped
    have later := inductionHypothesis others
    rw [List.map_cons]
    cases found : entry line with
    | none => rw [yielded_skipped (lineCall_empty found), later, List.filterMap_cons_none found]
    | some present =>
      rw [List.filterMap_cons_some found]
      by_cases visible : Visible present
      · have kept : decide (Visible present) = true := decide_eq_true visible
        rw [lineCall_visible found own visible, yielded_asCall, later, List.filter_cons, kept,
          if_pos rfl, List.map_cons]
      · have lost : decide (Visible present) = false := decide_eq_false visible
        rw [yielded_skipped (lineCall_hidden found own visible), later, List.filter_cons, lost,
          if_neg Bool.false_ne_true]

/-- What follows the last newline is never delivered, whether it is a comment or an entry. -/
theorem yielded_last (last : List (BitVec 8)) : yielded (lastCalls last) = [] := by
  unfold lastCalls
  by_cases comment : 0x23 ∈ last
  · rw [if_pos (List.contains_iff_mem.mpr comment), lineCall, returned_comment comment]
    rfl
  · have free : ¬ last.contains 0x23 = true := fun marked => comment (List.contains_iff_mem.mp marked)
    rw [if_neg free, lineCall, returned_endOfFile comment]
    rfl

end Lines

/-- The entries are read exactly when each of them is visible and stands in a line with a
newline. -/
theorem reads_entries_iff (buf : BitVec 8) (bytes : List (BitVec 8)) (text : DatabaseText bytes) :
    ReadsEntries buf bytes ↔
      (∀ line ∈ (bytes.splitOn 0x0a).dropLast, ∀ found ∈ entry line, Visible found) ∧
        ∀ last ∈ (bytes.splitOn 0x0a).getLast?, entry last = none := by
  obtain ⟨short, shaped⟩ := text
  obtain ⟨ended, last, split, same, whole, final⟩ := splitOn_lines bytes
  have called := readFile_lines buf same whole final
  have size : maxReadbuf = 512 := rfl
  rw [split] at short shaped
  have fits : ∀ line ∈ ended ++ [last], ∀ ending, ¬ Overruns line (stored line) ending := by
    rintro line member ending (long | ⟨full, _⟩)
    · have length := stored_length line
      have bound := short line member
      omega
    · have length := stored_length line
      have bound := short line member
      omega
  have inside : ¬ ((∃ line ∈ ended, Overruns line (stored line) .newline) ∨
      Overruns last (stored last) .endOfFile) := by
    rintro (⟨line, member, long⟩ | long)
    · exact fits line (List.mem_append_left _ member) _ long
    · exact fits last (List.mem_append_right _ List.mem_cons_self) _ long
  rw [if_neg inside] at called
  have delivered_ : yielded (ended.map (lineCall .newline) ++ lastCalls last) =
      ((ended.filterMap entry).filter (Visible ·)).map asCall := by
    have parts := yielded_ended ended fun line member => shaped line (List.mem_append_left _ member)
    rw [yielded_append, parts, yielded_last, List.append_nil]
  have meaning : entries bytes = ended.filterMap entry ++ (entry last).toList := by
    rw [entries, split, List.filterMap_append]
    cases found : entry last with
    | none => rw [List.filterMap_cons_none found]; rfl
    | some present => rw [List.filterMap_cons_some found]; rfl
  have injective : Function.Injective asCall := by
    rintro ⟨tabs, text⟩ ⟨others, other⟩ equal
    simp only [asCall, Prod.mk.injEq, Int.natCast_inj] at equal
    exact Prod.ext equal.1 equal.2
  have reads : ReadsEntries buf bytes ↔
      (ended.filterMap entry).filter (Visible ·) = ended.filterMap entry ++ (entry last).toList := by
    constructor
    · rintro ⟨calls, read, yields⟩
      obtain rfl := Except.ok.inj (called.symm.trans read)
      rw [delivered_, meaning] at yields
      exact (List.map_injective_iff.mpr injective) yields
    · intro equal
      refine ⟨_, called, ?_⟩
      rw [delivered_, meaning, equal]
  rw [reads, split, List.dropLast_concat, List.getLast?_concat]
  have all : (∀ line ∈ ended, ∀ found ∈ entry line, Visible found) ↔
      ∀ found ∈ ended.filterMap entry, Visible found := by
    simp only [List.mem_filterMap]
    exact ⟨fun each found ⟨line, member, present⟩ => each line member found present,
      fun each line member found present => each found ⟨line, member, present⟩⟩
  rw [all]
  constructor
  · intro equal
    have lengths := congrArg List.length equal
    rw [List.length_append] at lengths
    have bound := List.length_filter_le (Visible ·) (ended.filterMap entry)
    have none : (entry last).toList = [] := List.length_eq_zero_iff.mp (by omega)
    rw [none, List.append_nil, List.filter_eq_self] at equal
    refine ⟨fun found member => of_decide_eq_true (equal found member), ?_⟩
    rintro _ ⟨⟩
    simpa using none
  · rintro ⟨visible, none⟩
    rw [none last rfl, Option.toList_none, List.append_nil, List.filter_eq_self]
    exact fun found member => decide_eq_true (visible found member)

/-- A file with a comment, an empty line, a vendor and a device of it: the lines `# x`, nothing,
`8086  A`, and a tab with `1234  B`. -/
def vendorAndDevice : List (BitVec 8) :=
  [0x23, 0x20, 0x78, 0x0a, 0x0a, 0x38, 0x30, 0x38, 0x36, 0x20, 0x20, 0x41, 0x0a,
    0x09, 0x31, 0x32, 0x33, 0x34, 0x20, 0x20, 0x42, 0x0a]

/-- Its two entries are read, the second one with its tab, and nothing else is. -/
theorem plain_vendor_read :
    ReadsEntries 0 vendorAndDevice ∧
      entries vendorAndDevice =
        [(0, [0x38, 0x30, 0x38, 0x36, 0x20, 0x20, 0x41]),
          (1, [0x31, 0x32, 0x33, 0x34, 0x20, 0x20, 0x42])] :=
  ⟨(reads_entries_iff 0 vendorAndDevice ⟨by decide, by decide⟩).mpr ⟨by decide, by decide⟩,
    by decide⟩

/-- A tab and `2938  USB #5`, in a line of its own. -/
def numberedName : List (BitVec 8) :=
  [0x09, 0x32, 0x39, 0x33, 0x38, 0x20, 0x20, 0x55, 0x53, 0x42, 0x20, 0x23, 0x35, 0x0a]

/-- It is the name of a device, and `ReadLine` takes it for a comment. -/
theorem numbered_name_lost :
    DatabaseText numberedName ∧
      entries numberedName =
        [(1, [0x32, 0x39, 0x33, 0x38, 0x20, 0x20, 0x55, 0x53, 0x42, 0x20, 0x23, 0x35])] ∧
      readFile 0 numberedName =
        .ok [(-1, [0x32, 0x39, 0x33, 0x38, 0x20, 0x20, 0x55, 0x53, 0x42, 0x20]), (-2, [])] ∧
      ¬ ReadsEntries 0 numberedName := by
  have text : DatabaseText numberedName := ⟨by decide, by decide⟩
  have read : readFile 0 numberedName =
      .ok [(-1, [0x32, 0x39, 0x33, 0x38, 0x20, 0x20, 0x55, 0x53, 0x42, 0x20]), (-2, [])] := rfl
  refine ⟨text, by decide, read, ?_⟩
  rintro ⟨calls, called, yields⟩
  obtain rfl := Except.ok.inj (read.symm.trans called)
  exact absurd yields (by decide)

end Lfdk.PciNames
