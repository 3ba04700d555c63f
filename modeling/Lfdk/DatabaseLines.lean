import Lfdk.PciNames

/-!
# The lines of the name database

A file is a list of bytes, cut into lines at the newlines. What one call of `ReadLine`
does is decided by one line: the bytes before the first `#` that are not tabs go into
`read_buffer`, the tabs among them are counted wherever they stand, and the line counts
for nothing when there is a `#` in it. The last line of a file, which no newline ends,
counts for nothing either.

Nothing keeps a line within `read_buffer`. So the buffer is kept exactly as long as no
line has more than 511 bytes to store.
-/

namespace Lfdk.PciNames

/-- Reads that deliver these bytes. -/
def delivered (bytes : List (BitVec 8)) : List ReadResult := bytes.map .byte

/-- What ends a line. -/
inductive LineEnd where
  | newline
  | endOfFile
deriving DecidableEq, Repr

/-- The read that finds the end of a line. -/
def LineEnd.result : LineEnd → ReadResult
  | .newline => .byte 0x0a
  | .endOfFile => .endOfFile

/-- The bytes of a line that go into `read_buffer`. -/
def stored (line : List (BitVec 8)) : List (BitVec 8) :=
  (line.takeWhile (· ≠ 0x23)).filter (· ≠ 0x09)

/-- The tabs of a line that `ReadLine` counts. -/
def countedTabs (line : List (BitVec 8)) : Nat := (line.takeWhile (· ≠ 0x23)).count 0x09

/-- What `ReadLine` returns for a line whose stored bytes and tabs are these. -/
def returned (line readBuffer : List (BitVec 8)) (tabs : Nat) (ending : LineEnd) : Int :=
  if line.contains 0x23 then -1
  else
    match ending with
    | .endOfFile => -2
    | .newline => if readBuffer.headD 0 = 0 then -1 else tabs

/-- A line with a `#` anywhere is skipped, also at the end of the file. -/
theorem returned_comment {line : List (BitVec 8)} (comment : 0x23 ∈ line)
    (readBuffer : List (BitVec 8)) (tabs : Nat) (ending : LineEnd) :
    returned line readBuffer tabs ending = -1 := if_pos (List.contains_iff_mem.mpr comment)

/-- The last line is the end of the file for the caller, even if it has a text. -/
theorem returned_endOfFile {line : List (BitVec 8)} (free : 0x23 ∉ line)
    (readBuffer : List (BitVec 8)) (tabs : Nat) :
    returned line readBuffer tabs .endOfFile = -2 :=
  if_neg fun comment => free (List.contains_iff_mem.mp comment)

/-- A line that ends is returned with the number of its tabs, if it has any other character, and is
skipped otherwise. -/
theorem returned_newline {line : List (BitVec 8)} (free : 0x23 ∉ line)
    (readBuffer : List (BitVec 8)) (tabs : Nat) :
    returned line readBuffer tabs .newline = if readBuffer.headD 0 = 0 then -1 else (tabs : Int) :=
  if_neg fun comment => free (List.contains_iff_mem.mp comment)

/-- The bytes of a line leave `read_buffer`, or `strlen` does after them. -/
def Overruns (line readBuffer : List (BitVec 8)) (ending : LineEnd) : Prop :=
  maxReadbuf < readBuffer.length ∨
    (readBuffer.length = maxReadbuf ∧ 0x23 ∉ line ∧ ending = .newline ∧ 0 ∉ readBuffer)

instance (line readBuffer : List (BitVec 8)) (ending : LineEnd) :
    Decidable (Overruns line readBuffer ending) :=
  inferInstanceAs (Decidable (_ ∨ _))

/-- What is stored of a line, character by character: nothing from a `#` on, and no tabs. -/
theorem stored_cons (next : BitVec 8) (line : List (BitVec 8)) :
    stored (next :: line) =
      if next = 0x23 then [] else if next = 0x09 then stored line else next :: stored line := by
  unfold stored
  by_cases comment : next = 0x23
  · rw [if_pos comment, List.takeWhile_cons_of_neg (by simpa using comment), List.filter_nil]
  · rw [if_neg comment, List.takeWhile_cons_of_pos (by simpa using comment)]
    by_cases tab : next = 0x09
    · rw [if_pos tab, List.filter_cons_of_neg (by simpa using tab)]
    · rw [if_neg tab, List.filter_cons_of_pos (by simpa using tab)]

/-- The tabs of a line, character by character: those before a `#`, at the start of the line or not.
-/
theorem countedTabs_cons (next : BitVec 8) (line : List (BitVec 8)) :
    countedTabs (next :: line) =
      if next = 0x23 then 0
      else if next = 0x09 then countedTabs line + 1 else countedTabs line := by
  unfold countedTabs
  by_cases comment : next = 0x23
  · rw [if_pos comment, List.takeWhile_cons_of_neg (by simpa using comment), List.count_nil]
  · rw [if_neg comment, List.takeWhile_cons_of_pos (by simpa using comment)]
    by_cases tab : next = 0x09
    · rw [if_pos tab, tab, List.count_cons_self]
    · rw [if_neg tab, List.count_cons_of_ne tab]

section OneLine

variable {line : List (BitVec 8)} (whole : 0x0a ∉ line) (ending : LineEnd)
  (rest : List ReadResult)

include whole

/-- A comment goes on to the end of its line, and what follows is left for the next call. -/
theorem skipComment_line (buf : BitVec 8) :
    skipComment buf (delivered line ++ ending.result :: rest) = .ok rest := by
  induction line generalizing buf with
  | nil =>
    cases ending with
    | newline => rfl
    | endOfFile => rfl
  | cons next line inductionHypothesis =>
    have other : next ≠ 0x0a := fun same => whole (same ▸ List.mem_cons_self)
    have later : 0x0a ∉ line := fun member => whole (List.mem_cons_of_mem next member)
    simp only [delivered, List.map_cons, List.cons_append, skipComment, if_neg other]
    exact inductionHypothesis later next

/-- What is left of a line, after some of its bytes have been stored and some tabs counted. -/
theorem readLineFrom_line (readBuffer : List (BitVec 8)) (tabs : Nat) (buf : BitVec 8)
    (room : readBuffer.length ≤ maxReadbuf) :
    readLineFrom readBuffer tabs buf (delivered line ++ ending.result :: rest) =
      if Overruns line (readBuffer ++ stored line) ending then .error .overrun
      else .ok ⟨returned line (readBuffer ++ stored line) (tabs + countedTabs line) ending,
        readBuffer ++ stored line, rest⟩ := by
  induction line generalizing readBuffer tabs buf with
  | nil =>
    have bounded : ¬ maxReadbuf < readBuffer.length := Nat.not_lt.mpr room
    simp only [delivered, List.map_nil, List.nil_append, stored, countedTabs, List.takeWhile_nil,
      List.filter_nil, List.append_nil, List.count_nil, Nat.add_zero]
    cases ending with
    | endOfFile => simp [LineEnd.result, readLineFrom, Overruns, returned, bounded]
    | newline =>
      have crossed : maxReadbuf ≤ readBuffer.length ∧ 0 ∉ readBuffer ↔
          Overruns [] readBuffer .newline := by
        simp only [Overruns, bounded, false_or, List.not_mem_nil, not_false_eq_true, true_and]
        exact and_congr_left fun _ => ⟨Nat.le_antisymm room, fun same => Nat.le_of_eq same.symm⟩
      simp only [LineEnd.result, readLineFrom, lineStep, bind, Except.bind,
        (by decide : ¬ (0x0a : BitVec 8) = 0x23), if_false, if_true, crossed]
      by_cases long : Overruns [] readBuffer .newline
      · rw [if_pos long, if_pos long]
      · rw [if_neg long, if_neg long]
        rfl
  | cons next line inductionHypothesis =>
    have other : next ≠ 0x0a := fun same => whole (same ▸ List.mem_cons_self)
    have later : 0x0a ∉ line := fun member => whole (List.mem_cons_of_mem next member)
    simp only [delivered, List.map_cons, List.cons_append, readLineFrom, lineStep]
    by_cases comment : next = 0x23
    · have nothing : stored (next :: line) = [] := by rw [stored_cons, if_pos comment]
      have fits : ¬ Overruns (next :: line) readBuffer ending := by
        rintro (long | ⟨_, free, _⟩)
        · exact absurd long (Nat.not_lt.mpr room)
        · exact free (comment ▸ List.mem_cons_self)
      have skipped := skipComment_line later ending rest next
      rw [delivered] at skipped
      have marked : 0x23 ∈ next :: line := comment ▸ List.mem_cons_self
      rw [if_pos comment, skipped, nothing, List.append_nil, if_neg fits, returned_comment marked]
      rfl
    · have free : 0x23 ∈ next :: line ↔ 0x23 ∈ line := by
        rw [List.mem_cons, or_iff_right fun same => comment same.symm]
      have results : ∀ buffer tabs,
          returned (next :: line) buffer tabs ending = returned line buffer tabs ending := by
        intro buffer tabs
        simp only [returned, List.contains_iff_mem, free]
      have overruns : ∀ buffer,
          Overruns (next :: line) buffer ending ↔ Overruns line buffer ending := by
        intro buffer
        simp only [Overruns, free]
      rw [if_neg comment, if_neg other]
      by_cases tab : next = 0x09
      · have same : stored (next :: line) = stored line := by
          rw [stored_cons, if_neg comment, if_pos tab]
        have one : tabs + countedTabs (next :: line) = tabs + 1 + countedTabs line := by
          rw [countedTabs_cons, if_neg comment, if_pos tab]
          omega
        rw [if_pos tab, same, one]
        simp only [bind, Except.bind, results, overruns]
        exact inductionHypothesis later readBuffer (tabs + 1) next room
      · have more : readBuffer ++ stored (next :: line) = readBuffer ++ [next] ++ stored line := by
          rw [stored_cons, if_neg comment, if_neg tab, List.append_assoc, List.singleton_append]
        have none : countedTabs (next :: line) = countedTabs line := by
          rw [countedTabs_cons, if_neg comment, if_neg tab]
        rw [if_neg tab, more, none]
        simp only [bind, Except.bind, results, overruns]
        by_cases full : maxReadbuf ≤ readBuffer.length
        · have crossed : Overruns line (readBuffer ++ [next] ++ stored line) ending := by
            left
            simp
            omega
          rw [if_pos full, if_pos crossed]
        · rw [if_neg full]
          exact inductionHypothesis later (readBuffer ++ [next]) tabs next (by simp; omega)

/-- `ReadLine` on one line: it overruns its buffer, or returns by the line alone and leaves the rest
of the file to the next call. -/
theorem readLine_line (buf : BitVec 8) :
    readLine buf (delivered line ++ ending.result :: rest) =
      if Overruns line (stored line) ending then .error .overrun
      else .ok ⟨returned line (stored line) (countedTabs line) ending, stored line, rest⟩ := by
  have read := readLineFrom_line whole ending rest [] 0 buf (Nat.zero_le _)
  rw [List.nil_append, Nat.zero_add] at read
  exact read

end OneLine

/-- A file is its lines, each with its newline, and what follows the last newline. -/
theorem splitOn_lines (bytes : List (BitVec 8)) :
    ∃ ended last, bytes.splitOn 0x0a = ended ++ [last] ∧
      bytes = ended.flatMap (· ++ [0x0a]) ++ last ∧
      (∀ line ∈ ended, 0x0a ∉ line) ∧ 0x0a ∉ last := by
  induction bytes with
  | nil =>
    refine ⟨[], [], List.splitOn_nil _, rfl, ?_, List.not_mem_nil⟩
    exact fun line member => absurd member List.not_mem_nil
  | cons next bytes inductionHypothesis =>
    obtain ⟨ended, last, split, same, whole, open_⟩ := inductionHypothesis
    rw [List.splitOn_cons_eq_if_modifyHead, split]
    by_cases newline : next = 0x0a
    · rw [if_pos (by simpa using newline)]
      refine ⟨[] :: ended, last, rfl, ?_, ?_, open_⟩
      · rw [newline, same]
        rfl
      · exact List.forall_mem_cons.mpr ⟨List.not_mem_nil, whole⟩
    · rw [if_neg (by simpa using newline)]
      cases ended with
      | nil =>
        refine ⟨[], next :: last, rfl, ?_, whole, ?_⟩
        · rw [same]
          rfl
        · exact List.not_mem_cons_of_ne_of_not_mem (Ne.symm newline) open_
      | cons first ended =>
        obtain ⟨free, others⟩ := List.forall_mem_cons.mp whole
        refine ⟨(next :: first) :: ended, last, rfl, ?_, ?_, open_⟩
        · rw [same]
          rfl
        · have wider := List.not_mem_cons_of_ne_of_not_mem (Ne.symm newline) free
          exact List.forall_mem_cons.mpr ⟨wider, others⟩

/-- Calls of `ReadLine` until one of them returns -2: what each of them returns, and what it
has put into `read_buffer`. -/
def readLines (buf : BitVec 8) : Nat → List ReadResult →
    Except Fault (List (Int × List (BitVec 8)))
  | 0, _ => .error .waiting
  | fuel + 1, results => do
    let line ← readLine buf results
    if line.tabs = -2 then .ok [(line.tabs, line.readBuffer)]
    else do
      let calls ← readLines buf fuel line.rest
      .ok ((line.tabs, line.readBuffer) :: calls)

/-- The reads of a file: its bytes, and then its end. A comment may run into the end once
before `ReadLine` sees it. -/
def fileReads (bytes : List (BitVec 8)) : List ReadResult :=
  delivered bytes ++ [.endOfFile, .endOfFile]

/-- `ReadLine` over and over on a file. -/
def readFile (buf : BitVec 8) (bytes : List (BitVec 8)) :
    Except Fault (List (Int × List (BitVec 8))) :=
  readLines buf (fileReads bytes).length (fileReads bytes)

/-- What a call of `ReadLine` returns and stores for a line. -/
def lineCall (ending : LineEnd) (line : List (BitVec 8)) : Int × List (BitVec 8) :=
  (returned line (stored line) (countedTabs line) ending, stored line)

/-- The calls for what follows the last newline. -/
def lastCalls (last : List (BitVec 8)) : List (Int × List (BitVec 8)) :=
  if last.contains 0x23 then [lineCall .endOfFile last, (-2, [])] else [lineCall .endOfFile last]

section WholeFile

variable (buf : BitVec 8)

/-- No line that a newline ends looks like the end of the file. -/
theorem lineCall_newline (line : List (BitVec 8)) : (lineCall .newline line).1 ≠ -2 := by
  intro last
  by_cases comment : 0x23 ∈ line
  · rw [lineCall, returned_comment comment] at last
    exact absurd last (by decide : ¬ (-1 : Int) = -2)
  · rw [lineCall, returned_newline comment] at last
    simp only at last
    split at last
    · exact absurd last (by decide)
    · omega

/-- The last line of a file without a final newline is read by two calls, of which the second one
finds the end of the file again. -/
theorem readLines_last (last : List (BitVec 8)) (whole : 0x0a ∉ last) (fuel : Nat) :
    readLines buf (fuel + 2) (delivered last ++ [.endOfFile, .endOfFile]) =
      if Overruns last (stored last) .endOfFile then .error .overrun else .ok (lastCalls last) := by
  have read := readLine_line whole .endOfFile [.endOfFile] buf
  simp only [LineEnd.result] at read
  rw [readLines, read]
  by_cases long : Overruns last (stored last) .endOfFile
  · rw [if_pos long, if_pos long]
    rfl
  · rw [if_neg long, if_neg long]
    by_cases comment : 0x23 ∈ last
    · simp only [lastCalls, List.contains_iff_mem, if_pos comment, lineCall, returned_comment comment]
      rfl
    · simp only [lastCalls, List.contains_iff_mem, if_neg comment, lineCall, returned_endOfFile comment]
      rfl

/-- The calls on a file are those for its lines, as long as all of them fit. -/
theorem readLines_ended (ended : List (List (BitVec 8))) (last : List (BitVec 8))
    (whole : ∀ line ∈ ended, 0x0a ∉ line) (open_ : 0x0a ∉ last) (fuel : Nat)
    (enough : ended.length + 2 ≤ fuel) :
    readLines buf fuel (fileReads (ended.flatMap (· ++ [0x0a]) ++ last)) =
      if (∃ line ∈ ended, Overruns line (stored line) .newline) ∨
        Overruns last (stored last) .endOfFile
      then .error .overrun else .ok (ended.map (lineCall .newline) ++ lastCalls last) := by
  induction ended generalizing fuel with
  | nil =>
    obtain ⟨more, rfl⟩ := Nat.exists_eq_add_of_le' enough
    have called := readLines_last buf last open_ more
    simpa [fileReads] using called
  | cons line ended inductionHypothesis =>
    obtain ⟨free, others⟩ := List.forall_mem_cons.mp whole
    cases fuel with
    | zero => exact absurd enough (by omega)
    | succ more =>
      have later := inductionHypothesis others more (by simpa using enough)
      have read := readLine_line free .newline
        (fileReads (ended.flatMap (· ++ [0x0a]) ++ last)) buf
      have reads : fileReads ((line :: ended).flatMap (· ++ [0x0a]) ++ last) =
          delivered line ++ LineEnd.newline.result ::
            fileReads (ended.flatMap (· ++ [0x0a]) ++ last) := by
        simp [fileReads, delivered, LineEnd.result]
      rw [reads, readLines, read]
      by_cases long : Overruns line (stored line) .newline
      · rw [if_pos long, if_pos (Or.inl ⟨line, List.mem_cons_self, long⟩)]
        rfl
      · have goes := lineCall_newline line
        have lines : ((∃ other ∈ line :: ended, Overruns other (stored other) .newline) ∨
              Overruns last (stored last) .endOfFile) ↔
            ((∃ other ∈ ended, Overruns other (stored other) .newline) ∨
              Overruns last (stored last) .endOfFile) := by
          simp [long]
        simp only [lineCall] at goes
        rw [if_neg long]
        simp only [bind, Except.bind, if_neg goes, later, lines]
        by_cases beyond : (∃ other ∈ ended, Overruns other (stored other) .newline) ∨
            Overruns last (stored last) .endOfFile
        · rw [if_pos beyond, if_pos beyond]
        · rw [if_neg beyond, if_neg beyond]
          rfl

/-- The calls on a file, by its lines: one call for each line with its newline, then the calls on
what follows the last one, unless a line overruns the buffer. -/
theorem readFile_lines {bytes : List (BitVec 8)} {ended : List (List (BitVec 8))}
    {last : List (BitVec 8)} (same : bytes = ended.flatMap (· ++ [0x0a]) ++ last)
    (whole : ∀ line ∈ ended, 0x0a ∉ line) (open_ : 0x0a ∉ last) :
    readFile buf bytes =
      if (∃ line ∈ ended, Overruns line (stored line) .newline) ∨
        Overruns last (stored last) .endOfFile
      then .error .overrun else .ok (ended.map (lineCall .newline) ++ lastCalls last) := by
  have lines : ended.length ≤ (ended.flatMap (· ++ [0x0a])).length := by
    clear same whole
    induction ended with
    | nil => exact Nat.zero_le _
    | cons line ended inductionHypothesis =>
      simp only [List.flatMap_cons, List.length_append, List.length_cons, List.length_nil]
      omega
  rw [same]
  apply readLines_ended buf ended last whole open_
  simp only [fileReads, delivered, List.length_append, List.length_map, List.length_cons,
    List.length_nil]
  omega

end WholeFile

/-- All calls of `ReadLine` on a file return, no index they write is beyond the last byte but
one of `read_buffer`, and the buffer still ends in a zero byte. -/
def BufferKept (buf : BitVec 8) (bytes : List (BitVec 8)) : Prop :=
  ∃ calls, readFile buf bytes = .ok calls ∧ ∀ call ∈ calls,
    (∀ index < call.2.length, index ≤ maxReadbuf - 2) ∧ call.2.getD (maxReadbuf - 1) 0 = 0

/-- The buffer is kept exactly when every line has room in it, with a zero byte after it. -/
theorem buffer_kept_iff (buf : BitVec 8) (bytes : List (BitVec 8)) :
    BufferKept buf bytes ↔
      ∀ line ∈ bytes.splitOn 0x0a, (stored line).length ≤ maxReadbuf - 1 := by
  obtain ⟨ended, last, split, same, whole, open_⟩ := splitOn_lines bytes
  have called := readFile_lines buf same whole open_
  have size : maxReadbuf = 512 := rfl
  rw [split, List.forall_mem_append, List.forall_mem_singleton]
  constructor
  · rintro ⟨calls, read, fits⟩
    rw [called] at read
    split at read
    · cases read
    · obtain rfl := Except.ok.inj read
      have short : ∀ call ∈ ended.map (lineCall .newline) ++ lastCalls last,
          call.2.length ≤ maxReadbuf - 1 := by
        intro call member
        by_contra long
        have written := (fits call member).1 (maxReadbuf - 1) (by omega)
        omega
      constructor
      · intro line member
        exact short _ (List.mem_append_left _ (List.mem_map_of_mem member))
      · have first : lineCall .endOfFile last ∈ lastCalls last := by
          unfold lastCalls
          split
          · exact List.mem_cons_self
          · exact List.mem_cons_self
        exact short _ (List.mem_append_right _ first)
  · rintro ⟨others, final⟩
    have room : ∀ line readBuffer ending, readBuffer.length ≤ maxReadbuf - 1 →
        ¬ Overruns line readBuffer ending := by
      rintro line readBuffer ending short (long | ⟨full, _⟩)
      · omega
      · omega
    have fits : ¬ ((∃ line ∈ ended, Overruns line (stored line) .newline) ∨
        Overruns last (stored last) .endOfFile) := by
      rintro (⟨line, member, long⟩ | long)
      · exact room _ _ _ (others line member) long
      · exact room _ _ _ final long
    rw [if_neg fits] at called
    refine ⟨_, called, fun call member => ?_⟩
    have short : call.2.length ≤ maxReadbuf - 1 := by
      rcases List.mem_append.mp member with ended_ | last_
      · obtain ⟨line, listed, rfl⟩ := List.mem_map.mp ended_
        exact others line listed
      · unfold lastCalls at last_
        split at last_
        · rcases List.mem_cons.mp last_ with rfl | later
          · exact final
          · obtain rfl := List.mem_singleton.mp later
            exact Nat.zero_le _
        · obtain rfl := List.mem_singleton.mp last_
          exact final
    refine ⟨fun index small => by omega, ?_⟩
    rw [List.getD_eq_getElem?_getD, List.getElem?_eq_none short]
    rfl

/-- A line of 513 bytes is written over the end of the buffer. -/
theorem long_line_overruns :
    readFile 0 (List.replicate 513 0x61) = .error .overrun ∧
      ¬ BufferKept 0 (List.replicate 513 0x61) := by
  have free : ∀ other, other ≠ 0x61 → other ∉ List.replicate 513 (0x61 : BitVec 8) :=
    fun other apart member => apart (List.eq_of_mem_replicate member)
  have all : stored (List.replicate 513 0x61) = List.replicate 513 0x61 := by
    rw [stored, List.takeWhile_replicate, if_pos (by decide), List.filter_replicate,
      if_pos (by decide)]
  have long : Overruns (List.replicate 513 0x61) (stored (List.replicate 513 0x61)) .endOfFile := by
    left
    rw [all, List.length_replicate]
    decide
  have alone : List.replicate 513 (0x61 : BitVec 8) =
      List.flatMap (· ++ [0x0a]) [] ++ List.replicate 513 0x61 := rfl
  have called := readFile_lines 0 alone (fun line member => absurd member List.not_mem_nil)
    (free _ (by decide))
  rw [if_pos (Or.inr long)] at called
  refine ⟨called, ?_⟩
  rintro ⟨calls, read, _⟩
  rw [called] at read
  cases read

end Lfdk.PciNames
