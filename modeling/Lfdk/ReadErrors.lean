import Lfdk.DatabaseLines

/-!
# Reads that fail

The loops of `ReadLine` take every result of `read` but zero for a byte. A read that fails
leaves `buf` alone, so to the loops it is a read that gives the same byte once more, or what
`buf` holds at the start of a call. With the failing reads replaced by those bytes, `ReadLine`
does what it did.

So the scan of a database ends exactly when, among these bytes, an end of file comes outside
of a comment, behind lines that fit in `read_buffer`. If `read` goes on failing it never
comes: the scan of a directory does not end.
-/

namespace Lfdk.PciNames

/-- The results of the first reads of a file, some of which fail. Those that do not fail give
its bytes one after the other, and then its end. -/
def firstReads : (Nat → Bool) → List (BitVec 8) → Nat → List ReadResult
  | _, _, 0 => []
  | fails, bytes, reads + 1 =>
    if fails 0 then .failed :: firstReads (fun read => fails (read + 1)) bytes reads
    else
      match bytes with
      | [] => .endOfFile :: firstReads (fun read => fails (read + 1)) [] reads
      | byte :: bytes => .byte byte :: firstReads (fun read => fails (read + 1)) bytes reads

/-- After finitely many reads, all calls of `ReadLine` have returned, the last of them with
-2, and so has any lookup. -/
def ScanEnds (stale : BitVec 8) (fails : Nat → Bool) (bytes : List (BitVec 8)) : Prop :=
  (∃ reads calls, readLines stale reads (firstReads fails bytes reads) = .ok calls) ∧
    ∀ venid devid ventxt devtxt, ∃ reads texts,
      getVendorAndDeviceTexts ⟨some (firstReads fails bytes reads), stale⟩ venid devid
        ventxt devtxt = .ok texts

/-- What `buf` holds after a byte. A newline ends the call. -/
def heldAfter (stale byte : BitVec 8) : BitVec 8 := if byte = 0x0a then stale else byte

/-- The results, with the byte in `buf` for every read that fails. -/
def replay (stale : BitVec 8) : BitVec 8 → List ReadResult → List ReadResult
  | _, [] => []
  | _, .endOfFile :: rest => .endOfFile :: replay stale stale rest
  | held, .failed :: rest => .byte held :: replay stale (heldAfter stale held) rest
  | _, .byte byte :: rest => .byte byte :: replay stale (heldAfter stale byte) rest

/-- A line that fits in `read_buffer` and is not the last: it ends in a newline, or it is a
comment that the end of the file ends. -/
structure Passed (line : List (BitVec 8)) (ending : LineEnd) : Prop where
  whole : 0x0a ∉ line
  fits : ¬ Overruns line (stored line) ending
  more : ending = .newline ∨ 0x23 ∈ line

/-- Lines that fit, and behind them an end of file outside of a comment. -/
inductive Finishes : List ReadResult → Prop where
  | last (line : List (BitVec 8)) (rest : List ReadResult) (whole : 0x0a ∉ line)
      (free : 0x23 ∉ line) (fits : ¬ Overruns line (stored line) .endOfFile) :
      Finishes (delivered line ++ .endOfFile :: rest)
  | more (line : List (BitVec 8)) (ending : LineEnd) (rest : List ReadResult)
      (passed : Passed line ending) (later : Finishes rest) :
      Finishes (delivered line ++ ending.result :: rest)

section Replay

variable (stale : BitVec 8)

/-- A line, with what comes behind it replayed as well. -/
def Line.replayed (line : Line) : Line := { line with rest := replay stale stale line.rest }

/-- The byte stays in the buffer if it is not a newline, and a read that fails gives it once more.
-/
theorem heldAfter_other {byte : BitVec 8} (other : byte ≠ 0x0a) : heldAfter stale byte = byte :=
  if_neg other

/-- After a newline the buffer is a new one, with what was on the stack. -/
theorem heldAfter_newline : heldAfter stale 0x0a = stale := if_pos rfl

/-- As many results are replayed as were there: an error is replaced by the byte that the buffer
holds, and nothing is left out. -/
theorem replay_length (held : BitVec 8) (results : List ReadResult) :
    (replay stale held results).length = results.length := by
  induction results generalizing held with
  | nil => rfl
  | cons result rest inductionHypothesis =>
    cases result with
    | byte value => exact congrArg (· + 1) (inductionHypothesis (heldAfter stale value))
    | endOfFile => exact congrArg (· + 1) (inductionHypothesis stale)
    | failed => exact congrArg (· + 1) (inductionHypothesis (heldAfter stale held))

/-- A comment ends at the same newline when the failed reads are replayed. -/
theorem skipComment_replay (buf : BitVec 8) (results : List ReadResult) :
    skipComment buf (replay stale buf results) =
      (skipComment buf results).map (replay stale stale) := by
  induction results generalizing buf with
  | nil => rfl
  | cons result rest inductionHypothesis =>
    have byte : ∀ value, (if value = 0x0a then .ok (replay stale (heldAfter stale value) rest)
          else skipComment value (replay stale (heldAfter stale value) rest)) =
        Except.map (replay stale stale)
          (if value = 0x0a then .ok rest else skipComment value rest) := by
      intro value
      by_cases newline : value = 0x0a
      · rw [if_pos newline, if_pos newline, newline, heldAfter_newline]
        rfl
      · rw [if_neg newline, if_neg newline, heldAfter_other stale newline]
        exact inductionHypothesis value
    cases result with
    | endOfFile => rfl
    | failed => exact byte buf
    | byte value => exact byte value

/-- What the loop does with one byte is the same when the results behind it are replayed first. -/
theorem lineStep_replay (readBuffer : List (BitVec 8)) (tabs : Nat) (byte : BitVec 8)
    (rest : List ReadResult) :
    lineStep readBuffer tabs byte (replay stale (heldAfter stale byte) rest) =
      (lineStep readBuffer tabs byte rest).map (Sum.map (Line.replayed stale) id) := by
  unfold lineStep
  by_cases comment : byte = 0x23
  · have other : byte ≠ 0x0a := by
      rw [comment]
      decide
    rw [if_pos comment, if_pos comment, heldAfter_other stale other, skipComment_replay]
    cases skipComment byte rest with
    | error fault => rfl
    | ok rest => rfl
  · rw [if_neg comment, if_neg comment]
    by_cases newline : byte = 0x0a
    · rw [if_pos newline, if_pos newline, newline, heldAfter_newline]
      by_cases long : maxReadbuf ≤ readBuffer.length ∧ 0 ∉ readBuffer
      · rw [if_pos long, if_pos long]
        rfl
      · rw [if_neg long, if_neg long]
        rfl
    · rw [if_neg newline, if_neg newline]
      by_cases tab : byte = 0x09
      · rw [if_pos tab]
        rfl
      · rw [if_neg tab]
        by_cases full : maxReadbuf ≤ readBuffer.length
        · rw [if_pos full]
          rfl
        · rw [if_neg full]
          rfl

/-- Only a byte that is no newline lets the loop go on. -/
theorem lineStep_newline (readBuffer : List (BitVec 8)) (tabs : Nat) (rest : List ReadResult)
    (next : List (BitVec 8) × Nat) : lineStep readBuffer tabs 0x0a rest ≠ .ok (.inr next) := by
  unfold lineStep
  rw [if_neg (by decide), if_pos rfl]
  split
  · exact fun same => by cases same
  · exact fun same => by cases same

/-- A line is read as if the byte before stood in the file again for each read that fails. -/
theorem readLineFrom_replay (readBuffer : List (BitVec 8)) (tabs : Nat) (buf : BitVec 8)
    (results : List ReadResult) :
    readLineFrom readBuffer tabs buf (replay stale buf results) =
      (readLineFrom readBuffer tabs buf results).map (Line.replayed stale) := by
  induction results generalizing readBuffer tabs buf with
  | nil => rfl
  | cons result rest inductionHypothesis =>
    have byte : ∀ value,
        readLineFrom readBuffer tabs buf
            (.byte value :: replay stale (heldAfter stale value) rest) =
          (readLineFrom readBuffer tabs buf (.byte value :: rest)).map (Line.replayed stale) := by
      intro value
      rw [readLineFrom, readLineFrom, lineStep_replay]
      cases step : lineStep readBuffer tabs value rest with
      | error fault => rfl
      | ok next =>
        cases next with
        | inl line => rfl
        | inr next =>
          have other : value ≠ 0x0a := by
            rintro rfl
            exact lineStep_newline readBuffer tabs rest next step
          rw [heldAfter_other stale other]
          exact inductionHypothesis next.1 next.2 value
    cases result with
    | endOfFile => rfl
    | failed => exact byte buf
    | byte value => exact byte value

/-- `ReadLine` takes a read that fails for a read of the byte in `buf`. -/
theorem readLine_replay (results : List ReadResult) :
    readLine stale (replay stale stale results) =
      (readLine stale results).map (Line.replayed stale) :=
  readLineFrom_replay stale [] 0 stale results

end Replay

section Shape

/-- Among results without a failing read, either a line ends or only bytes are left. -/
theorem replay_shape (stale held : BitVec 8) (results : List ReadResult) :
    (∃ line, 0x0a ∉ line ∧ replay stale held results = delivered line) ∨
      ∃ line ending rest, 0x0a ∉ line ∧
        replay stale held results = delivered line ++ LineEnd.result ending :: rest := by
  induction results generalizing held with
  | nil => exact Or.inl ⟨[], List.not_mem_nil, rfl⟩
  | cons result rest inductionHypothesis =>
    have byte : ∀ value, (∃ line, 0x0a ∉ line ∧
          .byte value :: replay stale (heldAfter stale value) rest = delivered line) ∨
        ∃ line ending later, 0x0a ∉ line ∧
          .byte value :: replay stale (heldAfter stale value) rest =
            delivered line ++ LineEnd.result ending :: later := by
      intro value
      by_cases newline : value = 0x0a
      · right
        refine ⟨[], .newline, replay stale (heldAfter stale value) rest, List.not_mem_nil, ?_⟩
        rw [newline]
        rfl
      · rcases inductionHypothesis (heldAfter stale value) with
          ⟨line, whole, same⟩ | ⟨line, ending, later, whole, same⟩
        · left
          refine ⟨value :: line, List.not_mem_cons_of_ne_of_not_mem (Ne.symm newline) whole, ?_⟩
          rw [same]
          rfl
        · right
          refine ⟨value :: line, ending, later,
            List.not_mem_cons_of_ne_of_not_mem (Ne.symm newline) whole, ?_⟩
          rw [same]
          rfl
    cases result with
    | endOfFile => exact Or.inr ⟨[], .endOfFile, replay stale stale rest, List.not_mem_nil, rfl⟩
    | failed => exact byte held
    | byte value => exact byte value

/-- A comment does not end where only bytes are left: the call waits for a newline. -/
theorem skipComment_open {line : List (BitVec 8)} (whole : 0x0a ∉ line) (buf : BitVec 8) :
    skipComment buf (delivered line) = .error .waiting := by
  induction line generalizing buf with
  | nil => rfl
  | cons next line inductionHypothesis =>
    have other : next ≠ 0x0a := fun same => whole (same ▸ List.mem_cons_self)
    have later : 0x0a ∉ line := fun member => whole (List.mem_cons_of_mem next member)
    rw [delivered, List.map_cons, skipComment, if_neg other]
    exact inductionHypothesis later next

/-- Neither does a call of `ReadLine` return where there is no newline to read. -/
theorem readLineFrom_open {line : List (BitVec 8)} (whole : 0x0a ∉ line)
    (readBuffer : List (BitVec 8)) (tabs : Nat) (buf : BitVec 8) (found : Line) :
    readLineFrom readBuffer tabs buf (delivered line) ≠ .ok found := by
  induction line generalizing readBuffer tabs buf with
  | nil => exact fun same => by cases same
  | cons next line inductionHypothesis =>
    have other : next ≠ 0x0a := fun same => whole (same ▸ List.mem_cons_self)
    have later : 0x0a ∉ line := fun member => whole (List.mem_cons_of_mem next member)
    have waits := skipComment_open later next
    rw [delivered] at waits
    rw [delivered, List.map_cons, readLineFrom, lineStep, if_neg other]
    by_cases comment : next = 0x23
    · rw [if_pos comment, waits]
      exact fun same => by cases same
    · rw [if_neg comment]
      by_cases tab : next = 0x09
      · rw [if_pos tab]
        exact inductionHypothesis later readBuffer (tabs + 1) next
      · rw [if_neg tab]
        by_cases full : maxReadbuf ≤ readBuffer.length
        · rw [if_pos full]
          exact fun same => by cases same
        · rw [if_neg full]
          exact inductionHypothesis later (readBuffer ++ [next]) tabs next

end Shape

section Ends

variable (stale : BitVec 8)

/-- A call that returns has read one line, which fits, and has left what follows. -/
theorem readLine_returns {results : List ReadResult} {found : Line}
    (returned_ : readLine stale results = .ok found) :
    ∃ line ending, 0x0a ∉ line ∧ ¬ Overruns line (stored line) ending ∧
      replay stale stale results =
        delivered line ++ LineEnd.result ending :: replay stale stale found.rest ∧
      found.tabs = returned line (stored line) (countedTabs line) ending := by
  have replayed := readLine_replay stale results
  rw [returned_] at replayed
  rcases replay_shape stale stale results with ⟨line, whole, same⟩ | ⟨line, ending, rest, whole, same⟩
  · rw [same] at replayed
    exact absurd replayed (readLineFrom_open whole [] 0 stale _)
  · rw [same, readLine_line whole] at replayed
    by_cases long : Overruns line (stored line) ending
    · rw [if_pos long] at replayed
      cases replayed
    · rw [if_neg long] at replayed
      have lines := Except.ok.inj replayed
      have behind : rest = replay stale stale found.rest := congrArg Line.rest lines
      have tabs := congrArg Line.tabs lines
      exact ⟨line, ending, whole, long, behind ▸ same, tabs.symm⟩

/-- A call returns where a line ends that fits, whatever comes behind the end. -/
theorem readLine_ends {results rest : List ReadResult} {line : List (BitVec 8)}
    (ending : LineEnd) (whole : 0x0a ∉ line) (fits : ¬ Overruns line (stored line) ending)
    (same : replay stale stale results = delivered line ++ ending.result :: rest) :
    ∃ found, readLine stale results = .ok found ∧ replay stale stale found.rest = rest ∧
      found.tabs = returned line (stored line) (countedTabs line) ending := by
  have replayed := readLine_replay stale results
  rw [same, readLine_line whole, if_neg fits] at replayed
  cases called : readLine stale results with
  | error fault =>
    rw [called] at replayed
    cases replayed
  | ok found =>
    rw [called] at replayed
    have lines := Except.ok.inj replayed
    exact ⟨found, rfl, (congrArg Line.rest lines).symm, (congrArg Line.tabs lines).symm⟩

/-- What `ReadLine` returns is -2 only at the end of the file. -/
theorem returned_last (line : List (BitVec 8)) (ending : LineEnd) :
    returned line (stored line) (countedTabs line) ending = -2 ↔
      0x23 ∉ line ∧ ending = .endOfFile := by
  by_cases comment : 0x23 ∈ line
  · rw [returned_comment comment]
    exact iff_of_false (by decide) fun both => both.1 comment
  · cases ending with
    | newline =>
      have other := lineCall_newline line
      simp only [lineCall] at other
      refine iff_of_false other ?_
      rintro ⟨_, same⟩
      cases same
    | endOfFile =>
      rw [returned_endOfFile comment]
      exact iff_of_true rfl ⟨comment, rfl⟩

/-- If all calls return, the first one does, and it is the last one or the others return. -/
theorem readLines_cases {fuel : Nat} {results : List ReadResult}
    {calls : List (Int × List (BitVec 8))} (read : readLines stale (fuel + 1) results = .ok calls) :
    ∃ found, readLine stale results = .ok found ∧
      (found.tabs = -2 ∨
        found.tabs ≠ -2 ∧ ∃ later, readLines stale fuel found.rest = .ok later) := by
  rw [readLines] at read
  cases called : readLine stale results with
  | error fault =>
    rw [called] at read
    cases read
  | ok found =>
    rw [called] at read
    simp only [bind, Except.bind] at read
    refine ⟨found, rfl, ?_⟩
    by_cases last : found.tabs = -2
    · exact Or.inl last
    · rw [if_neg last] at read
      cases rest : readLines stale fuel found.rest with
      | error fault =>
        rw [rest] at read
        cases read
      | ok later => exact Or.inr ⟨last, later, rfl⟩

/-- If all calls return, the results finish. By induction on the fuel, which the calls have used up
at most. -/
theorem finishes_of_readLines (fuel : Nat) (results : List ReadResult)
    (calls : List (Int × List (BitVec 8))) (read : readLines stale fuel results = .ok calls) :
    Finishes (replay stale stale results) := by
  induction fuel generalizing results calls with
  | zero => cases read
  | succ fuel inductionHypothesis =>
    obtain ⟨found, called, goes⟩ := readLines_cases stale read
    obtain ⟨line, ending, whole, fits, same, tabs⟩ := readLine_returns stale called
    have ends := returned_last line ending
    rw [← tabs] at ends
    rw [same]
    rcases goes with last | ⟨more, later, rest⟩
    · obtain ⟨free, rfl⟩ := ends.mp last
      exact Finishes.last line _ whole free fits
    · have passed : ending = .newline ∨ 0x23 ∈ line := by
        by_contra neither
        rw [not_or] at neither
        cases ending with
        | newline => exact neither.1 rfl
        | endOfFile => exact more (ends.mpr ⟨neither.2, rfl⟩)
      exact Finishes.more line ending _ ⟨whole, fits, passed⟩
        (inductionHypothesis found.rest later rest)

/-- If the results finish, all calls return, with fuel for as many calls as there are results. -/
theorem readLines_of_finishes {replayed : List ReadResult} (finishes : Finishes replayed)
    (results : List ReadResult) (same : replay stale stale results = replayed) (fuel : Nat)
    (enough : replayed.length ≤ fuel) : ∃ calls, readLines stale fuel results = .ok calls := by
  induction finishes generalizing results fuel with
  | last line rest whole free fits =>
    cases fuel with
    | zero => simp at enough
    | succ fuel =>
      obtain ⟨found, called, _, tabs⟩ := readLine_ends stale .endOfFile whole fits same
      rw [returned_endOfFile free] at tabs
      refine ⟨[(found.tabs, found.readBuffer)], ?_⟩
      rw [readLines, called]
      simp only [bind, Except.bind, if_pos tabs]
  | more line ending rest passed later inductionHypothesis =>
    cases fuel with
    | zero => simp at enough
    | succ fuel =>
      obtain ⟨found, called, behind, tabs⟩ := readLine_ends stale ending passed.whole passed.fits same
      have goes : found.tabs ≠ -2 := by
        rw [tabs, Ne, returned_last]
        rintro ⟨free, rfl⟩
        rcases passed.more with newline | comment
        · cases newline
        · exact free comment
      have shorter : rest.length ≤ fuel := by
        simp only [List.length_append, List.length_cons] at enough
        omega
      obtain ⟨calls, read⟩ := inductionHypothesis found.rest behind fuel shorter
      refine ⟨(found.tabs, found.readBuffer) :: calls, ?_⟩
      rw [readLines, called]
      simp only [bind, Except.bind, if_neg goes, read]

/-- A lookup stops no later than the calls of `ReadLine` do, as it makes these calls and may stop
earlier. -/
theorem findTexts_ends (venid devid : BitVec 16) (fuel more : Nat) (results : List ReadResult)
    (calls : List (Int × List (BitVec 8))) (read : readLines stale fuel results = .ok calls)
    (vendor : Option (List (BitVec 8))) :
    ∃ names, findTexts stale venid devid (fuel + more) results vendor = .ok names := by
  induction fuel generalizing results calls vendor with
  | zero => cases read
  | succ fuel inductionHypothesis =>
    obtain ⟨found, called, goes⟩ := readLines_cases stale read
    rw [Nat.succ_add, findTexts, called]
    simp only [bind, Except.bind]
    rcases goes with last | ⟨going, later, rest⟩
    · have other : ¬ found.tabs = 0 := by omega
      have apart : ¬ found.tabs = 1 := by omega
      rw [if_neg fun both => other both.1, if_neg fun both => apart both.1, if_pos last]
      exact ⟨⟨vendor, none⟩, rfl⟩
    · have ends := inductionHypothesis found.rest later rest
      rw [if_neg going]
      split
      · exact ends (some found.readBuffer)
      · split
        · exact ⟨⟨vendor, some found.readBuffer⟩, rfl⟩
        · exact ends vendor

end Ends

/-- There is a result for each read, an error among them as well. -/
theorem firstReads_length (fails : Nat → Bool) (bytes : List (BitVec 8)) (reads : Nat) :
    (firstReads fails bytes reads).length = reads := by
  induction reads generalizing fails bytes with
  | zero => rfl
  | succ reads inductionHypothesis =>
    unfold firstReads
    split
    · exact congrArg (· + 1) (inductionHypothesis _ bytes)
    · split
      · exact congrArg (· + 1) (inductionHypothesis _ [])
      · exact congrArg (· + 1) (inductionHypothesis _ _)

/-- The scan ends exactly when, with the byte in `buf` for every read that fails, an end of
file comes outside of a comment, behind lines that fit in `read_buffer`. -/
theorem scan_ends_iff (stale : BitVec 8) (fails : Nat → Bool) (bytes : List (BitVec 8)) :
    ScanEnds stale fails bytes ↔
      ∃ reads, Finishes (replay stale stale (firstReads fails bytes reads)) := by
  constructor
  · rintro ⟨⟨reads, calls, read⟩, _⟩
    exact ⟨reads, finishes_of_readLines stale reads _ calls read⟩
  · rintro ⟨reads, finishes⟩
    have long : (replay stale stale (firstReads fails bytes reads)).length ≤ reads := by
      rw [replay_length, firstReads_length]
    obtain ⟨calls, read⟩ := readLines_of_finishes stale finishes _ rfl reads long
    refine ⟨⟨reads, calls, read⟩, fun venid devid ventxt devtxt => ?_⟩
    obtain ⟨names, found⟩ := findTexts_ends stale venid devid reads 1 _ calls read none
    refine ⟨reads, (storeName names.vendor ventxt, storeName names.device devtxt), ?_⟩
    rw [getVendorAndDeviceTexts_found, findNames]
    simp only [firstReads_length, found]
    rfl

/-- Reads that never fail are those of the file, so the text is one case of the results. -/
theorem firstReads_unfailing (bytes : List (BitVec 8)) :
    firstReads (fun _ => false) bytes (bytes.length + 2) = fileReads bytes := by
  induction bytes with
  | nil => rfl
  | cons byte bytes inductionHypothesis => exact congrArg (.byte byte :: ·) inductionHypothesis

/-- Without reads that fail, a scan ends if all lines of the file fit. -/
theorem scan_ends_unfailing (stale : BitVec 8) (bytes : List (BitVec 8))
    (kept : BufferKept stale bytes) : ScanEnds stale (fun _ => false) bytes := by
  obtain ⟨calls, read, _⟩ := kept
  rw [scan_ends_iff]
  refine ⟨bytes.length + 2, ?_⟩
  rw [firstReads_unfailing]
  exact finishes_of_readLines stale _ _ calls read

/-- Where all reads fail, there are failures only, and no byte of the file. -/
theorem firstReads_failed (bytes : List (BitVec 8)) (reads : Nat) :
    firstReads (fun _ => true) bytes reads = List.replicate reads .failed := by
  induction reads with
  | zero => rfl
  | succ reads inductionHypothesis =>
    rw [List.replicate_succ, ← inductionHypothesis]
    conv_lhs => unfold firstReads
    exact if_pos rfl

/-- A comment goes on for as long as reads fail, which the buffer's old byte does not end. -/
theorem skipComment_failed {buf : BitVec 8} (other : buf ≠ 0x0a) (reads : Nat) :
    skipComment buf (List.replicate reads .failed) = .error .waiting := by
  induction reads with
  | zero => rfl
  | succ reads inductionHypothesis =>
    rw [List.replicate_succ, skipComment, if_neg other]
    exact inductionHypothesis

/-- `ReadLine` does not return from a directory, all of whose reads fail, nor from a file of
which only the first byte can be read, which is a `#`. -/
theorem directory_never_ends :
    (∀ reads, ∃ fault, readLine 0 (firstReads (fun _ => true) [] reads) = .error fault) ∧
      (∀ reads, readLine 0 (firstReads (fun read => read ≠ 0) [0x23] reads) = .error .waiting) ∧
      ¬ ScanEnds 0 (fun _ => true) [] := by
  have directory : ∀ reads, ∃ fault,
      readLine 0 (firstReads (fun _ => true) [] reads) = .error fault := by
    intro reads
    rw [firstReads_failed]
    exact readLineFrom_failed [] 0 reads
  refine ⟨directory, ?_, ?_⟩
  · intro reads
    cases reads with
    | zero => rfl
    | succ reads =>
      have first : firstReads (fun read => read ≠ 0) [0x23] (reads + 1) =
          .byte 0x23 :: firstReads (fun _ => true) [] reads := rfl
      have comment : skipComment 0x23 (List.replicate reads .failed) = .error .waiting :=
        skipComment_failed (by decide) reads
      rw [first, firstReads_failed, readLine, readLineFrom, lineStep, if_pos rfl, comment]
      rfl
  · rintro ⟨⟨reads, calls, read⟩, _⟩
    obtain ⟨fault, never⟩ := directory reads
    cases reads with
    | zero => cases read
    | succ reads =>
      rw [readLines, never] at read
      cases read

end Lfdk.PciNames
