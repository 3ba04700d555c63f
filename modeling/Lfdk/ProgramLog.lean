import Lfdk.KernelLog

/-!
# The log of the program

The program writes its messages to a file, to the log of the kernel, or to both, if their
level is at most the one of the command line. For the kernel a message is formatted into
`k_buf`, which cuts it to 255 characters, and the whole of `k_buf` is written to the device
file, with what earlier messages left behind the end of the string.

The end is always among the bytes that are written. So each message is printed as it is
meant, whatever was written to the device file before and in between, by whomever, and
it begins as in the file.
-/

namespace Lfdk.KernelLog

open Runs

/-- `ERR_OPEN_FILE` -/
def errOpenFile : Int := -30

/-- The variables of `debug.c`, and `debug_lv` of the command line. Of the file there is what
was written to it. -/
structure DebugLog where
  debugFd : Option (List (BitVec 8))
  kLogFd : Int
  kBuf : Vector (BitVec 8) 256
  debugLv : Int
deriving DecidableEq

/-- `debug_init`, when `fopen` succeeds or not. -/
def debugInit (opened : Bool) (fdLfdd : Int) (log : DebugLog) : Int × DebugLog :=
  if opened then (0, { log with debugFd := some [], kLogFd := fdLfdd })
  else (errOpenFile, { log with debugFd := none })

/-- `debug_log` with the formatted text. -/
def debugLog (lv : Int) (text : List (BitVec 8)) (log : DebugLog) : Int × DebugLog :=
  match log.debugFd with
  | none => (0, log)
  | some written =>
    if lv ≤ log.debugLv then (text.length, { log with debugFd := some (written ++ text) })
    else (0, log)

/-- `vsnprintf(k_buf, sizeof(k_buf), ...)` -/
def vsnprintf (text : List (BitVec 8)) (kBuf : Vector (BitVec 8) 256) : Vector (BitVec 8) 256 :=
  Vector.ofFn fun place =>
    if (place : Nat) < (text.take 255).length then (text.take 255).getD place 0
    else if (place : Nat) = (text.take 255).length then 0 else kBuf.get place

/-- `debug_k_log` with the formatted text, and what is printed, if something is. -/
def debugKLog (lv : Int) (text : List (BitVec 8)) (log : DebugLog) (buffer : LogBuffer) :
    Option (Option (List (BitVec 8))) × DebugLog × LogBuffer :=
  if log.kLogFd ≠ 0 ∧ lv ≤ log.debugLv then
    let kBuf := vsnprintf text log.kBuf
    let (printed, buffer) := lfddWrite ⟨fun place => kBuf[place]?.getD 0, 256⟩ buffer
    (some printed, { log with kBuf := kBuf }, buffer)
  else (none, log, buffer)

/-- What reaches the logs: messages of the program by the macros `log_`, `log_k_` and `logx_`,
and what other programs write to the device file. -/
inductive LogEvent where
  | log (lv : Int) (text : List (BitVec 8))
  | logK (lv : Int) (text : List (BitVec 8))
  | logX (lv : Int) (text : List (BitVec 8))
  | other (write : Write)

/-- One of them, with what the kernel prints. -/
def logStep (event : LogEvent) (state : DebugLog × LogBuffer) :
    Option (Option (List (BitVec 8))) × DebugLog × LogBuffer :=
  match event with
  | .log lv text => (none, (debugLog lv text state.1).2, state.2)
  | .logK lv text => debugKLog lv text state.1 state.2
  | .logX lv text => debugKLog lv text (debugLog lv text state.1).2 state.2
  | .other write => (some (lfddWrite write state.2).1, state.1, (lfddWrite write state.2).2)

/-- What an event of the program is to add to the file. -/
def LogEvent.filed (debugLv : Int) : LogEvent → List (BitVec 8)
  | .log lv text | .logX lv text => if lv ≤ debugLv then text else []
  | .logK _ _ | .other _ => []

/-- And what the kernel is to print. -/
def LogEvent.printed (debugLv : Int) : LogEvent → Option (List (BitVec 8))
  | .logK lv text | .logX lv text =>
    if lv ≤ debugLv then some ((text.take 255).takeWhile (· ≠ 0)) else none
  | .log _ _ | .other _ => none

section Buffer

variable (text : List (BitVec 8)) (kBuf : Vector (BitVec 8) 256)

/-- The text is stored with its end, cut to 255 bytes. The bytes behind it stay. -/
theorem vsnprintf_byte (place : Nat) (inside : place < 256) :
    (vsnprintf text kBuf)[place] =
      if place < (text.take 255).length then (text.take 255).getD place 0
      else if place = (text.take 255).length then 0 else kBuf[place] :=
  Vector.getElem_ofFn ..

/-- The buffer holds the text, its end, and what was there before behind them. -/
theorem vsnprintf_toList :
    (vsnprintf text kBuf).toList =
      text.take 255 ++ 0 :: kBuf.toList.drop ((text.take 255).length + 1) := by
  have short : (text.take 255).length ≤ 255 := List.length_take_le 255 text
  apply List.ext_getElem
  · simp only [Vector.length_toList, List.length_append, List.length_cons, List.length_drop]
    omega
  · intro place first second
    have inside : place < 256 := by simpa using first
    rw [Vector.getElem_toList, vsnprintf_byte _ _ _ inside]
    by_cases written : place < (text.take 255).length
    · rw [if_pos written, List.getElem_append_left written, List.getD_eq_getElem?_getD,
        List.getElem?_eq_getElem written, Option.getD_some]
    · rw [if_neg written, List.getElem_append_right (by omega)]
      by_cases last : place = (text.take 255).length
      · rw [if_pos last]
        simp only [last, Nat.sub_self, List.getElem_cons_zero]
      · have behind : place - (text.take 255).length =
            place - ((text.take 255).length + 1) + 1 := by omega
        have same : (text.take 255).length + 1 + (place - ((text.take 255).length + 1)) =
            place := by omega
        simp only [if_neg last, behind, List.getElem_cons_succ, List.getElem_drop,
          Vector.getElem_toList, same]

/-- The string in the buffer: the first 255 characters of the text, or fewer where it ends before.
-/
theorem vsnprintf_string :
    (vsnprintf text kBuf).toList.takeWhile (· ≠ 0) = (text.take 255).takeWhile (· ≠ 0) := by
  rw [vsnprintf_toList, List.append_cons]
  rw [takeWhile_ended (List.mem_append_right _ (List.mem_singleton_self _))]
  by_cases ended : 0 ∈ text.take 255
  · exact takeWhile_ended ended [0]
  · rw [takeWhile_open ended]
    have whole := takeWhile_open ended []
    rw [List.append_nil] at whole
    rw [whole]
    rfl

/-- The write of the buffer prints it, whatever the driver's buffer holds. -/
theorem lfddWrite_kBuf (buffer : LogBuffer) :
    (lfddWrite ⟨fun place => (vsnprintf text kBuf)[place]?.getD 0, 256⟩ buffer).1 =
      some ((text.take 255).takeWhile (· ≠ 0)) := by
  let write : Write := ⟨fun place => (vsnprintf text kBuf)[place]?.getD 0, 256⟩
  have copied : copyLen write.len = 256 := copyLen_eq 256
  have bytes : write.bytes 256 = (vsnprintf text kBuf).toList := by
    apply List.ext_getElem
    · simp [Write.bytes]
    · intro place first second
      have inside : place < 256 := by simpa using second
      rw [Vector.getElem_toList]
      simp [Write.bytes, write, inside]
  have ended : 0 ∈ write.bytes (copyLen write.len) := by
    rw [copied, bytes, vsnprintf_toList]
    exact List.mem_append_right _ List.mem_cons_self
  have short : ((text.take 255).takeWhile (· ≠ 0)).length ≤ 511 := by
    have most := (List.takeWhile_sublist (· ≠ 0) (l := text.take 255)).length_le
    have cut := List.length_take_le 255 text
    omega
  have string : write.text = (text.take 255).takeWhile (· ≠ 0) := by
    have count : write.len.toNat = 256 := rfl
    rw [Write.text, count, bytes, vsnprintf_string, List.take_of_length_le short]
  rw [← string]
  exact (lfddWrite_exact_iff write buffer).mpr (.inl ended)

end Buffer

section Runs

variable {log : DebugLog} (state : DebugLog × LogBuffer) (event : LogEvent)

/-- A message to the file changes no setting of the log: neither its level nor the driver's
descriptor. -/
theorem debugLog_settings (lv : Int) (text : List (BitVec 8)) (log : DebugLog) :
    (debugLog lv text log).2.kLogFd = log.kLogFd ∧
      (debugLog lv text log).2.debugLv = log.debugLv := by
  cases file : log.debugFd with
  | none => simp only [debugLog, file, and_self]
  | some written =>
    simp only [debugLog, file]
    split
    · exact ⟨rfl, rfl⟩
    · exact ⟨rfl, rfl⟩

/-- Neither does a message to the kernel, which leaves the file alone as well. -/
theorem debugKLog_keeps (lv : Int) (text : List (BitVec 8)) (log : DebugLog) (buffer : LogBuffer) :
    (debugKLog lv text log buffer).2.1.kLogFd = log.kLogFd ∧
      (debugKLog lv text log buffer).2.1.debugLv = log.debugLv ∧
        (debugKLog lv text log buffer).2.1.debugFd = log.debugFd := by
  rw [debugKLog]
  split
  · exact ⟨rfl, rfl, rfl⟩
  · exact ⟨rfl, rfl, rfl⟩

/-- A message that passes the level is printed, cut to what the buffer holds, and any other is not
written at all. -/
theorem debugKLog_prints (lv : Int) (text : List (BitVec 8)) (log : DebugLog)
    (buffer : LogBuffer) (open_ : log.kLogFd ≠ 0) :
    (debugKLog lv text log buffer).1 =
      if lv ≤ log.debugLv then some (some ((text.take 255).takeWhile (· ≠ 0))) else none := by
  rw [debugKLog]
  by_cases passes : lv ≤ log.debugLv
  · rw [if_pos ⟨open_, passes⟩, if_pos passes]
    exact congrArg some (lfddWrite_kBuf text log.kBuf buffer)
  · rw [if_neg fun both => passes both.2, if_neg passes]

/-- The settings stay, and the file grows by what is logged to it. -/
theorem logStep_keeps :
    (logStep event state).2.1.kLogFd = state.1.kLogFd ∧
      (logStep event state).2.1.debugLv = state.1.debugLv ∧
        ∀ written, state.1.debugFd = some written →
          (logStep event state).2.1.debugFd = some (written ++ event.filed state.1.debugLv) := by
  have filed : ∀ lv text written, state.1.debugFd = some written →
      (debugLog lv text state.1).2.debugFd =
        some (written ++ if lv ≤ state.1.debugLv then text else []) := by
    intro lv text written file
    simp only [debugLog, file]
    split
    · rfl
    · rw [List.append_nil]
      exact file
  cases event with
  | log lv text =>
    obtain ⟨fd, level⟩ := debugLog_settings lv text state.1
    exact ⟨fd, level, filed lv text⟩
  | logK lv text =>
    obtain ⟨fd, level, file⟩ := debugKLog_keeps lv text state.1 state.2
    refine ⟨fd, level, fun written own => ?_⟩
    rw [LogEvent.filed, List.append_nil, ← own]
    exact file
  | logX lv text =>
    obtain ⟨fd, level⟩ := debugLog_settings lv text state.1
    obtain ⟨fdK, levelK, file⟩ := debugKLog_keeps lv text (debugLog lv text state.1).2 state.2
    exact ⟨fdK.trans fd, levelK.trans level, fun written own =>
      file.trans (filed lv text written own)⟩
  | other write =>
    refine ⟨rfl, rfl, fun written own => ?_⟩
    rw [LogEvent.filed, List.append_nil]
    exact own

/-- An event of the program has printed what it is to print. -/
theorem logStep_prints (open_ : state.1.kLogFd ≠ 0) (own : ∀ write, event ≠ .other write) :
    (logStep event state).1 = (event.printed state.1.debugLv).map some := by
  have mapped : ∀ (lv : Int) (text : List (BitVec 8)),
      (if lv ≤ state.1.debugLv then some (some ((text.take 255).takeWhile (· ≠ 0))) else none) =
        (if lv ≤ state.1.debugLv then some ((text.take 255).takeWhile (· ≠ 0)) else none).map
          some := by
    intro lv text
    split
    · rfl
    · rfl
  cases event with
  | log lv text => rfl
  | logK lv text =>
    rw [LogEvent.printed, ← mapped]
    exact debugKLog_prints lv text state.1 state.2 open_
  | logX lv text =>
    obtain ⟨fd, level⟩ := debugLog_settings lv text state.1
    rw [LogEvent.printed, ← mapped, ← level]
    exact debugKLog_prints lv text (debugLog lv text state.1).2 state.2 (fd ▸ open_)
  | other write => exact absurd rfl (own write)

/-- The file holds what was logged to it, in order, behind what it held before. -/
theorem file_grows (events : List LogEvent) (state : DebugLog × LogBuffer)
    (written : List (BitVec 8)) (file : state.1.debugFd = some written) :
    (final logStep events state).1.debugFd =
      some (written ++ events.flatMap fun event => event.filed state.1.debugLv) := by
  induction events generalizing state written with
  | nil =>
    rw [List.flatMap_nil, List.append_nil]
    exact file
  | cons event rest inductionHypothesis =>
    obtain ⟨_, level, grown⟩ := logStep_keeps state event
    have later := inductionHypothesis (logStep event state).2 _ (grown written file)
    rw [level] at later
    rw [List.flatMap_cons, ← List.append_assoc]
    exact later

end Runs

/-- After the log is opened, in any order of messages of the program and of writes of others, and
whatever the driver's buffer holds: the file gets all messages that pass the level, and each
that is for the kernel is printed once it is logged, up to 255 characters, and no other. -/
theorem messages_logged (log : DebugLog) (fdLfdd : Int) (open_ : fdLfdd ≠ 0) (buffer : LogBuffer)
    (events : List LogEvent) :
    (final logStep events ((debugInit true fdLfdd log).2, buffer)).1.debugFd =
        some (events.flatMap fun event => event.filed log.debugLv) ∧
      ∀ stage ∈ stages logStep events ((debugInit true fdLfdd log).2, buffer),
        (∀ write, stage.input ≠ .other write) →
          stage.output = (stage.input.printed log.debugLv).map some := by
  constructor
  · exact file_grows events ((debugInit true fdLfdd log).2, buffer) [] rfl
  · intro stage member own
    obtain ⟨_, ⟨fd, level⟩, ran⟩ := stages_invariant logStep
      (fun state => state.1.kLogFd = fdLfdd ∧ state.1.debugLv = log.debugLv) events
      ((debugInit true fdLfdd log).2, buffer) ⟨rfl, rfl⟩
      (fun event _ state held => by
        obtain ⟨fd, level, _⟩ := logStep_keeps state event
        exact ⟨fd.trans held.1, level.trans held.2⟩) stage member
    have printed := logStep_prints stage.before stage.input (fd ▸ open_) own
    rw [ran, level] at printed
    exact printed

/-- A message between two writes of another program that do not end their strings. -/
theorem message_between_writes :
    outputs logStep [.other longerText, .logX 1 [0x43], .other shorterText]
        ((debugInit true 3 ⟨none, 0, Vector.replicate 256 0, 4⟩).2, LogBuffer.zero) =
      [some (some [0x41, 0x42]), some (some [0x43]), some (some [0x43])] ∧
    ∀ stage ∈ stages logStep [.other longerText, .logX 1 [0x43], .other shorterText]
        ((debugInit true 3 ⟨none, 0, Vector.replicate 256 0, 4⟩).2, LogBuffer.zero),
      (∀ write, stage.input ≠ .other write) →
        stage.output = (stage.input.printed 4).map some := by
  constructor
  · decide +kernel
  · exact (messages_logged ⟨none, 0, Vector.replicate 256 0, 4⟩ 3 (by decide) LogBuffer.zero _).2

end Lfdk.KernelLog
