import Lfdk.ForegroundInvariant

/-!
# The main loop

One turn of the loop in `main` reads a key, offers it to `switch_key_press` and then to
the foreground window, handles all messages and paints. The program leaves the loop with
Q, and a callback can end it.

A turn also tells how the focus moved, and where each message came from that moved it: from
the start-up, from `switch_key_press`, or from a callback in the loop. The box does not
know its messages' origins, so they are listed beside it. They do not change what the loop
does: a turn is a run of the steps of the manager.
-/

namespace Lfdk.WindowManager

open Runs

universe u
variable {ω : Type u} (modules : Modules ω)

/-- Who put a message into the box. -/
inductive Origin where
  /-- a callback before the loop -/
  | startUp
  /-- `switch_key_press` -/
  | shortKey
  /-- a callback in the loop -/
  | callback
deriving DecidableEq, Repr

/-- A window that got the focus, and where the message came from. -/
structure FocusMove where
  origin : Origin
  window : Int
deriving DecidableEq, Repr

/-- The origins of the messages in the box, when those that were added since have this
one. -/
def arrivals (origin : Origin) (before after : Manager) (origins : List Origin) : List Origin :=
  List.replicate (after.msgBox.length - before.msgBox.length) origin ++ origins

/-- `handle_message_event` with the moves of the focus. -/
def watchMessages : Nat → Option Int → List Origin → System ω → Option (List FocusMove × System ω)
  | fuel, pCurWnd, origins, system =>
    match system.manager.msgBox, fuel with
    | [], _ => some ([], system)
    | _ :: _, 0 => none
    | message :: rest, fuel + 1 =>
      let taken := system.mapManager fun manager => { manager with msgBox := rest }
      let moved := (focusGiven pCurWnd message taken.manager).toList.map
        (FocusMove.mk (origins.headD .callback))
      (handleMessage modules pCurWnd message taken).bind fun (pCurWnd, system) =>
        (watchMessages fuel pCurWnd
          (arrivals .callback taken.manager system.manager origins.tail) system).map
            fun (moves, system) => (moved ++ moves, system)

/-- The program at the head of the loop, or where it stopped. -/
structure Loop (ω : Type u) where
  control : Control
  system : System ω
  /-- the origins of the messages in the box, from its end -/
  origins : List Origin

variable (ended : ω → Bool)

/-- `getch` is called: the loop goes on, and no callback has ended the program. -/
def Loop.Reads (loop : Loop ω) : Prop := loop.control = .running ∧ ended loop.system.world = false

instance (loop : Loop ω) : Decidable (loop.Reads ended) :=
  inferInstanceAs (Decidable (_ ∧ _))

/-- After a quit nothing is read any more, whether or not the program has ended otherwise. -/
theorem Loop.stopped_reads (loop : Loop ω) :
    ¬ Loop.Reads ended { loop with control := .stopped } := by
  rintro ⟨stopped, _⟩
  cases stopped

/-- One turn of the loop with what `getch` returned. -/
def turn (ibuf : BitVec 32) (loop : Loop ω) : List FocusMove × Loop ω :=
  let system := loop.system
  if loop.Reads ended then
    if ibuf = 0x71 ∨ ibuf = 0x51 then ([], { loop with control := .stopped })
    else
      let origin := if (switchKeyPress ibuf system.manager).1 then .shortKey else .callback
      let pressed := pressKey modules ibuf system
      let origins := arrivals origin system.manager pressed.manager loop.origins
      match watchMessages modules msgSize none origins pressed with
      | none => ([], { loop with control := .undefined })
      | some (moves, handled) =>
        match handlePaintWindows modules handled with
        | none => (moves, { loop with control := .undefined })
        | some painted =>
          (moves, ⟨.running, painted, arrivals .callback handled.manager painted.manager []⟩)
  else ([], loop)

/-- The start-up of `main` up to the loop, which is not reached when `init` fails. -/
def startUp (infos : List WindowInfo) (world : ω) : Loop ω :=
  let (ret, inited) := handleInitEvent modules ⟨Manager.registered infos, world, []⟩
  if ret ≠ 0 then ⟨.stopped, inited, []⟩
  else
    let started := handlePostStartWinEvent modules (handleStartWinEvent modules inited)
    ⟨.running, started, List.replicate started.manager.msgBox.length .startUp⟩

/-- When nothing is read, nothing happens, and the loop stays as it is. -/
theorem turn_idle (ibuf : BitVec 32) {loop : Loop ω} (idle : ¬ loop.Reads ended) :
    turn modules ended ibuf loop = ([], loop) := by
  rw [turn, if_neg idle]

/-- Either case of `q` ends the loop, before any window hears the key. -/
theorem turn_quit {ibuf : BitVec 32} (quit : ibuf = 0x71 ∨ ibuf = 0x51) {loop : Loop ω}
    (reads : loop.Reads ended) :
    turn modules ended ibuf loop = ([], { loop with control := .stopped }) := by
  rw [turn, if_pos reads, if_pos quit]

/-- One round of the loop over the box takes the newest message out, handles it, and goes on with
what is in the box then. -/
theorem watchMessages_cons (fuel : Nat) (pCurWnd previous : Option Int) (origins : List Origin)
    (system after : System ω) (message : MsgInfo) (rest : List MsgInfo)
    (box : system.manager.msgBox = message :: rest) :
    let taken := system.mapManager fun manager => { manager with msgBox := rest }
    handleMessage modules pCurWnd message taken = some (previous, after) →
      watchMessages modules (fuel + 1) pCurWnd origins system =
        (watchMessages modules fuel previous
          (arrivals .callback taken.manager after.manager origins.tail) after).map
            fun (moves, system) => ((focusGiven pCurWnd message taken.manager).toList.map
              (FocusMove.mk (origins.headD .callback)) ++ moves, system) := by
  intro taken handled
  conv_lhs => unfold watchMessages
  rw [box]
  simp only
  change (handleMessage modules pCurWnd message taken).bind _ = _
  rw [handled]
  rfl

/-- Watching the messages handles them as `handle_message_event` does: the record of the focus moves
is all that is added. -/
theorem watchMessages_handled (fuel : Nat) (pCurWnd : Option Int) (origins : List Origin)
    (system : System ω) :
    (watchMessages modules fuel pCurWnd origins system).map Prod.snd =
      handleMessages modules fuel pCurWnd system := by
  induction fuel generalizing pCurWnd origins system with
  | zero =>
    unfold watchMessages handleMessages
    cases system.manager.msgBox with
    | nil => rfl
    | cons message rest => rfl
  | succ fuel inductionHypothesis =>
    unfold watchMessages handleMessages
    cases system.manager.msgBox with
    | nil => rfl
    | cons message rest =>
      simp only [Option.map_bind]
      congr 1
      funext result
      rw [← inductionHypothesis result.1]
      simp only [Function.comp_apply, Option.map_map]
      rfl

/-- The start-up is three steps of the manager, or the one that fails. -/
theorem startUp_run (infos : List WindowInfo) (world : ω) :
    ∃ count, final (step modules) (List.replicate count .next) (State.start infos world) =
      ⟨(startUp modules infos world).control, (startUp modules infos world).system⟩ := by
  rcases outcome : handleInitEvent modules ⟨Manager.registered infos, world, []⟩ with ⟨ret, inited⟩
  by_cases success : ret = 0
  · refine ⟨3, ?_⟩
    simp [final, List.replicate_succ, State.start, step, startUp, outcome, success]
  · refine ⟨1, ?_⟩
    simp [final, State.start, step, startUp, outcome, success]

/-- A turn after which the loop goes on is a run of the manager's steps. -/
theorem turn_run (ibuf : BitVec 32) (loop : Loop ω)
    (goesOn : (turn modules ended ibuf loop).2.control = .running) :
    ∃ moves, final (step modules) moves ⟨loop.control, loop.system⟩ =
      ⟨.running, (turn modules ended ibuf loop).2.system⟩ := by
  unfold turn at goesOn ⊢
  by_cases reads : loop.Reads ended
  · simp only [if_pos reads] at goesOn ⊢
    by_cases quit : ibuf = 0x71 ∨ ibuf = 0x51
    · rw [if_pos quit] at goesOn
      cases goesOn
    · simp only [if_neg quit] at goesOn ⊢
      split at goesOn
      · cases goesOn
      · next moves handled watched =>
        split at goesOn
        · cases goesOn
        · next painted drawn =>
          have returned := watchMessages_handled modules msgSize none
            (arrivals (if (switchKeyPress ibuf loop.system.manager).1 then .shortKey
              else .callback) loop.system.manager (pressKey modules ibuf loop.system).manager
              loop.origins) (pressKey modules ibuf loop.system)
          rw [watched] at returned
          obtain ⟨count, ran⟩ := handleMessageEvent_run modules msgSize _ handled returned.symm
          refine ⟨.key ibuf :: (List.replicate count .next ++ [.paint]), ?_⟩
          have pressed : (step modules (.key ibuf) ⟨loop.control, loop.system⟩).2 =
              ⟨.running, pressKey modules ibuf loop.system⟩ := by
            rw [reads.1]
            simp only [step]
            rw [if_neg quit]
          rw [final, List.foldl_cons, pressed, List.foldl_append]
          rw [final] at ran
          rw [ran]
          simp [step, drawn, continueWith]
  · simp only [if_neg reads] at goesOn ⊢
    refine ⟨[], ?_⟩
    rw [← goesOn]
    rfl

end Lfdk.WindowManager
