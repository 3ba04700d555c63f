import Lfdk.MessageEffects
import Lfdk.Runs

/-!
# At most one window in the foreground

The manager keeps the foreground twice: as a handle and as the state of a window.
A run starts from the registered pool, goes through the three start-up events in
the order of `main`, and then alternates keys, painting, requests and message
handling. The handling of one message is a step of its own, so a run may stop
between any two messages, and callbacks that keep requesting make a longer run.

In every state of every run the two sides agree, although the pointer to the
previous window may be an outdated one. That window then is not in the
foreground, and the step puts it into the background once more.
-/

namespace Lfdk.WindowManager

open Runs

universe u
variable {ω : Type u} (modules : Modules ω)

/-- Where the program is. -/
inductive Control where
  | registered
  | inited
  | started
  | running
  /-- in the loop of `handle_message_event`, with its `p_cur_wnd` -/
  | handling (pCurWnd : Option Int)
  /-- past the main loop, or at an initialisation that failed -/
  | stopped
  /-- an access outside the pool -/
  | undefined
deriving DecidableEq, Repr

structure State (ω : Type u) where
  control : Control
  system : System ω

inductive Move where
  | request (request : ApiRequest)
  | key (key : BitVec 32)
  | paint
  /-- the next start-up event, the next message, or a call or return of
  `handle_message_event` -/
  | next

/-- The part of the main loop that deals with a key. -/
def pressKey (key : BitVec 32) (system : System ω) : System ω :=
  let (found, manager) := switchKeyPress key system.manager
  if found = false ∧ 0 < key.toInt then handleKeyEvent modules key { system with manager := manager }
  else { system with manager := manager }

/-- What survives a request for the focus and a key press survives a key. -/
theorem pressKey_preserves (Holds : System ω → Prop) (key : BitVec 32) (system : System ω)
    (start : Holds system)
    (asked : ∀ pWin handle current, Holds current →
      Holds { current with manager := (requestWindowsFocus pWin handle current.manager).2 })
    (called : ∀ handle data current, Holds current →
      Holds (invoke modules .keyPress handle data current).2) :
    Holds (pressKey modules key system) := by
  have requested : Holds { system with manager := (switchKeyPress key system.manager).2 } := by
    unfold switchKeyPress
    split
    · exact start
    · exact asked _ _ system start
  simp only [pressKey]
  split
  · unfold handleKeyEvent
    split
    · exact requested
    · exact called _ _ _ requested
  · exact requested

/-- Continue with a system, if there is one. -/
def continueWith (control : Control) (state : State ω) : Option (System ω) → State ω
  | none => { state with control := .undefined }
  | some system => ⟨control, system⟩

/-- One step of the program. A request answers with what its function returns.
A move that is not possible where the program is does nothing. -/
def step (move : Move) (state : State ω) : Option Int × State ω :=
  let system := state.system
  match move, state.control with
  | .request request, .registered | .request request, .inited | .request request, .started
  | .request request, .running =>
    let (value, manager) := request.issue system.manager
    (value, ⟨state.control, { system with manager := manager }⟩)
  | .key key, .running =>
    if key = 0x71 ∨ key = 0x51 then (none, ⟨.stopped, system⟩)
    else (none, ⟨.running, pressKey modules key system⟩)
  | .paint, .running => (none, continueWith .running state (handlePaintWindows modules system))
  | .next, .registered =>
    let (ret, system) := handleInitEvent modules system
    (none, ⟨if ret = 0 then .inited else .stopped, system⟩)
  | .next, .inited => (none, ⟨.started, handleStartWinEvent modules system⟩)
  | .next, .started => (none, ⟨.running, handlePostStartWinEvent modules system⟩)
  | .next, .running => (none, ⟨.handling none, system⟩)
  | .next, .handling pCurWnd =>
    match system.manager.msgBox with
    | [] => (none, ⟨.running, system⟩)
    | message :: rest =>
      match handleMessage modules pCurWnd message
          (system.mapManager fun manager => { manager with msgBox := rest }) with
      | none => (none, ⟨.undefined, system⟩)
      | some (pCurWnd, system) => (none, ⟨.handling pCurWnd, system⟩)
  | _, _ => (none, state)

/-- The manager after the constructors of the modules have registered their
windows. -/
def Manager.registered (infos : List WindowInfo) : Manager :=
  infos.foldl (fun manager info => (registerWindows info manager).2) ⟨[], [], -1⟩

/-- The state in which `main` begins. -/
def State.start (infos : List WindowInfo) (world : ω) : State ω :=
  ⟨.registered, ⟨Manager.registered infos, world, []⟩⟩

/-- A loop over the messages that returns is a run of steps, one for each message
and one for the return. -/
theorem handleMessages_run (fuel : Nat) (pCurWnd : Option Int) (system after : System ω)
    (returned : handleMessages modules fuel pCurWnd system = some after) :
    ∃ count, final (step modules) (List.replicate count .next) ⟨.handling pCurWnd, system⟩ =
      ⟨.running, after⟩ := by
  induction fuel generalizing pCurWnd system with
  | zero =>
    unfold handleMessages at returned
    cases box : system.manager.msgBox with
    | nil =>
      rw [box] at returned
      obtain rfl := Option.some.inj returned
      exact ⟨1, by simp [final, step, box]⟩
    | cons message rest => simp [box] at returned
  | succ fuel inductionHypothesis =>
    unfold handleMessages at returned
    cases box : system.manager.msgBox with
    | nil =>
      rw [box] at returned
      obtain rfl := Option.some.inj returned
      exact ⟨1, by simp [final, step, box]⟩
    | cons message rest =>
      rw [box] at returned
      obtain ⟨⟨previous, next⟩, handled, others⟩ := Option.bind_eq_some_iff.mp returned
      obtain ⟨count, ran⟩ := inductionHypothesis previous next others
      refine ⟨count + 1, ?_⟩
      rw [List.replicate_succ, ← ran]
      simp [final, step, box, handled]

/-- A call of `handle_message_event` that returns is a run of steps of the main
loop. -/
theorem handleMessageEvent_run (fuel : Nat) (system after : System ω)
    (returned : handleMessageEvent modules fuel system = some after) :
    ∃ count, final (step modules) (List.replicate count .next) ⟨.running, system⟩ =
      ⟨.running, after⟩ := by
  obtain ⟨count, ran⟩ := handleMessages_run modules fuel none system after returned
  exact ⟨count + 1, by rw [List.replicate_succ, ← ran]; rfl⟩

section Steps

variable {infos : List WindowInfo} (wellNamed : modules.WellNamed infos)

include wellNamed

/-- Handling one message has a result, in which the two sides agree again and all
that is remembered names registered windows. -/
theorem handleMessage_spec (pCurWnd : Option Int) (message : MsgInfo) (system : System ω)
    (sound : Sound infos system.manager) (exclusive : Exclusive system.manager)
    (valid : ∀ handle ∈ pCurWnd, IsHandle infos handle) (registered : message.Registered infos) :
    ∃ previous after, handleMessage modules pCurWnd message system = some (previous, after) ∧
      Sound infos after.manager ∧ Exclusive after.manager ∧
      ∀ handle ∈ previous, IsHandle infos handle := by
  obtain rfl := sound.pool
  have total := handleMessage_total modules pCurWnd message system exclusive.named valid
    registered.1
  obtain ⟨⟨previous, after⟩, handled⟩ := Option.isSome_iff_exists.mp
    (total.mpr (focusGiven_registered pCurWnd message system.manager registered))
  have result := handleMessage_cases modules pCurWnd previous message system after handled
  obtain ⟨_, exclusiveAfter, validAfter⟩ := result.keeps modules exclusive valid
  refine ⟨previous, after, handled, ?_, exclusiveAfter, validAfter⟩
  exact result.preserves modules (Sound system.manager.infos) sound
    (fun _ _ _ held => held.invoke modules wellNamed _ _ _)
    (fun handle state _ held => held.setState handle state)
    (fun handle _ held => held.setFore handle)

end Steps

/-- The state of the manager while the windows are being started. -/
structure Starting (infos : List WindowInfo) (manager : Manager) : Prop where
  sound : Sound infos manager
  exclusive : Exclusive manager
  empty : manager.curForeWindowHandle = -1

section Starting

variable {infos : List WindowInfo}

/-- A callback that runs while the windows are still being registered leaves the foreground empty.
-/
theorem Starting.called {system : System ω} (starting : Starting infos system.manager)
    (wellNamed : modules.WellNamed infos) (callback : Callback) (handle : Int) :
    Starting infos (invoke modules callback handle none system).2.manager := by
  have extended := invoke_extends modules callback handle none system
  exact ⟨starting.sound.invoke modules wellNamed _ _ _, extended.exclusive starting.exclusive,
    extended.fore.trans starting.empty⟩

/-- So does a state that is not the foreground. -/
theorem Starting.entered {manager : Manager} (starting : Starting infos manager) (handle : Int)
    (state : WinState) (other : state ≠ .foreground) :
    Starting infos (manager.setState handle state) := by
  have empty : (manager.setState handle state).curForeWindowHandle = -1 := by
    rw [setState_fore, starting.empty]
  refine ⟨starting.sound.setState handle state, ?_, empty⟩
  exact (starting.exclusive.setState_unfocused handle state other
    (Or.inr starting.empty)).exclusive empty

end Starting

/-- Registering windows leaves an empty box, no foreground handle, and windows that
have not been started. -/
theorem registered_fields (infos : List WindowInfo) :
    (Manager.registered infos).msgBox = [] ∧
      (Manager.registered infos).curForeWindowHandle = -1 ∧
      ∀ handle window, (Manager.registered infos).window handle = some window →
        window.winState = .notStart := by
  have fresh : ∀ (infos : List WindowInfo) (manager : Manager), manager.msgBox = [] →
      manager.curForeWindowHandle = -1 →
      (∀ window ∈ manager.windowsPool, window.winState = .notStart) →
      let after := infos.foldl (fun manager info => (registerWindows info manager).2) manager
      after.msgBox = [] ∧ after.curForeWindowHandle = -1 ∧
        ∀ window ∈ after.windowsPool, window.winState = .notStart := by
    intro infos
    induction infos with
    | nil => exact fun _ box fore states => ⟨box, fore, states⟩
    | cons info rest inductionHypothesis =>
      intro manager box fore states
      rw [List.foldl_cons]
      refine inductionHypothesis _ ?_ ?_ ?_ <;> unfold registerWindows <;> split
      · exact box
      · exact box
      · exact fore
      · exact fore
      · exact states
      · intro window member
        rcases List.mem_append.mp member with old | new
        · exact states window old
        · rw [List.mem_singleton.mp new]
  obtain ⟨box, fore, states⟩ := fresh infos ⟨[], [], -1⟩ rfl rfl (by simp)
  refine ⟨box, fore, fun handle window found => ?_⟩
  unfold Manager.window at found
  split at found
  · exact states window (List.mem_of_getElem? found)
  · cases found

/-- A program whose windows have just been registered is being started: no window is in the
foreground. -/
theorem registered_starting (infos : List WindowInfo) :
    Starting (Manager.registered infos).infos (Manager.registered infos) := by
  obtain ⟨box, fore, states⟩ := registered_fields infos
  have unfocused : Unfocused (Manager.registered infos) := by
    intro handle window found
    rw [states handle window found]
    decide
  exact ⟨⟨rfl, by simp [box]⟩, unfocused.exclusive fore, fore⟩

/-- What is known at each place of the program, when one thing is known while the
windows are being started and another one in the main loop. -/
def Placed (infos : List WindowInfo) (Early Main : System ω → Prop) (state : State ω) : Prop :=
  match state.control with
  | .registered | .inited | .started => Early state.system
  | .running | .stopped => Main state.system
  | .handling pCurWnd => Main state.system ∧ ∀ handle ∈ pCurWnd, IsHandle infos handle
  | .undefined => False

/-- Something that is known at every place can be stated apart from what is known at this one. -/
theorem placed_and (infos : List WindowInfo) (Early Main Always : System ω → Prop)
    (state : State ω) :
    Placed infos (fun system => Early system ∧ Always system)
      (fun system => Main system ∧ Always system) state ↔
    Placed infos Early Main state ∧ Always state.system := by
  unfold Placed
  split <;> simp [and_right_comm]

/-- What the parts of the program other than the handling of messages keep. -/
structure Undisturbed (Early Main : System ω → Prop) : Prop where
  started : ∀ callback handle system,
    callback = .init ∨ callback = .startWin ∨ callback = .postStartWin → Early system →
      Early (invoke modules callback handle none system).2
  entered : ∀ handle state system,
    state = .inited ∨ state = .started ∨ state = .background → Early system →
      Early (system.mapManager fun manager => manager.setState handle state)
  begun : ∀ system, Early system → Main system
  asked : ∀ pWin handle system, Main system →
    Main { system with manager := (requestWindowsFocus pWin handle system.manager).2 }
  called : ∀ callback handle data system, callback = .keyPress ∨ callback = .paint → Main system →
    Main (invoke modules callback handle data system).2

/-- Two properties that nothing disturbs are both kept together. The invariant of the foreground is
such a pair. -/
theorem Undisturbed.and {Early Main OtherEarly OtherMain : System ω → Prop}
    (undisturbed : Undisturbed modules Early Main)
    (other : Undisturbed modules OtherEarly OtherMain) :
    Undisturbed modules (fun system => Early system ∧ OtherEarly system)
      (fun system => Main system ∧ OtherMain system) where
  started callback handle system kind held :=
    ⟨undisturbed.started callback handle system kind held.1,
      other.started callback handle system kind held.2⟩
  entered handle state system kind held :=
    ⟨undisturbed.entered handle state system kind held.1,
      other.entered handle state system kind held.2⟩
  begun system held := ⟨undisturbed.begun system held.1, other.begun system held.2⟩
  asked pWin handle system held :=
    ⟨undisturbed.asked pWin handle system held.1, other.asked pWin handle system held.2⟩
  called callback handle data system kind held :=
    ⟨undisturbed.called callback handle data system kind held.1,
      other.called callback handle data system kind held.2⟩

/-- A move handles the message on top of the box, or there is no message to handle: the two cases of
every argument about moves. -/
theorem move_cases (move : Move) (state : State ω) :
    (∃ pCurWnd system message rest, move = .next ∧ state = ⟨.handling pCurWnd, system⟩ ∧
      system.manager.msgBox = message :: rest) ∨
    ∀ pCurWnd, state.control = .handling pCurWnd → move = .next →
      state.system.manager.msgBox = [] := by
  obtain ⟨control, system⟩ := state
  by_cases empty : system.manager.msgBox = []
  · exact Or.inr fun _ _ _ => empty
  · obtain ⟨message, rest, box⟩ := List.exists_cons_of_ne_nil empty
    by_cases message : ∃ pCurWnd, control = .handling pCurWnd ∧ move = .next
    · obtain ⟨pCurWnd, rfl, rfl⟩ := message
      exact Or.inl ⟨pCurWnd, system, _, rest, rfl, rfl, box⟩
    · exact Or.inr fun pCurWnd same next => absurd ⟨pCurWnd, same, next⟩ message

/-- Every step keeps what is known at its place, except for the handling of a
message. -/
theorem Undisturbed.step {infos : List WindowInfo} {Early Main : System ω → Prop}
    (undisturbed : Undisturbed modules Early Main) (move : Move) (state : State ω)
    (valid : ∀ system, Main system → 0 ≤ system.manager.curForeWindowHandle →
      IsHandle system.manager.infos system.manager.curForeWindowHandle)
    (requested : ∀ request, move = .request request → ∀ system,
      (Early system → Early { system with manager := (request.issue system.manager).2 }) ∧
        (Main system → Main { system with manager := (request.issue system.manager).2 }))
    (quiet : ∀ pCurWnd, state.control = .handling pCurWnd → move = .next →
      state.system.manager.msgBox = [])
    (held : Placed infos Early Main state) :
    Placed infos Early Main (step modules move state).2 := by
  obtain ⟨control, system⟩ := state
  cases move with
  | request request =>
    obtain ⟨early, main⟩ := requested request rfl system
    cases control with
    | registered | inited | started => exact early held
    | running => exact main held
    | handling pCurWnd | stopped | undefined => exact held
  | key key =>
    cases control with
    | running =>
      simp only [WindowManager.step]
      split
      · exact held
      · exact pressKey_preserves modules Main key system held undisturbed.asked
          fun handle data current kept => undisturbed.called _ _ _ _ (Or.inl rfl) kept
    | registered | inited | started | handling pCurWnd | stopped | undefined => exact held
  | paint =>
    cases control with
    | running =>
      obtain ⟨after, painted⟩ := handlePaintWindows_total modules system
        (valid system held)
      simp only [WindowManager.step, painted]
      exact handlePaintWindows_preserves modules Main system after painted held
        fun handle current kept => undisturbed.called _ _ _ _ (Or.inr rfl) kept
    | registered | inited | started | handling pCurWnd | stopped | undefined => exact held
  | next =>
    cases control with
    | registered =>
      have kept : Early (handleInitEvent modules system).2 :=
        initWindows_preserves modules Early system.manager.handles system held
          (fun handle _ early => undisturbed.started _ _ _ (Or.inl rfl) early)
          (fun handle _ early => undisturbed.entered _ _ _ (Or.inl rfl) early)
      rcases outcome : handleInitEvent modules system with ⟨ret, after⟩
      rw [outcome] at kept
      simp only [WindowManager.step, outcome]
      by_cases success : ret = 0
      · rw [if_pos success]
        exact kept
      · rw [if_neg success]
        exact undisturbed.begun after kept
    | inited =>
      exact promoted_preserves modules Early .inited .started .startWin _ system held
        (fun handle _ early => undisturbed.started _ _ _ (Or.inr (Or.inl rfl)) early)
        (fun handle _ early => undisturbed.entered _ _ _ (Or.inr (Or.inl rfl)) early)
    | started =>
      apply undisturbed.begun
      exact promoted_preserves modules Early .started .background .postStartWin _ system held
        (fun handle _ early => undisturbed.started _ _ _ (Or.inr (Or.inr rfl)) early)
        (fun handle _ early => undisturbed.entered _ _ _ (Or.inr (Or.inr rfl)) early)
    | running => exact ⟨held, by simp⟩
    | handling pCurWnd =>
      have box : system.manager.msgBox = [] := quiet pCurWnd rfl rfl
      simp only [WindowManager.step, box]
      exact held.1
    | stopped | undefined => exact held

/-- What holds at each place of the program. -/
def Invariant (infos : List WindowInfo) (state : State ω) : Prop :=
  match state.control with
  | .registered | .inited | .started => Starting infos state.system.manager
  | .running | .stopped => Sound infos state.system.manager ∧ Exclusive state.system.manager
  | .handling pCurWnd => Sound infos state.system.manager ∧ Exclusive state.system.manager ∧
      ∀ handle ∈ pCurWnd, IsHandle infos handle
  | .undefined => False

/-- The invariant is its two parts side by side, the one before the main loop and the one in it. So
the parts can be proved one by one. -/
theorem invariant_iff (infos : List WindowInfo) (state : State ω) :
    Invariant infos state ↔ Placed infos (fun system => Starting infos system.manager)
      (fun system => Sound infos system.manager ∧ Exclusive system.manager) state := by
  unfold Invariant Placed
  split <;> simp [and_assoc]

/-- The two sides of the foreground agree as long as no message is handled. -/
theorem invariant_undisturbed {infos : List WindowInfo} (wellNamed : modules.WellNamed infos) :
    Undisturbed modules (fun system => Starting infos system.manager)
      (fun system => Sound infos system.manager ∧ Exclusive system.manager) where
  started callback handle system _ starting := starting.called modules wellNamed callback handle
  entered handle state system target starting :=
    starting.entered handle state (by rcases target with rfl | rfl | rfl <;> decide)
  begun system starting := ⟨starting.sound, starting.exclusive⟩
  asked pWin handle system held :=
    ⟨held.1.issue (.windowsFocus pWin handle) (by simp [ApiRequest.WellNamed, ApiRequest.target]),
      (issue_extends (.windowsFocus pWin handle) system.manager).exclusive held.2⟩
  called callback handle data system _ held :=
    ⟨held.1.invoke modules wellNamed callback handle data,
      (invoke_extends modules callback handle data system).exclusive held.2⟩

/-- So do they when a request for registered windows is issued, since a message is all it can add.
-/
theorem invariant_requested {infos : List WindowInfo} (request : ApiRequest)
    (wellNamed : request.WellNamed infos) (system : System ω) :
    (Starting infos system.manager → Starting infos (request.issue system.manager).2) ∧
      (Sound infos system.manager ∧ Exclusive system.manager →
        Sound infos (request.issue system.manager).2 ∧
          Exclusive (request.issue system.manager).2) := by
  have extended := issue_extends request system.manager
  constructor
  · intro starting
    exact ⟨starting.sound.issue request wellNamed, extended.exclusive starting.exclusive,
      extended.fore.trans starting.empty⟩
  · rintro ⟨sound, exclusive⟩
    exact ⟨sound.issue request wellNamed, extended.exclusive exclusive⟩

/-- Every step keeps the invariant, so the program never reads outside the pool. -/
theorem step_invariant {infos : List WindowInfo} (wellNamed : modules.WellNamed infos)
    (move : Move) (state : State ω) (named : ∀ request, move = .request request →
      request.WellNamed infos) (held : Invariant infos state) :
    Invariant infos (step modules move state).2 := by
  rcases move_cases move state with ⟨pCurWnd, system, message, rest, rfl, rfl, box⟩ | quiet
  · obtain ⟨sound, exclusive, valid⟩ := held
    obtain ⟨registered, others⟩ := List.forall_mem_cons.mp (box ▸ sound.box)
    have taken : Extends system.manager { system.manager with msgBox := rest } := ⟨rfl, rfl⟩
    obtain ⟨previous, after, handled, soundAfter, exclusiveAfter, validAfter⟩ :=
      handleMessage_spec modules wellNamed pCurWnd message
        (system.mapManager fun manager => { manager with msgBox := rest })
        ⟨sound.pool, others⟩ (taken.exclusive exclusive) valid registered
    simp only [step, box, handled]
    exact ⟨soundAfter, exclusiveAfter, validAfter⟩
  · rw [invariant_iff] at held ⊢
    apply (invariant_undisturbed modules wellNamed).step modules move state _ _ quiet held
    · exact fun system held => held.2.named
    · exact fun request same system => invariant_requested request (named request same) system

/-- In every state that a run of the program reaches, and so between any two
messages that it handles, no access outside the pool has been made, and either
there is no foreground handle and no window in the foreground, or the handle
names a registered window and that window is the only one in the foreground. -/
theorem foreground_reachable (infos : List WindowInfo) (world : ω) (moves : List Move)
    (wellNamed : modules.WellNamed (Manager.registered infos).infos)
    (named : ∀ request, .request request ∈ moves →
      request.WellNamed (Manager.registered infos).infos) :
    let state := final (step modules) moves (State.start infos world)
    let manager := state.system.manager
    state.control ≠ .undefined ∧
      ((manager.curForeWindowHandle = -1 ∧
          ∀ handle window, manager.window handle = some window →
            window.winState ≠ .foreground) ∨
        ∃ window, manager.window manager.curForeWindowHandle = some window ∧
          window.winState = .foreground ∧
          ∀ handle other, manager.window handle = some other → other.winState = .foreground →
            handle = manager.curForeWindowHandle) := by
  intro state manager
  have held : Invariant (Manager.registered infos).infos state :=
    final_invariant (step modules) (Invariant _) moves _ (registered_starting infos)
      (fun move member current => step_invariant modules wellNamed move current
        fun request same => named request (same ▸ member))
  have exclusive : state.control ≠ .undefined ∧ Exclusive manager := by
    unfold Invariant at held
    cases control : state.control <;> rw [control] at held <;>
      simp only [reduceCtorEq, ne_eq, not_false_eq_true, true_and]
    case registered | inited | started => exact held.exclusive
    case running | stopped => exact held.2
    case handling => exact held.2.1
    case undefined => exact held.elim
  refine ⟨exclusive.1, ?_⟩
  rcases exclusive.2.handle with empty | valid
  · exact Or.inl ⟨empty, exclusive.2.unfocused empty⟩
  · obtain ⟨window, found⟩ := (isHandle_iff _ _).mp valid
    refine Or.inr ⟨window, found, (exclusive.2.agrees _ window found).mpr rfl, ?_⟩
    exact fun handle other known focused => (exclusive.2.agrees handle other known).mp focused

/-- A window that sets every callback and has no short key. -/
def WindowInfo.complete (name : String) : WindowInfo := ⟨name, 0, fun _ => true⟩

/-- Two modules: the first asks for the focus when it starts, and hands over to
the second as soon as it has it. -/
def handingOver : Modules Unit where
  run := fun callback handle _ world _ =>
    let scan := some (WindowInfo.complete "PCI-SCAN")
    let requests : List ApiRequest :=
      if handle = 0 ∧ callback = .startWin then [.windowsFocus scan 0]
      else if handle = 0 ∧ callback = .getFocus then [.xferControl scan 0 (some "PCI-LIST")]
      else []
    ⟨world, requests, 0⟩

/-- The two windows ask for windows that are registered, as the witnesses about handing over need
it. -/
theorem handingOver_wellNamed : handingOver.WellNamed
    (Manager.registered [.complete "PCI-SCAN", .complete "PCI-LIST"]).infos := by
  intro callback handle data world manager _ request member name asked
  refine ⟨.complete "PCI-LIST", List.mem_cons_of_mem _ List.mem_cons_self, ?_⟩
  simp only [handingOver] at member
  split at member
  · obtain rfl := List.mem_singleton.mp member
    cases asked
  · split at member
    · obtain rfl := List.mem_singleton.mp member
      cases asked
      rfl
    · cases member

/-- The start leads to two messages, and after them the second window is the only
one in the foreground. -/
theorem scan_hands_over :
    let state := final (step handingOver) (List.replicate 6 .next)
      (State.start [.complete "PCI-SCAN", .complete "PCI-LIST"] ())
    let manager := state.system.manager
    state.control ≠ .undefined ∧
      ((manager.curForeWindowHandle = -1 ∧
          ∀ handle window, manager.window handle = some window →
            window.winState ≠ .foreground) ∨
        ∃ window, manager.window manager.curForeWindowHandle = some window ∧
          window.winState = .foreground ∧
          ∀ handle other, manager.window handle = some other → other.winState = .foreground →
            handle = manager.curForeWindowHandle) := by
  exact foreground_reachable handingOver [.complete "PCI-SCAN", .complete "PCI-LIST"] () _
    handingOver_wellNamed (by simp)

example : (final (step handingOver) (List.replicate 6 .next)
    (State.start [.complete "PCI-SCAN", .complete "PCI-LIST"] ())).system.calls =
      [(.init, 0), (.init, 1), (.startWin, 0), (.startWin, 1), (.postStartWin, 0),
        (.postStartWin, 1), (.getFocus, 0), (.lostFocus, 0), (.getFocus, 1)] := by
  decide +kernel

end Lfdk.WindowManager
