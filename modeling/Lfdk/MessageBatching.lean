import Lfdk.WindowEffects

/-!
# Messages handled in one call and one per call

`handle_message_event` keeps a pointer to the window that had the foreground
before, and does not clear it between messages. Within one call a later message
may therefore find a previous window although no window is in the foreground. A
call that handles a single message never does.

As long as callbacks issue no requests, this pointer is all that distinguishes
one call for all messages from one call for each. The two runs agree after every
message exactly when no message that looks at the pointer finds an outdated one
that makes a difference to it.
-/

namespace Lfdk.WindowManager

universe u
variable {ω : Type u} (modules : Modules ω)

/-- Modules whose callbacks issue no requests. -/
def Modules.Silent (modules : Modules ω) : Prop :=
  ∀ callback handle data world manager,
    (modules.run callback handle data world manager).requests = []

/-- Put a box in the place of the present one. -/
def System.withBox (system : System ω) (box : List MsgInfo) : System ω :=
  system.mapManager fun manager => { manager with msgBox := box }

/-- One call of `handle_message_event` for all messages, which are listed in the
order in which it handles them. -/
def allAtOnce (messages : List MsgInfo) (system : System ω) : Option (System ω) :=
  handleMessageEvent modules messages.length (system.withBox messages)

/-- One call of `handle_message_event` for each message. -/
def oneByOne : List MsgInfo → System ω → Option (System ω)
  | [], system => some system
  | message :: rest, system =>
    (handleMessageEvent modules 1 (system.withBox [message])).bind (oneByOne rest)

/-- What is compared: the states of all windows, the foreground handle and the
callbacks made. -/
def System.seen (system : System ω) : List WinState × Int × List (Callback × Int) :=
  (system.manager.windowsPool.map WinInfo.winState, system.manager.curForeWindowHandle,
    system.calls)

instance (infos : List WindowInfo) (handle : Int) : Decidable (IsHandle infos handle) :=
  inferInstanceAs (Decidable (_ ∧ _))

/-- The previous window makes no difference to a message. It does when there is no
window in the foreground and the message is a request for the focus, unless the
previous window has no `lost_focus` and is in the background or is the sender
itself; and when it is a transfer, unless it goes to the sender itself. -/
def Harmless (pCurWnd : Option Int) (message : MsgInfo) (manager : Manager) : Prop :=
  ∀ stale ∈ pCurWnd, manager.curForeWindowHandle < 0 →
    IsHandle manager.infos message.senderHandle →
    match message.msg with
    | .needFocus => ∀ window ∈ manager.window stale,
        window.pWin.defines .lostFocus = false ∧
          (stale = message.senderHandle ∨ window.winState = .background)
    | .xferControl target => message.senderHandle = target
    | .noUsed | .releaseFocus | .destroyWindow => True

instance (pCurWnd : Option Int) (message : MsgInfo) (manager : Manager) :
    Decidable (Harmless pCurWnd message manager) := by
  unfold Harmless
  cases message.msg <;> infer_instance

/-- In the state before each message of one call, the previous window makes no
difference to the message. -/
def Unstale : List MsgInfo → Option Int → System ω → Prop
  | [], _, _ => True
  | message :: rest, pCurWnd, system =>
    Harmless pCurWnd message system.manager ∧
      ∀ after ∈ handleMessage modules pCurWnd message system, Unstale rest after.1 after.2

instance Unstale.decidable : ∀ (messages : List MsgInfo) (pCurWnd : Option Int)
    (system : System ω), Decidable (Unstale modules messages pCurWnd system)
  | [], _, _ => isTrue trivial
  | _ :: rest, _, _ =>
    have _later : DecidablePred fun after : Option Int × System ω =>
        Unstale modules rest after.1 after.2 := fun after => decidable rest after.1 after.2
    inferInstanceAs (Decidable (_ ∧ _))

/-- Modules that do nothing. -/
def idleModules : Modules Unit := ⟨fun _ _ _ _ _ => ⟨(), [], 0⟩⟩

/-- Modules that do nothing make no requests, and so are one instance of the silent ones. -/
theorem idle_silent : idleModules.Silent := fun _ _ _ _ _ => rfl

/-- A system without its world and its box. -/
def System.bare (system : System ω) : System Unit :=
  ⟨{ system.manager with msgBox := [] }, (), system.calls⟩

section Bare

variable (handle : Int) (system : System ω)

/-- What a handle stands for does not depend on the world and the box. -/
@[simp] theorem bare_window : system.bare.manager.window handle = system.manager.window handle := rfl

/-- Neither does the foreground, which is a part of the pool. -/
@[simp] theorem bare_fore :
    system.bare.manager.curForeWindowHandle = system.manager.curForeWindowHandle := rfl

/-- Another box makes no difference once the box is left out. -/
@[simp] theorem bare_withBox (box : List MsgInfo) : (system.withBox box).bare = system.bare := rfl

/-- The foreground is changed without regard to the world and the box. -/
@[simp] theorem bare_setFore :
    (system.mapManager fun manager => manager.setFore handle).bare =
      system.bare.mapManager fun manager => manager.setFore handle := rfl

/-- So are the states of the windows: to set one and to leave the box out can be done in either
order. -/
@[simp] theorem bare_setState (state : WinState) :
    (system.mapManager fun manager => manager.setState handle state).bare =
      system.bare.mapManager fun manager => manager.setState handle state := by
  simp only [System.mapManager, System.bare, Manager.setState]
  split <;> rfl

variable {modules} (silent : modules.Silent)

include silent

/-- A callback that issues no requests leaves the manager alone, its box included. -/
theorem invoke_silent (callback : Callback) (data : Option (BitVec 32)) :
    (invoke modules callback handle data system).2.manager = system.manager := by
  have quiet := silent callback handle data system.world system.manager
  unfold invoke
  split
  · rfl
  · split
    · simp only [quiet, List.foldl_nil]
    · rfl

/-- A callback of silent modules is that of modules that do nothing, as far as the manager and the
calls go. The following lemmas carry this to a change of focus. -/
@[simp] theorem bare_invoke (callback : Callback) (data : Option (BitVec 32)) :
    (invoke modules callback handle data system).2.bare =
      (invoke idleModules callback handle data system.bare).2 := by
  have quiet := silent callback handle data system.world system.manager
  unfold invoke
  rw [bare_window]
  split
  · rfl
  · split
    · simp only [quiet, idleModules]
      rfl
    · rfl

/-- So is the loss of the focus, as its callback is silent, -/
theorem bare_loseFocus : (loseFocus modules handle system).bare =
    loseFocus idleModules handle system.bare := by
  rw [loseFocus, bare_setState, bare_invoke handle system silent]
  rfl

/-- the gain of the focus, with its callback as well, -/
theorem bare_gainFocus : (gainFocus modules handle system).bare =
    gainFocus idleModules handle system.bare := by
  rw [gainFocus, bare_invoke handle _ silent]
  have moved := bare_setState handle (system.mapManager fun manager => manager.setFore handle)
    .foreground
  rw [bare_setFore] at moved
  exact congrArg (fun start => (invoke idleModules .getFocus handle none start).2) moved

/-- and both of them after each other, also where there is no window to take it from. -/
theorem bare_switchFocus (previous : Option Int) (next : Int) :
    (switchFocus modules previous next system).map System.bare =
      switchFocus idleModules previous next system.bare := by
  cases previous with
  | none =>
    simp only [switchFocus, Option.map_some]
    rw [bare_gainFocus next system silent]
  | some handle =>
    simp only [switchFocus, bare_window]
    cases system.manager.window handle with
    | none => rfl
    | some window =>
      simp only [Option.map_some]
      rw [bare_gainFocus next _ silent, bare_loseFocus handle system silent]

/-- Handling a message does the same to a system without world and box. -/
theorem bare_handleMessage (pCurWnd : Option Int) (message : MsgInfo) :
    (handleMessage modules pCurWnd message system).map (Prod.map id System.bare) =
      handleMessage idleModules pCurWnd message system.bare := by
  have switched : ∀ previous next,
      ((switchFocus modules previous next system).map fun after => (previous, after)).map
          (Prod.map id System.bare) =
        (switchFocus idleModules previous next system.bare).map fun after => (previous, after) := by
    intro previous next
    rw [← bare_switchFocus system silent, Option.map_map, Option.map_map]
    rfl
  have same : curWnd pCurWnd system.bare.manager = curWnd pCurWnd system.manager := rfl
  simp only [handleMessage, bare_window, bare_fore, same]
  cases found : system.manager.window message.senderHandle with
  | none => rfl
  | some window =>
    cases message.msg with
    | noUsed => rfl
    | needFocus =>
      simp only
      split
      · rfl
      · exact switched _ _
    | releaseFocus =>
      simp only
      split
      · simp only [Option.map_some, Prod.map, id_eq]
        rw [bare_setFore, bare_loseFocus _ system silent]
      · rfl
    | xferControl target =>
      simp only [bare_window]
      split
      · rfl
      · split
        · rw [Option.map_map]
          rfl
        · cases system.manager.window target with
          | none => rfl
          | some other => exact switched _ _
    | destroyWindow =>
      simp only [Option.map_some, Prod.map, id_eq]
      rw [bare_setState, bare_invoke _ _ silent, apply_ite System.bare]
      rfl

/-- Silent modules lose the focus without a request: the state of the window changes, and nothing
else in the manager. -/
theorem loseFocus_silent : (loseFocus modules handle system).manager =
    system.manager.setState handle .background := by
  rw [loseFocus, System.mapManager, invoke_silent handle system silent]

/-- They gain it in the same way, and the window is then in the foreground. -/
theorem gainFocus_silent : (gainFocus modules handle system).manager =
    (system.manager.setFore handle).setState handle .foreground := by
  rw [gainFocus, invoke_silent handle _ silent, System.mapManager]

/-- Switching the focus leaves the box and the windows' own data alone, and takes
the focus from a window of the pool. -/
theorem switchFocus_keeps (previous : Option Int) (next : Int) (after : System ω)
    (switched : switchFocus modules previous next system = some after) :
    after.manager.msgBox = system.manager.msgBox ∧
      after.manager.infos = system.manager.infos ∧
      ∀ handle ∈ previous, IsHandle system.manager.infos handle := by
  cases previous with
  | none =>
    obtain rfl := Option.some.inj switched
    rw [gainFocus_silent next system silent]
    simp
  | some handle =>
    cases found : system.manager.window handle with
    | none => simp [switchFocus, found] at switched
    | some window =>
      simp only [switchFocus, found] at switched
      obtain rfl := Option.some.inj switched
      rw [gainFocus_silent next _ silent, loseFocus_silent handle system silent]
      refine ⟨by simp, by simp, ?_⟩
      rintro other ⟨⟩
      exact (isHandle_iff _ _).mpr ⟨window, found⟩

/-- Handling a message leaves the rest of the box and the windows' own data alone,
and remembers a window it was given or one of the pool. -/
theorem handleMessage_keeps (pCurWnd previous : Option Int) (message : MsgInfo)
    (after : System ω)
    (handled : handleMessage modules pCurWnd message system = some (previous, after)) :
    after.manager.msgBox = system.manager.msgBox ∧
      after.manager.infos = system.manager.infos ∧
      ∀ handle ∈ previous, handle ∈ pCurWnd ∨ IsHandle system.manager.infos handle := by
  have switched := switchFocus_keeps system silent
  cases found : system.manager.window message.senderHandle with
  | none => simp [handleMessage, found] at handled
  | some window =>
    have unchanged : system.manager.msgBox = system.manager.msgBox ∧
        system.manager.infos = system.manager.infos ∧
        ∀ handle ∈ pCurWnd, handle ∈ pCurWnd ∨ IsHandle system.manager.infos handle :=
      ⟨rfl, rfl, fun _ => Or.inl⟩
    simp only [handleMessage, found] at handled
    cases kind : message.msg <;> simp only [kind] at handled
    case noUsed =>
      cases handled
      exact unchanged
    case needFocus =>
      split at handled
      · cases handled
        exact unchanged
      · obtain ⟨result, same, equal⟩ := Option.map_eq_some_iff.mp handled
        obtain ⟨box, infos, named⟩ := switched _ _ _ same
        cases equal
        exact ⟨box, infos, fun handle member => Or.inr (named handle member)⟩
    case releaseFocus =>
      split at handled
      · cases handled
        rw [System.mapManager, loseFocus_silent _ _ silent]
        exact ⟨by simp, by simp, fun _ => Or.inl⟩
      · cases handled
        exact unchanged
    case xferControl target =>
      split at handled
      · cases handled
        exact unchanged
      · split at handled
        · obtain ⟨window, known, equal⟩ := Option.map_eq_some_iff.mp handled
          cases equal
          refine ⟨rfl, rfl, fun handle member => Or.inr ?_⟩
          rw [Option.mem_def.mp member, Option.bind_some] at known
          exact (isHandle_iff _ _).mpr ⟨window, known⟩
        · split at handled
          · cases handled
          · obtain ⟨result, same, equal⟩ := Option.map_eq_some_iff.mp handled
            obtain ⟨box, infos, named⟩ := switched _ _ _ same
            cases equal
            exact ⟨box, infos, fun handle member => Or.inr (named handle member)⟩
    case destroyWindow =>
      cases handled
      rw [System.mapManager, setState_box, setState_infos, invoke_silent _ _ silent]
      split <;> exact unchanged

end Bare

/-- All messages in one loop, without world and box. -/
def batch : List MsgInfo → Option Int → System Unit → Option (System Unit)
  | [], _, system => some system
  | message :: rest, pCurWnd, system =>
    (handleMessage idleModules pCurWnd message system).bind fun after =>
      batch rest after.1 after.2

/-- Each message in a loop of its own, without world and box. -/
def singly : List MsgInfo → System Unit → Option (System Unit)
  | [], system => some system
  | message :: rest, system =>
    (handleMessage idleModules none message system).bind fun after => singly rest after.2

section Loops

variable {modules} (silent : modules.Silent)

include silent

/-- The loop of the source works its box off message by message. -/
theorem handleMessages_bare (messages : List MsgInfo) (pCurWnd : Option Int) (system : System ω)
    (box : system.manager.msgBox = messages) :
    (handleMessages modules messages.length pCurWnd system).map System.bare =
      batch messages pCurWnd system.bare := by
  induction messages generalizing pCurWnd system with
  | nil =>
    unfold handleMessages
    rw [box]
    rfl
  | cons message rest inductionHypothesis =>
    unfold handleMessages
    rw [box]
    simp only [List.length_cons, batch]
    rw [← bare_handleMessage system silent]
    have taken := bare_handleMessage (system.withBox rest) silent pCurWnd message
    rw [bare_withBox, ← bare_handleMessage system silent] at taken
    rw [← taken]
    change ((handleMessage modules pCurWnd message (system.withBox rest)).bind _).map _ = _
    cases handled : handleMessage modules pCurWnd message (system.withBox rest) with
    | none => rfl
    | some result =>
      obtain ⟨previous, after⟩ := result
      obtain ⟨kept, _⟩ := handleMessage_keeps (system.withBox rest) silent pCurWnd previous message
        after handled
      exact inductionHypothesis previous after kept

/-- A box of messages that is handled at once does to the manager what the batch does. -/
theorem allAtOnce_bare (messages : List MsgInfo) (system : System ω) :
    (allAtOnce modules messages system).map System.bare = batch messages none system.bare :=
  handleMessages_bare silent messages none (system.withBox messages) rfl

/-- The messages one by one do what single steps do. So the two can be compared without the modules.
-/
theorem oneByOne_bare (messages : List MsgInfo) (system : System ω) :
    (oneByOne modules messages system).map System.bare = singly messages system.bare := by
  induction messages generalizing system with
  | nil => rfl
  | cons message rest inductionHypothesis =>
    have first : (handleMessageEvent modules 1 (system.withBox [message])).map System.bare =
        (handleMessage idleModules none message system.bare).bind fun after => some after.2 :=
      allAtOnce_bare silent [message] system
    simp only [oneByOne, singly]
    cases handled : handleMessageEvent modules 1 (system.withBox [message]) with
    | none =>
      rw [handled] at first
      cases image : handleMessage idleModules none message system.bare with
      | none => rfl
      | some result => simp [image] at first
    | some after =>
      rw [handled] at first
      cases image : handleMessage idleModules none message system.bare with
      | none => simp [image] at first
      | some result =>
        rw [image] at first
        have same : after.bare = result.2 := Option.some.inj first
        simp only [Option.bind_some, ← same]
        exact inductionHypothesis after

/-- Whether a message finds an outdated window is decided without world and box. -/
theorem unstale_bare (messages : List MsgInfo) (pCurWnd : Option Int) (system : System ω) :
    Unstale modules messages pCurWnd system ↔ Unstale idleModules messages pCurWnd system.bare := by
  induction messages generalizing pCurWnd system with
  | nil => rfl
  | cons message rest inductionHypothesis =>
    have image := bare_handleMessage system silent pCurWnd message
    simp only [Unstale]
    refine and_congr Iff.rfl ?_
    rw [← image]
    cases handleMessage modules pCurWnd message system with
    | none => simp
    | some result => simpa using inductionHypothesis result.1 result.2

end Loops

/-- The later of two states of a window stays, and the earlier one leaves no trace. -/
theorem setState_setState (manager : Manager) (handle : Int) (first second : WinState) :
    (manager.setState handle first).setState handle second = manager.setState handle second := by
  unfold Manager.setState
  split
  · simp only [List.modify_modify_eq]
    rfl
  · rfl

/-- The state of a window and the foreground handle are set independently. -/
theorem setState_setFore (manager : Manager) (handle fore : Int) (state : WinState) :
    (manager.setState handle state).setFore fore = (manager.setFore fore).setState handle state := by
  unfold Manager.setState
  split <;> rfl

/-- Setting the state that a window has changes nothing, so doing it again is harmless. -/
theorem setState_same (manager : Manager) (handle : Int) (window : WinInfo)
    (found : manager.window handle = some window) :
    manager.setState handle window.winState = manager := by
  unfold Manager.setState
  unfold Manager.window at found
  split at found
  · next named =>
    rw [if_pos named]
    have kept : manager.windowsPool.modify handle.toNat
        (fun other => { other with winState := window.winState }) = manager.windowsPool := by
      apply List.ext_getElem?
      intro index
      rw [List.getElem?_modify]
      split
      · next same => simp [← same, found]
      · simp
    rw [kept]
  · cases found

/-- Two systems that look alike have their windows in the same states. -/
theorem seen_window {left right : System ω} (alike : left.seen = right.seen) (handle : Int) :
    (left.manager.window handle).map WinInfo.winState =
      (right.manager.window handle).map WinInfo.winState := by
  have states : left.manager.windowsPool.map WinInfo.winState =
      right.manager.windowsPool.map WinInfo.winState := congrArg Prod.fst alike
  unfold Manager.window
  split
  · rw [← List.getElem?_map, ← List.getElem?_map, states]
  · rfl

/-- Taking the focus from a window that has no `lost_focus`, and that is in the
background or gets the focus at once, is not noticed. -/
theorem gainFocus_stale (stale next : Int) (system : System ω) (window : WinInfo)
    (found : system.manager.window stale = some window)
    (mute : window.pWin.defines .lostFocus = false)
    (settled : stale = next ∨ window.winState = .background) :
    gainFocus modules next (loseFocus modules stale system) = gainFocus modules next system := by
  have uncalled : (invoke modules .lostFocus stale none system).2 = system := by
    simp [invoke, found, mute]
  rw [loseFocus, uncalled]
  rcases settled with rfl | background
  · have overwritten : ((system.manager.setState stale .background).setFore stale).setState stale
        .foreground = (system.manager.setFore stale).setState stale .foreground := by
      rw [setState_setFore, setState_setState]
    rw [gainFocus, gainFocus, System.mapManager, System.mapManager, System.mapManager, overwritten]
  · have kept := setState_same system.manager stale window found
    rw [background] at kept
    rw [System.mapManager, kept]

section Step

variable (pCurWnd : Option Int) (message : MsgInfo) (system : System Unit)

/-- A harmless message has the same effect with and without a previous window. -/
theorem harmless_same (valid : ∀ handle ∈ pCurWnd, IsHandle system.manager.infos handle)
    (harmless : Harmless pCurWnd message system.manager) :
    (handleMessage idleModules pCurWnd message system).map Prod.snd =
      (handleMessage idleModules none message system).map Prod.snd := by
  cases pCurWnd with
  | none => rfl
  | some stale =>
    cases found : system.manager.window message.senderHandle with
    | none => simp [handleMessage, found]
    | some window =>
      have sender := (isHandle_iff system.manager message.senderHandle).mpr ⟨window, found⟩
      simp only [handleMessage, found]
      by_cases focused : 0 ≤ system.manager.curForeWindowHandle
      · -- the pointer is assigned before it is looked at
        have same : curWnd (some stale) system.manager = curWnd none system.manager := by
          rw [curWnd, curWnd, if_pos focused, if_pos focused]
        rw [same]
        cases message.msg with
        | noUsed | destroyWindow => rfl
        | needFocus | releaseFocus =>
          simp only
          split <;> rfl
        | xferControl target =>
          simp only
          split
          · rfl
          · rfl
      · have fresh : curWnd none system.manager = none := if_neg focused
        have kept : curWnd (some stale) system.manager = some stale := if_neg focused
        have unaffected := harmless stale rfl (by omega) sender
        rw [fresh, kept]
        cases kind : message.msg with
        | noUsed | destroyWindow => rfl
        | releaseFocus =>
          simp only
          split <;> rfl
        | needFocus =>
          have apart : message.senderHandle ≠ system.manager.curForeWindowHandle := by
            have named := sender.1
            omega
          obtain ⟨previous, foundStale⟩ := (isHandle_iff _ _).mp (valid stale rfl)
          rw [kind] at unaffected
          obtain ⟨mute, settled⟩ := unaffected previous foundStale
          have regained := gainFocus_stale idleModules stale message.senderHandle system previous foundStale
            mute settled
          simp only [switchFocus, foundStale]
          rw [if_neg apart, if_neg apart, regained]
          rfl
        | xferControl target =>
          rw [kind] at unaffected
          simp only
          rw [if_pos unaffected, if_pos unaffected]
          rfl

/-- A message is harmless when it leaves the same picture with and without a
previous window. The record shows one more callback if the previous window has a
`lost_focus`; its state shows the background otherwise. -/
theorem same_harmless (valid : ∀ handle ∈ pCurWnd, IsHandle system.manager.infos handle)
    (alike : (handleMessage idleModules pCurWnd message system).map (fun after => after.2.seen) =
      (handleMessage idleModules none message system).map fun after => after.2.seen) :
    Harmless pCurWnd message system.manager := by
  intro stale member unfocused sender
  obtain rfl := Option.mem_def.mp member
  have negative : ¬ 0 ≤ system.manager.curForeWindowHandle := by omega
  have fresh : curWnd none system.manager = none := if_neg negative
  have kept : curWnd (some stale) system.manager = some stale := if_neg negative
  have apart : message.senderHandle ≠ system.manager.curForeWindowHandle := by
    have named := sender.1
    omega
  obtain ⟨window, found⟩ := (isHandle_iff _ _).mp sender
  obtain ⟨previous, foundStale⟩ := (isHandle_iff _ _).mp (valid stale rfl)
  simp only [handleMessage, found, fresh, kept] at alike
  cases kind : message.msg with
  | noUsed | releaseFocus | destroyWindow => trivial
  | needFocus =>
    intro other same
    obtain rfl := Option.some.inj (foundStale.symm.trans same)
    rw [kind] at alike
    simp only [if_neg apart, switchFocus, foundStale, Option.map_some, Option.some.injEq] at alike
    constructor
    · have record := congrArg (fun picture => picture.2.2) alike
      simp only [System.seen, gainFocus_calls, loseFocus_calls, loseFocus_silent _ _ idle_silent,
        setState_fired] at record
      have unheard := List.append_right_eq_self.mp (List.append_cancel_right record)
      simpa [Manager.fired, foundStale] using unheard
    · apply or_iff_not_imp_left.mpr
      intro differ
      have states := seen_window alike stale
      rw [gainFocus_silent _ _ idle_silent, gainFocus_silent _ _ idle_silent,
        loseFocus_silent _ _ idle_silent] at states
      simpa [setState_window, foundStale, differ, eq_comm] using states
  | xferControl target =>
    rw [kind] at alike
    by_contra differ
    simp only [if_neg differ, ne_eq, reduceCtorEq, not_false_eq_true, apart, and_self, if_true,
      not_true_eq_false, false_and, if_false, Option.bind_some, foundStale, Option.map_some] at alike
    cases foundTarget : system.manager.window target with
    | none => simp [foundTarget] at alike
    | some other =>
      have named := (isHandle_iff _ _).mpr ⟨other, foundTarget⟩
      simp only [foundTarget, switchFocus, Option.map_some, Option.some.injEq] at alike
      have fore := congrArg (fun picture => picture.2.1) alike
      simp only [System.seen, gainFocus_silent _ _ idle_silent, setState_fore, setFore_fore] at fore
      exact negative (fore ▸ named.1)

end Step

/-- Without world and box: the two runs look alike after every message exactly
when every message is harmless. The induction follows the batch; as long as the
messages are harmless, the two runs are in the same state. -/
theorem batch_singly_iff (messages : List MsgInfo) (pCurWnd : Option Int) (system : System Unit)
    (valid : ∀ handle ∈ pCurWnd, IsHandle system.manager.infos handle) :
    (∀ count ≤ messages.length,
        (batch (messages.take count) pCurWnd system).map System.seen =
          (singly (messages.take count) system).map System.seen) ↔
      Unstale idleModules messages pCurWnd system := by
  induction messages generalizing pCurWnd system with
  | nil => simp [batch, singly, Unstale]
  | cons message rest inductionHypothesis =>
    have first : (batch [message] pCurWnd system).map System.seen =
          (singly [message] system).map System.seen ↔
        Harmless pCurWnd message system.manager := by
      have shape : ∀ previous, ((handleMessage idleModules previous message system).bind fun after =>
          some after.2).map System.seen =
            (handleMessage idleModules previous message system).map fun after => after.2.seen := by
        intro previous
        cases handleMessage idleModules previous message system <;> rfl
      simp only [batch, singly, shape]
      constructor
      · exact same_harmless pCurWnd message system valid
      · intro harmless
        have same := harmless_same pCurWnd message system valid harmless
        have pictures := congrArg (Option.map System.seen) same
        rwa [Option.map_map, Option.map_map] at pictures
    have others (harmless : Harmless pCurWnd message system.manager) :
        (∀ count ≤ rest.length,
          (batch (message :: rest.take count) pCurWnd system).map System.seen =
            (singly (message :: rest.take count) system).map System.seen) ↔
        ∀ after ∈ handleMessage idleModules pCurWnd message system,
          Unstale idleModules rest after.1 after.2 := by
      have same := harmless_same pCurWnd message system valid harmless
      simp only [batch, singly]
      cases handled : handleMessage idleModules pCurWnd message system with
      | none =>
        rw [handled] at same
        have failed : handleMessage idleModules none message system = none :=
          Option.map_eq_none_iff.mp same.symm
        simp [failed]
      | some result =>
        obtain ⟨previous, after⟩ := result
        rw [handled] at same
        obtain ⟨⟨fresh, reached⟩, alone, equal⟩ := Option.map_eq_some_iff.mp same.symm
        obtain rfl : reached = after := equal
        obtain ⟨_, infos, remembered⟩ := handleMessage_keeps system idle_silent pCurWnd previous
          message reached handled
        have validAfter : ∀ handle ∈ previous, IsHandle reached.manager.infos handle := by
          intro handle member
          rw [infos]
          exact (remembered handle member).elim (valid handle) id
        simpa [alone] using inductionHypothesis previous reached validAfter
    rw [Unstale]
    constructor
    · intro alike
      have harmless := first.mp (alike 1 (by simp))
      refine ⟨harmless, (others harmless).mp fun count within => ?_⟩
      exact alike (count + 1) (Nat.succ_le_succ within)
    · rintro ⟨harmless, unstale⟩ count within
      cases count with
      | zero => rfl
      | succ count => exact (others harmless).mpr unstale count (Nat.le_of_succ_le_succ within)

/-- With callbacks that issue no requests, handling a box in one call of
`handle_message_event` and handling its messages one per call leave the same
window states, the same foreground handle and the same callbacks after every
message, if and only if no message finds an outdated previous window that makes a
difference to it. -/
theorem batching_agrees_iff (silent : modules.Silent) (messages : List MsgInfo)
    (system : System ω) :
    (∀ count ≤ messages.length,
        (allAtOnce modules (messages.take count) system).map System.seen =
          (oneByOne modules (messages.take count) system).map System.seen) ↔
      Unstale modules messages none system := by
  have together : ∀ box, (allAtOnce modules box system).map System.seen =
      (batch box none system.bare).map System.seen := by
    intro box
    rw [← allAtOnce_bare silent, Option.map_map]
    rfl
  have apart : ∀ box, (oneByOne modules box system).map System.seen =
      (singly box system.bare).map System.seen := by
    intro box
    rw [← oneByOne_bare silent, Option.map_map]
    rfl
  simp only [together, apart, unstale_bare silent]
  exact batch_singly_iff messages none system.bare (by simp)

/-- Three windows with all callbacks, the first one in the foreground. -/
def threeWindows : System Unit :=
  ⟨⟨[⟨⟨"PCI-LIST", 0, fun _ => true⟩, .foreground⟩, ⟨⟨"PCI-DEV", 0, fun _ => true⟩, .background⟩,
    ⟨⟨"MEM-SPACE", 0, fun _ => true⟩, .background⟩], [], 0⟩, (), []⟩

/-- Two requests for the focus and a release never find an outdated window. -/
theorem focus_requests_batched :
    let messages : List MsgInfo := [⟨.needFocus, 1⟩, ⟨.needFocus, 2⟩, ⟨.releaseFocus, 2⟩]
    ∀ count ≤ messages.length,
      (allAtOnce idleModules (messages.take count) threeWindows).map System.seen =
        (oneByOne idleModules (messages.take count) threeWindows).map System.seen :=
  (batching_agrees_iff idleModules idle_silent _ threeWindows).mpr (by decide +kernel)

/-- The second window takes the focus and releases it, and the third one asks for
it. Handled in one call, the third message makes the first window lose the focus
a second time. -/
theorem focus_lost_twice :
    let messages : List MsgInfo := [⟨.needFocus, 1⟩, ⟨.releaseFocus, 1⟩, ⟨.needFocus, 2⟩]
    (allAtOnce idleModules messages threeWindows).map System.seen ≠
      (oneByOne idleModules messages threeWindows).map System.seen := by
  decide +kernel

end Lfdk.WindowManager
