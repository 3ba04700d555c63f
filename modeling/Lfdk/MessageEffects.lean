import Lfdk.WindowEffects

/-!
# What handling one message can do

The handler has a branch for each kind of message, with tests that leave a branch
early. Seen from outside there are four results: the message is ignored, the focus
goes to a window, the focus is given up, or a window is destroyed. Which window
gets the focus is decided by the message and the state before it; a later argument
about runs needs no more of the handler than this.

Unlike the invariant of the foreground, these results do not rest on transfers
that name registered windows. A transfer to an unregistered one has no result.
-/

namespace Lfdk.WindowManager

universe u
variable {ω : Type u} (modules : Modules ω)

/-- The window in the foreground is the one the handle names, and the handle
names none or a window of the pool. -/
structure Exclusive (manager : Manager) : Prop where
  agrees : ∀ handle window, manager.window handle = some window →
    (window.winState = .foreground ↔ handle = manager.curForeWindowHandle)
  handle : manager.curForeWindowHandle = -1 ∨
    IsHandle manager.infos manager.curForeWindowHandle

/-- A foreground that has a handle is one of the windows of the pool. -/
theorem Exclusive.named {manager : Manager} (exclusive : Exclusive manager)
    (named : 0 ≤ manager.curForeWindowHandle) :
    IsHandle manager.infos manager.curForeWindowHandle :=
  exclusive.handle.resolve_left (by omega)

/-- No window is in the foreground. -/
def Unfocused (manager : Manager) : Prop :=
  ∀ handle window, manager.window handle = some window → window.winState ≠ .foreground

/-- New messages do not move the focus: the foreground is still the one window it was, or none. -/
theorem Extends.exclusive {before after : Manager} (extended : Extends before after)
    (exclusive : Exclusive before) : Exclusive after := by
  obtain ⟨agrees, valid⟩ := exclusive
  refine ⟨fun handle window found => ?_, ?_⟩
  · rw [extended.window] at found
    rw [extended.fore]
    exact agrees handle window found
  · rwa [extended.fore, Manager.infos, extended.pool]

/-- With no window in the foreground and no handle, the two sides agree. -/
theorem Unfocused.exclusive {manager : Manager} (unfocused : Unfocused manager)
    (none : manager.curForeWindowHandle = -1) : Exclusive manager := by
  refine ⟨fun handle window found => ?_, Or.inl none⟩
  constructor
  · exact fun focused => absurd focused (unfocused handle window found)
  · rintro rfl
    simp [Manager.window, none] at found

/-- Without a handle no window is in the foreground, as the state of one would name it. -/
theorem Exclusive.unfocused {manager : Manager} (exclusive : Exclusive manager)
    (none : manager.curForeWindowHandle = -1) : Unfocused manager := by
  intro handle window found focused
  have same := (exclusive.agrees handle window found).mp focused
  simp [Manager.window, same, none] at found

/-- Taking the foreground window's state away leaves no window in it, as there was no other. -/
theorem Exclusive.setState_unfocused {manager : Manager} (exclusive : Exclusive manager)
    (handle : Int) (state : WinState) (other : state ≠ .foreground)
    (last : handle = manager.curForeWindowHandle ∨ manager.curForeWindowHandle = -1) :
    Unfocused (manager.setState handle state) := by
  intro asked window found focused
  rw [setState_window] at found
  obtain ⟨before, known, rfl⟩ := Option.map_eq_some_iff.mp found
  by_cases same : asked = handle
  · rw [if_pos same] at focused
    exact other focused
  · rw [if_neg same] at focused
    rcases last with rfl | none
    · exact same ((exclusive.agrees asked before known).mp focused)
    · exact exclusive.unfocused none asked before known focused

/-- A window that is not in the foreground may take any other state. -/
theorem Exclusive.setState_other {manager : Manager} (exclusive : Exclusive manager)
    (handle : Int) (state : WinState) (other : state ≠ .foreground)
    (apart : handle ≠ manager.curForeWindowHandle) :
    Exclusive (manager.setState handle state) := by
  refine ⟨fun asked window found => ?_, ?_⟩
  · rw [setState_window] at found
    obtain ⟨before, known, rfl⟩ := Option.map_eq_some_iff.mp found
    rw [setState_fore]
    by_cases same : asked = handle
    · rw [if_pos same, same]
      exact iff_of_false other apart
    · rw [if_neg same]
      exact exclusive.agrees asked before known
  · rw [setState_fore, setState_infos]
    exact exclusive.handle

/-- When the handle is given up first, the window's own state is the last trace of
it in the foreground. -/
theorem Exclusive.givenUp {before after : Manager} (exclusive : Exclusive before) (handle : Int)
    (state : WinState) (other : state ≠ .foreground)
    (current : handle = before.curForeWindowHandle)
    (extended : Extends (before.setFore (-1)) after) : Exclusive (after.setState handle state) := by
  have unfocused := exclusive.setState_unfocused handle state other (Or.inl current)
  apply Unfocused.exclusive
  · intro asked window found
    rw [setState_window, extended.window] at found
    apply unfocused asked window
    rw [setState_window]
    exact found
  · rw [setState_fore, extended.fore]
    rfl

/-- Putting one window into the foreground when none is there leaves it as the only one. -/
theorem Unfocused.setFore_exclusive {manager : Manager} (unfocused : Unfocused manager)
    (next : Int) (valid : IsHandle manager.infos next) :
    Exclusive ((manager.setFore next).setState next .foreground) := by
  refine ⟨fun asked window found => ?_, ?_⟩
  · rw [setState_window] at found
    obtain ⟨before, known, rfl⟩ := Option.map_eq_some_iff.mp found
    rw [setState_fore, setFore_fore]
    by_cases same : asked = next
    · simp [same]
    · rw [if_neg same]
      exact iff_of_false (unfocused asked before known) same
  · rw [setState_fore, setState_infos]
    exact Or.inr valid

/-- Taking the focus from the foreground window, or from any window when there is
no foreground window, leaves no window in the foreground. -/
theorem loseFocus_unfocused (handle : Int) (system : System ω)
    (exclusive : Exclusive system.manager)
    (last : handle = system.manager.curForeWindowHandle ∨
      system.manager.curForeWindowHandle = -1) :
    Unfocused (loseFocus modules handle system).manager := by
  have extended := invoke_extends modules .lostFocus handle none system
  apply (extended.exclusive exclusive).setState_unfocused handle _ (by decide)
  rwa [extended.fore]

/-- Giving the focus to a window when none has it leaves it as the only one that has it. -/
theorem gainFocus_exclusive (handle : Int) (system : System ω)
    (unfocused : Unfocused system.manager) (valid : IsHandle system.manager.infos handle) :
    Exclusive (gainFocus modules handle system).manager :=
  (invoke_extends modules .getFocus handle none
    (system.mapManager fun manager => (manager.setFore handle).setState handle
      .foreground)).exclusive (unfocused.setFore_exclusive handle valid)

/-- The window that a message gives the focus to. A transfer is refused when there
is a previous window and the sender does not have the focus. -/
def focusGiven (pCurWnd : Option Int) (message : MsgInfo) (manager : Manager) : Option Int :=
  let sender := message.senderHandle
  let cur := manager.curForeWindowHandle
  match message.msg with
  | .needFocus => if sender = cur then none else some sender
  | .xferControl target =>
    if sender = target ∨ (curWnd pCurWnd manager ≠ none ∧ sender ≠ cur) then none
    else some target
  | .noUsed | .releaseFocus | .destroyWindow => none

/-- Take the focus from the previous window, if there is one. -/
def leaveFocus (previous : Option Int) (system : System ω) : System ω :=
  match previous with
  | none => system
  | some handle => loseFocus modules handle system

/-- Destroy a window, which gives up the foreground handle first. -/
def destroySender (handle : Int) (system : System ω) : System ω :=
  (invoke modules .destroyWin handle none
    (if handle = system.manager.curForeWindowHandle then
      system.mapManager fun manager => manager.setFore (-1)
    else system)).2.mapManager fun manager => manager.setState handle .destroyed

/-- The results of handling a message, with what is remembered as `p_cur_wnd`. -/
inductive Handled (pCurWnd : Option Int) (message : MsgInfo) (system : System ω) :
    Option Int → System ω → Prop
  | ignored (previous : Option Int)
      (remembered : previous = pCurWnd ∨ previous = curWnd pCurWnd system.manager)
      (given : focusGiven pCurWnd message system.manager = none)
      (kind : message.msg ≠ .destroyWindow) :
      Handled pCurWnd message system previous system
  | switched (next : Int) (given : focusGiven pCurWnd message system.manager = some next)
      (registered : IsHandle system.manager.infos next) :
      Handled pCurWnd message system (curWnd pCurWnd system.manager)
        (gainFocus modules next (leaveFocus modules (curWnd pCurWnd system.manager) system))
  | released (window : WinInfo)
      (found : system.manager.window message.senderHandle = some window)
      (focused : window.winState = .foreground) (kind : message.msg = .releaseFocus) :
      Handled pCurWnd message system pCurWnd
        ((loseFocus modules message.senderHandle system).mapManager
          fun manager => manager.setFore (-1))
  | destroyed (kind : message.msg = .destroyWindow)
      (registered : IsHandle system.manager.infos message.senderHandle) :
      Handled pCurWnd message system pCurWnd
        (destroySender modules message.senderHandle system)

/-- A switch that has a result takes the focus from the previous window. -/
theorem switchFocus_some (previous : Option Int) (next : Int) (system after : System ω)
    (switched : switchFocus modules previous next system = some after) :
    after = gainFocus modules next (leaveFocus modules previous system) := by
  cases previous with
  | none => exact (Option.some.inj switched).symm
  | some handle =>
    simp only [switchFocus] at switched
    split at switched
    · cases switched
    · exact (Option.some.inj switched).symm

/-- Every message that is handled has one of the four results, which the invariants are then checked
for. -/
theorem handleMessage_cases (pCurWnd previous : Option Int) (message : MsgInfo)
    (system after : System ω)
    (handled : handleMessage modules pCurWnd message system = some (previous, after)) :
    Handled modules pCurWnd message system previous after := by
  cases found : system.manager.window message.senderHandle with
  | none => simp [handleMessage, found] at handled
  | some window =>
    have sender := (isHandle_iff system.manager message.senderHandle).mpr ⟨window, found⟩
    simp only [handleMessage, found] at handled
    cases kind : message.msg <;> simp only [kind] at handled
    case noUsed =>
      cases handled
      exact .ignored _ (Or.inl rfl) (by simp [focusGiven, kind]) (by simp [kind])
    case needFocus =>
      split at handled
      · next same =>
        cases handled
        exact .ignored _ (Or.inl rfl) (by simp [focusGiven, kind, same]) (by simp [kind])
      · next apart =>
        obtain ⟨result, switched, equal⟩ := Option.map_eq_some_iff.mp handled
        cases equal
        rw [switchFocus_some modules _ _ _ _ switched]
        exact .switched _ (by simp [focusGiven, kind, apart]) sender
    case releaseFocus =>
      split at handled
      · next focused =>
        cases handled
        exact .released window found focused kind
      · cases handled
        exact .ignored _ (Or.inl rfl) (by simp [focusGiven, kind]) (by simp [kind])
    case xferControl target =>
      split at handled
      · next same =>
        cases handled
        exact .ignored _ (Or.inl rfl) (by simp [focusGiven, kind, same]) (by simp [kind])
      · next apart =>
        split at handled
        · next refused =>
          obtain ⟨warned, _, equal⟩ := Option.map_eq_some_iff.mp handled
          cases equal
          exact .ignored _ (Or.inr rfl) (by simp [focusGiven, kind, refused]) (by simp [kind])
        · next accepted =>
          split at handled
          · cases handled
          · next other foundTarget =>
            obtain ⟨result, switched, equal⟩ := Option.map_eq_some_iff.mp handled
            cases equal
            rw [switchFocus_some modules _ _ _ _ switched]
            refine .switched target ?_ ((isHandle_iff _ _).mpr ⟨other, foundTarget⟩)
            simp only [focusGiven, kind]
            exact if_neg (not_or.mpr ⟨apart, accepted⟩)
    case destroyWindow =>
      cases handled
      exact .destroyed kind sender

section Pool

variable {infos : List WindowInfo} (handle next : Int) (system : System ω)

/-- A loss of the focus leaves the pool of windows as it is. -/
theorem loseFocus_infos : (loseFocus modules handle system).manager.infos =
    system.manager.infos := by
  have extended := invoke_extends modules .lostFocus handle none system
  rw [loseFocus, System.mapManager, setState_infos, Manager.infos, extended.pool, Manager.infos]

/-- So does a gain of it, whatever the callback does, -/
theorem gainFocus_infos : (gainFocus modules next system).manager.infos =
    system.manager.infos := by
  have extended := invoke_extends modules .getFocus next none
    (system.mapManager fun manager => (manager.setFore next).setState next .foreground)
  rw [gainFocus, Manager.infos, extended.pool]
  exact (setState_infos _ _ _).trans (setFore_infos _ _)

/-- a loss that may have no window to take it from, and then does nothing, -/
theorem leaveFocus_infos (previous : Option Int) :
    (leaveFocus modules previous system).manager.infos = system.manager.infos := by
  cases previous with
  | none => rfl
  | some handle => exact loseFocus_infos modules handle system

/-- and the end of a window, which stays in the pool with another state. -/
theorem destroySender_infos : (destroySender modules handle system).manager.infos =
    system.manager.infos := by
  have extended := invoke_extends modules .destroyWin handle none
    (if handle = system.manager.curForeWindowHandle then
      system.mapManager fun manager => manager.setFore (-1)
    else system)
  rw [destroySender, System.mapManager, setState_infos, Manager.infos, extended.pool]
  split <;> rfl

/-- What the windows are after one was destroyed: that one is marked as destroyed, and all others
are what they were. -/
theorem destroySender_window (asked : Int) :
    (destroySender modules handle system).manager.window asked =
      (system.manager.window asked).map fun window =>
        if asked = handle then { window with winState := .destroyed } else window := by
  have extended := invoke_extends modules .destroyWin handle none
    (if handle = system.manager.curForeWindowHandle then
      system.mapManager fun manager => manager.setFore (-1)
    else system)
  have same : (if handle = system.manager.curForeWindowHandle then
      system.mapManager fun manager => manager.setFore (-1)
    else system).manager.window asked = system.manager.window asked := by
    split <;> rfl
  rw [destroySender, System.mapManager, setState_window, extended.window, same]

/-- The end of a window calls its callback, if it has one, and no other. -/
theorem destroySender_calls : (destroySender modules handle system).calls =
    system.calls ++ system.manager.fired .destroyWin handle := by
  rw [destroySender, System.mapManager, invoke_calls]
  split <;> rfl

/-- No window is in the foreground behind the end of the one that was, and otherwise the foreground
stays. -/
theorem destroySender_fore : (destroySender modules handle system).manager.curForeWindowHandle =
    if handle = system.manager.curForeWindowHandle then -1
    else system.manager.curForeWindowHandle := by
  have extended := invoke_extends modules .destroyWin handle none
    (if handle = system.manager.curForeWindowHandle then
      system.mapManager fun manager => manager.setFore (-1)
    else system)
  rw [destroySender, System.mapManager, setState_fore, extended.fore]
  split <;> rfl

end Pool

/-- Whatever a message does, the two sides of the foreground agree after it, and
the pool and all that is remembered stay valid. -/
theorem Handled.keeps {pCurWnd previous : Option Int} {message : MsgInfo}
    {system after : System ω} (handled : Handled modules pCurWnd message system previous after)
    (exclusive : Exclusive system.manager)
    (valid : ∀ handle ∈ pCurWnd, IsHandle system.manager.infos handle) :
    after.manager.infos = system.manager.infos ∧ Exclusive after.manager ∧
      ∀ handle ∈ previous, IsHandle system.manager.infos handle := by
  have known : ∀ handle ∈ curWnd pCurWnd system.manager, IsHandle system.manager.infos handle ∧
      (handle = system.manager.curForeWindowHandle ∨
        system.manager.curForeWindowHandle = -1) := by
    intro handle member
    rcases exclusive.handle with none | named
    · rw [curWnd, if_neg (by omega)] at member
      exact ⟨valid handle member, Or.inr none⟩
    · rw [curWnd, if_pos named.1] at member
      obtain rfl := Option.some.inj member
      exact ⟨named, Or.inl rfl⟩
  cases handled with
  | ignored previous remembered _ _ =>
    refine ⟨rfl, exclusive, ?_⟩
    rcases remembered with rfl | rfl
    · exact valid
    · exact fun handle member => (known handle member).1
  | switched next _ registered =>
    refine ⟨?_, ?_, fun handle member => (known handle member).1⟩
    · rw [gainFocus_infos, leaveFocus_infos]
    · apply gainFocus_exclusive
      · cases previous : curWnd pCurWnd system.manager with
        | none =>
          unfold curWnd at previous
          split at previous
          · cases previous
          · exact exclusive.unfocused (exclusive.handle.resolve_right fun named => by
              have inside := named.1
              omega)
        | some handle =>
          exact loseFocus_unfocused modules handle system exclusive
            (known handle previous).2
      · rwa [leaveFocus_infos]
  | released window found focused _ =>
    refine ⟨?_, ?_, valid⟩
    · exact (setFore_infos _ _).trans (loseFocus_infos modules _ system)
    · refine Unfocused.exclusive ?_ rfl
      exact loseFocus_unfocused modules _ system exclusive
        (Or.inl ((exclusive.agrees _ window found).mp focused))
  | destroyed _ _ =>
    refine ⟨destroySender_infos modules _ system, ?_, valid⟩
    unfold destroySender
    split
    · next current =>
      exact exclusive.givenUp message.senderHandle .destroyed (by decide) current
        (invoke_extends modules .destroyWin message.senderHandle none
          (system.mapManager fun manager => manager.setFore (-1)))
    · next apart =>
      have extended := invoke_extends modules .destroyWin message.senderHandle none system
      apply (extended.exclusive exclusive).setState_other _ _ (by decide)
      rwa [extended.fore]

/-- What survives callbacks, states and a new foreground handle survives a message. -/
theorem Handled.preserves {pCurWnd previous : Option Int} {message : MsgInfo}
    {system after : System ω} (handled : Handled modules pCurWnd message system previous after)
    (Holds : Manager → Prop) (start : Holds system.manager)
    (called : ∀ callback handle (current : System ω), Holds current.manager →
      Holds (invoke modules callback handle none current).2.manager)
    (entered : ∀ handle state manager, Holds manager → Holds (manager.setState handle state))
    (moved : ∀ handle manager, Holds manager → Holds (manager.setFore handle)) :
    Holds after.manager := by
  have lost : ∀ handle (current : System ω), Holds current.manager →
      Holds (loseFocus modules handle current).manager :=
    fun handle current held => entered _ _ _ (called .lostFocus handle current held)
  cases handled with
  | ignored => exact start
  | switched next _ _ =>
    apply called .getFocus
    apply entered
    apply moved
    cases curWnd pCurWnd system.manager with
    | none => exact start
    | some handle => exact lost handle system start
  | released => exact moved _ _ (lost _ system start)
  | destroyed =>
    apply entered
    apply called
    split
    · exact moved _ _ start
    · exact start

/-- A message about registered windows gives the focus to one of them. -/
theorem focusGiven_registered (pCurWnd : Option Int) (message : MsgInfo) (manager : Manager)
    {infos : List WindowInfo} (registered : message.Registered infos) :
    ∀ next ∈ focusGiven pCurWnd message manager, IsHandle infos next := by
  intro next given
  simp only [focusGiven] at given
  cases kind : message.msg with
  | needFocus =>
    simp only [kind, Option.mem_def, Option.ite_none_left_eq_some, Option.some.injEq] at given
    exact given.2 ▸ registered.1
  | xferControl target =>
    simp only [kind, Option.mem_def, Option.ite_none_left_eq_some, Option.some.injEq] at given
    exact given.2 ▸ registered.2 target kind
  | noUsed | releaseFocus | destroyWindow => simp [kind] at given

/-- A message from a registered window has a result, unless it gives the focus to
a window that is not registered. -/
theorem handleMessage_total (pCurWnd : Option Int) (message : MsgInfo) (system : System ω)
    (focused : 0 ≤ system.manager.curForeWindowHandle →
      IsHandle system.manager.infos system.manager.curForeWindowHandle)
    (valid : ∀ handle ∈ pCurWnd, IsHandle system.manager.infos handle)
    (sender : IsHandle system.manager.infos message.senderHandle) :
    (handleMessage modules pCurWnd message system).isSome ↔
      ∀ next ∈ focusGiven pCurWnd message system.manager, IsHandle system.manager.infos next := by
  have known : ∀ handle ∈ curWnd pCurWnd system.manager,
      ∃ window, system.manager.window handle = some window := by
    intro handle member
    rw [← isHandle_iff]
    unfold curWnd at member
    split at member
    · next named =>
      obtain rfl := Option.some.inj member
      exact focused named
    · exact valid handle member
  have switches : ∀ next, (switchFocus modules (curWnd pCurWnd system.manager) next
      system).isSome := by
    intro next
    cases previous : curWnd pCurWnd system.manager with
    | none => rfl
    | some handle =>
      obtain ⟨window, found⟩ := known handle previous
      simp [switchFocus, found]
  obtain ⟨window, found⟩ := (isHandle_iff _ _).mp sender
  simp only [handleMessage, found, focusGiven]
  cases message.msg with
  | noUsed | destroyWindow => simp
  | releaseFocus =>
    simp only
    split <;> simp
  | needFocus =>
    simp only
    split
    · simp
    · simp only [Option.isSome_map, switches, Option.mem_some_iff, forall_eq', true_iff]
      exact sender
  | xferControl target =>
    simp only
    by_cases same : message.senderHandle = target
    · simp [same]
    · by_cases refused : curWnd pCurWnd system.manager ≠ none ∧
          message.senderHandle ≠ system.manager.curForeWindowHandle
      · rw [if_neg same, if_pos refused, if_pos (Or.inr refused)]
        obtain ⟨handle, remembered⟩ := Option.ne_none_iff_exists'.mp refused.1
        obtain ⟨other, foundOther⟩ := known handle remembered
        simp [remembered, foundOther]
      · rw [if_neg same, if_neg refused, if_neg (not_or.mpr ⟨same, refused⟩)]
        simp only [Option.mem_some_iff, forall_eq', isHandle_iff]
        cases system.manager.window target with
        | none => simp
        | some other => simp [switches]

/-- A pool with all its messages from windows of that pool. -/
structure Addressed (infos : List WindowInfo) (manager : Manager) : Prop where
  pool : manager.infos = infos
  senders : ∀ message ∈ manager.msgBox, IsHandle infos message.senderHandle

section Senders

variable {infos : List WindowInfo}

/-- A change of a state leaves the messages addressed as they were. -/
theorem Addressed.setState {manager : Manager} (addressed : Addressed infos manager)
    (handle : Int) (state : WinState) : Addressed infos (manager.setState handle state) :=
  ⟨by rw [setState_infos, addressed.pool], by rw [setState_box]; exact addressed.senders⟩

/-- So does a change of the foreground, as it touches neither the pool nor the box. -/
theorem Addressed.setFore {manager : Manager} (addressed : Addressed infos manager)
    (handle : Int) : Addressed infos (manager.setFore handle) :=
  ⟨addressed.pool, addressed.senders⟩

/-- A request is a message from a registered window, whatever it asks for. -/
theorem Addressed.issue {manager : Manager} (addressed : Addressed infos manager)
    (request : ApiRequest) : Addressed infos (request.issue manager).2 := by
  rcases issue_cases request manager with same | ⟨message, posted, sender, _⟩
  · rwa [same]
  · rw [posted]
    refine ⟨addressed.pool, List.forall_mem_cons.mpr ⟨?_, addressed.senders⟩⟩
    exact addressed.pool ▸ sender

/-- A callback adds messages that are addressed to windows of the pool only, as its requests name
them. -/
theorem Addressed.invoke {system : System ω} (addressed : Addressed infos system.manager)
    (callback : Callback) (handle : Int) (data : Option (BitVec 32)) :
    Addressed infos (WindowManager.invoke modules callback handle data system).2.manager :=
  invoke_preserves modules (Addressed infos) callback handle data system addressed
    fun request _ _ held => held.issue request

/-- Handling a message leaves messages from registered windows only, whatever callbacks it makes
run. -/
theorem Handled.addressed {pCurWnd previous : Option Int} {message : MsgInfo}
    {system after : System ω} (handled : Handled modules pCurWnd message system previous after)
    (addressed : Addressed infos system.manager) : Addressed infos after.manager :=
  handled.preserves modules (Addressed infos) addressed
    (fun _ _ _ held => held.invoke modules _ _ _)
    (fun handle state _ held => held.setState handle state)
    (fun handle _ held => held.setFore handle)

end Senders

end Lfdk.WindowManager
