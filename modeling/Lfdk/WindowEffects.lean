import Lfdk.WindowManager

/-!
# What the steps of the window manager change

A callback can only add messages to the box, so the pool and the foreground
handle stay as they were around it. Each step of the manager then changes the
state of one window or the handle, and that is all later arguments need to know.

The messages that arrive in the box name registered windows, as long as
transfers ask for names that are registered.
-/

namespace Lfdk.WindowManager

universe u
variable {ω : Type u} (modules : Modules ω)

/-- What was registered, without the states. -/
def Manager.infos (manager : Manager) : List WindowInfo := manager.windowsPool.map WinInfo.pWin

/-- A handle of a pool. -/
def IsHandle (infos : List WindowInfo) (handle : Int) : Prop := 0 ≤ handle ∧ handle < infos.length

/-- A message that names windows of a pool only. -/
def MsgInfo.Registered (infos : List WindowInfo) (message : MsgInfo) : Prop :=
  IsHandle infos message.senderHandle ∧
    ∀ target, message.msg = .xferControl target → IsHandle infos target

section Fields

variable (manager : Manager) (handle other : Int) (state : WinState)

/-- A number is a handle exactly if some window of the pool stands for it. -/
theorem isHandle_iff : IsHandle manager.infos handle ↔ ∃ window, manager.window handle = some window := by
  rw [Manager.window, IsHandle, Manager.infos, List.length_map]
  split
  · simp only [List.getElem?_eq_some_iff]
    constructor
    · rintro ⟨_, small⟩
      exact ⟨_, by omega, rfl⟩
    · rintro ⟨_, inside, _⟩
      omega
  · simp only [reduceCtorEq, exists_false, iff_false]
    omega

/-- A change of the foreground changes no window. The lemmas about `setFore` and `setState` say so
for each field of the manager. -/
@[simp] theorem setFore_window : (manager.setFore other).window handle = manager.window handle := rfl

/-- The foreground is then the given one, also where it is the handle of no window. -/
@[simp] theorem setFore_fore : (manager.setFore other).curForeWindowHandle = other := rfl

/-- The box stays as it is when the foreground changes, -/
@[simp] theorem setFore_box : (manager.setFore other).msgBox = manager.msgBox := rfl

/-- and so does the pool of windows. -/
@[simp] theorem setFore_infos : (manager.setFore other).infos = manager.infos := rfl

/-- A change of a window's state leaves the foreground, -/
@[simp] theorem setState_fore :
    (manager.setState handle state).curForeWindowHandle = manager.curForeWindowHandle := by
  unfold Manager.setState
  split <;> rfl

/-- the box of messages, -/
@[simp] theorem setState_box : (manager.setState handle state).msgBox = manager.msgBox := by
  unfold Manager.setState
  split <;> rfl

/-- and what was registered of the windows in the pool. -/
@[simp] theorem setState_infos : (manager.setState handle state).infos = manager.infos := by
  unfold Manager.setState
  split
  · apply List.ext_getElem?
    intro index
    rw [Manager.infos, Manager.infos, List.getElem?_map, List.getElem?_map, List.getElem?_modify]
    cases manager.windowsPool[index]? <;> simp [apply_ite WinInfo.pWin]
  · rfl

/-- A state change reaches one window, the one of its handle, and no other. -/
theorem setState_window : (manager.setState handle state).window other =
    (manager.window other).map fun window =>
      if other = handle then { window with winState := state } else window := by
  unfold Manager.setState Manager.window
  by_cases named : 0 ≤ handle
  · by_cases asked : 0 ≤ other
    · have same : handle.toNat = other.toNat ↔ other = handle := by omega
      simp only [named, asked, if_true, List.getElem?_modify, same]
      split <;> simp_all
    · simp [asked]
  · by_cases asked : 0 ≤ other
    · have apart : other ≠ handle := by omega
      simp [named, asked, apart]
    · simp [asked]

end Fields

/-- A manager that has only received messages since. -/
structure Extends (before after : Manager) : Prop where
  pool : after.windowsPool = before.windowsPool
  fore : after.curForeWindowHandle = before.curForeWindowHandle

/-- A manager extends itself, by no messages. -/
theorem Extends.refl (manager : Manager) : Extends manager manager := ⟨rfl, rfl⟩

/-- Extending is transitive, so the steps of a run are put together. -/
theorem Extends.trans {first second third : Manager} (earlier : Extends first second)
    (later : Extends second third) : Extends first third :=
  ⟨later.pool.trans earlier.pool, later.fore.trans earlier.fore⟩

/-- What a handle stands for is the same in a manager that extends another one. -/
theorem Extends.window {before after : Manager} (extended : Extends before after) (handle : Int) :
    after.window handle = before.window handle := by
  rw [Manager.window, Manager.window, extended.pool]

/-- A valid sender is a handle of the pool. -/
theorem validSender_handle (manager : Manager) (pWin : Option WindowInfo) (handle : Int)
    (valid : manager.validSender pWin handle = true) : IsHandle manager.infos handle := by
  rw [isHandle_iff]
  cases found : manager.window handle with
  | none => cases pWin <;> simp [Manager.validSender, found] at valid
  | some window => exact ⟨window, rfl⟩

/-- The function a request asks to transfer control to, if it names one. -/
def ApiRequest.target : ApiRequest → Option String
  | .xferControl _ _ funcName => funcName
  | _ => none

/-- A request changes nothing or adds one message. Its sender is registered, and a
target is the result of looking a name up. -/
theorem issue_cases (request : ApiRequest) (manager : Manager) :
    (request.issue manager).2 = manager ∨ ∃ message,
      (request.issue manager).2 = manager.posted message ∧
        IsHandle manager.infos message.senderHandle ∧
        ∀ target, message.msg = .xferControl target →
          ∃ name ∈ request.target, target = manager.findName name := by
  have plain : ∀ success msg pWin handle, (∀ target, msg ≠ .xferControl target) →
      (WindowManager.request success msg pWin handle manager).2 = manager ∨ ∃ message,
        (WindowManager.request success msg pWin handle manager).2 = manager.posted message ∧
          IsHandle manager.infos message.senderHandle ∧
          ∀ target, message.msg = .xferControl target →
            ∃ name ∈ request.target, target = manager.findName name := by
    intro success msg pWin handle other
    unfold WindowManager.request
    split
    · exact Or.inl rfl
    · next valid =>
      split
      · exact Or.inl rfl
      · refine Or.inr ⟨_, rfl, validSender_handle manager pWin handle (by simpa using valid), ?_⟩
        exact fun target same => absurd same (other target)
  cases request with
  | windowsFocus pWin handle => exact plain _ _ _ _ (by simp)
  | releaseFocus pWin handle => exact plain _ _ _ _ (by simp)
  | destroyWindows pWin handle => exact plain _ _ _ _ (by simp)
  | xferControl pWin handle funcName =>
    simp only [ApiRequest.issue, requestXferControl]
    split
    · exact Or.inl rfl
    · next valid =>
      split
      · exact Or.inl rfl
      · cases funcName with
        | none => exact Or.inl rfl
        | some name =>
          refine Or.inr ⟨_, rfl, validSender_handle manager pWin handle (by simpa using valid), ?_⟩
          rintro target ⟨⟩
          exact ⟨name, rfl, rfl⟩

/-- A request adds at most one message, and nothing else. -/
theorem issue_extends (request : ApiRequest) (manager : Manager) :
    Extends manager (request.issue manager).2 := by
  rcases issue_cases request manager with same | ⟨message, posted, _⟩
  · rw [same]
    exact .refl manager
  · rw [posted]
    exact ⟨rfl, rfl⟩

/-- What survives the requests that a callback issues survives the callback. -/
theorem invoke_preserves (Holds : Manager → Prop) (callback : Callback) (handle : Int)
    (data : Option (BitVec 32)) (system : System ω) (start : Holds system.manager)
    (kept : ∀ request ∈ (modules.run callback handle data system.world system.manager).requests,
      ∀ manager, Holds manager → Holds (request.issue manager).2) :
    Holds (invoke modules callback handle data system).2.manager := by
  have all : ∀ (requests : List ApiRequest) (manager : Manager), Holds manager →
      (∀ request ∈ requests, ∀ manager, Holds manager → Holds (request.issue manager).2) →
      Holds (requests.foldl (fun manager request => (request.issue manager).2) manager) := by
    intro requests
    induction requests with
    | nil => exact fun _ held _ => held
    | cons request rest inductionHypothesis =>
      intro manager held kept
      obtain ⟨first, others⟩ := List.forall_mem_cons.mp kept
      exact inductionHypothesis _ (first manager held) others
  unfold invoke
  split
  · exact start
  · split
    · exact all _ _ start kept
    · exact start

/-- A callback only issues requests, so all it can do to the manager is to add messages. -/
theorem invoke_extends (callback : Callback) (handle : Int) (data : Option (BitVec 32))
    (system : System ω) :
    Extends system.manager (invoke modules callback handle data system).2.manager :=
  invoke_preserves modules (Extends system.manager) callback handle data system (.refl _)
    fun request _ manager extended => extended.trans (issue_extends request manager)

/-- A request that asks for the name of a registered window, if for any. -/
def ApiRequest.WellNamed (infos : List WindowInfo) (request : ApiRequest) : Prop :=
  ∀ name ∈ request.target, ∃ info ∈ infos, info.name = name

/-- Modules whose callbacks ask for the names of registered windows only. -/
def Modules.WellNamed (infos : List WindowInfo) (modules : Modules ω) : Prop :=
  ∀ callback handle data world manager, manager.infos = infos →
    ∀ request ∈ (modules.run callback handle data world manager).requests,
      request.WellNamed infos

/-- A pool with all its messages about windows of that pool. -/
structure Sound (infos : List WindowInfo) (manager : Manager) : Prop where
  pool : manager.infos = infos
  box : ∀ message ∈ manager.msgBox, message.Registered infos

section Soundness

variable {infos : List WindowInfo}

/-- A registered name is found at a handle of the pool. -/
theorem findName_handle (manager : Manager) (name : String)
    (registered : ∃ info ∈ manager.infos, info.name = name) :
    IsHandle manager.infos (manager.findName name) := by
  unfold Manager.findName
  cases found : manager.windowsPool.findIdx? fun window => decide (window.pWin.name = name) with
  | none =>
    obtain ⟨info, member, named⟩ := registered
    obtain ⟨window, inside, rfl⟩ := List.mem_map.mp member
    have missing := List.findIdx?_eq_none_iff.mp found window inside
    simp [named] at missing
  | some index =>
    obtain ⟨inside, _⟩ := List.findIdx?_eq_some_iff_getElem.mp found
    rw [IsHandle, Manager.infos, List.length_map]
    simp only
    omega

/-- A message about registered windows can be added to a sound manager. -/
theorem Sound.posted {manager : Manager} (sound : Sound infos manager) {message : MsgInfo}
    (registered : message.Registered infos) : Sound infos (manager.posted message) :=
  ⟨sound.pool, List.forall_mem_cons.mpr ⟨registered, sound.box⟩⟩

/-- A change of a state keeps the manager sound, as the pool and the box stay. -/
theorem Sound.setState {manager : Manager} (sound : Sound infos manager) (handle : Int)
    (state : WinState) : Sound infos (manager.setState handle state) :=
  ⟨by rw [setState_infos, sound.pool], by rw [setState_box]; exact sound.box⟩

/-- So does a change of the foreground, which is not among what soundness speaks of. -/
theorem Sound.setFore {manager : Manager} (sound : Sound infos manager) (handle : Int) :
    Sound infos (manager.setFore handle) :=
  ⟨sound.pool, sound.box⟩

/-- A well-named request adds a message about registered windows, if any. -/
theorem Sound.issue {manager : Manager} (sound : Sound infos manager) (request : ApiRequest)
    (wellNamed : request.WellNamed infos) : Sound infos (request.issue manager).2 := by
  rcases issue_cases request manager with same | ⟨message, posted, sender, targets⟩
  · rwa [same]
  · rw [posted]
    refine sound.posted ⟨sound.pool ▸ sender, fun target named => ?_⟩
    obtain ⟨name, asked, rfl⟩ := targets target named
    have registered := wellNamed name asked
    rw [← sound.pool] at registered ⊢
    exact findName_handle manager name registered

/-- A callback of well-named modules leaves a sound manager. -/
theorem Sound.invoke {system : System ω} (sound : Sound infos system.manager)
    (wellNamed : modules.WellNamed infos) (callback : Callback) (handle : Int)
    (data : Option (BitVec 32)) :
    Sound infos (WindowManager.invoke modules callback handle data system).2.manager :=
  invoke_preserves modules (Sound infos) callback handle data system sound
    fun request member _ held => held.issue request
      (wellNamed callback handle data system.world system.manager sound.pool request member)

end Soundness

/-- The record a callback leaves. -/
def Manager.fired (manager : Manager) (callback : Callback) (handle : Int) :
    List (Callback × Int) :=
  match manager.window handle with
  | none => []
  | some window => if window.pWin.defines callback then [(callback, handle)] else []

/-- A callback adds one call to the log if the window has it, and none otherwise. -/
theorem invoke_calls (callback : Callback) (handle : Int) (data : Option (BitVec 32))
    (system : System ω) :
    (invoke modules callback handle data system).2.calls =
      system.calls ++ system.manager.fired callback handle := by
  cases found : system.manager.window handle with
  | none => simp [invoke, Manager.fired, found]
  | some window =>
    simp only [invoke, Manager.fired, found]
    split <;> simp

/-- The calls it adds are of its own kind. -/
theorem fired_kind (manager : Manager) (callback : Callback) (handle : Int) :
    ∀ call ∈ manager.fired callback handle, call.1 = callback := by
  unfold Manager.fired
  split
  · simp
  · split <;> simp

/-- Which callbacks a window has does not depend on the states. -/
theorem setState_fired (manager : Manager) (handle asked : Int) (state : WinState)
    (callback : Callback) :
    (manager.setState handle state).fired callback asked = manager.fired callback asked := by
  unfold Manager.fired
  rw [setState_window]
  cases manager.window asked with
  | none => rfl
  | some window =>
    simp only [Option.map_some]
    split <;> rfl

/-- Only calls of one callback were added to a record. -/
def Adds (callback : Callback) (before after : List (Callback × Int)) : Prop :=
  ∃ new, after = before ++ new ∧ ∀ call ∈ new, call.1 = callback

/-- Nothing adds no calls, and so counts as adding calls of any one kind. -/
theorem Adds.refl (callback : Callback) (calls : List (Callback × Int)) :
    Adds callback calls calls :=
  ⟨[], by simp⟩

/-- Two steps that add calls of one kind add calls of this kind. -/
theorem Adds.trans {callback : Callback} {first second third : List (Callback × Int)}
    (earlier : Adds callback first second) (later : Adds callback second third) :
    Adds callback first third := by
  obtain ⟨new, rfl, kind⟩ := earlier
  obtain ⟨newer, rfl, sameKind⟩ := later
  exact ⟨new ++ newer, List.append_assoc _ _ _, List.forall_mem_append.mpr ⟨kind, sameKind⟩⟩

/-- A callback adds calls of its own kind only. -/
theorem invoke_adds (callback : Callback) (handle : Int) (data : Option (BitVec 32))
    (system : System ω) :
    Adds callback system.calls (invoke modules callback handle data system).2.calls := by
  exact ⟨_, invoke_calls modules callback handle data system, fired_kind _ callback handle⟩

/-- How often a callback of a window is in the record that a callback leaves. -/
theorem fired_count (manager : Manager) (callback other : Callback) (handle asked : Int) :
    (manager.fired callback handle).count (other, asked) =
      match manager.window handle with
      | none => 0
      | some window =>
        if window.pWin.defines callback = true ∧ callback = other ∧ handle = asked then 1 else 0 := by
  unfold Manager.fired
  cases manager.window handle with
  | none => rfl
  | some window =>
    simp only
    by_cases set : window.pWin.defines callback = true
    · simp [set, List.count_singleton]
    · simp [set]

/-- Calls of another callback do not count, so the count of this one stays. -/
theorem Adds.count {callback other : Callback} {before after : List (Callback × Int)}
    (adds : Adds callback before after) (apart : callback ≠ other) (handle : Int) :
    after.count (other, handle) = before.count (other, handle) := by
  obtain ⟨new, rfl, kind⟩ := adds
  rw [List.count_append, Nat.add_eq_left, List.count_eq_zero]
  intro member
  exact apart (kind _ member).symm

/-- A loss of the focus adds its call, if the window has the callback, -/
theorem loseFocus_calls (handle : Int) (system : System ω) :
    (loseFocus modules handle system).calls =
      system.calls ++ system.manager.fired .lostFocus handle :=
  invoke_calls modules .lostFocus handle none system

/-- and a gain of it adds its own, in the same way. -/
theorem gainFocus_calls (handle : Int) (system : System ω) :
    (gainFocus modules handle system).calls =
      system.calls ++ system.manager.fired .getFocus handle := by
  rw [gainFocus, invoke_calls, System.mapManager, setState_fired]
  rfl

/-- What the windows are after one lost the focus. -/
theorem loseFocus_window (handle asked : Int) (system : System ω) :
    (loseFocus modules handle system).manager.window asked =
      (system.manager.window asked).map fun window =>
        if asked = handle then { window with winState := .background } else window := by
  have extended := invoke_extends modules .lostFocus handle none system
  rw [loseFocus, System.mapManager, setState_window, extended.window]

/-- What the windows are after one got the focus. -/
theorem gainFocus_window (handle asked : Int) (system : System ω) :
    (gainFocus modules handle system).manager.window asked =
      (system.manager.window asked).map fun window =>
        if asked = handle then { window with winState := .foreground } else window := by
  have extended := invoke_extends modules .getFocus handle none
    (system.mapManager fun manager => (manager.setFore handle).setState handle .foreground)
  rw [gainFocus, extended.window, System.mapManager, setState_window, setFore_window]

/-- The window that gains the focus is in the foreground then. -/
theorem gainFocus_fore (handle : Int) (system : System ω) :
    (gainFocus modules handle system).manager.curForeWindowHandle = handle := by
  have extended := invoke_extends modules .getFocus handle none
    (system.mapManager fun manager => (manager.setFore handle).setState handle .foreground)
  rw [gainFocus, extended.fore, System.mapManager, setState_fore, setFore_fore]

section Loops

variable (Holds : System ω → Prop)

/-- What survives `init` and the state after it survives the initialisation. -/
theorem initWindows_preserves (handles : List Int) (system : System ω) (start : Holds system)
    (called : ∀ handle current, Holds current →
      Holds (invoke modules .init handle none current).2)
    (entered : ∀ handle current, Holds current →
      Holds (current.mapManager fun manager => manager.setState handle .inited)) :
    Holds (initWindows modules handles system).2 := by
  induction handles generalizing system with
  | nil => exact start
  | cons handle rest inductionHypothesis =>
    have kept := called handle system start
    rcases outcome : invoke modules .init handle none system with ⟨ret, after⟩
    rw [outcome] at kept
    simp only [initWindows, outcome]
    split
    · exact kept
    · exact inductionHypothesis _ (entered handle after kept)

/-- What survives a callback and the state after it survives a promotion of all
windows. -/
theorem promoted_preserves (source target : WinState) (callback : Callback) (handles : List Int)
    (system : System ω) (start : Holds system)
    (called : ∀ handle current, Holds current →
      Holds (invoke modules callback handle none current).2)
    (entered : ∀ handle current, Holds current →
      Holds (current.mapManager fun manager => manager.setState handle target)) :
    Holds (handles.foldl (promote modules source target callback) system) := by
  induction handles generalizing system with
  | nil => exact start
  | cons handle rest inductionHypothesis =>
    rw [List.foldl_cons]
    apply inductionHypothesis
    unfold promote
    split
    · exact start
    · split
      · exact entered handle _ (called handle system start)
      · exact start

/-- What survives the retirement of a window that is not past it survives the loop
over all windows. -/
theorem retired_preserves (past : WinState → Bool) (callback : Callback) (target : WinState)
    (handles : List Int) (system : System ω) (start : Holds system)
    (retired : ∀ handle window current, Holds current →
      current.manager.window handle = some window → past window.winState = false →
      Holds ((invoke modules callback handle none current).2.mapManager
        fun manager => manager.setState handle target)) :
    Holds (handles.foldl (retire modules past callback target) system) := by
  induction handles generalizing system with
  | nil => exact start
  | cons handle rest inductionHypothesis =>
    rw [List.foldl_cons]
    apply inductionHypothesis
    unfold retire
    split
    · exact start
    · next window found =>
      split
      · exact start
      · next present => exact retired handle window system start found (by simpa using present)

/-- What survives painting a window survives painting them all. -/
theorem handlePaintWindows_preserves (system after : System ω)
    (painted : handlePaintWindows modules system = some after) (start : Holds system)
    (called : ∀ handle current, Holds current →
      Holds (invoke modules .paint handle none current).2) : Holds after := by
  have background : ∀ (handles : List Int) (current : System ω), Holds current →
      Holds (handles.foldl (paintBackground modules) current) := by
    intro handles
    induction handles with
    | nil => exact fun _ held => held
    | cons handle rest inductionHypothesis =>
      intro current held
      rw [List.foldl_cons]
      apply inductionHypothesis
      unfold paintBackground
      split
      · exact held
      · split
        · exact called handle current held
        · exact held
  have held := background system.manager.handles system start
  simp only [handlePaintWindows] at painted
  split at painted
  · obtain ⟨window, _, rfl⟩ := Option.map_eq_some_iff.mp painted
    exact called _ _ held
  · obtain rfl := Option.some.inj painted
    exact held

/-- Painting has a result when the foreground handle is valid, or none. -/
theorem handlePaintWindows_total (system : System ω)
    (valid : 0 ≤ system.manager.curForeWindowHandle →
      IsHandle system.manager.infos system.manager.curForeWindowHandle) :
    ∃ after, handlePaintWindows modules system = some after := by
  have extended : ∀ (handles : List Int) (current : System ω),
      Extends current.manager (handles.foldl (paintBackground modules) current).manager := by
    intro handles
    induction handles with
    | nil => exact fun _ => .refl _
    | cons handle rest inductionHypothesis =>
      intro current
      rw [List.foldl_cons]
      refine Extends.trans ?_ (inductionHypothesis _)
      unfold paintBackground
      split
      · exact .refl _
      · split
        · exact invoke_extends modules .paint handle none current
        · exact .refl _
  have background := extended system.manager.handles system
  simp only [handlePaintWindows]
  rw [background.fore]
  split
  · next named =>
    obtain ⟨window, found⟩ := (isHandle_iff _ _).mp (valid named)
    rw [background.window, found]
    exact ⟨_, rfl⟩
  · exact ⟨_, rfl⟩

end Loops

end Lfdk.WindowManager
