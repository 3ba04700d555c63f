import Lfdk.ForegroundInvariant
import Lfdk.MessageBatching

/-!
# Calls that come in pairs

A module that got the focus is told when it loses it, and cleans up what it has
set up. The manager has no record of who was told what: it calls `lost_focus` of
the window it takes for the previous one and `get_focus` of the next one.

Two things break the pairs. A window that is destroyed in the foreground is not
told that it lost the focus, so the focus must not come back to it. And the
pointer to the previous window outlives the message that set it, so a later
message of the same call may take the focus from a window that has lost it
before. A run without these keeps the pairs, for every window with both callbacks.
-/

namespace Lfdk.WindowManager

open Runs

universe u
variable {ω : Type u} (modules : Modules ω)

/-- Two values that take turns, beginning with the first. -/
def Alternates {α : Type u} (first second : α) : List α → Prop
  | [] => True
  | value :: rest => value = first ∧ Alternates second first rest

/-- The value that has its turn is decided by the number of values before it. -/
theorem alternates_append {α : Type u} (first second value : α) (values : List α) :
    Alternates first second (values ++ [value]) ↔
      Alternates first second values ∧
        value = if values.length % 2 = 0 then first else second := by
  induction values generalizing first second with
  | nil => simp [Alternates]
  | cons head rest inductionHypothesis =>
    rw [List.cons_append, Alternates, Alternates, inductionHypothesis, and_assoc,
      List.length_cons]
    have turn : (rest.length + 1) % 2 = 0 ↔ ¬ rest.length % 2 = 0 := by omega
    by_cases even : rest.length % 2 = 0 <;> simp [turn, even]

/-- The calls about the focus that a window received, in order. -/
def focusCalls (handle : Int) (calls : List (Callback × Int)) : List Callback :=
  calls.filterMap fun call =>
    if call.2 = handle ∧ (call.1 = .getFocus ∨ call.1 = .lostFocus) then some call.1 else none

/-- What was registered under a handle. -/
def infoAt (infos : List WindowInfo) (handle : Int) : Option WindowInfo :=
  if 0 ≤ handle then infos[handle.toNat]? else none

/-- A registered window with both callbacks of the focus. -/
def BothCallbacks (infos : List WindowInfo) (handle : Int) : Prop :=
  ∃ info ∈ infoAt infos handle, info.defines .getFocus = true ∧ info.defines .lostFocus = true

/-- What is asked of a step: the calls of each window with both callbacks alternate by
the end of it, beginning with `get_focus`, and `lost_focus` was called at most on the
window that had been in the foreground. -/
structure FocusPaired (infos : List WindowInfo) (before after : System ω) : Prop where
  alternates : ∀ handle, BothCallbacks infos handle →
    Alternates .getFocus .lostFocus (focusCalls handle after.calls)
  current : ∀ handle, BothCallbacks infos handle →
    before.calls.count (.lostFocus, handle) < after.calls.count (.lostFocus, handle) →
    handle = before.manager.curForeWindowHandle

/-- A program, and the windows that were destroyed while they were in the foreground. -/
structure Watched (ω : Type u) where
  state : State ω
  dropped : List Int

/-- The window that the next message destroys in the foreground, if it does. -/
def dropping (move : Move) (state : State ω) : List Int :=
  match move, state.control, state.system.manager.msgBox with
  | .next, .handling _, ⟨.destroyWindow, sender⟩ :: _ =>
    if sender = state.system.manager.curForeWindowHandle then [sender] else []
  | _, _, _ => []

/-- A step of the program with its record of dropped windows. -/
def watchedStep (move : Move) (watched : Watched ω) : Option Int × Watched ω :=
  let (value, after) := step modules move watched.state
  (value, ⟨after, dropping move watched.state ++ watched.dropped⟩)

/-- A message that keeps the pairs. If it gives the focus to a window with both
callbacks, that one was not destroyed in the foreground; and if there is no foreground
window, the previous window that an earlier message left does not have both callbacks. -/
def Paired (infos : List WindowInfo) (pCurWnd : Option Int) (message : MsgInfo)
    (manager : Manager) (dropped : List Int) : Prop :=
  ∀ next ∈ focusGiven pCurWnd message manager, (BothCallbacks infos next → next ∉ dropped) ∧
    (manager.curForeWindowHandle < 0 → ∀ previous ∈ pCurWnd, ¬ BothCallbacks infos previous)

/-- The next message, if one is about to be handled, keeps the pairs. -/
def PairingMove (infos : List WindowInfo) : Move → Watched ω → Prop
  | .next, ⟨⟨.handling pCurWnd, system⟩, dropped⟩ =>
    ∀ message ∈ system.manager.msgBox.head?, Paired infos pCurWnd message system.manager dropped
  | _, _ => True

instance (infos : List WindowInfo) (handle : Int) : Decidable (BothCallbacks infos handle) :=
  inferInstanceAs (Decidable (∃ info ∈ infoAt infos handle, _))

instance (infos : List WindowInfo) (pCurWnd : Option Int) (message : MsgInfo) (manager : Manager)
    (dropped : List Int) : Decidable (Paired infos pCurWnd message manager dropped) :=
  inferInstanceAs (Decidable (∀ next ∈ focusGiven pCurWnd message manager, _))

instance (infos : List WindowInfo) (move : Move) (watched : Watched ω) :
    Decidable (PairingMove infos move watched) :=
  match move, watched with
  | .next, ⟨⟨.handling pCurWnd, system⟩, dropped⟩ =>
    inferInstanceAs (Decidable (∀ message ∈ system.manager.msgBox.head?,
      Paired infos pCurWnd message system.manager dropped))
  | .request _, _ | .key _, _ | .paint, _ | .next, ⟨⟨.registered, _⟩, _⟩
  | .next, ⟨⟨.inited, _⟩, _⟩ | .next, ⟨⟨.started, _⟩, _⟩ | .next, ⟨⟨.running, _⟩, _⟩
  | .next, ⟨⟨.stopped, _⟩, _⟩ | .next, ⟨⟨.undefined, _⟩, _⟩ => isTrue trivial

section Calls

variable (handle : Int) (calls new : List (Callback × Int))

/-- The calls of focus in a longer log are those of its parts. So a step adds its own calls at the
end. -/
@[simp] theorem focusCalls_append : focusCalls handle (calls ++ new) =
    focusCalls handle calls ++ focusCalls handle new :=
  List.filterMap_append

/-- Only the calls of focus count for the losses of focus of a window, so the other calls can be
left out. -/
theorem count_lostFocus :
    calls.count (.lostFocus, handle) = (focusCalls handle calls).count .lostFocus := by
  induction calls with
  | nil => rfl
  | cons call rest inductionHypothesis =>
    obtain ⟨callback, asked⟩ := call
    rw [List.count_cons, inductionHypothesis, focusCalls, focusCalls, List.filterMap_cons]
    by_cases same : asked = handle
    · cases callback <;> simp [same]
    · simp [same]

/-- Calls of other callbacks are not about the focus, so what a window was told of it stays the
same. -/
theorem Adds.focusCalls {callback : Callback} {before after : List (Callback × Int)}
    (adds : Adds callback before after) (notGot : callback ≠ .getFocus)
    (notLost : callback ≠ .lostFocus) :
    WindowManager.focusCalls handle after = WindowManager.focusCalls handle before := by
  obtain ⟨new, rfl, kind⟩ := adds
  have silent : WindowManager.focusCalls handle new = [] := by
    apply List.filterMap_eq_nil_iff.mpr
    rintro ⟨called, asked⟩ member
    obtain rfl : called = callback := kind _ member
    simp [notGot, notLost]
  rw [focusCalls_append, silent, List.append_nil]

end Calls

section Windows

variable {infos : List WindowInfo} {manager : Manager}

/-- A handle whose window has both callbacks stands for a window of the pool, which defines both. -/
theorem BothCallbacks.window (handle : Int) (pool : manager.infos = infos)
    (both : BothCallbacks infos handle) :
    ∃ window, manager.window handle = some window ∧ window.pWin.defines .getFocus = true ∧
      window.pWin.defines .lostFocus = true := by
  subst pool
  obtain ⟨info, found, got, lost⟩ := both
  unfold infoAt at found
  unfold Manager.window
  split at found
  · next named =>
    rw [Manager.infos, List.getElem?_map, Option.mem_def] at found
    obtain ⟨window, known, rfl⟩ := Option.map_eq_some_iff.mp found
    exact ⟨window, by rw [if_pos named, known], got, lost⟩
  · cases found

/-- Such a handle is not the one that stands for no window. -/
theorem BothCallbacks.ne_none {handle : Int} (both : BothCallbacks infos handle) : handle ≠ -1 := by
  rintro rfl
  obtain ⟨info, found, _⟩ := both
  simp [infoAt] at found

/-- A callback of the focus is recorded for its window, and for no other. -/
theorem focusCalls_fired (callback : Callback) (focus : callback = .getFocus ∨ callback = .lostFocus)
    (handle asked : Int) (pool : manager.infos = infos) (both : BothCallbacks infos asked) :
    focusCalls asked (manager.fired callback handle) =
      if asked = handle then [callback] else [] := by
  obtain ⟨window, found, got, lost⟩ := both.window asked pool
  by_cases same : asked = handle
  · subst same
    rcases focus with rfl | rfl <;> simp [Manager.fired, found, got, lost, focusCalls]
  · unfold Manager.fired
    have apart : ¬ handle = asked := fun equal => same equal.symm
    split
    · simp [focusCalls, same]
    · split <;> simp [focusCalls, apart]

end Windows

/-- The calls to each window with both callbacks alternate. It has been told of the focus
and not of its loss exactly when it is the foreground window or was dropped, and it is
not both. -/
def Told (infos : List WindowInfo) (dropped : List Int) (system : System ω) : Prop :=
  ∀ handle, BothCallbacks infos handle →
    Alternates .getFocus .lostFocus (focusCalls handle system.calls) ∧
    ((focusCalls handle system.calls).length % 2 = 1 ↔
      handle = system.manager.curForeWindowHandle ∨ handle ∈ dropped) ∧
    (handle = system.manager.curForeWindowHandle → handle ∉ dropped)

section Messages

variable {infos : List WindowInfo} {dropped : List Int} {pCurWnd previous : Option Int}
  {message : MsgInfo} {before after : System ω}

/-- What a switch of the focus adds to the calls of a window. -/
theorem switched_focusCalls (previous : Option Int) (next handle : Int)
    (pool : before.manager.infos = infos) (both : BothCallbacks infos handle) :
    focusCalls handle (gainFocus modules next (leaveFocus modules previous before)).calls =
      focusCalls handle before.calls ++ (if previous = some handle then [.lostFocus] else []) ++
        if handle = next then [.getFocus] else [] := by
  rw [gainFocus_calls, focusCalls_append, focusCalls_fired _ (Or.inl rfl) next handle
    ((leaveFocus_infos modules before previous).trans pool) both]
  congr 1
  cases previous with
  | none => simp [leaveFocus]
  | some other =>
    rw [leaveFocus, loseFocus_calls, focusCalls_append,
      focusCalls_fired _ (Or.inr rfl) other handle pool both]
    simp [eq_comm]

/-- The focus is given to another window than the one that has it. -/
theorem focusGiven_apart (pCurWnd : Option Int) (message : MsgInfo) (manager : Manager) (next : Int)
    (given : focusGiven pCurWnd message manager = some next)
    (registered : IsHandle manager.infos next) : next ≠ manager.curForeWindowHandle := by
  rintro rfl
  have named := registered.1
  simp only [focusGiven] at given
  cases kind : message.msg with
  | needFocus =>
    simp only [kind, Option.ite_none_left_eq_some, Option.some.injEq] at given
    exact given.1 given.2
  | xferControl target =>
    simp only [kind, curWnd, named, if_true, Option.ite_none_left_eq_some, Option.some.injEq] at given
    obtain ⟨accepted, rfl⟩ := given
    simp at accepted
  | noUsed | releaseFocus | destroyWindow => simp [kind] at given

/-- For windows with both callbacks, the previous window is the foreground window when
no other one is left from an earlier message. -/
theorem curWnd_both
    (fresh : before.manager.curForeWindowHandle < 0 → ∀ previous ∈ pCurWnd,
      ¬ BothCallbacks infos previous) (handle : Int) (both : BothCallbacks infos handle) :
    curWnd pCurWnd before.manager = some handle ↔
      handle = before.manager.curForeWindowHandle := by
  unfold curWnd
  split
  · rw [Option.some.injEq, eq_comm]
  · next missing =>
    have none : before.manager.curForeWindowHandle < 0 := by omega
    constructor
    · exact fun remembered => absurd both (fresh none handle remembered)
    · rintro rfl
      obtain ⟨info, found, _⟩ := both
      simp [infoAt, missing] at found

/-- A switch of the focus that keeps the pairs: the window that is told to leave is the one that had
the focus. -/
theorem Told.switched (told : Told infos dropped before) (pool : before.manager.infos = infos)
    (previous : Option Int) (next : Int)
    (leaves : ∀ handle, BothCallbacks infos handle →
      (previous = some handle ↔ handle = before.manager.curForeWindowHandle))
    (apart : next ≠ before.manager.curForeWindowHandle)
    (fresh : BothCallbacks infos next → next ∉ dropped) :
    Told infos dropped (gainFocus modules next (leaveFocus modules previous before)) ∧
      FocusPaired infos before (gainFocus modules next (leaveFocus modules previous before)) := by
  have calls := fun handle both =>
    switched_focusCalls modules previous next handle pool both
  have toldAfter : Told infos dropped
      (gainFocus modules next (leaveFocus modules previous before)) := by
    intro handle both
    obtain ⟨alternates, open_iff, single⟩ := told handle both
    rw [calls handle both, gainFocus_fore]
    by_cases current : handle = before.manager.curForeWindowHandle
    · have other : handle ≠ next := fun same => apart (same ▸ current)
      have odd := open_iff.mpr (Or.inl current)
      rw [if_pos ((leaves handle both).mpr current), if_neg other, List.append_nil]
      refine ⟨(alternates_append _ _ _ _).mpr ⟨alternates, by simp [odd]⟩, ?_,
        fun same => absurd same other⟩
      rw [List.length_append]
      simp only [List.length_singleton, other, single current, or_self, iff_false]
      omega
    · rw [if_neg (mt (leaves handle both).mp current), List.append_nil]
      by_cases same : handle = next
      · subst same
        have notOpen := mt open_iff.mp (not_or.mpr ⟨current, fresh both⟩)
        have even : (focusCalls handle before.calls).length % 2 = 0 := by omega
        rw [if_pos rfl]
        refine ⟨(alternates_append _ _ _ _).mpr ⟨alternates, by simp [even]⟩, ?_,
          fun _ => fresh both⟩
        rw [List.length_append]
        simp only [List.length_singleton, true_or, iff_true]
        omega
      · rw [if_neg same, List.append_nil]
        simp only [current, false_or] at open_iff
        exact ⟨alternates, by simpa [same] using open_iff, fun equal => absurd equal same⟩
  refine ⟨toldAfter, fun handle both => (toldAfter handle both).1, fun handle both grown => ?_⟩
  rw [count_lostFocus, count_lostFocus, calls handle both] at grown
  by_contra current
  rw [if_neg (mt (leaves handle both).mp current)] at grown
  by_cases same : handle = next <;> simp [same] at grown

/-- A switch of the focus in which the pairs were kept has told the right window to leave. -/
theorem Told.unswitched (told : Told infos dropped before) (pool : before.manager.infos = infos)
    (valid : ∀ handle ∈ pCurWnd, IsHandle infos handle) (next : Int)
    (apart : next ≠ before.manager.curForeWindowHandle)
    (paired : FocusPaired infos before
      (gainFocus modules next (leaveFocus modules (curWnd pCurWnd before.manager) before))) :
    (BothCallbacks infos next → next ∉ dropped) ∧
      (before.manager.curForeWindowHandle < 0 → ∀ previous ∈ pCurWnd,
        ¬ BothCallbacks infos previous) := by
  have stale : before.manager.curForeWindowHandle < 0 → ∀ previous ∈ pCurWnd,
      ¬ BothCallbacks infos previous := by
    intro none previous remembered both
    have current := paired.current previous both
    have left : curWnd pCurWnd before.manager = some previous := by
      rw [curWnd, if_neg (by omega), Option.mem_def.mp remembered]
    rw [count_lostFocus, count_lostFocus, switched_focusCalls modules _ next previous pool both,
      if_pos left, List.count_append, List.count_append] at current
    have inside := (valid previous remembered).1
    have same := current (by simp; omega)
    omega
  refine ⟨fun both member => ?_, stale⟩
  have alternates := paired.alternates next both
  have other : curWnd pCurWnd before.manager ≠ some next := by
    unfold curWnd
    split
    · simpa [eq_comm] using apart
    · next missing => exact fun remembered => stale (by omega) next remembered both
  rw [switched_focusCalls modules _ next next pool both, if_neg other, if_pos rfl, List.append_nil,
    alternates_append, if_neg] at alternates
  · cases alternates.2
  · have odd := (told next both).2.1.mpr (Or.inr member)
    omega

/-- Nothing was called about the focus, and it stayed where it was. -/
theorem Told.unchanged (told : Told infos dropped before)
    (calls : ∀ handle, focusCalls handle after.calls = focusCalls handle before.calls)
    (fore : after.manager.curForeWindowHandle = before.manager.curForeWindowHandle) :
    Told infos dropped after ∧ FocusPaired infos before after := by
  have toldAfter : Told infos dropped after := by
    intro handle both
    rw [calls, fore]
    exact told handle both
  refine ⟨toldAfter, fun handle both => (toldAfter handle both).1, fun handle _ grown => ?_⟩
  rw [count_lostFocus, count_lostFocus, calls] at grown
  exact absurd grown (lt_irrefl _)

/-- The foreground window gives the focus up and is told so, and what the windows have been told is
still paired. -/
theorem Told.released (told : Told infos dropped before) (pool : before.manager.infos = infos) :
    let handle := before.manager.curForeWindowHandle
    let after := (loseFocus modules handle before).mapManager fun manager => manager.setFore (-1)
    Told infos dropped after ∧ FocusPaired infos before after := by
  intro current after
  have calls : ∀ handle, BothCallbacks infos handle → focusCalls handle after.calls =
      focusCalls handle before.calls ++ if handle = current then [.lostFocus] else [] := by
    intro handle both
    rw [← focusCalls_fired _ (Or.inr rfl) current handle pool both, ← focusCalls_append,
      ← loseFocus_calls modules]
    rfl
  have toldAfter : Told infos dropped after := by
    intro handle both
    obtain ⟨alternates, open_iff, single⟩ := told handle both
    have named : handle ≠ -1 := both.ne_none
    have fore : after.manager.curForeWindowHandle = -1 := rfl
    rw [calls handle both, fore]
    by_cases same : handle = current
    · have odd := open_iff.mpr (Or.inl same)
      rw [if_pos same]
      refine ⟨(alternates_append _ _ _ _).mpr ⟨alternates, by simp [odd]⟩, ?_,
        fun none => absurd none named⟩
      rw [List.length_append]
      simp only [List.length_singleton, named, single same, or_self, iff_false]
      omega
    · rw [if_neg same, List.append_nil]
      have kept : handle = -1 ∨ handle ∈ dropped ↔ handle = current ∨ handle ∈ dropped := by
        simp [named, same]
      exact ⟨alternates, by rw [kept]; exact open_iff, fun none => absurd none named⟩
  refine ⟨toldAfter, fun handle both => (toldAfter handle both).1, fun handle both grown => ?_⟩
  rw [count_lostFocus, count_lostFocus, calls handle both] at grown
  by_contra other
  rw [if_neg other, List.append_nil] at grown
  exact absurd grown (lt_irrefl _)

/-- A window is destroyed. If it was in the foreground, it was dropped. -/
theorem Told.destroyed (told : Told infos dropped before) (sender : Int) :
    Told infos ((if sender = before.manager.curForeWindowHandle then [sender] else []) ++ dropped)
        (destroySender modules sender before) ∧
      FocusPaired infos before (destroySender modules sender before) := by
  have calls : ∀ handle, focusCalls handle (destroySender modules sender before).calls =
      focusCalls handle before.calls := by
    intro handle
    have adds : Adds .destroyWin before.calls (destroySender modules sender before).calls := by
      rw [destroySender_calls]
      exact ⟨_, rfl, fired_kind _ _ _⟩
    exact adds.focusCalls handle (by decide) (by decide)
  have toldAfter : Told infos
      ((if sender = before.manager.curForeWindowHandle then [sender] else []) ++ dropped)
      (destroySender modules sender before) := by
    intro handle both
    obtain ⟨alternates, open_iff, single⟩ := told handle both
    have named : handle ≠ -1 := both.ne_none
    rw [calls, destroySender_fore]
    by_cases current : sender = before.manager.curForeWindowHandle
    · rw [if_pos current, if_pos current, List.singleton_append, List.mem_cons, current]
      refine ⟨alternates, ?_, fun none => absurd none named⟩
      simpa [named] using open_iff
    · rw [if_neg current, if_neg current, List.nil_append]
      exact ⟨alternates, open_iff, single⟩
  refine ⟨toldAfter, fun handle both => (toldAfter handle both).1, fun handle _ grown => ?_⟩
  rw [count_lostFocus, count_lostFocus, calls] at grown
  exact absurd grown (lt_irrefl _)

/-- Handling a message keeps the pairs exactly when the message does, by the four results a message
can have. -/
theorem message_pairs (told : Told infos dropped before) (pool : before.manager.infos = infos)
    (exclusive : Exclusive before.manager)
    (valid : ∀ handle ∈ pCurWnd, IsHandle infos handle)
    (handled : Handled modules pCurWnd message before previous after) :
    let newDropped := if message.msg = .destroyWindow ∧
      message.senderHandle = before.manager.curForeWindowHandle then [message.senderHandle] else []
    (FocusPaired infos before after ↔ Paired infos pCurWnd message before.manager dropped) ∧
      (Paired infos pCurWnd message before.manager dropped →
        Told infos (newDropped ++ dropped) after) := by
  intro newDropped
  cases handled with
  | ignored _ _ given kind =>
    have nothing : newDropped = [] := if_neg fun destroys => kind destroys.1
    obtain ⟨toldAfter, paired⟩ := Told.unchanged told (fun _ => rfl) rfl
    have quiet : Paired infos pCurWnd message before.manager dropped := by
      simp [Paired, given]
    rw [nothing]
    exact ⟨iff_of_true paired quiet, fun _ => toldAfter⟩
  | switched next given registered =>
    have apart := focusGiven_apart pCurWnd message before.manager next given registered
    have nothing : newDropped = [] := if_neg fun destroys => by
      simp [focusGiven, destroys.1] at given
    have shape : Paired infos pCurWnd message before.manager dropped ↔
        (BothCallbacks infos next → next ∉ dropped) ∧
          (before.manager.curForeWindowHandle < 0 → ∀ previous ∈ pCurWnd,
            ¬ BothCallbacks infos previous) := by
      simp [Paired, given]
    rw [shape, nothing, List.nil_append]
    have switched := fun (fresh : (BothCallbacks infos next → next ∉ dropped) ∧
        (before.manager.curForeWindowHandle < 0 → ∀ previous ∈ pCurWnd,
          ¬ BothCallbacks infos previous)) =>
      told.switched modules pool (curWnd pCurWnd before.manager) next (curWnd_both fresh.2) apart
        fresh.1
    exact ⟨⟨told.unswitched modules pool valid next apart, fun fresh => (switched fresh).2⟩,
      fun fresh => (switched fresh).1⟩
  | released window found focused kind =>
    have nothing : newDropped = [] := if_neg fun destroys => by
      rw [kind] at destroys
      cases destroys.1
    have quiet : Paired infos pCurWnd message before.manager dropped := by
      simp [Paired, focusGiven, kind]
    have current := (exclusive.agrees _ window found).mp focused
    rw [current, nothing]
    obtain ⟨toldAfter, paired⟩ := told.released modules pool
    exact ⟨iff_of_true paired quiet, fun _ => toldAfter⟩
  | destroyed kind _ =>
    have quiet : Paired infos pCurWnd message before.manager dropped := by
      simp [Paired, focusGiven, kind]
    obtain ⟨toldAfter, paired⟩ := told.destroyed modules message.senderHandle
    have same : newDropped = if message.senderHandle = before.manager.curForeWindowHandle then
        [message.senderHandle] else [] := by
      simp [newDropped, kind]
    rw [same]
    exact ⟨iff_of_true paired quiet, fun _ => toldAfter⟩

end Messages

/-- Nothing has happened to the focus since. -/
structure FocusKept (earlier later : System ω) : Prop where
  calls : ∀ handle, focusCalls handle later.calls = focusCalls handle earlier.calls
  fore : later.manager.curForeWindowHandle = earlier.manager.curForeWindowHandle

section Steps

variable {infos : List WindowInfo} {earlier later : System ω}

/-- A callback that is not one of focus keeps what the calls of focus tell, whatever requests the
window makes in it. -/
theorem FocusKept.called (kept : FocusKept earlier later) (callback : Callback) (handle : Int)
    (data : Option (BitVec 32)) (notGot : callback ≠ .getFocus) (notLost : callback ≠ .lostFocus) :
    FocusKept earlier (invoke modules callback handle data later).2 := by
  have adds := invoke_adds modules callback handle data later
  have extended := invoke_extends modules callback handle data later
  constructor
  · exact fun asked => (adds.focusCalls asked notGot notLost).trans (kept.calls asked)
  · exact extended.fore.trans kept.fore

/-- So does a request of a window: it goes into the box and calls nothing by itself. -/
theorem FocusKept.requested (kept : FocusKept earlier later) (request : ApiRequest) :
    FocusKept earlier { later with manager := (request.issue later.manager).2 } :=
  ⟨kept.calls, (issue_extends request later.manager).fore.trans kept.fore⟩

/-- As long as no message is handled, nothing happens to the focus. -/
theorem focus_undisturbed (earlier : System ω) :
    Undisturbed modules (FocusKept earlier) (FocusKept earlier) where
  started callback handle system kind kept := by
    apply kept.called modules callback handle none <;> rcases kind with rfl | rfl | rfl <;> decide
  entered handle state system _ kept := ⟨kept.calls, (setState_fore _ _ _).trans kept.fore⟩
  begun system kept := kept
  asked pWin handle system kept := kept.requested (.windowsFocus pWin handle)
  called callback handle data system kind kept := by
    apply kept.called modules callback handle data <;> rcases kind with rfl | rfl <;> decide

/-- Every step but the handling of a message leaves the focus alone. -/
theorem step_focusKept (wellNamed : modules.WellNamed infos) (move : Move) (state : State ω)
    (named : ∀ request, move = .request request → request.WellNamed infos)
    (held : Invariant infos state)
    (quiet : ∀ pCurWnd, state.control = .handling pCurWnd → move = .next →
      state.system.manager.msgBox = []) :
    FocusKept state.system (step modules move state).2.system := by
  have both := placed_and infos (fun system : System ω => Starting infos system.manager)
    (fun system => Sound infos system.manager ∧ Exclusive system.manager) (FocusKept state.system)
  have undisturbed := (invariant_undisturbed modules wellNamed).and modules
    (focus_undisturbed modules state.system)
  refine ((both _).mp (undisturbed.step modules move state ?_ ?_ quiet ((both state).mpr
    ⟨(invariant_iff infos state).mp held, fun _ => rfl, rfl⟩))).2
  · exact fun system held => held.1.2.named
  · intro request same system
    obtain ⟨early, main⟩ := invariant_requested request (named request same) system
    constructor
    · exact fun ⟨starting, kept⟩ => ⟨early starting, kept.requested request⟩
    · exact fun ⟨held, kept⟩ => ⟨main held, kept.requested request⟩

/-- What holds as long as every message keeps the pairs. -/
def WatchedInvariant (infos : List WindowInfo) (watched : Watched ω) : Prop :=
  Invariant infos watched.state ∧ Told infos watched.dropped watched.state.system

/-- Only a message that destroys the foreground window drops it. -/
theorem dropping_message (pCurWnd : Option Int) (system : System ω) (message : MsgInfo)
    (rest : List MsgInfo) (box : system.manager.msgBox = message :: rest) :
    dropping .next ⟨.handling pCurWnd, system⟩ =
      if message.msg = .destroyWindow ∧
        message.senderHandle = system.manager.curForeWindowHandle then [message.senderHandle]
      else [] := by
  obtain ⟨msg, sender⟩ := message
  cases msg <;> simp [dropping, box]

/-- A step that does not handle a message drops none. So drops are found at the handling of messages
only. -/
theorem dropping_quiet (move : Move) (state : State ω)
    (quiet : ∀ pCurWnd, state.control = .handling pCurWnd → move = .next →
      state.system.manager.msgBox = []) : dropping move state = [] := by
  unfold dropping
  split
  · next control box =>
    rw [quiet _ control rfl] at box
    cases box
  · rfl

/-- A step keeps the pairs exactly when its message does, if it handles one. -/
theorem watchedStep_pairs (wellNamed : modules.WellNamed infos) (move : Move) (watched : Watched ω)
    (named : ∀ request, move = .request request → request.WellNamed infos)
    (held : WatchedInvariant infos watched) :
    (FocusPaired infos watched.state.system (watchedStep modules move watched).2.state.system ↔
        PairingMove infos move watched) ∧
      (PairingMove infos move watched →
        WatchedInvariant infos (watchedStep modules move watched).2) := by
  obtain ⟨state, dropped⟩ := watched
  obtain ⟨invariant, told⟩ := held
  have invariantAfter := step_invariant modules wellNamed move state named invariant
  rcases move_cases move state with ⟨pCurWnd, system, message, rest, rfl, rfl, box⟩ | quiet
  · obtain ⟨sound, exclusive, valid⟩ := invariant
    obtain ⟨registered, others⟩ := List.forall_mem_cons.mp (box ▸ sound.box)
    have taken : Extends system.manager { system.manager with msgBox := rest } := ⟨rfl, rfl⟩
    obtain ⟨previous, after, handled, _⟩ :=
      handleMessage_spec modules wellNamed pCurWnd message
        (system.mapManager fun manager => { manager with msgBox := rest })
        ⟨sound.pool, others⟩ (taken.exclusive exclusive) valid registered
    have toldTaken : Told infos dropped
        (system.mapManager fun manager => { manager with msgBox := rest }) := told
    obtain ⟨paired, kept⟩ := message_pairs modules toldTaken sound.pool (taken.exclusive exclusive)
      valid (handleMessage_cases modules pCurWnd previous message _ after handled)
    have shape : PairingMove infos .next ⟨⟨.handling pCurWnd, system⟩, dropped⟩ ↔
        Paired infos pCurWnd message system.manager dropped := by
      simp [PairingMove, box]
    have same : FocusPaired infos
        (system.mapManager fun manager => { manager with msgBox := rest }) after ↔
          FocusPaired infos system after :=
      ⟨fun pairs => ⟨pairs.alternates, pairs.current⟩,
        fun pairs => ⟨pairs.alternates, pairs.current⟩⟩
    have stepped : (step modules .next ⟨.handling pCurWnd, system⟩).2 =
        ⟨.handling previous, after⟩ := by
      simp only [step, box, handled]
    have record := dropping_message pCurWnd system message rest box
    rw [stepped] at invariantAfter
    simp only [watchedStep, stepped, shape, record]
    exact ⟨same.symm.trans paired, fun pairing => ⟨invariantAfter, kept pairing⟩⟩
  · have focus := step_focusKept modules wellNamed move state named invariant quiet
    obtain ⟨toldAfter, paired⟩ := told.unchanged focus.calls focus.fore
    have pairing : PairingMove infos move ⟨state, dropped⟩ := by
      unfold PairingMove
      split
      · next same =>
        cases same
        rw [quiet _ rfl rfl]
        simp
      · trivial
    have record := dropping_quiet move state quiet
    simp only [watchedStep, record, List.nil_append]
    exact ⟨iff_of_true paired pairing, fun _ => ⟨invariantAfter, toldAfter⟩⟩

end Steps

/-- In a run of requests to registered windows, every step keeps the calls about the
focus paired if and only if every message that is handled does. -/
theorem focus_paired_iff (infos : List WindowInfo) (world : ω) (moves : List Move)
    (wellNamed : modules.WellNamed (Manager.registered infos).infos)
    (named : ∀ request, .request request ∈ moves →
      request.WellNamed (Manager.registered infos).infos) :
    let pool := (Manager.registered infos).infos
    let run := stages (watchedStep modules) moves ⟨State.start infos world, []⟩
    (∀ stage ∈ run, FocusPaired pool stage.before.state.system stage.after.state.system) ↔
      ∀ stage ∈ run, PairingMove pool stage.input stage.before := by
  intro pool run
  apply stages_iff (watchedStep modules) (WatchedInvariant pool) (PairingMove pool)
    (fun stage => FocusPaired pool stage.before.state.system stage.after.state.system) moves
  · refine ⟨registered_starting infos, fun handle both => ⟨trivial, ?_, by simp⟩⟩
    have fore : (State.start infos world).system.manager.curForeWindowHandle = -1 :=
      (registered_fields infos).2.1
    simp only [fore, both.ne_none, List.not_mem_nil, or_self, iff_false]
    simp [State.start, focusCalls]
  · intro move member watched held
    exact (watchedStep_pairs modules wellNamed move watched
      (fun request same => named request (same ▸ member)) held).1
  · intro move member watched held
    exact (watchedStep_pairs modules wellNamed move watched
      (fun request same => named request (same ▸ member)) held).2

/-- The run of two modules of which the first hands over to the second keeps the pairs. -/
theorem hand_over_paired :
    let pool := (Manager.registered [.complete "PCI-SCAN", .complete "PCI-LIST"]).infos
    let run := stages (watchedStep handingOver) (List.replicate 6 .next)
      ⟨State.start [.complete "PCI-SCAN", .complete "PCI-LIST"] (), []⟩
    ∀ stage ∈ run, FocusPaired pool stage.before.state.system stage.after.state.system := by
  intro pool run
  apply (focus_paired_iff handingOver [.complete "PCI-SCAN", .complete "PCI-LIST"] ()
    (List.replicate 6 .next) handingOver_wellNamed (by simp)).mpr
  decide +kernel

/-- Two windows: the first one has the focus, and then the second one asks for it,
releases it, and the first one asks again. -/
def focusAndBack : List (Stage Move (Watched Unit) (Option Int)) :=
  stages (watchedStep idleModules)
    (List.replicate 3 .next ++
      [.request (.windowsFocus (some (.complete "PCI-LIST")) 0)] ++ List.replicate 3 .next ++
      [.request (.windowsFocus (some (.complete "PCI-LIST")) 0),
        .request (.releaseFocus (some (.complete "PCI-DEV")) 1),
        .request (.windowsFocus (some (.complete "PCI-DEV")) 1)] ++ List.replicate 4 .next)
    ⟨State.start [.complete "PCI-LIST", .complete "PCI-DEV"] (), []⟩

/-- The last message takes the focus from the window that had it when the call began,
so this window loses it twice. -/
theorem focus_lost_again :
    ¬ ∀ stage ∈ focusAndBack, FocusPaired
      (Manager.registered [.complete "PCI-LIST", .complete "PCI-DEV"]).infos
      stage.before.state.system stage.after.state.system := by
  intro pairs
  have last := pairs _ (List.get_mem focusAndBack ⟨13, by decide +kernel⟩)
  have current := last.current 0 (by decide +kernel) (by decide +kernel)
  revert current
  decide +kernel

end Lfdk.WindowManager
