import Lfdk.ForegroundInvariant
import Lfdk.MessageBatching

/-!
# Windows that were destroyed

A destroy message ends a window's life while the program goes on; the way out of
`main` destroys the windows that are left and then ends the modules. The way out
skips windows that are past each of these events. The handler of messages does
not look: it destroys a window again, and gives the focus to a destroyed window or
puts it into the background when it remembers it as the previous one.

A run keeps its destroyed windows exactly when no message that it handles does so.
Everything else in a run leaves them alone.
-/

namespace Lfdk.WindowManager

open Runs

universe u
variable {ω : Type u} (modules : Modules ω)

/-- The program up to the end of `main`. -/
inductive Life (ω : Type u) where
  | program (state : State ω)
  /-- after the main loop -/
  | left (system : System ω)
  | destroyed (system : System ω)
  | exited (system : System ω)

def Life.system : Life ω → System ω
  | .program state => state.system
  | .left system | .destroyed system | .exited system => system

inductive LifeMove where
  | main (move : Move)
  /-- the next of the two events on the way out -/
  | finish

/-- One step of the program with its way out, which begins where the main loop is
left; an initialisation that failed has none. -/
def lifeStep : LifeMove → Life ω → Option Int × Life ω
  | .main move, .program state =>
    let (value, after) := step modules move state
    (value, if state.control = .running ∧ after.control = .stopped then .left after.system
      else .program after)
  | .finish, .left system => (none, .destroyed (handleDestroyWindows modules system))
  | .finish, .destroyed system => (none, .exited (handleModuleExit modules system))
  | _, life => (none, life)

/-- Destroyed, or past the exit of its module. -/
def WinState.isGone : WinState → Bool
  | .destroyed | .exit => true
  | _ => false

def Gone (manager : Manager) (handle : Int) : Prop :=
  ∃ window ∈ manager.window handle, window.winState.isGone = true

/-- A message that leaves destroyed windows alone: it does not call `destroy_win` of
one, and if it gives the focus away, neither the window that gets it nor the previous
one is destroyed, and the window that gets it is registered. -/
def Spares (pCurWnd : Option Int) (message : MsgInfo) (manager : Manager) : Prop :=
  (message.msg = .destroyWindow → ∀ window ∈ manager.window message.senderHandle,
    window.winState.isGone = true → window.pWin.defines .destroyWin = false) ∧
  ∀ next ∈ focusGiven pCurWnd message manager, IsHandle manager.infos next ∧
    ¬ Gone manager next ∧ ∀ previous ∈ curWnd pCurWnd manager, ¬ Gone manager previous

/-- The next message, if one is about to be handled, leaves destroyed windows alone. -/
def SparingMove : LifeMove → Life ω → Prop
  | .main .next, .program ⟨.handling pCurWnd, system⟩ =>
    ∀ message ∈ system.manager.msgBox.head?, Spares pCurWnd message system.manager
  | _, _ => True

/-- A window that is gone keeps its state or ends with its module. -/
def Stays (before after : Manager) : Prop :=
  ∀ handle, ∀ window ∈ before.window handle, window.winState.isGone = true →
    ∃ later ∈ after.window handle, later.winState = window.winState ∨ later.winState = .exit

/-- What is asked of a step: it stays in the pool, no destroyed window gets another
state than that of its module's exit or becomes the foreground window, and by the end
of it no window has been destroyed or its module exited twice. -/
structure KeepsDestroyed (before after : Life ω) : Prop where
  inPool : ∀ state, after = .program state → state.control ≠ .undefined
  stays : Stays before.system.manager after.system.manager
  unfocused : ∀ handle, Gone before.system.manager handle →
    after.system.manager.curForeWindowHandle = handle →
    before.system.manager.curForeWindowHandle = handle
  destroyedOnce : ∀ handle, after.system.calls.count (.destroyWin, handle) ≤ 1
  exitedOnce : ∀ handle, after.system.calls.count (.moduleExit, handle) ≤ 1

/-- A callback was made once for each window that is past an event and has it set,
and for no other. -/
def Counted (callback : Callback) (past : WinState → Bool) (system : System ω) : Prop :=
  ∀ handle, system.calls.count (callback, handle) =
    match system.manager.window handle with
    | none => 0
    | some window =>
      if past window.winState = true ∧ window.pWin.defines callback = true then 1 else 0

section Counting

variable {callback : Callback} {past : WinState → Bool} {before after : System ω}

/-- Where callbacks are counted, none was made twice for the same window. -/
theorem Counted.once (counted : Counted callback past before) (handle : Int) :
    before.calls.count (callback, handle) ≤ 1 := by
  rw [counted handle]
  split
  · exact Nat.zero_le 1
  · split <;> decide

/-- Calls of other callbacks and new messages do not matter. -/
theorem Counted.extends (counted : Counted callback past before)
    (extended : Extends before.manager after.manager) {other : Callback}
    (adds : Adds other before.calls after.calls) (apart : other ≠ callback) :
    Counted callback past after := by
  intro handle
  rw [adds.count apart, extended.window]
  exact counted handle

/-- Nor do states that are on the same side of the event. -/
theorem Counted.moved (counted : Counted callback past before) (handle : Int) (state : WinState)
    (windows : ∀ asked, after.manager.window asked = (before.manager.window asked).map
      fun window => if asked = handle then { window with winState := state } else window)
    {other : Callback} (adds : Adds other before.calls after.calls) (apart : other ≠ callback)
    (same : ∀ window ∈ before.manager.window handle, past window.winState = past state) :
    Counted callback past after := by
  intro asked
  rw [adds.count apart, windows, counted asked]
  cases found : before.manager.window asked with
  | none => rfl
  | some window =>
    simp only [Option.map_some]
    by_cases named : asked = handle
    · subst named
      simp [same window found]
    · simp [named]

/-- The event itself calls the callback once, if the window is not past it or has
not set it. -/
theorem Counted.passed (counted : Counted callback past before) (handle : Int) (state : WinState)
    (windows : ∀ asked, after.manager.window asked = (before.manager.window asked).map
      fun window => if asked = handle then { window with winState := state } else window)
    (calls : after.calls = before.calls ++ before.manager.fired callback handle)
    (entered : past state = true)
    (fresh : ∀ window ∈ before.manager.window handle, past window.winState = true →
      window.pWin.defines callback = false) :
    Counted callback past after := by
  intro asked
  rw [calls, List.count_append, fired_count, windows, counted asked]
  by_cases named : asked = handle
  · subst named
    cases found : before.manager.window asked with
    | none => rfl
    | some window =>
      have unset := fresh window found
      cases reached : past window.winState <;> simp_all
  · have apart : ¬ handle = asked := fun same => named same.symm
    cases before.manager.window asked <;> cases before.manager.window handle <;>
      simp [named, apart]

end Counting

/-- A program whose windows have not been started, with no call of the callbacks at
the end of their lives. -/
structure Fresh (infos : List WindowInfo) (system : System ω) : Prop where
  addressed : Addressed infos system.manager
  empty : system.manager.curForeWindowHandle = -1
  young : ∀ handle window, system.manager.window handle = some window →
    window.winState ≠ .foreground ∧ window.winState.isGone = false
  undestroyed : ∀ handle, system.calls.count (.destroyWin, handle) = 0
  unexited : ∀ handle, system.calls.count (.moduleExit, handle) = 0

/-- The lives of the windows as long as the main loop runs: `destroy_win` has been
called once for each destroyed window, and no module has been ended. -/
structure Lives (system : System ω) : Prop where
  counted : Counted .destroyWin WinState.isGone system
  present : ∀ handle window, system.manager.window handle = some window →
    window.winState ≠ .exit
  unexited : ∀ handle, system.calls.count (.moduleExit, handle) = 0

/-- A program in the main loop that has kept its destroyed windows so far. -/
structure Orderly (infos : List WindowInfo) (system : System ω) : Prop where
  addressed : Addressed infos system.manager
  exclusive : Exclusive system.manager
  lives : Lives system

section Invariants

variable {infos : List WindowInfo} {system after : System ω}

/-- A fresh system is ready for the main loop: no window is in the foreground or gone, and no
callback at the end of a life was made. -/
theorem Fresh.orderly (fresh : Fresh infos system) : Orderly infos system := by
  refine ⟨fresh.addressed, ?_, ?_, ?_, fresh.unexited⟩
  · exact Unfocused.exclusive (fun handle window found => (fresh.young handle window found).1)
      fresh.empty
  · intro handle
    rw [fresh.undestroyed handle]
    cases found : system.manager.window handle with
    | none => rfl
    | some window => simp [(fresh.young handle window found).2]
  · intro handle window found exited
    have alive := (fresh.young handle window found).2
    rw [exited] at alive
    cases alive

/-- A callback before the main loop, of neither of the two kinds that end a window, keeps the system
fresh. -/
theorem Fresh.called (fresh : Fresh infos system) (callback : Callback) (handle : Int)
    (notDestroy : callback ≠ .destroyWin) (notExit : callback ≠ .moduleExit) :
    Fresh infos (invoke modules callback handle none system).2 := by
  have extended := invoke_extends modules callback handle none system
  have adds := invoke_adds modules callback handle none system
  refine ⟨fresh.addressed.invoke modules _ _ _, extended.fore.trans fresh.empty, ?_, ?_, ?_⟩
  · intro asked window found
    rw [extended.window] at found
    exact fresh.young asked window found
  · exact fun asked => (adds.count notDestroy asked).trans (fresh.undestroyed asked)
  · exact fun asked => (adds.count notExit asked).trans (fresh.unexited asked)

/-- A window of a fresh system may enter a state that is neither the foreground nor the end. -/
theorem Fresh.entered (fresh : Fresh infos system) (handle : Int) (state : WinState)
    (unfocused : state ≠ .foreground) (alive : state.isGone = false) :
    Fresh infos (system.mapManager fun manager => manager.setState handle state) := by
  refine ⟨fresh.addressed.setState handle state, ?_, ?_, fresh.undestroyed, fresh.unexited⟩
  · exact (setState_fore _ _ _).trans fresh.empty
  · intro asked window found
    rw [System.mapManager, setState_window] at found
    obtain ⟨earlier, known, rfl⟩ := Option.map_eq_some_iff.mp found
    split
    · exact ⟨unfocused, alive⟩
    · exact fresh.young asked earlier known

/-- New messages and calls of other callbacks keep a program orderly. -/
theorem Orderly.extends (orderly : Orderly infos system)
    (addressed : Addressed infos after.manager)
    (extended : Extends system.manager after.manager) {callback : Callback}
    (adds : Adds callback system.calls after.calls) (notDestroy : callback ≠ .destroyWin)
    (notExit : callback ≠ .moduleExit) : Orderly infos after := by
  obtain ⟨_, exclusive, counted, present, unexited⟩ := orderly
  refine ⟨addressed, extended.exclusive exclusive, counted.extends extended adds notDestroy, ?_, ?_⟩
  · intro handle window found
    rw [extended.window] at found
    exact present handle window found
  · exact fun handle => (adds.count notExit handle).trans (unexited handle)

end Invariants

section Staying

variable {before after : Manager}

/-- Where the windows are the same, those that are gone stay gone. -/
theorem Extends.stays (extended : Extends before after) : Stays before after := by
  intro handle window found _
  exact ⟨window, by rw [extended.window]; exact found, Or.inl rfl⟩

/-- What stays gone in both of two steps stays gone. -/
theorem Stays.trans {third : Manager} (earlier : Stays before after) (later : Stays after third) :
    Stays before third := by
  intro handle window found gone
  obtain ⟨next, foundNext, same | exited⟩ := earlier handle window found gone
  · obtain ⟨last, foundLast, kept⟩ := later handle next foundNext (by rwa [same])
    exact ⟨last, foundLast, by rwa [same] at kept⟩
  · obtain ⟨last, foundLast, kept⟩ := later handle next foundNext (by rw [exited]; rfl)
    exact ⟨last, foundLast, Or.inr (kept.elim (fun same => same.trans exited) id)⟩

/-- A window that is not gone may take any state. -/
theorem stays_moved (handle : Int) (state : WinState)
    (windows : ∀ asked, after.window asked = (before.window asked).map
      fun window => if asked = handle then { window with winState := state } else window)
    (kept : ∀ window ∈ before.window handle, window.winState.isGone = true →
      state = window.winState ∨ state = .exit) : Stays before after := by
  intro asked window found gone
  rw [windows, Option.mem_def.mp found, Option.map_some]
  refine ⟨_, rfl, ?_⟩
  split
  · next same =>
    subst same
    exact kept window found gone
  · exact Or.inl rfl

end Staying

section Messages

variable {infos : List WindowInfo} {pCurWnd : Option Int} {message : MsgInfo}
  {before after : System ω}

/-- A window that is not gone moves to another state of its life. -/
theorem Lives.moved (lives : Lives before) (handle : Int) (state : WinState)
    (windows : ∀ asked, after.manager.window asked = (before.manager.window asked).map
      fun window => if asked = handle then { window with winState := state } else window)
    {callback : Callback} (adds : Adds callback before.calls after.calls)
    (notDestroy : callback ≠ .destroyWin) (notExit : callback ≠ .moduleExit)
    (alive : ¬ Gone before.manager handle) (next : state.isGone = false) :
    Lives after ∧ Stays before.manager after.manager := by
  have living : ∀ window ∈ before.manager.window handle, window.winState.isGone = false := by
    intro window found
    have present : ¬ window.winState.isGone = true := fun gone => alive ⟨window, found, gone⟩
    simpa using present
  refine ⟨⟨?_, ?_, ?_⟩, ?_⟩
  · apply lives.counted.moved handle state windows adds notDestroy
    intro window found
    rw [living window found, next]
  · intro asked window found
    rw [windows] at found
    obtain ⟨earlier, known, rfl⟩ := Option.map_eq_some_iff.mp found
    split
    · rintro rfl
      cases next
    · exact lives.present asked earlier known
  · exact fun asked => (adds.count notExit asked).trans (lives.unexited asked)
  · apply stays_moved handle state windows
    intro window found gone
    rw [living window found] at gone
    cases gone

/-- A window leaves the focus, if there is one that does. -/
theorem Lives.leaves (lives : Lives before) (previous : Option Int)
    (alive : ∀ handle ∈ previous, ¬ Gone before.manager handle) :
    Lives (leaveFocus modules previous before) ∧
      Stays before.manager (leaveFocus modules previous before).manager := by
  cases previous with
  | none => exact ⟨lives, (Extends.refl _).stays⟩
  | some handle =>
    exact lives.moved handle .background
      (fun asked => loseFocus_window modules handle asked before)
      (invoke_adds modules .lostFocus handle none before) (by decide) (by decide)
      (alive handle rfl) rfl

/-- A window that leaves the focus is not destroyed by it. -/
theorem leaveFocus_alive (previous : Option Int) (handle : Int)
    (alive : ¬ Gone before.manager handle) :
    ¬ Gone (leaveFocus modules previous before).manager handle := by
  cases previous with
  | none => exact alive
  | some other =>
    rintro ⟨window, found, gone⟩
    rw [leaveFocus, loseFocus_window, Option.mem_def] at found
    obtain ⟨earlier, known, rfl⟩ := Option.map_eq_some_iff.mp found
    split at gone
    · cases gone
    · exact alive ⟨earlier, known, gone⟩

/-- A window that is destroyed for the first time, or has no `destroy_win`. -/
theorem Lives.destroyed (lives : Lives before) (handle : Int)
    (fresh : ∀ window ∈ before.manager.window handle, window.winState.isGone = true →
      window.pWin.defines .destroyWin = false) :
    Lives (destroySender modules handle before) ∧
      Stays before.manager (destroySender modules handle before).manager := by
  have windows := destroySender_window modules handle before
  refine ⟨⟨?_, ?_, ?_⟩, ?_⟩
  · exact lives.counted.passed handle .destroyed windows
      (destroySender_calls modules handle before) rfl fresh
  · intro asked window found
    rw [windows] at found
    obtain ⟨earlier, known, rfl⟩ := Option.map_eq_some_iff.mp found
    split
    · simp
    · exact lives.present asked earlier known
  · intro asked
    rw [destroySender_calls, List.count_append, lives.unexited asked, fired_count]
    cases before.manager.window handle <;> simp
  · apply stays_moved handle .destroyed windows
    intro window found gone
    have present := lives.present handle window found
    cases state : window.winState <;> simp_all [WinState.isGone]

/-- A message that spares the destroyed windows keeps the lives of all windows. -/
theorem Handled.lives {previous : Option Int}
    (handled : Handled modules pCurWnd message before previous after) (lives : Lives before)
    (spares : Spares pCurWnd message before.manager) :
    Lives after ∧ Stays before.manager after.manager := by
  cases handled with
  | ignored => exact ⟨lives, (Extends.refl _).stays⟩
  | switched next given _ =>
    obtain ⟨_, alive, previousAlive⟩ := spares.2 next given
    obtain ⟨left, stayed⟩ := lives.leaves modules _ previousAlive
    obtain ⟨gained, stays⟩ := left.moved next .foreground
      (fun asked => gainFocus_window modules next asked _)
      (invoke_adds modules .getFocus next none _) (by decide) (by decide)
      (leaveFocus_alive modules _ next alive) rfl
    exact ⟨gained, stayed.trans stays⟩
  | released window found focused _ =>
    have alive : ¬ Gone before.manager message.senderHandle := by
      rintro ⟨other, known, gone⟩
      obtain rfl := Option.some.inj (found.symm.trans known)
      rw [focused] at gone
      cases gone
    exact lives.moved _ .background (fun asked => loseFocus_window modules _ asked before)
      (invoke_adds modules .lostFocus _ none before) (by decide) (by decide) alive rfl
  | destroyed kind _ => exact lives.destroyed modules _ (spares.1 kind)

/-- Where the two sides of the foreground agree, a window that is gone is not the
foreground window. -/
theorem Exclusive.gone_unfocused {manager : Manager} (exclusive : Exclusive manager) (handle : Int)
    (gone : Gone manager handle) : manager.curForeWindowHandle ≠ handle := by
  obtain ⟨window, found, gone⟩ := gone
  rintro rfl
  rw [(exclusive.agrees _ window found).mpr rfl] at gone
  cases gone

/-- A window that is gone stays gone, however the run goes on. -/
theorem Stays.gone {earlier later : Manager} (stays : Stays earlier later) (handle : Int)
    (gone : Gone earlier handle) : Gone later handle := by
  obtain ⟨window, found, past⟩ := gone
  obtain ⟨next, foundNext, same | exited⟩ := stays handle window found past
  · exact ⟨next, foundNext, by rwa [same]⟩
  · exact ⟨next, foundNext, by rw [exited]; rfl⟩

/-- A message that breaks no rule spares the destroyed windows: the focus would show
on the window that got it, and the previous window would be in the background. -/
theorem Handled.spares {previous : Option Int}
    (handled : Handled modules pCurWnd message before previous after)
    (exclusive : Exclusive before.manager) (lives : Lives before)
    (stays : Stays before.manager after.manager)
    (unfocused : ∀ handle, Gone before.manager handle →
      after.manager.curForeWindowHandle = handle → before.manager.curForeWindowHandle = handle)
    (once : ∀ handle, after.calls.count (.destroyWin, handle) ≤ 1) :
    Spares pCurWnd message before.manager := by
  cases handled with
  | ignored _ _ given kind =>
    refine ⟨fun destroys => absurd destroys kind, ?_⟩
    simp [given]
  | switched next given registered =>
    constructor
    · intro destroys
      simp [focusGiven, destroys] at given
    · intro other same
      obtain rfl := Option.some.inj (given.symm.trans same)
      refine ⟨registered, fun gone => ?_, fun handle remembered gone => ?_⟩
      · exact exclusive.gone_unfocused next gone (unfocused next gone (gainFocus_fore modules _ _))
      · -- the previous window ends in the background, or in the foreground if it is the next one
        obtain ⟨window, found, past⟩ := gone
        obtain ⟨later, foundLater, kept⟩ := stays handle window found past
        rw [gainFocus_window, Option.mem_def.mp remembered, leaveFocus, loseFocus_window,
          Option.mem_def.mp found] at foundLater
        cases foundLater
        by_cases same : handle = next
        · simp only [same, if_true] at kept
          rcases kept with kept | kept
          · rw [← kept] at past
            cases past
          · cases kept
        · simp only [same, if_true, if_false] at kept
          rcases kept with kept | kept
          · rw [← kept] at past
            cases past
          · cases kept
  | released _ _ _ kind =>
    refine ⟨fun destroys => ?_, ?_⟩
    · rw [kind] at destroys
      cases destroys
    · simp [focusGiven, kind]
  | destroyed kind _ =>
    refine ⟨fun _ window found past => ?_, ?_⟩
    · by_contra unset
      have set : window.pWin.defines .destroyWin = true := by simpa using unset
      have counted := lives.counted message.senderHandle
      have twice := once message.senderHandle
      rw [destroySender_calls, List.count_append, fired_count, counted,
        Option.mem_def.mp found] at twice
      simp [set, past] at twice
    · simp [focusGiven, kind]

end Messages

/-- What is known of the program at each place. -/
def StateLives (infos : List WindowInfo) : State ω → Prop :=
  Placed infos (Fresh infos) (Orderly infos)

/-- The same with the way out of `main`. -/
def LifeInvariant (infos : List WindowInfo) : Life ω → Prop
  | .program state => StateLives infos state
  | .left system | .destroyed system => Lives system
  | .exited system => ∀ handle, system.calls.count (.destroyWin, handle) ≤ 1 ∧
      system.calls.count (.moduleExit, handle) ≤ 1

section Steps

variable {infos : List WindowInfo} {system after : System ω}

/-- A step to an orderly program that moves no destroyed window. -/
theorem Orderly.keepsDestroyed (before later : Life ω) (orderly : Orderly infos later.system)
    (inPool : ∀ state, later = .program state → state.control ≠ .undefined)
    (stays : Stays before.system.manager later.system.manager) : KeepsDestroyed before later := by
  refine ⟨inPool, stays, ?_, orderly.lives.counted.once, ?_⟩
  · intro handle gone focused
    exact absurd focused (orderly.exclusive.gone_unfocused handle (stays.gone handle gone))
  · intro handle
    rw [orderly.lives.unexited handle]
    exact Nat.zero_le 1

/-- In a fresh system no window is gone, so nothing has to stay so. -/
theorem Fresh.stays (fresh : Fresh infos system) (later : Manager) :
    Stays system.manager later := by
  intro handle window found gone
  rw [(fresh.young handle window found).2] at gone
  cases gone

/-- A callback in the main loop that is not the end of a life. -/
theorem Orderly.called (orderly : Orderly infos system) (callback : Callback) (handle : Int)
    (data : Option (BitVec 32)) (notDestroy : callback ≠ .destroyWin)
    (notExit : callback ≠ .moduleExit) :
    Orderly infos (invoke modules callback handle data system).2 :=
  orderly.extends (orderly.addressed.invoke modules _ _ _)
    (invoke_extends modules callback handle data system)
    (invoke_adds modules callback handle data system) notDestroy notExit

/-- A request keeps a system orderly: it goes into the box and calls nothing. -/
theorem Orderly.requested (orderly : Orderly infos system) (request : ApiRequest) :
    Orderly infos { system with manager := (request.issue system.manager).2 } :=
  orderly.extends (orderly.addressed.issue request) (issue_extends request system.manager)
    (.refl .init _) (by decide) (by decide)

/-- So it keeps a system fresh, since a request adds a message at most. -/
theorem Fresh.requested (fresh : Fresh infos system) (request : ApiRequest) :
    Fresh infos { system with manager := (request.issue system.manager).2 } := by
  have extended := issue_extends request system.manager
  refine ⟨fresh.addressed.issue request, extended.fore.trans fresh.empty, ?_, fresh.undestroyed,
    fresh.unexited⟩
  intro handle window found
  rw [extended.window] at found
  exact fresh.young handle window found

/-- Taking the message out of the box keeps a program orderly. -/
theorem Orderly.taken (orderly : Orderly infos system) (message : MsgInfo) (rest : List MsgInfo)
    (box : system.manager.msgBox = message :: rest) :
    Orderly infos (system.mapManager fun manager => { manager with msgBox := rest }) ∧
      IsHandle infos message.senderHandle := by
  obtain ⟨sender, others⟩ := List.forall_mem_cons.mp (box ▸ orderly.addressed.senders)
  refine ⟨orderly.extends ⟨orderly.addressed.pool, others⟩ ⟨rfl, rfl⟩ (.refl .init _)
    (by decide) (by decide), sender⟩

/-- Handling the next message keeps the destroyed windows exactly when the message
spares them, and keeps the program orderly then. -/
theorem message_keeps_iff (pCurWnd : Option Int) (message : MsgInfo) (rest : List MsgInfo)
    (box : system.manager.msgBox = message :: rest) (orderly : Orderly infos system)
    (valid : ∀ handle ∈ pCurWnd, IsHandle infos handle) :
    let state : State ω := ⟨.handling pCurWnd, system⟩
    (KeepsDestroyed (.program state) (.program (step modules .next state).2) ↔
        Spares pCurWnd message system.manager) ∧
      (Spares pCurWnd message system.manager → StateLives infos (step modules .next state).2) := by
  obtain ⟨taken, sender⟩ := orderly.taken message rest box
  simp only [step, box]
  generalize popped : (system.mapManager fun manager => { manager with msgBox := rest }) = before
  rw [popped] at taken
  have same : before.manager.window = system.manager.window := by
    rw [← popped]
    rfl
  have foreSame : before.manager.curForeWindowHandle = system.manager.curForeWindowHandle := by
    rw [← popped]
    rfl
  have spares : Spares pCurWnd message before.manager ↔ Spares pCurWnd message system.manager := by
    rw [← popped]
    rfl
  have known : ∀ handle ∈ pCurWnd, IsHandle before.manager.infos handle := by
    rwa [taken.addressed.pool]
  rw [← spares]
  have total := handleMessage_total modules pCurWnd message before taken.exclusive.named known
    (by rwa [taken.addressed.pool])
  cases outcome : handleMessage modules pCurWnd message before with
  | none =>
    rw [outcome] at total
    have refused : ¬ Spares pCurWnd message before.manager := fun spares =>
      Bool.false_ne_true (total.mpr fun next given => (spares.2 next given).1)
    exact ⟨iff_of_false (fun keeps => keeps.inPool _ rfl rfl) refused,
      fun spares => absurd spares refused⟩
  | some result =>
    obtain ⟨previous, later⟩ := result
    have handled := handleMessage_cases modules pCurWnd previous message before later outcome
    obtain ⟨pool, exclusive, validAfter⟩ := handled.keeps modules taken.exclusive known
    have orderlyAfter : Spares pCurWnd message before.manager → Orderly infos later :=
      fun spares => ⟨handled.addressed modules taken.addressed, exclusive,
        (handled.lives modules taken.lives spares).1⟩
    refine ⟨⟨fun keeps => ?_, fun spares => ?_⟩, fun spares => ⟨orderlyAfter spares, ?_⟩⟩
    · apply handled.spares modules taken.exclusive taken.lives _ _ keeps.destroyedOnce
      · intro handle
        rw [same]
        exact keeps.stays handle
      · intro handle
        rw [Gone, same, foreSame]
        exact keeps.unfocused handle
    · refine Orderly.keepsDestroyed (.program _) (.program _) (orderlyAfter spares)
        (by rintro state ⟨⟩; simp) ?_
      intro handle
      have stays := (handled.lives modules taken.lives spares).2 handle
      rw [same] at stays
      exact stays
    · rwa [taken.addressed.pool] at validAfter

/-- As long as no message is handled, all that is known stays true and the windows
that are gone stay as they are. -/
theorem lives_undisturbed (infos : List WindowInfo) (earlier : Manager) :
    Undisturbed modules (fun system => Fresh infos system ∧ Stays earlier system.manager)
      (fun system => Orderly infos system ∧ Stays earlier system.manager) where
  started callback handle system kind := by
    rintro ⟨fresh, stays⟩
    refine ⟨fresh.called modules callback handle ?_ ?_, stays.trans (fresh.stays _)⟩ <;>
      rcases kind with rfl | rfl | rfl <;> decide
  entered handle state system kind := by
    rintro ⟨fresh, stays⟩
    refine ⟨fresh.entered handle state ?_ ?_, stays.trans (fresh.stays _)⟩ <;>
      rcases kind with rfl | rfl | rfl <;> decide
  begun system := fun ⟨fresh, stays⟩ => ⟨fresh.orderly, stays⟩
  asked pWin handle system := by
    rintro ⟨orderly, stays⟩
    exact ⟨orderly.requested (.windowsFocus pWin handle),
      stays.trans (issue_extends (.windowsFocus pWin handle) system.manager).stays⟩
  called callback handle data system kind := by
    rintro ⟨orderly, stays⟩
    refine ⟨orderly.called modules callback handle data ?_ ?_,
      stays.trans (invoke_extends modules callback handle data system).stays⟩ <;>
      rcases kind with rfl | rfl <;> decide

/-- Every step but the handling of a message leaves the windows that are gone alone. -/
theorem step_quiet (move : Move) (state : State ω) (held : StateLives infos state)
    (quiet : ∀ pCurWnd, state.control = .handling pCurWnd → move = .next →
      state.system.manager.msgBox = []) :
    StateLives infos (step modules move state).2 ∧
      Stays state.system.manager (step modules move state).2.system.manager := by
  have both := placed_and infos (Fresh infos) (Orderly infos)
    (fun system : System ω => Stays state.system.manager system.manager)
  refine (both _).mp ((lives_undisturbed modules infos state.system.manager).step modules move state
    ?_ ?_ quiet ((both state).mpr ⟨held, (Extends.refl _).stays⟩))
  · exact fun system kept => kept.1.exclusive.named
  · intro request _ system
    have stays := (issue_extends request system.manager).stays
    constructor
    · exact fun ⟨fresh, stayed⟩ => ⟨fresh.requested request, stayed.trans stays⟩
    · exact fun ⟨orderly, stayed⟩ => ⟨orderly.requested request, stayed.trans stays⟩

/-- What is known at a place in the program implies that it is orderly. -/
theorem StateLives.orderly {state : State ω} (held : StateLives infos state) :
    Orderly infos state.system ∧ state.control ≠ .undefined := by
  unfold StateLives Placed at held
  cases control : state.control <;> rw [control] at held
  case registered | inited | started => exact ⟨Fresh.orderly held, by simp⟩
  case running | stopped => exact ⟨held, by simp⟩
  case handling => exact ⟨held.1, by simp⟩
  case undefined => exact held.elim

/-- The way out destroys the windows that are left, each of them once. -/
theorem Lives.destroyWindows (lives : Lives system) :
    Lives (handleDestroyWindows modules system) ∧
      Stays system.manager (handleDestroyWindows modules system).manager ∧
      (handleDestroyWindows modules system).manager.curForeWindowHandle =
        system.manager.curForeWindowHandle := by
  apply retired_preserves modules (fun current => Lives current ∧
    Stays system.manager current.manager ∧
      current.manager.curForeWindowHandle = system.manager.curForeWindowHandle)
  · exact ⟨lives, (Extends.refl _).stays, rfl⟩
  · rintro handle window current ⟨lives, stays, fore⟩ found present
    have extended := invoke_extends modules .destroyWin handle none current
    have alive : window.winState.isGone = false := by
      cases state : window.winState <;> simp_all [WinState.isGone]
    have windows : ∀ asked, ((invoke modules .destroyWin handle none current).2.mapManager
        fun manager => manager.setState handle .destroyed).manager.window asked =
        (current.manager.window asked).map fun window =>
          if asked = handle then { window with winState := .destroyed } else window := by
      intro asked
      rw [System.mapManager, setState_window, extended.window]
    have living : ∀ other ∈ current.manager.window handle, other.winState.isGone = false := by
      intro other known
      obtain rfl := Option.some.inj (found.symm.trans known)
      exact alive
    refine ⟨⟨?_, ?_, ?_⟩, stays.trans (stays_moved handle .destroyed windows ?_), ?_⟩
    · apply lives.counted.passed handle .destroyed windows (invoke_calls modules _ _ _ _) rfl
      intro other known gone
      rw [living other known] at gone
      cases gone
    · intro asked other known
      rw [windows] at known
      obtain ⟨earlier, before, rfl⟩ := Option.map_eq_some_iff.mp known
      split
      · simp
      · exact lives.present asked earlier before
    · intro asked
      have adds := invoke_adds modules .destroyWin handle none current
      exact (adds.count (by decide) asked).trans (lives.unexited asked)
    · intro other known gone
      rw [living other known] at gone
      cases gone
    · rw [System.mapManager, setState_fore, extended.fore, fore]

/-- It ends the modules, each of them once, and nothing that was gone comes back. -/
theorem Lives.moduleExit (lives : Lives system) :
    Counted .moduleExit (· = .exit) (handleModuleExit modules system) ∧
      Stays system.manager (handleModuleExit modules system).manager ∧
      (handleModuleExit modules system).manager.curForeWindowHandle =
        system.manager.curForeWindowHandle ∧
      ∀ handle, (handleModuleExit modules system).calls.count (.destroyWin, handle) ≤ 1 := by
  apply retired_preserves modules (fun current => Counted .moduleExit (· = .exit) current ∧
    Stays system.manager current.manager ∧
      current.manager.curForeWindowHandle = system.manager.curForeWindowHandle ∧
      ∀ handle, current.calls.count (.destroyWin, handle) ≤ 1)
  · refine ⟨fun handle => ?_, (Extends.refl _).stays, rfl, lives.counted.once⟩
    rw [lives.unexited handle]
    cases found : system.manager.window handle with
    | none => rfl
    | some window => simp [lives.present handle window found]
  · rintro handle window current ⟨counted, stays, fore, once⟩ found present
    have extended := invoke_extends modules .moduleExit handle none current
    have windows : ∀ asked, ((invoke modules .moduleExit handle none current).2.mapManager
        fun manager => manager.setState handle .exit).manager.window asked =
        (current.manager.window asked).map fun window =>
          if asked = handle then { window with winState := .exit } else window := by
      intro asked
      rw [System.mapManager, setState_window, extended.window]
    refine ⟨?_, stays.trans (stays_moved handle .exit windows fun _ _ _ => Or.inr rfl), ?_, ?_⟩
    · apply counted.passed handle .exit windows (invoke_calls modules _ _ _ _) rfl
      intro other known gone
      obtain rfl := Option.some.inj (found.symm.trans known)
      rw [present] at gone
      cases gone
    · rw [System.mapManager, setState_fore, extended.fore, fore]
    · intro asked
      have adds := invoke_adds modules .moduleExit handle none current
      exact (adds.count (by decide) asked).trans_le (once asked)

/-- A step of the program keeps the destroyed windows exactly when it is a sparing
move, and what is known of the program is known after it then. -/
theorem step_keeps_iff (move : Move) (state : State ω) (held : StateLives infos state) :
    (KeepsDestroyed (.program state) (.program (step modules move state).2) ↔
        SparingMove (.main move) (.program state)) ∧
      (SparingMove (.main move) (.program state) → StateLives infos (step modules move state).2) := by
  rcases move_cases move state with ⟨pCurWnd, system, message, rest, rfl, rfl, box⟩ | quiet
  · have spares : SparingMove (.main .next) (.program ⟨.handling pCurWnd, system⟩) ↔
        Spares pCurWnd message system.manager := by
      simp [SparingMove, box]
    rw [spares]
    exact message_keeps_iff modules pCurWnd message rest box held.1 held.2
  · obtain ⟨after, stays⟩ := step_quiet modules move state held quiet
    have sparing : SparingMove (.main move) (.program state) := by
      unfold SparingMove
      split
      · next pCurWnd system moved same =>
        cases moved
        cases same
        rw [quiet pCurWnd rfl rfl]
        simp
      · trivial
    refine ⟨iff_of_true ?_ sparing, fun _ => after⟩
    obtain ⟨orderly, inPool⟩ := after.orderly
    exact Orderly.keepsDestroyed (.program state) (.program _) orderly
      (by rintro later ⟨⟩; exact inPool) stays

/-- A step that does nothing keeps the destroyed windows destroyed. -/
theorem LifeInvariant.idle {life : Life ω} (held : LifeInvariant infos life) :
    KeepsDestroyed life life := by
  have stays : Stays life.system.manager life.system.manager := (Extends.refl _).stays
  cases life with
  | program state =>
    obtain ⟨orderly, inPool⟩ := StateLives.orderly held
    exact Orderly.keepsDestroyed (.program state) (.program state) orderly
      (by rintro later ⟨⟩; exact inPool) stays
  | left system | destroyed system =>
    obtain ⟨counted, _, unexited⟩ : Lives system := held
    refine ⟨by simp, stays, fun _ _ same => same, counted.once, fun handle => ?_⟩
    exact (unexited handle).trans_le (Nat.zero_le 1)
  | exited system =>
    exact ⟨by simp, stays, fun _ _ same => same, fun handle => (held handle).1,
      fun handle => (held handle).2⟩

/-- So does a step with the way out of `main`. -/
theorem lifeStep_keeps_iff (move : LifeMove) (life : Life ω) (held : LifeInvariant infos life) :
    (KeepsDestroyed life (lifeStep modules move life).2 ↔ SparingMove move life) ∧
      (SparingMove move life → LifeInvariant infos (lifeStep modules move life).2) := by
  cases move with
  | main move =>
    cases life with
    | program state =>
      obtain ⟨keeps, kept⟩ := step_keeps_iff modules move state held
      simp only [lifeStep]
      split
      · next left =>
        -- the program is the same, whether it has left the loop or not
        rw [← keeps]
        refine ⟨⟨fun asked => ?_, fun asked => ?_⟩, fun sparing => ?_⟩
        · refine ⟨?_, asked.stays, asked.unfocused, asked.destroyedOnce, asked.exitedOnce⟩
          rintro later ⟨⟩ undefined
          rw [left.2] at undefined
          cases undefined
        · exact ⟨by simp, asked.stays, asked.unfocused, asked.destroyedOnce, asked.exitedOnce⟩
        · exact (kept (keeps.mp sparing)).orderly.1.lives
      · exact ⟨keeps, kept⟩
    | left system | destroyed system | exited system =>
      exact ⟨iff_of_true held.idle (by cases move <;> trivial), fun _ => held⟩
  | finish =>
    cases life with
    | program state => exact ⟨iff_of_true held.idle trivial, fun _ => held⟩
    | left system =>
      have lives : Lives system := held
      obtain ⟨after, stays, fore⟩ := lives.destroyWindows modules
      refine ⟨iff_of_true ⟨by simp [lifeStep], stays, ?_, after.counted.once, ?_⟩ trivial,
        fun _ => after⟩
      · exact fun handle _ focused => fore.symm.trans focused
      · exact fun handle => (after.unexited handle).trans_le (Nat.zero_le 1)
    | destroyed system =>
      have lives : Lives system := held
      obtain ⟨counted, stays, fore, once⟩ := lives.moduleExit modules
      refine ⟨iff_of_true ⟨by simp [lifeStep], stays, ?_, once, counted.once⟩ trivial,
        fun _ handle => ⟨once handle, counted.once handle⟩⟩
      exact fun handle _ focused => fore.symm.trans focused
    | exited system => exact ⟨iff_of_true held.idle trivial, fun _ => held⟩

end Steps

/-- The windows have not been started when `main` begins. -/
theorem start_fresh (infos : List WindowInfo) (world : ω) :
    Fresh (Manager.registered infos).infos (State.start infos world).system := by
  obtain ⟨box, fore, states⟩ := registered_fields infos
  refine ⟨⟨rfl, ?_⟩, fore, fun handle window found => ?_, fun _ => rfl, fun _ => rfl⟩
  · rw [State.start, box]
    simp
  · rw [states handle window found]
    decide

/-- In a run of the whole program every step keeps the destroyed windows if and only
if every message that is handled spares them. -/
theorem destroyed_stay_iff (infos : List WindowInfo) (world : ω) (moves : List LifeMove) :
    (∀ stage ∈ stages (lifeStep modules) moves (.program (State.start infos world)),
        KeepsDestroyed stage.before stage.after) ↔
      ∀ stage ∈ stages (lifeStep modules) moves (.program (State.start infos world)),
        SparingMove stage.input stage.before :=
  stages_iff (lifeStep modules) (LifeInvariant (Manager.registered infos).infos) SparingMove
    (fun stage => KeepsDestroyed stage.before stage.after) moves _ (start_fresh infos world)
    (fun move _ life held => (lifeStep_keeps_iff modules move life held).1)
    (fun move _ life held => (lifeStep_keeps_iff modules move life held).2)

/-- A window asks for the focus and to be destroyed, in one iteration. -/
def focusThenDestroy : List (Stage LifeMove (Life Unit) (Option Int)) :=
  stages (lifeStep idleModules)
    (List.replicate 3 (.main .next) ++
      [.main (.request (.windowsFocus (some (.complete "PCI-LIST")) 0)),
        .main (.request (.destroyWindows (some (.complete "PCI-LIST")) 0))] ++
      List.replicate 3 (.main .next))
    (.program (State.start [.complete "PCI-LIST"] ()))

/-- The second message is handled first, and the first one then puts the destroyed
window into the foreground. -/
theorem destroyed_window_focused :
    ¬ ∀ stage ∈ focusThenDestroy, KeepsDestroyed stage.before stage.after := by
  intro keeps
  have last := keeps _ (List.get_mem focusThenDestroy ⟨7, by decide +kernel⟩)
  have gone : ((focusThenDestroy.get ⟨7, by decide +kernel⟩).before.system.manager.window 0).map
      WinInfo.winState = some .destroyed := by decide +kernel
  obtain ⟨window, found, destroyed⟩ := Option.map_eq_some_iff.mp gone
  have before := last.unfocused 0 ⟨window, found, by rw [destroyed]; rfl⟩ (by decide +kernel)
  revert before
  decide +kernel

end Lfdk.WindowManager
