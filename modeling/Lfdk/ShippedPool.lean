import Lfdk.ShippedWindows

/-!
# The pool of the program's windows

With its seven windows registered, the manager is known once the state of each window, the
handle of the foreground window and the box are. The operations of the manager are read over
such pools: each window is found at its handle, a request of a window is accepted as long as
there is room in the box, and a callback is what its module answers.
-/

namespace Lfdk.ShippedWindows

open WindowManager

universe u
variable {δ : Type u}

namespace LinkOrder

variable (order : LinkOrder)

/-- Every window is linked, in any order of linking. -/
theorem mem (window : Window) : window ∈ order.windows := by
  rw [order.complete.mem_iff]
  cases window <;> decide

/-- No window is linked twice, so handles tell windows apart. -/
theorem nodup : order.windows.Nodup := order.complete.nodup_iff.mpr (by decide)

/-- There are seven windows, fewer than the pool has room for. -/
theorem length : order.windows.length = 7 := order.complete.length_eq

/-- No window has the handle that stands for no window. -/
theorem handle_nonneg (window : Window) : 0 ≤ order.handle window := Int.natCast_nonneg _

/-- Every module is found at its handle, which is its place in the order. -/
theorem window_handle (window : Window) : order.window (order.handle window) = some window := by
  rw [LinkOrder.window, if_pos (order.handle_nonneg window), handle, Int.toNat_natCast]
  exact List.getElem?_idxOf (order.mem window)

/-- A handle at which a module is found is its own. -/
theorem handle_of_window {handle : Int} {window : Window}
    (found : order.window handle = some window) : handle = order.handle window := by
  unfold LinkOrder.window at found
  split at found
  · next named =>
    obtain ⟨inside, rfl⟩ := List.getElem?_eq_some_iff.mp found
    rw [LinkOrder.handle, order.nodup.idxOf_getElem]
    exact (Int.toNat_of_nonneg named).symm
  · cases found

/-- Windows have different handles, so a handle tells its window. -/
theorem handle_inj {first second : Window} :
    order.handle first = order.handle second ↔ first = second := by
  constructor
  · intro same
    have found := order.window_handle first
    rw [same, order.window_handle second] at found
    exact (Option.some.inj found).symm
  · exact congrArg order.handle

/-- The manager with every window in a state. -/
def staged (state : Window → WinState) (fore : Int) (box : List MsgInfo) : Manager :=
  ⟨order.windows.map fun window => ⟨window.info, state window⟩, box, fore⟩

variable (state : Window → WinState) (fore : Int) (box : List MsgInfo)

/-- The foreground, the box and the windows of a staged manager are read off it. So the proofs about
the shipped windows go by these lemmas. -/
@[simp] theorem staged_fore : (order.staged state fore box).curForeWindowHandle = fore := rfl

/-- Its box is the one it was staged with. -/
@[simp] theorem staged_box : (order.staged state fore box).msgBox = box := rfl

/-- A handle stands for the window that was linked at this place, in the state it was staged with.
-/
theorem staged_window (handle : Int) :
    (order.staged state fore box).window handle =
      (order.window handle).map fun window => ⟨window.info, state window⟩ := by
  rw [Manager.window, LinkOrder.window, staged]
  split
  · rw [List.getElem?_map]
  · rfl

/-- So the handle of a window stands for this window. -/
@[simp] theorem staged_at (window : Window) :
    (order.staged state fore box).window (order.handle window) =
      some ⟨window.info, state window⟩ := by
  rw [staged_window, window_handle]
  rfl

/-- Another foreground is staged with this foreground; windows and box are as they were. -/
@[simp] theorem staged_setFore (handle : Int) :
    (order.staged state fore box).setFore handle = order.staged state handle box := rfl

/-- Another state of a window is staged with this state. -/
@[simp] theorem staged_setState (window : Window) (target : WinState) :
    (order.staged state fore box).setState (order.handle window) target =
      order.staged (Function.update state window target) fore box := by
  rw [Manager.setState, if_pos (order.handle_nonneg window)]
  simp only [staged, Manager.mk.injEq, and_true]
  apply List.ext_getElem?
  intro index
  rw [List.getElem?_modify, List.getElem?_map, List.getElem?_map]
  cases found : order.windows[index]? with
  | none => rfl
  | some other =>
    have known : order.window index = some other := by simpa [LinkOrder.window] using found
    have same : (order.handle window).toNat = index ↔ other = window := by
      rw [← order.handle_inj, ← order.handle_of_window known]
      have first := order.handle_nonneg window
      omega
    by_cases here : other = window
    · simp [same.mpr here, here]
    · simp [mt same.mp here, here]

/-- The handles are those of the windows in the order of linking. -/
@[simp] theorem staged_handles :
    (order.staged state fore box).handles = order.windows.map order.handle := by
  rw [Manager.handles, staged]
  apply List.ext_getElem
  · simp
  · intro index first second
    simp [LinkOrder.handle, order.nodup.idxOf_getElem]

/-- Every window is a valid sender under its own handle. -/
theorem staged_validSender (window : Window) :
    (order.staged state fore box).validSender (some window.info) (order.handle window) = true := by
  simp [Manager.validSender]

/-- The first window in a state that passes a test. -/
theorem staged_findState (target : WinState) (test : WindowInfo → Bool) :
    (order.staged state fore box).findState target test =
      (order.windows.find? fun window =>
        decide (state window = target) && test window.info).map order.handle := by
  rw [Manager.findState, staged_handles, List.find?_map]
  congr 2
  funext window
  simp

/-- Each window is found by its name, at its own handle: no two windows share a name. -/
theorem staged_findName (window : Window) :
    (order.staged state fore box).findName window.name = order.handle window := by
  have named : ∀ other : Window, other.name = window.name → other = window := by
    intro other same
    cases other <;> cases window <;> first | rfl | exact absurd same (by decide)
  have place : order.windows.findIdx? (fun other => decide (other.name = window.name)) =
      some (order.windows.idxOf window) := by
    rw [List.findIdx?_eq_some_iff_getElem]
    have inside := List.idxOf_lt_length_of_mem (order.mem window)
    refine ⟨inside, by simp, fun index below => ?_⟩
    rw [Bool.not_eq_true, decide_eq_false_iff_not]
    intro same
    have here := order.nodup.idxOf_getElem index (below.trans inside)
    rw [named _ same] at here
    omega
  have found : order.windows.findIdx? (fun other =>
      decide ((⟨other.info, state other⟩ : WinInfo).pWin.name = window.name)) =
        some (order.windows.idxOf window) := place
  rw [Manager.findName, staged, List.findIdx?_map, Function.comp_def, found]
  rfl

/-- A window asks for the focus, and its message is put on top of the box, if there is room. -/
theorem staged_windowsFocus (window : Window) (room : box.length < msgSize) :
    (requestWindowsFocus (some window.info) (order.handle window)
      (order.staged state fore box)).2 =
        order.staged state fore (⟨.needFocus, order.handle window⟩ :: box) := by
  rw [requestWindowsFocus, request, staged_validSender, staged_box, if_neg (by simp),
    if_neg (by omega)]
  rfl

/-- A window hands over to another one, which it names, and its message carries the handle of that
one. -/
theorem staged_xferControl (window target : Window) (room : box.length < msgSize) :
    (requestXferControl (some window.info) (order.handle window) (some target.name)
      (order.staged state fore box)).2 =
        order.staged state fore
          (⟨.xferControl (order.handle target), order.handle window⟩ :: box) := by
  rw [requestXferControl, staged_validSender, staged_box, if_neg (by simp), if_neg (by omega),
    staged_findName]
  rfl

/-- A window learns its state, as the pool has it. -/
theorem staged_windowState (window : Window) :
    requestWindowState (some window.info) (order.handle window) (order.staged state fore box) =
      some (state window) := by
  rw [requestWindowState, staged_validSender, if_neg (by simp), staged_at]
  rfl

/-- The windows are registered at their handles, none of them started and none in the foreground. -/
theorem registered_windows :
    Manager.registered (order.windows.map Window.info) =
      order.staged (fun _ => .notStart) (-1) [] := by
  have added : ∀ (infos : List WindowInfo) (pool : List WinInfo),
      pool.length + infos.length ≤ windowsPoolSize →
      infos.foldl (fun manager info => (registerWindows info manager).2) ⟨pool, [], -1⟩ =
        ⟨pool ++ infos.map (⟨·, .notStart⟩), [], -1⟩ := by
    intro infos
    induction infos with
    | nil => simp
    | cons info rest inductionHypothesis =>
      intro pool room
      rw [List.length_cons] at room
      have registered : (registerWindows info ⟨pool, [], -1⟩).2 =
          ⟨pool ++ [⟨info, .notStart⟩], [], -1⟩ := by
        rw [registerWindows, if_neg (by simp only; omega)]
      rw [List.foldl_cons, registered, inductionHypothesis]
      · simp
      · rw [List.length_append, List.length_singleton]
        omega
  rw [Manager.registered, added _ [] (by simp [order.length, windowsPoolSize])]
  simp [staged, Function.comp_def]

end LinkOrder

section Answers

variable (env : Environment δ) (order : LinkOrder)

/-- The answer of a module to a callback of its window, which sees its own state. -/
def answered (state : Window → WinState) (callback : Callback) (window : Window)
    (data : Option (BitVec 32)) (world : World δ) : Outcome (World δ) :=
  answer env window (order.handle window) (decide (state window = .foreground)) callback
    (data.getD 0) world

/-- A callback that is NULL does nothing, and its module would not do more. -/
theorem answer_undefined (window : Window) (handle : Int) (foreground : Bool)
    (callback : Callback) (code : BitVec 32) (world : World δ)
    (undefined : window.defines callback = false) :
    answer env window handle foreground callback code world = idle world := by
  unfold answer
  split
  · rfl
  · cases window <;> cases callback <;> first | rfl | exact absurd undefined (by decide)

/-- Calling a window is asking its module: the world is what the answer leaves, and the requests of
the answer are issued to the pool. -/
theorem invoke_answered (callback : Callback) (window : Window) (data : Option (BitVec 32))
    (system : System (World δ)) (state : Window → WinState) (fore : Int) (box : List MsgInfo)
    (pool : system.manager = order.staged state fore box) :
    let outcome := answered env order state callback window data system.world
    let called := invoke (shippedModules env order) callback (order.handle window) data system
    called.1 = outcome.value ∧ called.2.world = outcome.world ∧
      called.2.manager = outcome.requests.foldl
        (fun manager request => (request.issue manager).2) (order.staged state fore box) := by
  intro outcome called
  have ran : (shippedModules env order).run callback (order.handle window) data system.world
      (order.staged state fore box) = outcome := by
    simp only [shippedModules, order.window_handle, order.staged_windowState, Option.some.injEq]
    rfl
  by_cases set : window.defines callback = true
  · have info : window.info.defines callback = true := set
    simp only [called, invoke, pool, order.staged_at, if_pos info, ran, and_self]
  · have info : ¬ window.info.defines callback = true := set
    have nothing : outcome = idle system.world :=
      answer_undefined env window _ _ callback _ system.world (by simpa using set)
    simp only [called, invoke, pool, order.staged_at, if_neg info, nothing]
    exact ⟨rfl, rfl, rfl⟩

/-- After a callback that asks for nothing, the manager is as before. -/
theorem invoke_idle (callback : Callback) (window : Window) (data : Option (BitVec 32))
    (system : System (World δ)) (state : Window → WinState) (fore : Int) (box : List MsgInfo)
    (pool : system.manager = order.staged state fore box)
    (quiet : (answered env order state callback window data system.world).requests = []) :
    let called := invoke (shippedModules env order) callback (order.handle window) data system
    called.2.world = (answered env order state callback window data system.world).world ∧
      called.2.manager = order.staged state fore box := by
  obtain ⟨_, world, manager⟩ := invoke_answered env order callback window data system state fore
    box pool
  rw [quiet] at manager
  exact ⟨world, manager⟩

end Answers

end Lfdk.ShippedWindows
