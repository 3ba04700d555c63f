import Lfdk.ShippedPool

/-!
# The program comes up

The three start-up events go through the pool in the order of registration. Whatever this
order is, they lead to the same place: all windows are in the background, none has the focus,
and one message waits in the box, the request of PCI-SCAN. If the ports of the CMOS are
refused, the loop is not reached.
-/

namespace Lfdk.ShippedWindows

open WindowManager

universe u
variable {δ : Type u} (env : Environment δ) (order : LinkOrder)

/-- Only the base of configuration space and the driver have been touched. -/
def Primed (world : World δ) : Prop :=
  ∃ driver base, world = { World.starting driver with pcixMmioBase := base }

/-- A world that is primed has not ended, so the start-up goes on. -/
theorem Primed.running {world : World δ} (primed : Primed world) : world.ended = false := by
  obtain ⟨driver, base, rfl⟩ := primed
  rfl

/-- The request of PCI-SCAN. -/
def scanRequest : MsgInfo := ⟨.needFocus, order.handle .pciScan⟩

/-- The states when the first window and then the rest have come to a state. -/
theorem states_cons (state : Window → WinState) (target : WinState) (window : Window)
    (rest : List Window) :
    (fun other => if other ∈ rest then target else Function.update state window target other) =
      fun other => if other ∈ window :: rest then target else state other := by
  funext other
  by_cases later : other ∈ rest
  · simp [later]
  · by_cases here : other = window
    · simp [here]
    · simp [later, here]

/-- An initialisation asks for nothing, and the world stays primed. -/
theorem init_primed (state : Window → WinState) (window : Window) (world : World δ)
    (primed : Primed world) :
    let outcome := answered env order state .init window none world
    outcome.requests = [] ∧ Primed outcome.world := by
  obtain ⟨driver, base, rfl⟩ := primed
  cases window with
  | pciDev | pciList | baseboard | ioSpace | memSpace => exact ⟨rfl, driver, base, rfl⟩
  | pciScan => exact ⟨rfl, driver, _, rfl⟩
  | cmosSpace => exact ⟨rfl, (env.ioperm driver).2, base, rfl⟩

/-- The initialisation touches little, and when all of it succeeds, the windows are
initialised. -/
theorem initWindows_primed (rest : List Window) (state : Window → WinState)
    (system : System (World δ)) (pool : system.manager = order.staged state (-1) [])
    (primed : Primed system.world) :
    let after := initWindows (shippedModules env order) (rest.map order.handle) system
    Primed after.2.world ∧ (after.1 = 0 → after.2.manager =
      order.staged (fun window => if window ∈ rest then .inited else state window) (-1) []) := by
  induction rest generalizing state system with
  | nil =>
    intro after
    exact ⟨primed, fun _ => by simpa [after, initWindows] using pool⟩
  | cons window rest inductionHypothesis =>
    obtain ⟨quiet, kept⟩ := init_primed env order state window system.world primed
    obtain ⟨world, manager⟩ := invoke_idle env order .init window none system state (-1) [] pool
      quiet
    rcases outcome : invoke (shippedModules env order) .init (order.handle window) none system
      with ⟨ret, called⟩
    rw [outcome] at world manager
    simp only [List.map_cons, initWindows, outcome]
    by_cases failed : ret ≠ 0
    · rw [if_pos failed]
      exact ⟨world ▸ kept, fun success => absurd success failed⟩
    · rw [if_neg failed]
      have entered : (called.mapManager fun manager =>
          manager.setState (order.handle window) .inited).manager =
            order.staged (Function.update state window .inited) (-1) [] := by
        rw [System.mapManager, manager, order.staged_setState]
      obtain ⟨primed, final⟩ := inductionHypothesis _ _ entered (world ▸ kept)
      refine ⟨primed, fun success => ?_⟩
      rw [final success, states_cons]

/-- What the windows ask for while they are started. -/
theorem start_answered (state : Window → WinState) (callback : Callback) (window : Window)
    (world : World δ) (starts : callback = .startWin ∨ callback = .postStartWin)
    (running : world.ended = false) :
    let outcome := answered env order state callback window none world
    outcome.world = world ∧
      outcome.requests = if callback = .startWin ∧ window = .pciScan
        then [.windowsFocus (some Window.pciScan.info) (order.handle .pciScan)] else [] := by
  have going : ¬ world.ended = true := by simp [running]
  simp only [answered, answer, if_neg going]
  rcases starts with rfl | rfl
  · cases window <;> exact ⟨rfl, rfl⟩
  · cases window <;> exact ⟨rfl, rfl⟩

/-- A window goes from one state to the next, and PCI-SCAN asks for the focus when it is
started. -/
theorem promoted_window (source target : WinState) (callback : Callback)
    (starts : callback = .startWin ∨ callback = .postStartWin) (window : Window)
    (state : Window → WinState) (box : List MsgInfo) (system : System (World δ))
    (pool : system.manager = order.staged state (-1) box) (running : system.world.ended = false)
    (ready : state window = source) (room : window = .pciScan → box.length < msgSize) :
    let after := promote (shippedModules env order) source target callback system
      (order.handle window)
    after.world = system.world ∧
      after.manager = order.staged (Function.update state window target) (-1)
        (if callback = .startWin ∧ window = .pciScan then scanRequest order :: box else box) := by
  obtain ⟨same, asked⟩ := start_answered env order state callback window system.world starts
    running
  obtain ⟨_, world, manager⟩ := invoke_answered env order callback window none system state (-1)
    box pool
  rw [same] at world
  have requested : (invoke (shippedModules env order) callback (order.handle window) none
      system).2.manager = order.staged state (-1)
        (if callback = .startWin ∧ window = .pciScan then scanRequest order :: box else box) := by
    rw [manager, asked]
    by_cases scan : callback = .startWin ∧ window = .pciScan
    · rw [if_pos scan, if_pos scan]
      exact order.staged_windowsFocus state (-1) box .pciScan (room scan.2)
    · rw [if_neg scan, if_neg scan]
      rfl
  have promoted : promote (shippedModules env order) source target callback system
      (order.handle window) =
        (invoke (shippedModules env order) callback (order.handle window) none
          system).2.mapManager fun manager => manager.setState (order.handle window) target := by
    rw [promote, pool, order.staged_at]
    exact if_pos ready
  constructor
  · rw [promoted]
    exact world
  · rw [promoted, System.mapManager, requested, order.staged_setState]

/-- All windows go from one state to the next, and PCI-SCAN asks for the focus on its way. -/
theorem promoted_windows (source target : WinState) (callback : Callback)
    (starts : callback = .startWin ∨ callback = .postStartWin) (rest : List Window)
    (nodup : rest.Nodup) (state : Window → WinState) (box : List MsgInfo)
    (system : System (World δ)) (pool : system.manager = order.staged state (-1) box)
    (running : system.world.ended = false) (ready : ∀ window ∈ rest, state window = source)
    (room : .pciScan ∈ rest → box.length < msgSize) :
    let after := (rest.map order.handle).foldl
      (promote (shippedModules env order) source target callback) system
    after.world = system.world ∧
      after.manager = order.staged (fun window => if window ∈ rest then target else state window)
        (-1) (if callback = .startWin ∧ .pciScan ∈ rest then scanRequest order :: box else box) := by
  induction rest generalizing state box system with
  | nil => exact ⟨rfl, by simpa using pool⟩
  | cons window rest inductionHypothesis =>
    obtain ⟨fresh, nodup⟩ := List.nodup_cons.mp nodup
    obtain ⟨unchanged, entered⟩ := promoted_window env order source target callback starts window
      state box system pool running (ready window List.mem_cons_self)
      (fun scan => room (scan ▸ List.mem_cons_self))
    have later : ∀ other ∈ rest, other ≠ window := fun other member same => fresh (same ▸ member)
    obtain ⟨finalWorld, final⟩ := inductionHypothesis nodup _ _ _ entered
      (by rw [unchanged]; exact running)
      (fun other member => by
        rw [Function.update_of_ne (later other member)]
        exact ready other (List.mem_cons_of_mem window member))
      (fun member => by
        have apart : ¬ (callback = .startWin ∧ window = .pciScan) :=
          fun scan => later _ member scan.2.symm
        rw [if_neg apart]
        exact room (List.mem_cons_of_mem window member))
    refine ⟨finalWorld.trans unchanged, ?_⟩
    rw [List.map_cons, List.foldl_cons, final, states_cons]
    congr 1
    by_cases scan : window = .pciScan
    · subst scan
      simp [fresh]
    · have apart : ¬ (Window.pciScan = window) := fun same => scan same.symm
      simp [scan, apart]

/-- A program that reaches its loop has all windows in the background and one message in the
box. -/
theorem starting_cases (driver : δ) :
    Primed (starting env order driver).system.world ∧
      ((starting env order driver).control = .stopped ∨
        (starting env order driver).control = .running ∧
          (starting env order driver).system.manager =
            order.staged (fun _ => .background) (-1) [scanRequest order] ∧
          (starting env order driver).origins = [.startUp]) := by
  have pool := order.registered_windows
  have initialised := initWindows_primed env order order.windows (fun _ => .notStart)
    ⟨Manager.registered (order.windows.map Window.info), World.starting driver, []⟩ pool
    ⟨driver, 0, rfl⟩
  simp only [order.mem, if_true] at initialised
  have handles : (Manager.registered (order.windows.map Window.info)).handles =
      order.windows.map order.handle := by rw [pool, order.staged_handles]
  rcases outcome : handleInitEvent (shippedModules env order)
    ⟨Manager.registered (order.windows.map Window.info), World.starting driver, []⟩
      with ⟨ret, inited⟩
  have ran := outcome
  simp only [handleInitEvent, handles] at ran
  rw [ran] at initialised
  obtain ⟨primed, poolInited⟩ := initialised
  simp only [starting, startUp, outcome]
  by_cases failed : ret ≠ 0
  · rw [if_pos failed]
    exact ⟨primed, Or.inl rfl⟩
  · rw [if_neg failed]
    have poolInited := poolInited (not_not.mp failed)
    obtain ⟨startWorld, poolStarted⟩ := promoted_windows env order .inited .started .startWin
      (Or.inl rfl) order.windows order.nodup _ _ inited poolInited primed.running
      (fun _ _ => rfl) (fun _ => by decide)
    have started : handleStartWinEvent (shippedModules env order) inited =
        (order.windows.map order.handle).foldl
          (promote (shippedModules env order) .inited .started .startWin) inited := by
      rw [handleStartWinEvent, poolInited, order.staged_handles]
    rw [← started] at startWorld poolStarted
    simp only [order.mem, if_true, and_self] at poolStarted
    have one : [scanRequest order].length < msgSize := by
      rw [List.length_singleton]
      decide
    obtain ⟨endWorld, poolEnd⟩ := promoted_windows env order .started .background .postStartWin
      (Or.inr rfl) order.windows order.nodup _ _ _ poolStarted
      (by rw [startWorld]; exact primed.running) (fun _ _ => rfl) (fun _ => one)
    have ended : handlePostStartWinEvent (shippedModules env order)
        (handleStartWinEvent (shippedModules env order) inited) =
          (order.windows.map order.handle).foldl
            (promote (shippedModules env order) .started .background .postStartWin)
              (handleStartWinEvent (shippedModules env order) inited) := by
      rw [handlePostStartWinEvent, poolStarted, order.staged_handles]
    rw [← ended] at endWorld poolEnd
    simp only [order.mem, if_true, reduceCtorEq, false_and, if_false] at poolEnd
    refine ⟨?_, Or.inr ⟨rfl, poolEnd, ?_⟩⟩
    · rw [endWorld, startWorld]
      exact primed
    · rw [poolEnd]
      rfl

end Lfdk.ShippedWindows
