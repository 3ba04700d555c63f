import Lfdk.FocusDesk

/-!
# How often the buses are scanned

Between two turns of the loop the desk is in one of three phases: the request of PCI-SCAN
still waits, PCI-SCAN sits at the desk and is about to hand over, or another window sits
there and nothing waits. The first turn leads from the first phase to the second, whatever
key is pressed. PCI-SCAN leaves the desk in the turn after it came there.

It comes back when its short key is pressed. It declares none, so this is zero, a code that
`getch` can return; the loop hands it to `switch_key_press` like any other. Exactly the runs
in which zero is never read scan at most once.
-/

namespace Lfdk.ShippedWindows

open WindowManager HexEditors PciScan Runs

universe u
variable {δ : Type u}

/-- Where the program is between two turns. -/
inductive Phase : Desk δ → Prop where
  | waiting (world : World δ) : Phase ⟨none, some (.startUp, .needFocus .pciScan), world⟩
  | handingOver (world : World δ) :
      Phase ⟨some .pciScan, some (.callback, .xferControl .pciScan .pciList), world⟩
  | seated (window : Window) (other : window ≠ .pciScan) (world : World δ) :
      Phase ⟨some window, none, world⟩

/-- The focus moves to PCI-SCAN by the request from the start-up only, and no short key moves
it to a window that declares none. -/
def Proper (moves : List (Origin × Window)) : Prop :=
  ∀ move ∈ moves, (move.2 = .pciScan → move.1 = .startUp) ∧
    (move.1 = .shortKey → move.2.shortKey ≠ 0)

section Keys

variable (order : LinkOrder)

/-- A window is asked for by its short key, and by no other key, while it is not in the foreground.
-/
theorem asked_some {key : BitVec 32} {fore : Option Window} {window : Window}
    (calls : asked order key fore = some window) : fore ≠ some window ∧ window.shortKey = key :=
  of_decide_eq_true (List.find?_some (p := fun window =>
    decide (fore ≠ some window ∧ window.shortKey = key)) calls)

/-- Zero always calls a window, as several have it for their short key and one of them at most is in
the foreground. -/
theorem asked_zero (fore : Option Window) : asked order 0 fore ≠ none := by
  intro nobody
  have absent : ∀ window : Window, window.shortKey = 0 → fore = some window := by
    intro window undeclared
    have refused := List.find?_eq_none.mp nobody window (order.mem window)
    by_contra elsewhere
    exact refused (decide_eq_true ⟨elsewhere, undeclared⟩)
  have first := absent .pciDev rfl
  rw [absent .baseboard rfl] at first
  cases first

/-- PCI-SCAN is called by zero, since it declares no short key of its own. -/
theorem shortKey_pciScan {window : Window} (scan : window = .pciScan) : window.shortKey = 0 := by
  rw [scan]
  rfl

end Keys

section Turns

variable (env : Environment δ) (order : LinkOrder)

/-- A post that gives the focus to a window is delivered with its change of focus, and the others
follow from there. -/
theorem deliver_given (origin : Origin) (post : Post) (rest : List (Origin × Post))
    (fore : Option Window) (world : World δ) (next : Window) (given : post.given fore = some next) :
    deliver env ((origin, post) :: rest) fore world =
      ((origin, next) :: (deliver env rest (some next) (refocus env fore next world)).1,
        (deliver env rest (some next) (refocus env fore next world)).2) := by
  simp only [deliver, given]

/-- A post that gives it to none is left out. -/
theorem deliver_ignored (origin : Origin) (post : Post) (rest : List (Origin × Post))
    (fore : Option Window) (world : World δ) (given : post.given fore = none) :
    deliver env ((origin, post) :: rest) fore world = deliver env rest fore world := by
  simp only [deliver, given]

/-- A short key moves the focus properly unless it is zero. -/
theorem proper_shortKey {key : BitVec 32} {fore : Option Window} {window : Window}
    (calls : asked order key fore = some window) (rest : List (Origin × Window))
    (proper : Proper rest) : Proper ((.shortKey, window) :: rest) ↔ key ≠ 0 := by
  obtain ⟨_, declared⟩ := asked_some order calls
  constructor
  · intro moves zero
    exact (moves _ List.mem_cons_self).2 rfl (declared.trans zero)
  · intro nonzero
    refine List.forall_mem_cons.mpr ⟨⟨fun scan => ?_, fun _ => declared ▸ nonzero⟩, proper⟩
    exact absurd (declared.symm.trans (shortKey_pciScan scan)) nonzero

/-- When no window is called, the key was not zero. -/
theorem proper_callback {key : BitVec 32} {fore : Option Window}
    (nobody : asked order key fore = none) (moves : List (Origin × Window)) (proper : Proper moves) :
    Proper moves ↔ key ≠ 0 :=
  iff_of_true proper fun zero => asked_zero order fore (zero ▸ nobody)

/-- The request from the start-up brings PCI-SCAN to the desk. -/
theorem proper_startUp : Proper [(.startUp, .pciScan)] :=
  List.forall_mem_singleton.mpr ⟨fun _ => rfl, fun short => absurd short (by decide)⟩

/-- A window that is not PCI-SCAN gets the focus from the window at the desk. -/
theorem proper_handedOver {window : Window} (other : window ≠ .pciScan) :
    Proper [(.callback, window)] :=
  List.forall_mem_singleton.mpr
    ⟨fun scan => absurd scan other, fun short => Origin.noConfusion short⟩

/-- No posts are proper ones, which is how a turn begins where nothing waits. -/
theorem proper_nil : Proper [] := fun _ member => absurd member List.not_mem_nil

/-- A key that calls nobody makes PCI-LIST send a message, if anybody. -/
theorem pressed_unasked (key : BitVec 32) (window : Window) (waiting : Option (Origin × Post))
    (world : World δ) (nobody : asked order key (some window) = none) :
    ∃ after, Desk.pressed env order key ⟨some window, waiting, world⟩ = (waiting.toList, after) ∨
      window = .pciList ∧ Desk.pressed env order key ⟨some window, waiting, world⟩ =
        ((.callback, .xferControl .pciList .pciDev) :: waiting.toList, after) := by
  simp only [Desk.pressed, nobody]
  split
  · by_cases sends : window = .pciList ∧ key = keyEnter
    · exact ⟨_, Or.inr ⟨sends.1, by rw [keyPost, if_pos sends]; rfl⟩⟩
    · exact ⟨_, Or.inl (by rw [keyPost, if_neg sends]; rfl)⟩
  · exact ⟨_, Or.inl rfl⟩

/-- How the messages of a turn move the focus, and who sits at the desk after them. -/
theorem Phase.delivered {desk : Desk δ} (phase : Phase desk) (key : BitVec 32) :
    let pressed := desk.pressed env order key
    let result := deliver env pressed.1 desk.fore pressed.2
    ∃ window, result.2.1 = some window ∧ (desk.fore = none → window = .pciScan) ∧
      (key ≠ 0 → desk.fore ≠ none → window ≠ .pciScan) ∧ (Proper result.1 ↔ key ≠ 0) := by
  cases phase with
  | waiting world =>
    cases calls : asked order key none with
    | none =>
      simp only [Desk.pressed, calls, Option.toList_some]
      rw [deliver_given env .startUp (.needFocus .pciScan) [] none world .pciScan rfl]
      exact ⟨.pciScan, rfl, fun _ => rfl, fun _ present => absurd rfl present,
        proper_callback order calls _ proper_startUp⟩
    | some window =>
      simp only [Desk.pressed, calls, Option.toList_some]
      rw [deliver_given env .shortKey (.needFocus window) _ none world window rfl]
      by_cases scan : window = .pciScan
      · rw [deliver_ignored env .startUp (.needFocus .pciScan) [] _ _ (by simp [Post.given, scan])]
        exact ⟨.pciScan, by rw [scan]; rfl, fun _ => rfl, fun _ present => absurd rfl present,
          proper_shortKey order calls _ proper_nil⟩
      · rw [deliver_given env .startUp (.needFocus .pciScan) [] _ _ .pciScan
          (by simp [Post.given, scan])]
        exact ⟨.pciScan, rfl, fun _ => rfl, fun _ present => absurd rfl present,
          proper_shortKey order calls _ proper_startUp⟩
  | handingOver world =>
    cases calls : asked order key (some .pciScan) with
    | none =>
      obtain ⟨after, pressed | ⟨list, _⟩⟩ := pressed_unasked env order key .pciScan
        (some (.callback, .xferControl .pciScan .pciList)) world calls
      · simp only [pressed, Option.toList_some]
        rw [deliver_given env .callback (.xferControl .pciScan .pciList) [] _ _ .pciList
          (by simp [Post.given])]
        exact ⟨.pciList, rfl, fun absent => absurd absent (Option.some_ne_none _),
          fun _ _ => by decide, proper_callback order calls _ (proper_handedOver (by decide))⟩
      · cases list
    | some window =>
      obtain ⟨apart, _⟩ := asked_some order calls
      have other : window ≠ .pciScan := fun same => apart (by rw [same])
      simp only [Desk.pressed, calls, Option.toList_some]
      rw [deliver_given env .shortKey (.needFocus window) _ (some .pciScan) world window
          (by simp [Post.given, other.symm]),
        deliver_ignored env .callback (.xferControl .pciScan .pciList) [] _ _
          (by simp [Post.given, other])]
      exact ⟨window, rfl, fun absent => absurd absent (Option.some_ne_none _), fun _ _ => other,
        proper_shortKey order calls _ proper_nil⟩
  | seated seat other world =>
    cases calls : asked order key (some seat) with
    | none =>
      obtain ⟨after, pressed | ⟨list, pressed⟩⟩ := pressed_unasked env order key seat none world
        calls
      · simp only [pressed, Option.toList_none]
        exact ⟨seat, rfl, fun absent => absurd absent (Option.some_ne_none _), fun _ _ => other,
          proper_callback order calls _ proper_nil⟩
      · simp only [pressed, Option.toList_none]
        rw [deliver_given env .callback (.xferControl .pciList .pciDev) [] _ _ .pciDev
          (by simp [Post.given, list])]
        exact ⟨.pciDev, rfl, fun absent => absurd absent (Option.some_ne_none _),
          fun _ _ => by decide, proper_callback order calls _ (proper_handedOver (by decide))⟩
    | some window =>
      obtain ⟨apart, declared⟩ := asked_some order calls
      have elsewhere : seat ≠ window := fun same => apart (by rw [same])
      simp only [Desk.pressed, calls, Option.toList_none]
      rw [deliver_given env .shortKey (.needFocus window) _ (some seat) world window
        (by simp [Post.given, elsewhere])]
      refine ⟨window, rfl, fun absent => absurd absent (Option.some_ne_none _),
        fun nonzero _ scan => nonzero ?_, proper_shortKey order calls _ proper_nil⟩
      exact declared.symm.trans (shortKey_pciScan scan)

/-- What survives a change of the focus survives the delivery of messages. -/
theorem deliver_preserves (Holds : Option Window → World δ → Prop)
    (moved : ∀ fore next world, Holds fore world → Holds (some next) (refocus env fore next world))
    (posts : List (Origin × Post)) (fore : Option Window) (world : World δ)
    (start : Holds fore world) :
    Holds (deliver env posts fore world).2.1 (deliver env posts fore world).2.2 := by
  induction posts generalizing fore world with
  | nil => exact start
  | cons post rest inductionHypothesis =>
    obtain ⟨origin, post⟩ := post
    cases given : post.given fore with
    | none =>
      rw [deliver_ignored env origin post rest fore world given]
      exact inductionHypothesis fore world start
    | some next =>
      rw [deliver_given env origin post rest fore world next given]
      exact inductionHypothesis (some next) _ (moved fore next world start)

/-- Only the painting of PCI-SCAN scans: any other callback, of any window, leaves the record of
scans as it is. -/
theorem called_scans (callback : Callback) (window : Window) (code : BitVec 32) (world : World δ)
    (apart : ¬ (window = .pciScan ∧ callback = .paint)) :
    (called env callback window code world).scans = world.scans := by
  by_cases ended : world.ended = true
  · simp [called, answer, ended, idle]
  · simp only [called, answer, if_neg ended]
    cases window with
    | pciDev => cases (devInput true code callback) <;> rfl
    | pciScan =>
      cases callback with
      | paint => exact absurd ⟨rfl, rfl⟩ apart
      | init | startWin | postStartWin | lostFocus | getFocus | keyPress | destroyWin
      | moduleExit => rfl
    | pciList =>
      cases callback with
      | keyPress =>
        simp only [pciList]
        split <;> rfl
      | init | startWin | postStartWin | lostFocus | getFocus | paint | destroyWin
      | moduleExit => rfl
    | baseboard => rfl
    | ioSpace => cases (editorInput true code callback) <;> rfl
    | cmosSpace =>
      simp only
      split
      · rfl
      · cases (editorInput true code callback) <;> rfl
    | memSpace => cases (editorInput true code callback) <;> rfl

/-- PCI-SCAN is painted by scanning, as long as the program has not ended. -/
theorem called_scan (world : World δ) (running : ¬ world.ended = true) :
    called env .paint .pciScan 0 world = scanDevices env world := by
  simp only [called, answer, if_neg running, pciScan, if_true]
  split
  · rfl
  · rfl

/-- A key scans nothing: scans are made when PCI-SCAN is painted. -/
theorem pressed_scans (desk : Desk δ) (key : BitVec 32) :
    (desk.pressed env order key).2.scans = desk.world.scans := by
  unfold Desk.pressed
  split
  · rfl
  · split
    · next window _ =>
      split
      · exact called_scans env .keyPress window key desk.world (fun scan => absurd scan.2 (by decide))
      · rfl
    · rfl

/-- A change of focus scans nothing by itself either. -/
theorem refocus_scans (fore : Option Window) (next : Window) (world : World δ) :
    (refocus env fore next world).scans = world.scans := by
  rw [refocus, called_scans env .getFocus next 0 _ (fun scan => absurd scan.2 (by decide))]
  cases fore with
  | none => rfl
  | some window =>
    exact called_scans env .lostFocus window 0 world (fun scan => absurd scan.2 (by decide))

/-- The messages of a turn scan nothing, as they make windows lose and get the focus and paint none.
-/
theorem delivered_scans (desk : Desk δ) (key : BitVec 32) :
    let pressed := desk.pressed env order key
    (deliver env pressed.1 desk.fore pressed.2).2.2.scans = desk.world.scans := by
  intro pressed
  refine deliver_preserves env (fun _ world => world.scans = desk.world.scans) ?_ pressed.1
    desk.fore pressed.2 (pressed_scans env order desk key)
  intro fore next world same
  rw [refocus_scans, same]

/-- After painting, the desk is in a phase again, unless the program has ended. -/
theorem painted_phase (window : Window) (world : World δ) :
    (painted env (some window) world).world.ended = true ∨
      Phase (painted env (some window) world) := by
  by_cases scan : window = .pciScan
  · subst scan
    by_cases running : world.ended = false ∧ (called env .paint .pciScan 0 world).ended = false
    · refine Or.inr ?_
      simp only [painted, true_and, if_pos running]
      exact .handingOver _
    · left
      by_cases ended : world.ended = true
      · simp [painted, called, answer, ended, idle]
      · simpa [painted, ended] using running
  · refine Or.inr ?_
    simp only [painted, scan, false_and, if_false]
    exact .seated window scan _

/-- Painting scans once, when PCI-SCAN is at the desk. -/
theorem painted_scans (window : Window) (world : World δ) :
    (painted env (some window) world).world.scans.length ≤ world.scans.length + 1 ∧
      (window ≠ .pciScan → (painted env (some window) world).world.scans = world.scans) := by
  by_cases scan : window = .pciScan
  · subst scan
    refine ⟨?_, fun other => absurd rfl other⟩
    by_cases ended : world.ended = true
    · simp [painted, called, answer, ended, idle]
    · simp only [painted, called_scan env world ended]
      change (world.scans ++ [_]).length ≤ _
      rw [List.length_append]
      rfl
  · have same := called_scans env .paint window 0 world (fun both => scan both.1)
    exact ⟨by simp only [painted, same]; omega, fun _ => same⟩

end Turns

section Runs

variable (env : Environment δ) (order : LinkOrder)

/-- A turn in which the buses are scanned at most once so far, PCI-SCAN gets the focus by its
own request from the start-up only, and no short key moves the focus to a window that
declares none. -/
structure ScannedOnce (stage : Stage (BitVec 32) (Loop (World δ)) (List FocusMove)) : Prop where
  defined : stage.after.control ≠ .undefined
  once : stage.after.system.world.scans.length ≤ 1
  ownRequest : ∀ move ∈ stage.output, order.window move.window = some .pciScan →
    move.origin = .startUp
  declared : ∀ move ∈ stage.output, move.origin = .shortKey →
    ∀ window, order.window move.window = some window → window.shortKey ≠ 0

/-- What is known at the head of the loop as long as zero was not read. -/
structure OnceSoFar (loop : Loop (World δ)) : Prop where
  defined : loop.control ≠ .undefined
  once : loop.system.world.scans.length ≤ 1
  desk : loop.Reads World.ended → ∃ desk, Shows order loop desk ∧ Phase desk ∧
    (desk.fore = none → desk.world.scans = [])

/-- The moves of the focus are proper at the desk when they are with handles. -/
theorem proper_toMove (moves : List (Origin × Window)) :
    ((∀ move ∈ moves.map (toMove order), order.window move.window = some .pciScan →
        move.origin = .startUp) ∧
      ∀ move ∈ moves.map (toMove order), move.origin = .shortKey →
        ∀ window, order.window move.window = some window → window.shortKey ≠ 0) ↔
      Proper moves := by
  simp only [List.forall_mem_map, toMove, order.window_handle, Option.some.injEq, forall_eq']
  constructor
  · rintro ⟨own, declared⟩ move member
    exact ⟨own move member, declared move member⟩
  · intro proper
    exact ⟨fun move member => (proper move member).1, fun move member => (proper move member).2⟩

/-- One turn: the focus moves properly unless zero is read, and then the buses are scanned in
the first turn only. -/
theorem shippedTurn_once (key : BitVec 32) (loop : Loop (World δ)) (held : OnceSoFar order loop) :
    let ran := shippedTurn env order key loop
    (ScannedOnce order ⟨key, loop, ran.1, ran.2⟩ ↔ (loop.Reads World.ended → key ≠ 0)) ∧
      ((loop.Reads World.ended → key ≠ 0) → OnceSoFar order ran.2) := by
  obtain ⟨defined, once, known⟩ := held
  by_cases reads : loop.Reads World.ended
  · by_cases quit : key = 0x71 ∨ key = 0x51
    · have result := turn_quit (shippedModules env order) World.ended quit reads
      have nonzero : key ≠ 0 := by rcases quit with rfl | rfl <;> decide
      rw [shippedTurn, result]
      refine ⟨iff_of_true ⟨by simp, once, by simp, by simp⟩ fun _ => nonzero, fun _ => ?_⟩
      exact ⟨by simp, once, fun stopped => absurd stopped (Loop.stopped_reads _ loop)⟩
    · obtain ⟨desk, shows_, phase, fresh⟩ := known reads
      have running : desk.world.ended = false := shows_.world ▸ reads.2
      obtain ⟨moves, next⟩ := shippedTurn_desk env order shows_ running key quit
      obtain ⟨window, seated, first, later, proper⟩ := phase.delivered env order key
      have scans := delivered_scans env order desk key
      obtain ⟨atMost, unchanged⟩ := painted_scans env window
        (deliver env (desk.pressed env order key).1 desk.fore (desk.pressed env order key).2).2.2
      have after := Desk.turn_painted env order seated
      rw [← after, scans] at atMost unchanged
      have counted : key ≠ 0 → (desk.turn env order key).2.world.scans.length ≤ 1 := by
        intro nonzero
        cases fore : desk.fore with
        | none =>
          rw [fresh fore] at atMost
          exact atMost
        | some seat =>
          rw [unchanged (later nonzero (by rw [fore]; exact Option.some_ne_none seat)),
            ← shows_.world]
          exact once
      rw [← next.world] at counted
      have properly := (proper_toMove order (desk.turn env order key).1).trans proper
      rw [← moves] at properly
      have going : (shippedTurn env order key loop).2.control ≠ .undefined := by
        rw [next.control]
        decide
      constructor
      · constructor
        · intro scanned _
          exact properly.mp ⟨scanned.ownRequest, scanned.declared⟩
        · intro allowed
          obtain ⟨own, declared⟩ := properly.mpr (allowed reads)
          exact ⟨going, counted (allowed reads), own, declared⟩
      · intro allowed
        refine ⟨going, counted (allowed reads), fun readsAfter => ⟨_, next, ?_, ?_⟩⟩
        · rw [after]
          refine (painted_phase env window _).resolve_left fun ended => ?_
          rw [← after, ← next.world, readsAfter.2] at ended
          cases ended
        · rw [after]
          exact fun absent => absurd absent (Option.some_ne_none window)
  · rw [shippedTurn, turn_idle (shippedModules env order) World.ended key reads]
    refine ⟨iff_of_true ⟨defined, once, by simp, by simp⟩ fun other => absurd other reads,
      fun _ => ⟨defined, once, known⟩⟩

/-- The program comes to its loop without a scan. -/
theorem starting_once (driver : δ) : OnceSoFar order (starting env order driver) := by
  obtain ⟨_, _, fresh⟩ := (starting_cases env order driver).1
  have unscanned : (starting env order driver).system.world.scans = [] := by
    rw [fresh]
    rfl
  rcases starting_desk env order driver with stopped | shows_
  · refine ⟨by rw [stopped]; decide, by rw [unscanned]; exact Nat.zero_le 1, fun reads => ?_⟩
    exact absurd (stopped.symm.trans reads.1) (by decide)
  · refine ⟨by rw [shows_.control]; decide, by rw [unscanned]; exact Nat.zero_le 1, fun _ => ?_⟩
    exact ⟨_, shows_, .waiting _, fun _ => unscanned⟩

/-- Whatever `getch` returns, in each turn of the program's loop the buses have been scanned
at most once, PCI-SCAN gets the focus by its own request from the start-up only, and no short
key moves the focus to a window that declares none, exactly if `getch` never returns zero. -/
theorem scans_once_iff (driver : δ) (keys : List (BitVec 32)) :
    (∀ stage ∈ stages (shippedTurn env order) keys (starting env order driver),
      ScannedOnce order stage) ↔
    ∀ stage ∈ stages (shippedTurn env order) keys (starting env order driver),
      stage.before.Reads World.ended → stage.input ≠ 0 := by
  exact stages_iff (shippedTurn env order) (OnceSoFar order)
    (fun key loop => loop.Reads World.ended → key ≠ 0) (ScannedOnce order) keys
    (starting env order driver) (starting_once env order driver)
    (fun key _ loop held => (shippedTurn_once env order key loop held).1)
    (fun key _ loop held => (shippedTurn_once env order key loop held).2)

end Runs

/-- The order of the `Makefile`. -/
def makefileOrder : LinkOrder :=
  ⟨[.pciDev, .pciScan, .pciList, .baseboard, .ioSpace, .cmosSpace, .memSpace], by decide⟩

/-- One function answers, on bus 0, and every call succeeds. -/
def oneFunction : Environment Unit where
  pci := fun _ request driver =>
    let first := request.bus = 0 ∧ request.dev = 0 ∧ request.func = 0
    (true, { request with buf := if first then 0x12378086 else 0xffffffff }, driver)
  mem := fun _ request driver => (true, request, driver)
  io := fun _ request driver => (true, request, driver)
  cmosPorts := ⟨fun _ _ driver => driver, fun _ driver => (0, driver)⟩
  ioperm := fun driver => (true, driver)
  database := ⟨none, 0⟩
  maxpcibus := 1
  phyPcixMmioBase := 0
  mmioInMcfg := 0

/-- Zero is read twice after the first scan: PCI-DEV gets the focus, then PCI-SCAN, which
scans again. -/
theorem zero_scans_again :
    ¬ ∀ stage ∈ stages (shippedTurn oneFunction makefileOrder) [-1, 0, 0]
        (starting oneFunction makefileOrder ()), ScannedOnce makefileOrder stage := by
  intro all
  have twice : ∃ stage ∈ stages (shippedTurn oneFunction makefileOrder) [-1, 0, 0]
      (starting oneFunction makefileOrder ()), stage.after.system.world.scans.length = 2 := by
    refine ⟨_, List.mem_cons_of_mem _ (List.mem_cons_of_mem _ List.mem_cons_self), ?_⟩
    decide +kernel
  obtain ⟨stage, member, counted⟩ := twice
  have once := (all stage member).once
  omega

end Lfdk.ShippedWindows
