import Lfdk.ShippedStart

/-!
# Who is at the desk

Seen from outside, the program's windows share a desk: one of them sits at it, or none does
yet, and at most one message waits between two turns of the loop. A key either calls the
first window away from the desk that has it as its short key, or it goes to the window at
the desk. Then the messages are delivered, last in first out, and the window at the desk is
painted.

The manager's pool, its handles and its box are a representation of this: in every turn, the
program moves the focus as the desk does, and leaves what the desk shows. All later arguments
are about the desk.
-/

namespace Lfdk.ShippedWindows

open WindowManager HexEditors

universe u
variable {δ : Type u}

/-- A message, by the windows it names. -/
inductive Post where
  | needFocus (window : Window)
  | xferControl (sender target : Window)
deriving DecidableEq, Repr

/-- The window that a message gives the focus to. Control is handed over by the window at
the desk, or while there is none. -/
def Post.given (fore : Option Window) : Post → Option Window
  | .needFocus window => if fore = some window then none else some window
  | .xferControl sender target =>
    if sender = target ∨ (fore ≠ none ∧ fore ≠ some sender) then none else some target

/-- The desk between two turns of the loop. -/
structure Desk (δ : Type u) where
  fore : Option Window
  waiting : Option (Origin × Post)
  world : World δ

section Turns

variable (env : Environment δ) (order : LinkOrder)

/-- What a callback in the foreground leaves. -/
def called (callback : Callback) (window : Window) (code : BitVec 32) (world : World δ) : World δ :=
  (answer env window 0 true callback code world).world

/-- The focus goes from one window to the next. -/
def refocus (fore : Option Window) (next : Window) (world : World δ) : World δ :=
  called env .getFocus next 0 (fore.elim world fun window => called env .lostFocus window 0 world)

/-- The messages are delivered in order. -/
def deliver : List (Origin × Post) → Option Window → World δ →
    List (Origin × Window) × Option Window × World δ
  | [], fore, world => ([], fore, world)
  | (origin, post) :: rest, fore, world =>
    match post.given fore with
    | none => deliver rest fore world
    | some next =>
      let (moves, last) := deliver rest (some next) (refocus env fore next world)
      ((origin, next) :: moves, last)

/-- The window that a key calls to the desk. -/
def asked (key : BitVec 32) (fore : Option Window) : Option Window :=
  order.windows.find? fun window => decide (fore ≠ some window ∧ window.shortKey = key)

/-- The message that a key makes the window at the desk send. -/
def keyPost (key : BitVec 32) (window : Window) : Option Post :=
  if window = .pciList ∧ key = keyEnter then some (.xferControl .pciList .pciDev) else none

/-- The messages after a key, and what it left. -/
def Desk.pressed (key : BitVec 32) (desk : Desk δ) : List (Origin × Post) × World δ :=
  match asked order key desk.fore with
  | some window => ((.shortKey, .needFocus window) :: desk.waiting.toList, desk.world)
  | none =>
    match desk.fore with
    | some window =>
      if 0 < key.toInt then
        (((keyPost key window).map (Prod.mk .callback)).toList ++ desk.waiting.toList,
          called env .keyPress window key desk.world)
      else (desk.waiting.toList, desk.world)
    | none => (desk.waiting.toList, desk.world)

/-- The window at the desk is painted. PCI-SCAN hands over when it has scanned. -/
def painted (fore : Option Window) (world : World δ) : Desk δ :=
  match fore with
  | none => ⟨none, none, world⟩
  | some window =>
    let after := called env .paint window 0 world
    ⟨some window,
      if window = .pciScan ∧ world.ended = false ∧ after.ended = false
        then some (.callback, .xferControl .pciScan .pciList) else none,
      after⟩

/-- A turn of the loop that goes on. -/
def Desk.turn (key : BitVec 32) (desk : Desk δ) : List (Origin × Window) × Desk δ :=
  let (posts, world) := desk.pressed env order key
  let (moves, fore, world) := deliver env posts desk.fore world
  (moves, painted env fore world)

/-- The desk after a turn in which the messages leave a window in front. -/
theorem Desk.turn_painted {key : BitVec 32} {desk : Desk δ} {window : Window}
    (front : (deliver env (desk.pressed env order key).1 desk.fore
      (desk.pressed env order key).2).2.1 = some window) :
    (desk.turn env order key).2 = painted env (some window)
      (deliver env (desk.pressed env order key).1 desk.fore
        (desk.pressed env order key).2).2.2 := by
  rw [Desk.turn, ← front]

end Turns

section Representation

variable (env : Environment δ) (order : LinkOrder)

/-- A message as it stands in the box. -/
def Post.message : Post → MsgInfo
  | .needFocus window => ⟨.needFocus, order.handle window⟩
  | .xferControl sender target => ⟨.xferControl (order.handle target), order.handle sender⟩

/-- The request that leads to a message. -/
def Post.request : Post → ApiRequest
  | .needFocus window => .windowsFocus (some window.info) (order.handle window)
  | .xferControl sender target =>
    .xferControl (some sender.info) (order.handle sender) (some target.name)

/-- A move of the focus with the handle of the window. -/
def toMove (move : Origin × Window) : FocusMove := ⟨move.1, order.handle move.2⟩

/-- The manager while a window, or none, is in the foreground. -/
def LinkOrder.awake (fore : Option Window) (box : List MsgInfo) : Manager :=
  order.staged (fun window => if fore = some window then .foreground else .background)
    (fore.elim (-1) order.handle) box

/-- The program is running, and the desk is what its manager represents. -/
structure Shows (loop : Loop (World δ)) (desk : Desk δ) : Prop where
  control : loop.control = .running
  manager : loop.system.manager =
    order.awake desk.fore (desk.waiting.toList.map fun post => post.2.message order)
  origins : loop.origins = desk.waiting.toList.map Prod.fst
  world : loop.system.world = desk.world

/-- A post that a window makes is the message that the manager puts into its box, in front of the
others, as long as there is room. -/
theorem Post.issue (post : Post) (state : Window → WinState) (fore : Int) (box : List MsgInfo)
    (room : box.length < msgSize) :
    ((post.request order).issue (order.staged state fore box)).2 =
      order.staged state fore (post.message order :: box) := by
  cases post with
  | needFocus window => exact order.staged_windowsFocus state fore box window room
  | xferControl sender target => exact order.staged_xferControl state fore box sender target room

/-- Losing and getting the focus asks for nothing, whoever is in the foreground. -/
theorem answer_focus (callback : Callback) (focus : callback = .getFocus ∨ callback = .lostFocus)
    (window : Window) (handle : Int) (foreground : Bool) (world : World δ) :
    answer env window handle foreground callback 0 world =
      idle (called env callback window 0 world) := by
  by_cases ended : world.ended = true
  · simp [called, answer, ended, idle]
  · simp only [called, answer, if_neg ended]
    rcases focus with rfl | rfl
    · cases window <;> rfl
    · cases window <;> rfl

/-- A key makes the window at the desk run its callback, which sends its message if the key asks for
one. -/
theorem answer_key (window : Window) (foreground : Bool) (key : BitVec 32) (world : World δ)
    (running : world.ended = false) :
    let outcome := answer env window (order.handle window) foreground .keyPress key world
    outcome.world = called env .keyPress window key world ∧
      outcome.requests = (keyPost key window).toList.map (Post.request order) := by
  cases window with
  | pciList =>
    by_cases enter : key = keyEnter
    · simp [called, answer, running, pciList, keyPost, enter, Post.request, Window.name]
    · simp [called, answer, running, pciList, keyPost, enter, idle]
  | pciDev | pciScan | baseboard | ioSpace | cmosSpace | memSpace =>
    simp [called, answer, running, pciScan, keyPost, idle, devInput, editorInput]

/-- In the background nothing is painted: every callback of a paint asks first whether its window is
in the foreground. -/
theorem answer_background (window : Window) (handle : Int) (code : BitVec 32) (world : World δ) :
    answer env window handle false .paint code world = idle world := by
  unfold answer
  split
  · rfl
  · cases window <;> rfl

/-- In the foreground a window is painted, and PCI-SCAN asks to hand over once it has scanned. -/
theorem answer_paint (window : Window) (world : World δ) :
    let outcome := answer env window (order.handle window) true .paint 0 world
    outcome.world = called env .paint window 0 world ∧
      outcome.requests =
        ((painted env (some window) world).waiting.toList.map fun post => post.2.request order) := by
  by_cases ended : world.ended = true
  · simp [called, answer, painted, ended, idle]
  · have running : world.ended = false := by simpa using ended
    cases window with
    | pciScan =>
      by_cases failed : (scanDevices env world).ended = true
      · simp [called, answer, painted, running, pciScan, failed, idle]
      · simp [called, answer, painted, running, pciScan, failed, Post.request, Window.name]
    | pciDev | pciList | baseboard | ioSpace | cmosSpace | memSpace =>
      simp [called, answer, painted, running, pciList, idle]

/-- The foreground handle is the one of the window at the desk. -/
theorem awake_curWnd (fore : Option Window) (box : List MsgInfo) (pCurWnd : Option Int)
    (fresh : fore = none → pCurWnd = none) :
    curWnd pCurWnd (order.awake fore box) = fore.map order.handle := by
  rw [curWnd, LinkOrder.awake, order.staged_fore]
  cases fore with
  | none => simp [fresh rfl]
  | some window => simp [order.handle_nonneg window]

/-- The handle of the foreground tells which window it is: windows have different handles, and none
of them has the handle that stands for no window. -/
theorem handle_fore (fore : Option Window) (window : Window) :
    order.handle window = fore.elim (-1) order.handle ↔ fore = some window := by
  cases fore with
  | none =>
    have first := order.handle_nonneg window
    simp only [Option.elim_none, reduceCtorEq, iff_false]
    omega
  | some other =>
    simp only [Option.elim_some, order.handle_inj, Option.some.injEq]
    exact eq_comm

/-- A message gives the focus to the window it gives it to at the desk. -/
theorem awake_focusGiven (fore : Option Window) (box : List MsgInfo) (pCurWnd : Option Int)
    (fresh : fore = none → pCurWnd = none) (post : Post) :
    focusGiven pCurWnd (post.message order) (order.awake fore box) =
      (post.given fore).map order.handle := by
  have cur : (order.awake fore box).curForeWindowHandle = fore.elim (-1) order.handle := rfl
  cases post with
  | needFocus window =>
    simp only [focusGiven, Post.message, Post.given, cur, handle_fore]
    split
    · rfl
    · rfl
  | xferControl sender target =>
    simp only [focusGiven, Post.message, Post.given, cur, order.handle_inj, ne_eq, handle_fore,
      awake_curWnd order fore box pCurWnd fresh, Option.map_eq_none_iff]
    split
    · rfl
    · rfl

/-- Losing the focus: the window's callback runs, and in the pool the window is in the background,
while the handle of the foreground is still its own. -/
theorem loseFocus_desk (window : Window) (box : List MsgInfo) (system : System (World δ))
    (pool : system.manager = order.awake (some window) box) :
    let after := loseFocus (shippedModules env order) (order.handle window) system
    after.manager = order.staged (fun _ => .background) (order.handle window) box ∧
      after.world = called env .lostFocus window 0 system.world := by
  have answers := answer_focus env .lostFocus (Or.inr rfl) window (order.handle window)
  obtain ⟨world, manager⟩ := invoke_idle env order .lostFocus window none system _ _ box pool
    (by rw [answered, Option.getD_none, answers]; rfl)
  rw [answered, Option.getD_none, answers] at world
  refine ⟨?_, world⟩
  rw [loseFocus, System.mapManager, manager, order.staged_setState]
  simp only [Option.elim_some]
  congr 1
  funext other
  by_cases same : other = window
  · simp [same]
  · have apart : ¬ window = other := fun equal => same equal.symm
    simp [same, apart]

/-- Getting the focus, when no window is in the foreground: the window's callback runs, and the desk
is its own. -/
theorem gainFocus_desk (next : Window) (fore : Int) (box : List MsgInfo)
    (system : System (World δ))
    (pool : system.manager = order.staged (fun _ => .background) fore box) :
    let after := gainFocus (shippedModules env order) (order.handle next) system
    after.manager = order.awake (some next) box ∧
      after.world = called env .getFocus next 0 system.world := by
  have answers := answer_focus env .getFocus (Or.inl rfl) next (order.handle next)
  have entered : (system.mapManager fun manager =>
      (manager.setFore (order.handle next)).setState (order.handle next) .foreground).manager =
        order.awake (some next) box := by
    rw [System.mapManager, pool, order.staged_setFore, order.staged_setState, LinkOrder.awake]
    simp only [Option.elim_some, Option.some.injEq]
    congr 1
    funext other
    by_cases same : other = next
    · simp [same]
    · have apart : ¬ next = other := fun equal => same equal.symm
      simp [same, apart]
  obtain ⟨world, manager⟩ := invoke_idle env order .getFocus next none _ _ _ box entered
    (by rw [answered, Option.getD_none, answers]; rfl)
  rw [answered, Option.getD_none, answers] at world
  exact ⟨manager, world⟩

/-- The focus goes to the next window as it does at the desk. -/
theorem switchFocus_desk (fore : Option Window) (next : Window) (box : List MsgInfo)
    (system : System (World δ)) (pool : system.manager = order.awake fore box) :
    ∃ after, switchFocus (shippedModules env order) (fore.map order.handle) (order.handle next)
        system = some after ∧
      after.manager = order.awake (some next) box ∧
        after.world = refocus env fore next system.world := by
  cases fore with
  | none =>
    exact ⟨_, rfl, gainFocus_desk env order next (-1) box system (by simpa [LinkOrder.awake] using pool)⟩
  | some window =>
    obtain ⟨manager, world⟩ := loseFocus_desk env order window box system pool
    obtain ⟨managerNext, worldNext⟩ := gainFocus_desk env order next _ box _ manager
    refine ⟨gainFocus (shippedModules env order) (order.handle next)
      (loseFocus (shippedModules env order) (order.handle window) system), ?_, managerNext, ?_⟩
    · rw [Option.map_some, switchFocus, pool, LinkOrder.awake, order.staged_at]
    · rw [worldNext, world]
      rfl

/-- A message is handled as it is delivered at the desk: it gives the focus to a window, or changes
nothing. -/
theorem handleMessage_desk (fore : Option Window) (box : List MsgInfo) (pCurWnd : Option Int)
    (fresh : fore = none → pCurWnd = none) (post : Post) (system : System (World δ))
    (pool : system.manager = order.awake fore box) :
    ∃ previous after,
      handleMessage (shippedModules env order) pCurWnd (post.message order) system =
        some (previous, after) ∧
      match post.given fore with
      | none => (fore = none → previous = none) ∧ after = system
      | some next => after.manager = order.awake (some next) box ∧
          after.world = refocus env fore next system.world := by
  have known : ∀ window, system.manager.window (order.handle window) =
      some ⟨window.info, if fore = some window then .foreground else .background⟩ := by
    intro window
    rw [pool]
    exact order.staged_at _ _ _ window
  have cur : system.manager.curForeWindowHandle = fore.elim (-1) order.handle := by rw [pool]; rfl
  have remembered : curWnd pCurWnd system.manager = fore.map order.handle := by
    rw [pool]
    exact awake_curWnd order fore box pCurWnd fresh
  cases post with
  | needFocus window =>
    simp only [handleMessage, Post.message, Post.given, known, cur, handle_fore, remembered]
    by_cases here : fore = some window
    · rw [if_pos here, if_pos here]
      exact ⟨pCurWnd, system, rfl, fresh, rfl⟩
    · obtain ⟨after, switched, result⟩ := switchFocus_desk env order fore window box system pool
      rw [if_neg here, if_neg here, switched]
      exact ⟨_, after, rfl, result⟩
  | xferControl sender target =>
    simp only [handleMessage, Post.message, Post.given, known, cur, order.handle_inj, ne_eq,
      handle_fore, remembered, Option.map_eq_none_iff]
    by_cases same : sender = target
    · simp only [same, if_true, true_or]
      exact ⟨pCurWnd, system, rfl, fresh, rfl⟩
    · by_cases refused : ¬ fore = none ∧ ¬ fore = some sender
      · obtain ⟨window, present⟩ := Option.ne_none_iff_exists'.mp refused.1
        rw [if_neg same, if_pos refused, if_pos (Or.inr refused)]
        refine ⟨fore.map order.handle, system, ?_, fun absent => absurd absent refused.1, rfl⟩
        rw [present, Option.map_some, Option.bind_some, known]
        rfl
      · obtain ⟨after, switched, result⟩ := switchFocus_desk env order fore target box system pool
        rw [if_neg same, if_neg refused, if_neg (not_or.mpr ⟨same, refused⟩), switched]
        exact ⟨_, after, rfl, result⟩

/-- All messages are handled as they are delivered: with fuel for every message of the box, the loop
of the manager does to the desk what `deliver` does. -/
theorem watchMessages_desk (posts : List (Origin × Post)) (fuel : Nat)
    (enough : posts.length ≤ fuel) (fore : Option Window) (pCurWnd : Option Int)
    (fresh : fore = none → pCurWnd = none) (system : System (World δ))
    (pool : system.manager = order.awake fore (posts.map fun post => post.2.message order)) :
    let delivered := deliver env posts fore system.world
    ∃ after, watchMessages (shippedModules env order) fuel pCurWnd (posts.map Prod.fst) system =
        some (delivered.1.map (toMove order), after) ∧
      after.manager = order.awake delivered.2.1 [] ∧ after.world = delivered.2.2 := by
  induction posts generalizing fuel fore pCurWnd system with
  | nil =>
    refine ⟨system, ?_, pool, rfl⟩
    have empty : system.manager.msgBox = [] := by rw [pool]; rfl
    cases fuel with
    | zero => simp [watchMessages, empty, deliver]
    | succ fuel => simp [watchMessages, empty, deliver]
  | cons post rest inductionHypothesis =>
    obtain ⟨origin, post⟩ := post
    obtain ⟨fuel, rfl⟩ : ∃ left, fuel = left + 1 := by
      cases fuel with
      | zero => cases enough
      | succ left => exact ⟨left, rfl⟩
    have enough : rest.length ≤ fuel := Nat.le_of_succ_le_succ enough
    let messages := rest.map fun post => post.2.message order
    let taken := system.mapManager fun manager => { manager with msgBox := messages }
    have poolTaken : taken.manager = order.awake fore messages := by
      simp only [taken, System.mapManager, pool]
      rfl
    have given := awake_focusGiven order fore messages pCurWnd fresh post
    have box : system.manager.msgBox = post.message order :: messages := by rw [pool]; rfl
    obtain ⟨previous, after, handled, result⟩ := handleMessage_desk env order fore messages pCurWnd
      fresh post taken poolTaken
    have unfolded : watchMessages (shippedModules env order) (fuel + 1) pCurWnd
        (((origin, post) :: rest).map Prod.fst) system =
          (watchMessages (shippedModules env order) fuel previous
            (arrivals .callback taken.manager after.manager (rest.map Prod.fst)) after).map
              fun found => (((post.given fore).map order.handle).toList.map
                (FocusMove.mk origin) ++ found.1, found.2) := by
      rw [watchMessages_cons _ fuel pCurWnd previous _ system after _ messages box handled, ← given,
        ← poolTaken]
      rfl
    rw [unfolded]
    cases decided : post.given fore with
    | none =>
      rw [decided] at result
      obtain ⟨freshAfter, rfl⟩ := result
      obtain ⟨final, watched, finished⟩ := inductionHypothesis fuel enough fore previous freshAfter
        taken poolTaken
      have quiet : arrivals .callback taken.manager taken.manager (rest.map Prod.fst) =
          rest.map Prod.fst := by simp [arrivals]
      rw [quiet, watched]
      simp only [deliver, decided]
      exact ⟨final, rfl, finished⟩
    | some next =>
      rw [decided] at result
      obtain ⟨manager, world⟩ := result
      obtain ⟨final, watched, finished⟩ := inductionHypothesis fuel enough (some next) previous
        (fun absent => absurd absent (Option.some_ne_none next)) after manager
      have quiet : arrivals .callback taken.manager after.manager (rest.map Prod.fst) =
          rest.map Prod.fst := by
        rw [poolTaken, manager]
        simp [arrivals, LinkOrder.awake]
      rw [quiet, watched]
      rw [world] at finished ⊢
      simp only [deliver, decided]
      exact ⟨final, rfl, finished⟩

/-- At most one request, as a message in the box, which has room for it. -/
theorem issued_posts (post : Option Post) (state : Window → WinState) (fore : Int)
    (box : List MsgInfo) (room : box.length < msgSize) :
    (post.toList.map (Post.request order)).foldl
        (fun manager request => (request.issue manager).2) (order.staged state fore box) =
      order.staged state fore (post.toList.map (Post.message order) ++ box) := by
  cases post with
  | none => rfl
  | some post => exact post.issue order state fore box room

/-- A key calls a window as it does at the desk: the window's request is put into the box, or there
is none. -/
theorem switchKeyPress_desk (key : BitVec 32) (fore : Option Window) (box : List MsgInfo)
    (room : box.length < msgSize) :
    switchKeyPress key (order.awake fore box) =
      match asked order key fore with
      | none => (false, order.awake fore box)
      | some window => (true, order.awake fore ((Post.needFocus window).message order :: box)) := by
  have same : ∀ window : Window,
      (decide ((if fore = some window then WinState.foreground else .background) = .background) &&
        decide (window.info.shortKey = key)) =
        decide (fore ≠ some window ∧ window.shortKey = key) := by
    intro window
    rw [Bool.eq_iff_iff, Bool.and_eq_true, decide_eq_true_iff, decide_eq_true_iff,
      decide_eq_true_iff]
    refine and_congr_left fun _ => ?_
    by_cases here : fore = some window
    · simp [here]
    · simp [here]
  have found : (order.awake fore box).findState .background
      (fun info => decide (info.shortKey = key)) = (asked order key fore).map order.handle := by
    rw [LinkOrder.awake, order.staged_findState]
    simp only [same]
    rfl
  unfold switchKeyPress
  rw [found]
  cases asked order key fore with
  | none => rfl
  | some window =>
    simp only [Option.map_some, LinkOrder.awake, order.staged_at]
    rw [order.staged_windowsFocus _ _ _ window room]
    rfl

/-- The window in the foreground is the one at the desk, and none is where nobody sits there. -/
theorem findState_desk (fore : Option Window) (box : List MsgInfo) :
    (order.awake fore box).findState .foreground (fun _ => true) = fore.map order.handle := by
  rw [LinkOrder.awake, order.staged_findState]
  congr 1
  cases found : order.windows.find? fun window =>
      decide ((if fore = some window then WinState.foreground else .background) = .foreground) &&
        true with
  | none =>
    cases fore with
    | none => rfl
    | some window =>
      have absent := List.find?_eq_none.mp found window (order.mem window)
      simp at absent
  | some window =>
    have here := List.find?_some found
    by_cases same : fore = some window
    · exact same.symm
    · simp [same] at here

/-- The window at the desk hears the key, and its message, if it sends one, is put on top of the
box. -/
theorem handleKeyEvent_desk (key : BitVec 32) (window : Window) (box : List MsgInfo)
    (system : System (World δ)) (room : box.length < msgSize)
    (pool : system.manager = order.awake (some window) box)
    (running : system.world.ended = false) :
    let after := handleKeyEvent (shippedModules env order) key system
    after.manager = order.awake (some window)
        ((keyPost key window).toList.map (Post.message order) ++ box) ∧
      after.world = called env .keyPress window key system.world := by
  have heard := findState_desk order (some window) box
  rw [← pool, Option.map_some] at heard
  obtain ⟨world, requests⟩ := answer_key env order window true key system.world running
  obtain ⟨_, left, sent⟩ := invoke_answered env order .keyPress window (some key) system _ _ box pool
  have outcome : answered env order
      (fun other => if some window = some other then .foreground else .background) .keyPress
      window (some key) system.world =
        answer env window (order.handle window) true .keyPress key system.world := by
    simp [answered]
  rw [outcome, world] at left
  rw [outcome, requests, issued_posts order _ _ _ _ room] at sent
  simp only [handleKeyEvent, heard]
  exact ⟨sent, left⟩

/-- A key is pressed as it is at the desk: the same messages wait, and the world is the same. -/
theorem pressKey_desk {loop : Loop (World δ)} {desk : Desk δ} (shows_ : Shows order loop desk)
    (running : desk.world.ended = false) (key : BitVec 32) :
    let pressed := pressKey (shippedModules env order) key loop.system
    let posts := desk.pressed env order key
    pressed.manager = order.awake desk.fore (posts.1.map fun post => post.2.message order) ∧
      pressed.world = posts.2 ∧
      arrivals (if (switchKeyPress key loop.system.manager).1 then .shortKey else .callback)
        loop.system.manager pressed.manager loop.origins = posts.1.map Prod.fst := by
  obtain ⟨_, manager, origins, world⟩ := shows_
  have room : (desk.waiting.toList.map fun post => post.2.message order).length < msgSize := by
    cases desk.waiting with
    | none => simp [msgSize]
    | some post => simp [msgSize]
  have switched := switchKeyPress_desk order key desk.fore _ room
  have quiet : ∀ origin, arrivals origin loop.system.manager loop.system.manager loop.origins =
      loop.origins := by
    intro origin
    simp [arrivals]
  simp only [Desk.pressed]
  cases calls : asked order key desk.fore with
  | some window =>
    rw [calls] at switched
    simp only [pressKey, manager, switched, origins, world]
    refine ⟨rfl, rfl, ?_⟩
    simp [arrivals, LinkOrder.awake]
  | none =>
    rw [calls, ← manager] at switched
    simp only [pressKey, switched, true_and]
    cases fore : desk.fore with
    | none =>
      have nobody := findState_desk order none
        (desk.waiting.toList.map fun post => post.2.message order)
      rw [← fore, ← manager, fore, Option.map_none] at nobody
      have unheard : handleKeyEvent (shippedModules env order) key loop.system = loop.system := by
        rw [handleKeyEvent, nobody]
      simp only [unheard, ite_self]
      exact ⟨fore ▸ manager, world, (quiet _).trans origins⟩
    | some window =>
      simp only
      by_cases positive : 0 < key.toInt
      · rw [fore] at manager
        obtain ⟨sent, left⟩ := handleKeyEvent_desk env order key window _ loop.system room manager
          (world ▸ running)
        simp only [if_pos positive]
        refine ⟨?_, by rw [left, world], ?_⟩
        · rw [sent, List.map_append]
          cases keyPost key window with
          | none => rfl
          | some post => rfl
        · rw [sent, manager, origins]
          cases keyPost key window with
          | none => simp [arrivals, LinkOrder.awake]
          | some post => simp [arrivals, LinkOrder.awake]
      · simp only [if_neg positive]
        exact ⟨fore ▸ manager, world, (quiet _).trans origins⟩

/-- A key leaves at most two messages, one that was waiting and one that the key's window sends,
which the box has room for. -/
theorem Desk.pressed_length (desk : Desk δ) (key : BitVec 32) :
    (desk.pressed env order key).1.length ≤ msgSize := by
  have waiting : desk.waiting.toList.length ≤ 1 := by
    cases desk.waiting with
    | none => exact Nat.zero_le 1
    | some post => exact le_refl 1
  have sent : ∀ window, ((keyPost key window).map (Prod.mk Origin.callback)).toList.length ≤ 1 := by
    intro window
    cases keyPost key window with
    | none => exact Nat.zero_le 1
    | some post => exact le_refl 1
  have two : 2 ≤ msgSize := by decide
  unfold Desk.pressed
  split
  · rw [List.length_cons]
    omega
  · split
    · next window _ =>
      split
      · have first := sent window
        rw [List.length_append]
        omega
      · exact waiting.trans (by decide)
    · exact waiting.trans (by decide)

/-- Painting the windows in the background does nothing, in whatever order they come. -/
theorem paintBackground_desk (windows : List Window) (fore : Option Window) (box : List MsgInfo)
    (system : System (World δ)) (pool : system.manager = order.awake fore box) :
    let after := (windows.map order.handle).foldl (paintBackground (shippedModules env order)) system
    after.manager = order.awake fore box ∧ after.world = system.world := by
  induction windows generalizing system with
  | nil => exact ⟨pool, rfl⟩
  | cons window rest inductionHypothesis =>
    have kept : (paintBackground (shippedModules env order) system (order.handle window)).manager =
          order.awake fore box ∧
        (paintBackground (shippedModules env order) system (order.handle window)).world =
          system.world := by
      rw [paintBackground, pool, LinkOrder.awake, order.staged_at]
      by_cases here : fore = some window
      · simp [here, pool, LinkOrder.awake]
      · have outcome : answered env order
            (fun other => if fore = some other then .foreground else .background) .paint window none
            system.world = idle system.world := by
          rw [answered]
          simp only [if_neg here, reduceCtorEq, decide_false]
          exact answer_background env window _ _ _
        obtain ⟨world, manager⟩ := invoke_idle env order .paint window none system _ _ box pool
          (by rw [outcome]; rfl)
        rw [outcome] at world
        simp only [if_neg here, if_true]
        exact ⟨manager, world⟩
    obtain ⟨manager, world⟩ := inductionHypothesis _ kept.1
    rw [List.map_cons, List.foldl_cons]
    exact ⟨manager, world.trans kept.2⟩

/-- The windows are painted as they are at the desk, where only the window that sits there is
painted. -/
theorem handlePaintWindows_desk (fore : Option Window) (system : System (World δ))
    (pool : system.manager = order.awake fore []) :
    let desk := painted env fore system.world
    ∃ after, handlePaintWindows (shippedModules env order) system = some after ∧
      after.manager =
        order.awake desk.fore (desk.waiting.toList.map fun post => post.2.message order) ∧
      after.world = desk.world := by
  have background := paintBackground_desk env order order.windows fore [] system pool
  have handles : system.manager.handles = order.windows.map order.handle := by
    rw [pool, LinkOrder.awake, order.staged_handles]
  simp only [handlePaintWindows, handles]
  generalize (order.windows.map order.handle).foldl
    (paintBackground (shippedModules env order)) system = behind at background
  obtain ⟨manager, world⟩ := background
  have cur : behind.manager.curForeWindowHandle = fore.elim (-1) order.handle := by
    rw [manager]
    rfl
  cases fore with
  | none =>
    rw [cur, if_neg (by simp)]
    exact ⟨behind, rfl, manager, world⟩
  | some window =>
    have outcome : answered env order
        (fun other => if some window = some other then .foreground else .background) .paint
        window none behind.world =
          answer env window (order.handle window) true .paint 0 behind.world := by
      simp [answered]
    obtain ⟨left, requests⟩ := answer_paint env order window behind.world
    obtain ⟨_, worldAfter, sent⟩ := invoke_answered env order .paint window none behind _ _ []
      manager
    rw [outcome, left] at worldAfter
    have posts : ((painted env (some window) behind.world).waiting.toList.map
        fun post => post.2.request order) =
          ((painted env (some window) behind.world).waiting.map Prod.snd).toList.map
            (Post.request order) := by
      cases (painted env (some window) behind.world).waiting with
      | none => rfl
      | some post => rfl
    rw [outcome, requests, posts, issued_posts order _ _ _ _ (by decide)] at sent
    have valid : 0 ≤ (some window).elim (-1) order.handle := order.handle_nonneg window
    refine ⟨(invoke (shippedModules env order) .paint (order.handle window) none behind).2, ?_, ?_,
      ?_⟩
    · rw [cur, if_pos valid, manager, LinkOrder.awake]
      simp
    · rw [sent, world]
      cases (painted env (some window) system.world).waiting with
      | none => rfl
      | some post => rfl
    · rw [worldAfter, world]
      rfl

/-- What waits for the next turn comes from a callback, as no key has been pressed for it. -/
theorem painted_origin (fore : Option Window) (world : World δ) (post : Origin × Post)
    (waiting : (painted env fore world).waiting = some post) : post.1 = .callback := by
  cases fore with
  | none => cases waiting
  | some window =>
    simp only [painted] at waiting
    split at waiting
    · cases waiting
      rfl
    · cases waiting

/-- A turn of the loop is a turn at the desk, as long as the program goes on and the key does not
quit. -/
theorem shippedTurn_desk {loop : Loop (World δ)} {desk : Desk δ} (shows_ : Shows order loop desk)
    (running : desk.world.ended = false) (key : BitVec 32) (goesOn : ¬ (key = 0x71 ∨ key = 0x51)) :
    let next := desk.turn env order key
    (shippedTurn env order key loop).1 = next.1.map (toMove order) ∧
      Shows order (shippedTurn env order key loop).2 next.2 := by
  obtain ⟨pressedManager, pressedWorld, pressedOrigins⟩ := pressKey_desk env order shows_ running key
  have reads : loop.Reads World.ended := ⟨shows_.control, shows_.world ▸ running⟩
  have fresh : desk.fore = none → (none : Option Int) = none := fun _ => rfl
  obtain ⟨handled, watched, handledManager, handledWorld⟩ := watchMessages_desk env order
    (desk.pressed env order key).1 msgSize (desk.pressed_length env order key) desk.fore none fresh
    (pressKey (shippedModules env order) key loop.system) pressedManager
  rw [pressedWorld] at watched handledManager handledWorld
  obtain ⟨after, drawn, manager, world⟩ := handlePaintWindows_desk env order _ handled handledManager
  rw [handledWorld] at manager world
  have result : shippedTurn env order key loop =
      ((deliver env (desk.pressed env order key).1 desk.fore
          (desk.pressed env order key).2).1.map (toMove order),
        ⟨.running, after, arrivals .callback handled.manager after.manager []⟩) := by
    rw [shippedTurn, turn, if_pos reads, if_neg goesOn]
    simp only [pressedOrigins, watched, drawn]
  rw [result]
  refine ⟨rfl, rfl, manager, ?_, world⟩
  rw [handledManager, manager, Desk.turn]
  simp only
  cases waiting : (painted env (deliver env (desk.pressed env order key).1 desk.fore
      (desk.pressed env order key).2).2.1 (deliver env (desk.pressed env order key).1 desk.fore
      (desk.pressed env order key).2).2.2).waiting with
  | none => simp [arrivals, LinkOrder.awake]
  | some post =>
    have sent := painted_origin env _ _ post waiting
    simp [arrivals, LinkOrder.awake, sent]

/-- The program comes to its loop with nobody at the desk and the request of PCI-SCAN waiting,
or not at all. -/
theorem starting_desk (driver : δ) :
    (starting env order driver).control = .stopped ∨
      Shows order (starting env order driver)
        ⟨none, some (.startUp, .needFocus .pciScan), (starting env order driver).system.world⟩ := by
  rcases (starting_cases env order driver).2 with stopped | ⟨running, manager, origins⟩
  · exact Or.inl stopped
  · refine Or.inr ⟨running, ?_, origins, rfl⟩
    rw [manager]
    simp [LinkOrder.awake, scanRequest, Post.message]

end Representation

end Lfdk.ShippedWindows
