import Mathlib.Tactic

/-!
# The window manager of the user program

This is the manager in `lfdk.c`: a pool of registered windows, a message box that
is emptied from its end, and the handle of the foreground window. Modules talk to
the manager by request functions that put a message into the box; the main loop
handles the messages and calls the modules back.

What a module does in a callback is a parameter. A callback sees the world and
the manager, changes the world, and issues requests; it has no other way to
change the manager. Requests have an effect that can be foreseen, so a callback
is taken to name all of them at once.

Window handles are integers, as in the source, where a negative one means none.
Reading the pool outside its used part has no meaning in the source; a function
that would do so here has no result.
-/

namespace Lfdk.WindowManager

universe u
variable {ω : Type u}

/-- `WIN_STATE` -/
inductive WinState where
  | notStart
  | inited
  | started
  | postStarted
  | disabled
  | background
  | foreground
  | destroyed
  | exit
deriving DecidableEq, Repr

/-- The function pointers of `st_window_info`. -/
inductive Callback where
  | init
  | startWin
  | postStartWin
  | lostFocus
  | getFocus
  | paint
  | keyPress
  | destroyWin
  | moduleExit
deriving DecidableEq, Repr

/-- `st_window_info`, with the pointers reduced to whether they are set. -/
structure WindowInfo where
  name : String
  shortKey : BitVec 32
  defines : Callback → Bool

/-- `st_win_info` -/
structure WinInfo where
  pWin : WindowInfo
  winState : WinState

/-- `MESSAGE`; the target handle is the only message data that is ever read. -/
inductive Message where
  | noUsed
  | needFocus
  | releaseFocus
  | xferControl (targetHandle : Int)
  | destroyWindow
deriving DecidableEq, Repr

/-- `msg_info` -/
structure MsgInfo where
  msg : Message
  senderHandle : Int
deriving DecidableEq, Repr

/-- `st_windows_manager_info`. Pool and box are their used parts; the box is
listed from its end, where messages are put and taken. -/
structure Manager where
  windowsPool : List WinInfo
  msgBox : List MsgInfo
  curForeWindowHandle : Int

def windowsPoolSize : Nat := 32

def msgSize : Nat := 32

/-- `ERR_BUF_OVERFLOW` -/
def errBufOverflow : Int := -32

/-- `ERR_INVALID_PARAM` -/
def errInvalidParam : Int := -28

namespace Manager

/-- `windows_pool[handle]` -/
def window (manager : Manager) (handle : Int) : Option WinInfo :=
  if 0 ≤ handle then manager.windowsPool[handle.toNat]? else none

/-- `windows_pool[handle].win_state = state` -/
def setState (manager : Manager) (handle : Int) (state : WinState) : Manager :=
  if 0 ≤ handle then
    { manager with
      windowsPool := manager.windowsPool.modify handle.toNat
        (fun window => { window with winState := state }) }
  else manager

/-- `cur_fore_window_handle = handle` -/
def setFore (manager : Manager) (handle : Int) : Manager :=
  { manager with curForeWindowHandle := handle }

/-- Put a message at the end of the box. -/
def posted (manager : Manager) (message : MsgInfo) : Manager :=
  { manager with msgBox := message :: manager.msgBox }

/-- The checks on the sender that every request function begins with. -/
def validSender (manager : Manager) (pWin : Option WindowInfo) (handle : Int) : Bool :=
  match pWin, manager.window handle with
  | some info, some window => decide (window.pWin.name = info.name)
  | _, _ => false

end Manager

/-- `register_windows` -/
def registerWindows (pWin : WindowInfo) (manager : Manager) : Int × Manager :=
  if windowsPoolSize < manager.windowsPool.length + 1 then (errBufOverflow, manager)
  else
    (manager.windowsPool.length,
      { manager with windowsPool := manager.windowsPool ++ [⟨pWin, .notStart⟩] })

/-- A request that needs nothing but its sender. What it returns on success is
given: some of these functions end without a return statement. -/
def request (success : Option Int) (msg : Message) (pWin : Option WindowInfo) (handle : Int)
    (manager : Manager) : Option Int × Manager :=
  if manager.validSender pWin handle = false then (some errInvalidParam, manager)
  else if msgSize ≤ manager.msgBox.length then (some errBufOverflow, manager)
  else (success, manager.posted ⟨msg, handle⟩)

/-- `request_windows_focus` -/
def requestWindowsFocus : Option WindowInfo → Int → Manager → Option Int × Manager :=
  request (some 0) .needFocus

/-- `release_windows_focus` -/
def releaseWindowsFocus : Option WindowInfo → Int → Manager → Option Int × Manager :=
  request (some 0) .releaseFocus

/-- `request_destroy_windows`, which returns no value on success. -/
def requestDestroyWindows : Option WindowInfo → Int → Manager → Option Int × Manager :=
  request none .destroyWindow

/-- The handle of the first window of a name, or -1. -/
def Manager.findName (manager : Manager) (name : String) : Int :=
  match manager.windowsPool.findIdx? fun window => decide (window.pWin.name = name) with
  | some index => index
  | none => -1

/-- `request_xfer_control`, which returns no value on success. -/
def requestXferControl (pWin : Option WindowInfo) (handle : Int) (funcName : Option String)
    (manager : Manager) : Option Int × Manager :=
  if manager.validSender pWin handle = false then (some errInvalidParam, manager)
  else if msgSize ≤ manager.msgBox.length then (some errBufOverflow, manager)
  else
    match funcName with
    | none => (some errInvalidParam, manager)
    | some name => (none, manager.posted ⟨.xferControl (manager.findName name), handle⟩)

/-- `request_window_state`, with no state for an error. -/
def requestWindowState (pWin : Option WindowInfo) (handle : Int) (manager : Manager) :
    Option WinState :=
  if manager.validSender pWin handle = false then none
  else (manager.window handle).map WinInfo.winState

/-- A call of one of the four request functions. -/
inductive ApiRequest where
  | windowsFocus (pWin : Option WindowInfo) (handle : Int)
  | releaseFocus (pWin : Option WindowInfo) (handle : Int)
  | xferControl (pWin : Option WindowInfo) (handle : Int) (funcName : Option String)
  | destroyWindows (pWin : Option WindowInfo) (handle : Int)

/-- Run a request function. -/
def ApiRequest.issue : ApiRequest → Manager → Option Int × Manager
  | .windowsFocus pWin handle => requestWindowsFocus pWin handle
  | .releaseFocus pWin handle => releaseWindowsFocus pWin handle
  | .xferControl pWin handle funcName => requestXferControl pWin handle funcName
  | .destroyWindows pWin handle => requestDestroyWindows pWin handle

/-- What a callback leaves behind: the world, the requests it issued in order,
and its return value. -/
structure Outcome (ω : Type u) where
  world : ω
  requests : List ApiRequest
  value : Int

/-- The modules behind the windows: what each callback of each window does. A key
press is handed its key. -/
structure Modules (ω : Type u) where
  run : Callback → Int → Option (BitVec 32) → ω → Manager → Outcome ω

/-- The manager, the world the modules act on, and the callbacks made so far. -/
structure System (ω : Type u) where
  manager : Manager
  world : ω
  calls : List (Callback × Int)

/-- Change the manager of a system. -/
def System.mapManager (system : System ω) (change : Manager → Manager) : System ω :=
  { system with manager := change system.manager }

variable (modules : Modules ω)

/-- Call a window's callback if it is set. -/
def invoke (callback : Callback) (handle : Int) (data : Option (BitVec 32)) (system : System ω) :
    Int × System ω :=
  match system.manager.window handle with
  | none => (0, system)
  | some window =>
    if window.pWin.defines callback then
      let outcome := modules.run callback handle data system.world system.manager
      (outcome.value, {
        manager := outcome.requests.foldl (fun manager request => (request.issue manager).2)
          system.manager
        world := outcome.world
        calls := system.calls ++ [(callback, handle)] })
    else (0, system)

/-- The handles of the pool in order. -/
def Manager.handles (manager : Manager) : List Int :=
  (List.range manager.windowsPool.length).map Int.ofNat

/-- The loop of `handle_init_event`, which ends at the first callback that fails. -/
def initWindows : List Int → System ω → Int × System ω
  | [], system => (0, system)
  | handle :: rest, system =>
    let (ret, system) := invoke modules .init handle none system
    if ret ≠ 0 then (ret, system)
    else initWindows rest (system.mapManager fun manager => manager.setState handle .inited)

/-- `handle_init_event` -/
def handleInitEvent (system : System ω) : Int × System ω :=
  initWindows modules system.manager.handles system

/-- Move a window from one state to the next with a callback between them. -/
def promote (source target : WinState) (callback : Callback) (system : System ω) (handle : Int) :
    System ω :=
  match system.manager.window handle with
  | none => system
  | some window =>
    if window.winState = source then
      (invoke modules callback handle none system).2.mapManager
        fun manager => manager.setState handle target
    else system

/-- `handle_start_win_event` -/
def handleStartWinEvent (system : System ω) : System ω :=
  system.manager.handles.foldl (promote modules .inited .started .startWin) system

/-- `handle_post_start_win_event` -/
def handlePostStartWinEvent (system : System ω) : System ω :=
  system.manager.handles.foldl (promote modules .started .background .postStartWin) system

/-- The first window in a given state that passes a test. -/
def Manager.findState (manager : Manager) (state : WinState) (test : WindowInfo → Bool) :
    Option Int :=
  manager.handles.find? fun handle =>
    match manager.window handle with
    | none => false
    | some window => decide (window.winState = state) && test window.pWin

/-- `switch_key_press`: ask for the background window that has this short key. -/
def switchKeyPress (key : BitVec 32) (manager : Manager) : Bool × Manager :=
  match manager.findState .background fun info => decide (info.shortKey = key) with
  | none => (false, manager)
  | some handle =>
    (true, (requestWindowsFocus ((manager.window handle).map WinInfo.pWin) handle manager).2)

/-- `handle_key_event`: the first foreground window gets the key. -/
def handleKeyEvent (key : BitVec 32) (system : System ω) : System ω :=
  match system.manager.findState .foreground fun _ => true with
  | none => system
  | some handle => (invoke modules .keyPress handle (some key) system).2

/-- `lost_focus` and the state change after it. -/
def loseFocus (handle : Int) (system : System ω) : System ω :=
  (invoke modules .lostFocus handle none system).2.mapManager
    fun manager => manager.setState handle .background

/-- The change of the foreground window and `get_focus` after it. -/
def gainFocus (handle : Int) (system : System ω) : System ω :=
  (invoke modules .getFocus handle none
    (system.mapManager fun manager => (manager.setFore handle).setState handle .foreground)).2

/-- Take the focus from the previous window, if there is one, and give it to the
next. -/
def switchFocus (previous : Option Int) (next : Int) (system : System ω) : Option (System ω) :=
  match previous with
  | none => some (gainFocus modules next system)
  | some handle =>
    match system.manager.window handle with
    | none => none
    | some _ => some (gainFocus modules next (loseFocus modules handle system))

/-- The assignment to `p_cur_wnd`: it is not cleared when no window is in the
foreground, so an earlier window may remain. -/
def curWnd (pCurWnd : Option Int) (manager : Manager) : Option Int :=
  if 0 ≤ manager.curForeWindowHandle then some manager.curForeWindowHandle else pCurWnd

/-- The loop body of `handle_message_event` for a message that was taken from the
box, with `p_cur_wnd` as the iterations before left it. -/
def handleMessage (pCurWnd : Option Int) (message : MsgInfo) (system : System ω) :
    Option (Option Int × System ω) :=
  let sender := message.senderHandle
  let cur := system.manager.curForeWindowHandle
  match system.manager.window sender with
  | none => none
  | some window =>
    match message.msg with
    | .noUsed => some (pCurWnd, system)
    | .needFocus =>
      if sender = cur then some (pCurWnd, system)
      else
        let pCurWnd := curWnd pCurWnd system.manager
        (switchFocus modules pCurWnd sender system).map fun system => (pCurWnd, system)
    | .releaseFocus =>
      if window.winState = .foreground then
        some (pCurWnd, (loseFocus modules sender system).mapManager
          fun manager => manager.setFore (-1))
      else some (pCurWnd, system)
    | .xferControl target =>
      if sender = target then some (pCurWnd, system)
      else
        let pCurWnd := curWnd pCurWnd system.manager
        if pCurWnd ≠ none ∧ sender ≠ cur then
          -- the warning prints the name of `p_cur_wnd`
          (pCurWnd.bind system.manager.window).map fun _ => (pCurWnd, system)
        else
          match system.manager.window target with
          | none => none
          | some _ =>
            (switchFocus modules pCurWnd target system).map fun system => (pCurWnd, system)
    | .destroyWindow =>
      let system := if sender = cur then system.mapManager fun manager => manager.setFore (-1)
        else system
      some (pCurWnd, (invoke modules .destroyWin sender none system).2.mapManager
        fun manager => manager.setState sender .destroyed)

/-- The loop of `handle_message_event` for at most `fuel` messages. It has no
result while messages are left. -/
def handleMessages : Nat → Option Int → System ω → Option (System ω)
  | fuel, pCurWnd, system =>
    match system.manager.msgBox, fuel with
    | [], _ => some system
    | _ :: _, 0 => none
    | message :: rest, fuel + 1 =>
      (handleMessage modules pCurWnd message
        (system.mapManager fun manager => { manager with msgBox := rest })).bind
          fun (pCurWnd, system) => handleMessages fuel pCurWnd system

/-- `handle_message_event`, which begins without a current window. -/
def handleMessageEvent (fuel : Nat) (system : System ω) : Option (System ω) :=
  handleMessages modules fuel none system

/-- Paint a window if it is in the background. -/
def paintBackground (system : System ω) (handle : Int) : System ω :=
  match system.manager.window handle with
  | none => system
  | some window =>
    if window.winState = .background then (invoke modules .paint handle none system).2
    else system

/-- `handle_paint_windows`: the background windows, then the foreground one. -/
def handlePaintWindows (system : System ω) : Option (System ω) :=
  let background := system.manager.handles.foldl (paintBackground modules) system
  let cur := background.manager.curForeWindowHandle
  if 0 ≤ cur then
    (background.manager.window cur).map fun _ => (invoke modules .paint cur none background).2
  else some background

/-- Take a window through a last callback into a last state, unless it is past it. -/
def retire (past : WinState → Bool) (callback : Callback) (target : WinState) (system : System ω)
    (handle : Int) : System ω :=
  match system.manager.window handle with
  | none => system
  | some window =>
    if past window.winState then system
    else (invoke modules callback handle none system).2.mapManager
      fun manager => manager.setState handle target

/-- `handle_destroy_windows` -/
def handleDestroyWindows (system : System ω) : System ω :=
  system.manager.handles.foldl
    (retire modules (fun state => state = .destroyed || state = .exit) .destroyWin .destroyed) system

/-- `handle_module_exit` -/
def handleModuleExit (system : System ω) : System ω :=
  system.manager.handles.foldl (retire modules (fun state => state = .exit) .moduleExit .exit) system

end Lfdk.WindowManager
