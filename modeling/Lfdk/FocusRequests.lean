import Lfdk.ForegroundInvariant
import Lfdk.MessageBatching

/-!
# Several requests for the focus

Messages are taken from the end of the box where they are put, so of several windows
that ask for the focus before the next call of `handle_message_event`, the one that
asked last gets it first, and the one that asked first keeps it.

Each request that is handled makes its sender the foreground window, unless it is
already. The window whose request is handled last is therefore in the foreground
when the box is empty, and that is the first one.
-/

namespace Lfdk.WindowManager

open Runs

universe u
variable {ω : Type u} (modules : Modules ω)

/-- A registered window asks for the focus under its own name. -/
def askFocus (handle : Int) (manager : Manager) : Option Int × Manager :=
  requestWindowsFocus ((manager.window handle).map WinInfo.pWin) handle manager

/-- A request of a registered window is accepted as long as there is room. -/
theorem askFocus_posted (handle : Int) (manager : Manager)
    (registered : IsHandle manager.infos handle) (room : manager.msgBox.length < msgSize) :
    askFocus handle manager = (some 0, manager.posted ⟨.needFocus, handle⟩) := by
  obtain ⟨window, found⟩ := (isHandle_iff _ _).mp registered
  simp [askFocus, requestWindowsFocus, request, Manager.validSender, found, Nat.not_le.mpr room]

/-- All requests are accepted, and the box then lists them with the last one first. -/
theorem askFocus_all (handles : List Int) (manager : Manager)
    (registered : ∀ handle ∈ handles, IsHandle manager.infos handle)
    (room : manager.msgBox.length + handles.length ≤ msgSize) :
    outputs askFocus handles manager = List.replicate handles.length (some 0) ∧
      final askFocus handles manager = { manager with
        msgBox := (handles.map (MsgInfo.mk .needFocus)).reverse ++ manager.msgBox } := by
  induction handles generalizing manager with
  | nil => exact ⟨rfl, rfl⟩
  | cons handle rest inductionHypothesis =>
    obtain ⟨first, others⟩ := List.forall_mem_cons.mp registered
    rw [List.length_cons] at room
    have posted := askFocus_posted handle manager first (by omega)
    have room' : (manager.posted ⟨.needFocus, handle⟩).msgBox.length + rest.length ≤ msgSize := by
      rw [Manager.posted, List.length_cons]
      omega
    obtain ⟨accepted, box⟩ := inductionHypothesis (manager.posted ⟨.needFocus, handle⟩) others room'
    constructor
    · rw [List.length_cons, List.replicate_succ, ← accepted]
      simp [outputs, posted]
    · rw [final, List.foldl_cons, posted, ← final, box]
      simp [Manager.posted]

/-- A request for the focus that is handled leaves its sender in the foreground. -/
theorem Handled.needFocus_fore {pCurWnd previous : Option Int} {message : MsgInfo}
    {system after : System ω} (handled : Handled modules pCurWnd message system previous after)
    (kind : message.msg = .needFocus) :
    after.manager.curForeWindowHandle = message.senderHandle := by
  cases handled with
  | ignored _ _ given _ =>
    simp only [focusGiven, kind, ite_eq_left_iff, reduceCtorEq, imp_false, not_not] at given
    exact given.symm
  | switched next given _ =>
    simp only [focusGiven, kind, Option.ite_none_left_eq_some, Option.some.injEq] at given
    rw [gainFocus_fore, given.2]
  | released _ _ _ other =>
    rw [kind] at other
    cases other
  | destroyed other _ =>
    rw [kind] at other
    cases other

variable {modules}

/-- The requests in a box are handled one after another, and the sender of the last one
is in the foreground at the end. -/
theorem handleMessages_requests (silent : modules.Silent) (handles : List Int)
    (pCurWnd : Option Int) (system : System ω) (fuel : Nat) (enough : handles.length ≤ fuel)
    (box : system.manager.msgBox = handles.map (MsgInfo.mk .needFocus))
    (focused : 0 ≤ system.manager.curForeWindowHandle →
      IsHandle system.manager.infos system.manager.curForeWindowHandle)
    (valid : ∀ handle ∈ pCurWnd, IsHandle system.manager.infos handle)
    (registered : ∀ handle ∈ handles, IsHandle system.manager.infos handle) :
    ∃ after, handleMessages modules fuel pCurWnd system = some after ∧
      after.manager.msgBox = [] ∧
      after.manager.curForeWindowHandle =
        handles.getLast?.getD system.manager.curForeWindowHandle := by
  induction handles generalizing pCurWnd system fuel with
  | nil =>
    refine ⟨system, ?_, box, rfl⟩
    unfold handleMessages
    rw [box]
    cases fuel <;> rfl
  | cons handle rest inductionHypothesis =>
    obtain ⟨first, others⟩ := List.forall_mem_cons.mp registered
    obtain ⟨fuel, rfl⟩ : ∃ smaller, fuel = smaller + 1 := ⟨fuel - 1, by simp at enough; omega⟩
    let message : MsgInfo := ⟨.needFocus, handle⟩
    let taken := system.withBox (rest.map (MsgInfo.mk .needFocus))
    have given : ∀ next ∈ focusGiven pCurWnd message taken.manager,
        IsHandle taken.manager.infos next := by
      intro next given
      simp only [focusGiven, message, Option.mem_def, Option.ite_none_left_eq_some,
        Option.some.injEq] at given
      rw [← given.2]
      exact first
    obtain ⟨⟨previous, later⟩, handled⟩ := Option.isSome_iff_exists.mp
      ((handleMessage_total modules pCurWnd message taken focused valid first).mpr given)
    obtain ⟨boxLater, pool, remembered⟩ :=
      handleMessage_keeps taken silent pCurWnd previous message later handled
    have fore : later.manager.curForeWindowHandle = handle :=
      (handleMessage_cases modules _ _ _ _ _ handled).needFocus_fore modules rfl
    obtain ⟨after, ran, emptied, last⟩ := inductionHypothesis previous later fuel
      (by simpa using enough) boxLater (by rw [fore, pool]; exact fun _ => first)
      (fun other member => by
        rw [pool]
        exact (remembered other member).elim (valid other) id)
      (fun other member => by
        rw [pool]
        exact others other member)
    refine ⟨after, ?_, emptied, ?_⟩
    · unfold handleMessages
      rw [box, List.map_cons]
      simp only
      rw [show handleMessage modules pCurWnd ⟨.needFocus, handle⟩ (system.mapManager fun manager =>
        { manager with msgBox := rest.map (MsgInfo.mk .needFocus) }) = some (previous, later) from
          handled]
      exact ran
    · rw [last, fore, List.getLast?_cons]
      simp

/-- When several registered windows ask for the focus before the next call of
`handle_message_event`, all requests are accepted, the call returns, and the window
that asked first is then in the foreground. -/
theorem first_request_wins (silent : modules.Silent) (system : System ω)
    (empty : system.manager.msgBox = [])
    (focused : 0 ≤ system.manager.curForeWindowHandle →
      IsHandle system.manager.infos system.manager.curForeWindowHandle)
    (first : Int) (others : List Int) (few : (first :: others).length ≤ msgSize)
    (registered : ∀ handle ∈ first :: others, IsHandle system.manager.infos handle) :
    outputs askFocus (first :: others) system.manager =
        List.replicate (first :: others).length (some 0) ∧
      ∀ fuel ≥ (first :: others).length, ∃ after,
        handleMessageEvent modules fuel
          { system with manager := final askFocus (first :: others) system.manager } = some after ∧
        after.manager.curForeWindowHandle = first := by
  obtain ⟨accepted, box⟩ := askFocus_all (first :: others) system.manager registered
    (by rw [empty]; simpa using few)
  refine ⟨accepted, fun fuel enough => ?_⟩
  rw [box, empty, List.append_nil, ← List.map_reverse]
  obtain ⟨after, ran, _, last⟩ := handleMessages_requests silent (first :: others).reverse none
    { system with manager := { system.manager with
        msgBox := ((first :: others).reverse).map (MsgInfo.mk .needFocus) } } fuel
    (by simpa using enough) rfl focused (by simp) (by
      intro handle member
      exact registered handle (List.mem_reverse.mp member))
  refine ⟨after, ran, ?_⟩
  rw [last, List.getLast?_reverse]
  rfl

/-- Of three windows, the second one asks for the focus twice and the third one between,
and the second one keeps it. -/
theorem first_of_three_wins :
    outputs askFocus [1, 2, 1] threeWindows.manager = [some 0, some 0, some 0] ∧
      ∀ fuel ≥ 3, ∃ after,
        handleMessageEvent idleModules fuel
          { threeWindows with manager := final askFocus [1, 2, 1] threeWindows.manager } =
            some after ∧
        after.manager.curForeWindowHandle = 1 :=
  first_request_wins idle_silent threeWindows rfl (by decide +kernel) 1 [2, 1] (by decide)
    (by decide +kernel)

/-- Two windows ask for the focus, and the one that asked last does not have it. -/
theorem last_request_loses :
    (handleMessageEvent idleModules 2
      { threeWindows with manager := final askFocus [1, 2] threeWindows.manager }).map
        (fun after => after.manager.curForeWindowHandle) ≠ some 2 := by
  decide +kernel

end Lfdk.WindowManager
