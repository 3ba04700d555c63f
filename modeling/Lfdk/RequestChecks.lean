import Lfdk.ForegroundInvariant
import Lfdk.MessageBatching

/-!
# What a request promises

The four request functions begin with the same checks and then put one message into
the box. Two of them return 0 after that. The other two end without a return
statement, so what an accepted request returns is not determined. A transfer moreover
looks its target up after the checks, and posts -1 for a name that is not registered.

The handler reads the pool at the sender and at the target without a check. Senders are
always registered. A run stays inside the pool as long as the targets of the transfers that
the handler carries out are.
-/

namespace Lfdk.WindowManager

open Runs

universe u
variable {ω : Type u} (modules : Modules ω)

/-- What a request says about its sender. -/
def ApiRequest.sender : ApiRequest → Option WindowInfo × Int
  | .windowsFocus pWin handle | .releaseFocus pWin handle | .destroyWindows pWin handle =>
    (pWin, handle)
  | .xferControl pWin handle _ => (pWin, handle)

/-- A transfer without a name. -/
def ApiRequest.unnamed : ApiRequest → Bool
  | .xferControl _ _ none => true
  | _ => false

/-- The functions that end with `return 0`. -/
def ApiRequest.returnsZero : ApiRequest → Bool
  | .windowsFocus _ _ | .releaseFocus _ _ => true
  | .xferControl _ _ _ | .destroyWindows _ _ => false

/-- What the checks refuse: an invalid sender, a full box, or a transfer without a name. -/
def ApiRequest.Refused (request : ApiRequest) (manager : Manager) : Prop :=
  manager.validSender request.sender.1 request.sender.2 = false ∨
    msgSize ≤ manager.msgBox.length ∨ request.unnamed = true

/-- The message of a request that is accepted. -/
def ApiRequest.message (request : ApiRequest) (manager : Manager) : MsgInfo :=
  match request with
  | .windowsFocus _ handle => ⟨.needFocus, handle⟩
  | .releaseFocus _ handle => ⟨.releaseFocus, handle⟩
  | .xferControl _ handle funcName => ⟨.xferControl (funcName.elim (-1) manager.findName), handle⟩
  | .destroyWindows _ handle => ⟨.destroyWindow, handle⟩

/-- The error code of the first check that fails. -/
def ApiRequest.failedCheck (request : ApiRequest) (manager : Manager) : Option Int :=
  if manager.validSender request.sender.1 request.sender.2 = false then some errInvalidParam
  else if msgSize ≤ manager.msgBox.length then some errBufOverflow
  else if request.unnamed then some errInvalidParam
  else none

/-- A request returns 0 and appends a message about registered windows, or it returns an
error code and changes nothing. -/
def AllOrNothing (request : ApiRequest) (manager : Manager) : Prop :=
  ((request.issue manager).1 = some 0 ∧ ∃ message : MsgInfo,
      (request.issue manager).2 = manager.posted message ∧ message.Registered manager.infos) ∨
    ∃ code < 0, request.issue manager = (some code, manager)

section Requests

variable (request : ApiRequest) (manager : Manager)

/-- A failed check is the whole effect of a request. Otherwise the message is posted, and
only two of the functions then return a value. -/
theorem issue_checked : request.issue manager =
    match request.failedCheck manager with
    | some code => (some code, manager)
    | none =>
      (if request.returnsZero then some 0 else none, manager.posted (request.message manager)) := by
  by_cases valid : manager.validSender request.sender.1 request.sender.2 = false
  · have failed : request.failedCheck manager = some errInvalidParam := if_pos valid
    rw [failed]
    cases request <;> exact if_pos valid
  · by_cases full : msgSize ≤ manager.msgBox.length
    · have failed : request.failedCheck manager = some errBufOverflow := by
        rw [ApiRequest.failedCheck, if_neg valid, if_pos full]
      rw [failed]
      cases request <;> exact (if_neg valid).trans (if_pos full)
    · have last : request.failedCheck manager =
          if request.unnamed then some errInvalidParam else none := by
        rw [ApiRequest.failedCheck, if_neg valid, if_neg full]
      rw [last]
      cases request with
      | windowsFocus | releaseFocus | destroyWindows =>
        exact (if_neg valid).trans (if_neg full)
      | xferControl pWin handle funcName =>
        cases funcName <;> exact (if_neg valid).trans (if_neg full)

/-- Some check fails exactly if the request is to be refused: the sender is not valid, the box is
full, or a transfer names no window. -/
theorem failedCheck_iff : request.failedCheck manager ≠ none ↔ request.Refused manager := by
  unfold ApiRequest.failedCheck ApiRequest.Refused
  split
  · next invalid => simp [invalid]
  · next valid =>
    split
    · next full => simp [full]
    · next room => simp [valid, room]

/-- Every error code is negative, so no failed request looks like a success to its caller. -/
theorem failedCheck_negative (code : Int) (failed : request.failedCheck manager = some code) :
    code < 0 := by
  unfold ApiRequest.failedCheck at failed
  have codes : errInvalidParam < 0 ∧ errBufOverflow < 0 := by decide
  split at failed
  · exact Option.some.inj failed ▸ codes.1
  · split at failed
    · exact Option.some.inj failed ▸ codes.2
    · split at failed
      · exact Option.some.inj failed ▸ codes.1
      · cases failed

/-- The message of an accepted request comes from a registered window, and there is room
for it. -/
theorem accepted_message (accepted : request.failedCheck manager = none) :
    IsHandle manager.infos (request.message manager).senderHandle ∧
      manager.msgBox.length < msgSize := by
  unfold ApiRequest.failedCheck at accepted
  split at accepted
  · cases accepted
  · next valid =>
    split at accepted
    · cases accepted
    · next room =>
      have sender := validSender_handle manager _ _ (by simpa using valid)
      refine ⟨?_, by omega⟩
      cases request <;> exact sender

/-- A request for the focus or its release names no target, so all windows of its message are
registered. -/
theorem returnsZero_registered (returns : request.returnsZero = true)
    (accepted : request.failedCheck manager = none) :
    (request.message manager).Registered manager.infos := by
  refine ⟨(accepted_message request manager accepted).1, fun target transfer => ?_⟩
  cases request with
  | windowsFocus | releaseFocus => cases transfer
  | xferControl | destroyWindows => cases returns

/-- A request keeps its promise exactly when a check refuses it, or when its function
returns 0. -/
theorem allOrNothing_iff : AllOrNothing request manager ↔
    request.Refused manager ∨ request.returnsZero = true := by
  rw [← failedCheck_iff]
  unfold AllOrNothing
  rw [issue_checked]
  cases checked : request.failedCheck manager with
  | some code =>
    have negative := failedCheck_negative request manager code checked
    exact iff_of_true (.inr ⟨code, negative, rfl⟩) (.inl (by simp))
  | none =>
    simp only [ne_eq, not_true_eq_false, false_or, Prod.mk.injEq]
    cases returns : request.returnsZero with
    | false => simp
    | true =>
      refine iff_of_true (.inl ⟨rfl, _, rfl, ?_⟩) rfl
      exact returnsZero_registered request manager returns checked

end Requests

/-- The messages come from registered windows, there are not too many of them, and the
two sides of the foreground agree. -/
structure Orderable (infos : List WindowInfo) (manager : Manager) : Prop where
  addressed : Addressed infos manager
  exclusive : Exclusive manager
  bounded : manager.msgBox.length ≤ msgSize

/-- If the next message, about to be handled, is a transfer that the handler does not turn
down, its target is a handle of the pool. -/
def DeliverableMove (infos : List WindowInfo) : Move → State ω → Prop
  | .next, ⟨.handling pCurWnd, system⟩ =>
    ∀ message ∈ system.manager.msgBox.head?, ∀ target, message.msg = .xferControl target →
      message.senderHandle ≠ target →
      (curWnd pCurWnd system.manager = none ∨
        message.senderHandle = system.manager.curForeWindowHandle) → IsHandle infos target
  | _, _ => True

section Steps

variable {infos : List WindowInfo}

/-- No request makes the box longer than it may be, as a full box refuses it. -/
theorem issue_bounded (request : ApiRequest) (manager : Manager)
    (bounded : manager.msgBox.length ≤ msgSize) :
    (request.issue manager).2.msgBox.length ≤ msgSize := by
  rw [issue_checked]
  cases checked : request.failedCheck manager with
  | some code => exact bounded
  | none => exact (accepted_message request manager checked).2

/-- A callback leaves the box within its size, however many requests the window makes in it. -/
theorem invoke_bounded (callback : Callback) (handle : Int) (data : Option (BitVec 32))
    (system : System ω) (bounded : system.manager.msgBox.length ≤ msgSize) :
    (invoke modules callback handle data system).2.manager.msgBox.length ≤ msgSize :=
  invoke_preserves modules (fun manager => manager.msgBox.length ≤ msgSize) callback handle data
    system bounded fun request _ manager held => issue_bounded request manager held

/-- A request keeps what the order of messages rests on: senders of the pool, one window in the
foreground at most, and a box within its size. -/
theorem Orderable.issue {manager : Manager} (orderable : Orderable infos manager)
    (request : ApiRequest) : Orderable infos (request.issue manager).2 :=
  ⟨orderable.addressed.issue request, (issue_extends request manager).exclusive orderable.exclusive,
    issue_bounded request manager orderable.bounded⟩

/-- So does a callback, with all of its requests, one after the other. -/
theorem Orderable.invoke {system : System ω} (orderable : Orderable infos system.manager)
    (callback : Callback) (handle : Int) (data : Option (BitVec 32)) :
    Orderable infos (WindowManager.invoke modules callback handle data system).2.manager :=
  ⟨orderable.addressed.invoke modules _ _ _,
    (invoke_extends modules callback handle data system).exclusive orderable.exclusive,
    invoke_bounded modules callback handle data system orderable.bounded⟩

/-- As long as no message is handled, the manager stays orderable, and the foreground stays
empty until the main loop. -/
theorem orderable_undisturbed : Undisturbed modules
    (fun system => Orderable infos system.manager ∧ system.manager.curForeWindowHandle = -1)
    (fun system => Orderable infos system.manager) where
  started callback handle system _ := by
    rintro ⟨orderable, empty⟩
    have extended := invoke_extends modules callback handle none system
    exact ⟨orderable.invoke modules _ _ _, extended.fore.trans empty⟩
  entered handle state system target := by
    rintro ⟨orderable, empty⟩
    have emptyAfter : (system.manager.setState handle state).curForeWindowHandle = -1 := by
      rw [setState_fore, empty]
    have other : state ≠ .foreground := by rcases target with rfl | rfl | rfl <;> decide
    have unfocused := orderable.exclusive.setState_unfocused handle state other (Or.inr empty)
    refine ⟨⟨orderable.addressed.setState handle state, unfocused.exclusive emptyAfter, ?_⟩,
      emptyAfter⟩
    rw [System.mapManager, setState_box]
    exact orderable.bounded
  begun system held := held.1
  asked pWin handle system orderable := orderable.issue (.windowsFocus pWin handle)
  called callback handle data system _ orderable := orderable.invoke modules callback handle data

/-- Only a transfer can give the focus to a window that did not ask for it. -/
theorem focusGiven_inside_iff (pCurWnd : Option Int) (message : MsgInfo) (manager : Manager)
    (sender : IsHandle infos message.senderHandle) :
    (∀ next ∈ focusGiven pCurWnd message manager, IsHandle infos next) ↔
      ∀ target, message.msg = .xferControl target → message.senderHandle ≠ target →
        (curWnd pCurWnd manager = none ∨
          message.senderHandle = manager.curForeWindowHandle) → IsHandle infos target := by
  unfold focusGiven
  cases message.msg with
  | xferControl target =>
    simp only [Message.xferControl.injEq, forall_eq', Option.mem_def,
      Option.ite_none_left_eq_some, Option.some.injEq, not_or, not_and, not_not, and_imp, ne_eq]
    rw [or_iff_not_imp_left]
    constructor
    · exact fun inside apart accepted => inside target apart accepted rfl
    · rintro inside next apart accepted rfl
      exact inside apart accepted
  | needFocus =>
    simp only [reduceCtorEq, false_implies, implies_true, iff_true]
    intro next given
    split at given
    · cases given
    · exact Option.some.inj given ▸ sender
  | noUsed | releaseFocus | destroyWindow => simp

/-- Handling the next message stays inside the pool exactly when the message is
deliverable, and the manager is orderable then. -/
theorem message_inside_iff (pCurWnd : Option Int) (system : System ω) (message : MsgInfo)
    (rest : List MsgInfo) (box : system.manager.msgBox = message :: rest)
    (orderable : Orderable infos system.manager)
    (valid : ∀ handle ∈ pCurWnd, IsHandle infos handle) :
    let after := (step modules .next ⟨.handling pCurWnd, system⟩).2
    (after.control ≠ .undefined ↔
        DeliverableMove infos .next (⟨.handling pCurWnd, system⟩ : State ω)) ∧
      (after.control ≠ .undefined →
        Placed infos (fun system => Orderable infos system.manager ∧
            system.manager.curForeWindowHandle = -1)
          (fun system => Orderable infos system.manager) after) := by
  obtain ⟨⟨pool, senders⟩, exclusive, bounded⟩ := orderable
  rw [box] at senders bounded
  obtain ⟨sender, others⟩ := List.forall_mem_cons.mp senders
  let taken := system.mapManager fun manager => { manager with msgBox := rest }
  have poolTaken : taken.manager.infos = infos := pool
  have extended : Extends system.manager taken.manager := ⟨rfl, rfl⟩
  have exclusiveTaken : Exclusive taken.manager := extended.exclusive exclusive
  have validTaken : ∀ handle ∈ pCurWnd, IsHandle taken.manager.infos handle := by
    rwa [poolTaken]
  have given : focusGiven pCurWnd message taken.manager =
      focusGiven pCurWnd message system.manager := rfl
  have total := handleMessage_total modules pCurWnd message taken exclusiveTaken.named validTaken
    (by rwa [poolTaken])
  have deliverable : DeliverableMove infos .next (⟨.handling pCurWnd, system⟩ : State ω) ↔
      ∀ next ∈ focusGiven pCurWnd message system.manager, IsHandle infos next := by
    rw [focusGiven_inside_iff pCurWnd message system.manager sender]
    simp only [DeliverableMove, box, List.head?_cons, Option.mem_some_iff, forall_eq']
  rw [poolTaken, given] at total
  rw [deliverable, ← total]
  cases outcome : handleMessage modules pCurWnd message taken with
  | none => simp [step, box, taken, outcome]
  | some result =>
    obtain ⟨previous, later⟩ := result
    have handled := handleMessage_cases modules pCurWnd previous message taken later outcome
    obtain ⟨_, exclusiveAfter, validAfter⟩ := handled.keeps modules exclusiveTaken validTaken
    have addressedAfter := handled.addressed modules ⟨poolTaken, others⟩
    have boundedAfter := handled.preserves modules
      (fun manager => manager.msgBox.length ≤ msgSize)
      (by simp only [List.length_cons] at bounded; exact Nat.le_of_succ_le bounded)
      (fun callback handle current held => invoke_bounded modules callback handle none current held)
      (fun handle state manager held => by rwa [setState_box])
      (fun _ _ held => held)
    have ran : (step modules .next ⟨.handling pCurWnd, system⟩).2 = ⟨.handling previous, later⟩ := by
      simp [step, box, taken, outcome]
    rw [ran]
    rw [poolTaken] at validAfter
    exact ⟨by simp, fun _ => ⟨⟨addressedAfter, exclusiveAfter, boundedAfter⟩, validAfter⟩⟩

/-- What is known at each place of a program that has stayed inside the pool so far. -/
def Ordered (infos : List WindowInfo) : State ω → Prop :=
  Placed infos
    (fun system => Orderable infos system.manager ∧ system.manager.curForeWindowHandle = -1)
    (fun system => Orderable infos system.manager)

/-- Such a state is no undefined one, and its box is within its size, which is all that the claims
ask of it. -/
theorem Ordered.inside {state : State ω} (ordered : Ordered infos state) :
    state.control ≠ .undefined ∧ state.system.manager.msgBox.length ≤ msgSize := by
  unfold Ordered Placed at ordered
  cases control : state.control <;> rw [control] at ordered
  case registered | inited | started => exact ⟨by simp, ordered.1.bounded⟩
  case running | stopped => exact ⟨by simp, ordered.bounded⟩
  case handling => exact ⟨by simp, ordered.1.bounded⟩
  case undefined => exact ordered.elim

/-- A step stays inside the pool exactly when it handles no message that leaves it. -/
theorem step_inside_iff (move : Move) (state : State ω) (held : Ordered infos state) :
    ((step modules move state).2.control ≠ .undefined ↔ DeliverableMove infos move state) ∧
      (DeliverableMove infos move state → Ordered infos (step modules move state).2) := by
  rcases move_cases move state with ⟨pCurWnd, system, message, rest, rfl, rfl, box⟩ | quiet
  · obtain ⟨orderable, valid⟩ := held
    obtain ⟨inside, keeps⟩ :=
      message_inside_iff modules pCurWnd system message rest box orderable valid
    exact ⟨inside, fun given => keeps (inside.mpr given)⟩
  · have deliverable : DeliverableMove infos move state := by
      unfold DeliverableMove
      split
      · next pCurWnd system =>
        have empty : system.manager.msgBox = [] := quiet pCurWnd rfl rfl
        simp [empty]
      · trivial
    have ordered : Ordered infos (step modules move state).2 := by
      apply (orderable_undisturbed modules).step modules move state _ _ quiet held
      · exact fun system orderable => orderable.addressed.pool ▸ orderable.exclusive.named
      · intro request _ system
        refine ⟨fun early => ⟨early.1.issue request, ?_⟩, fun main => main.issue request⟩
        exact (issue_extends request system.manager).fore.trans early.2
    exact ⟨iff_of_true ordered.inside.1 deliverable, fun _ => ordered⟩

/-- The program begins in order: its box is empty, and the foreground is too. -/
theorem start_ordered (infos : List WindowInfo) (world : ω) :
    Ordered (Manager.registered infos).infos (State.start infos world) := by
  obtain ⟨sound, exclusive, empty⟩ := registered_starting infos
  have box : (Manager.registered infos).msgBox = [] := (registered_fields infos).1
  refine ⟨⟨⟨rfl, ?_⟩, exclusive, ?_⟩, empty⟩
  · simp [State.start, box]
  · simp [State.start, box]

end Steps

/-- For every manager, a request is all or nothing exactly when one of its checks fails or
its function returns 0. For every run of the program, the handler stays inside the pool and
the box inside its bound exactly when every transfer that is carried out has a target in the
pool. -/
theorem requests_well_formed_iff (infos : List WindowInfo) (world : ω) (moves : List Move) :
    (∀ request manager, AllOrNothing request manager ↔
      request.Refused manager ∨ request.returnsZero = true) ∧
    ((∀ stage ∈ stages (step modules) moves (State.start infos world),
        stage.after.control ≠ .undefined ∧
          stage.after.system.manager.msgBox.length ≤ msgSize) ↔
      ∀ stage ∈ stages (step modules) moves (State.start infos world),
        DeliverableMove (Manager.registered infos).infos stage.input stage.before) := by
  refine ⟨allOrNothing_iff, ?_⟩
  apply stages_iff (step modules) (Ordered (Manager.registered infos).infos)
    (DeliverableMove (Manager.registered infos).infos)
    (fun stage => stage.after.control ≠ .undefined ∧
      stage.after.system.manager.msgBox.length ≤ msgSize)
  · exact start_ordered infos world
  · intro move _ state held
    obtain ⟨inside, keeps⟩ := step_inside_iff modules move state held
    exact ⟨fun fine => inside.mp fine.1, fun deliverable => (keeps deliverable).inside⟩
  · exact fun move _ state held => (step_inside_iff modules move state held).2

/-- One window that hands over to a name that nobody has registered. -/
def transferToNobody : List Move :=
  List.replicate 3 .next ++
    [.request (.xferControl (some (.complete "PCI-LIST")) 0 (some "PCI-DEV"))] ++
    List.replicate 2 .next

/-- The transfer is accepted, although it returns no value and its target is not a handle,
and handling its message reads outside the pool. -/
theorem transfer_to_nobody :
    let manager := Manager.registered [.complete "PCI-LIST"]
    let request := ApiRequest.xferControl (some (.complete "PCI-LIST")) 0 (some "PCI-DEV")
    (request.issue manager).1 = none ∧
      (request.issue manager).2.msgBox = [⟨.xferControl (-1), 0⟩] ∧
      ¬ AllOrNothing request manager ∧
      (final (step idleModules) transferToNobody
        (State.start [.complete "PCI-LIST"] ())).control = .undefined := by
  intro manager request
  have broken : ¬ AllOrNothing request manager := by
    rintro (⟨value, _⟩ | ⟨code, _, same⟩)
    · exact absurd value (by decide +kernel)
    · have value : (request.issue manager).1 = some code := congrArg Prod.fst same
      have none : (request.issue manager).1 = none := by decide +kernel
      rw [none] at value
      cases value
  exact ⟨by decide +kernel, by decide +kernel, broken, by decide +kernel⟩

end Lfdk.WindowManager
