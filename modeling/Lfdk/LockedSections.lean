import Mathlib.Tactic

/-!
# Sections under one lock

Threads share a state and one lock. Each of them runs a code: a tree whose branches follow
what the thread has seen of the shared state. A code that keeps to the lock touches the
shared state between taking and releasing it only; a schedule names the threads in the order
in which they take their steps.

At any moment at most one section is under way. Completing it in one go gives a state that no
thread would notice the difference of, and from one such state to the next every step of the
threads is either invisible or a whole section. So each interleaving of the steps is a run of
whole sections, in the order in which the lock was taken.

On top of this stand clients of a service, who make requests, one after another, as the
answers so far suggest. When each request is one section, or is answered without one, then
any interleaving of the clients is a run in which whole requests are served one at a time.
-/

namespace Lfdk.LockedSections

universe u v w x
variable {ι : Type u} {σ : Type v} {ρ : Type w}

/-- What a thread still has to do. A step on the shared state changes it and looks at what it
was. -/
inductive Code (σ : Type v) (ρ : Type w) where
  | done (value : ρ)
  /-- a step on what is the thread's own -/
  | pause (next : Code σ ρ)
  | act (change : σ → σ) (next : σ → Code σ ρ)
  | lock (next : Code σ ρ)
  | unlock (next : Code σ ρ)

namespace Code

/-- One step on the shared state that gives an answer. -/
def perform {β : Type x} (action : σ → β × σ) (next : β → Code σ ρ) : Code σ ρ :=
  .act (fun state => (action state).2) (fun state => next (action state).1)

/-- One step on the shared state that nothing depends on. -/
def effect (change : σ → σ) (next : Code σ ρ) : Code σ ρ := .act change fun _ => next

/-- The code of a thread that runs alone. -/
def alone : Code σ ρ → σ → ρ × σ
  | .done value, state => (value, state)
  | .pause next, state => next.alone state
  | .act change next, state => (next state).alone (change state)
  | .lock next, state => next.alone state
  | .unlock next, state => next.alone state

/-- A code, and then what its value asks for. -/
def andThen {α : Type x} : Code σ α → (α → Code σ ρ) → Code σ ρ
  | .done value, next => next value
  | .pause rest, next => .pause (rest.andThen next)
  | .act change rest, next => .act change fun state => (rest state).andThen next
  | .lock rest, next => .lock (rest.andThen next)
  | .unlock rest, next => .unlock (rest.andThen next)

/-- The shared state is touched under the lock only, and nothing else is done there. -/
def Guarded : Code σ ρ → Bool → Prop
  | .done _, held => held = false
  | .pause next, held => held = false ∧ next.Guarded false
  | .act _ next, held => held = true ∧ ∀ state, (next state).Guarded true
  | .lock next, held => held = false ∧ next.Guarded true
  | .unlock next, held => held = true ∧ next.Guarded false

/-- Every section has at most `most` steps, its release among them. The second number says how
many are left of the section that is under way. -/
def Paced (most : Nat) : Code σ ρ → Nat → Prop
  | .done _, _ => True
  | .pause next, _ => next.Paced most 0
  | .act _ next, left => ∃ less < left, ∀ state, (next state).Paced most less
  | .lock next, _ => next.Paced most most
  | .unlock next, left => 0 < left ∧ next.Paced most 0

/-- The rest of a section in one go. -/
def finish : Code σ ρ → σ → Code σ ρ × σ
  | .act change next, state => (next state).finish (change state)
  | .unlock next, state => (next, state)
  | code, state => (code, state)

/-- A thread that runs alone goes on from its action with the answer and the state of the action. -/
@[simp] theorem alone_perform {β : Type x} (action : σ → β × σ) (next : β → Code σ ρ)
    (state : σ) :
    (perform action next).alone state = (next (action state).1).alone (action state).2 := rfl

/-- It goes on from a change with the changed state, as there is nobody to come between. -/
@[simp] theorem alone_effect (change : σ → σ) (next : Code σ ρ) (state : σ) :
    (effect change next).alone state = next.alone (change state) := rfl

end Code

/-- A part of a state that can be changed on its own. -/
structure Part (τ : Type x) (σ : Type v) where
  get : τ → σ
  put : σ → τ → τ
  get_put : ∀ part state, get (put part state) = part
  put_put : ∀ first second state, put second (put first state) = put second state
  put_get : ∀ state, put (get state) state = state

/-- A code on a part, as one on the whole state. -/
def Code.within {τ : Type x} (part : Part τ σ) : Code σ ρ → Code τ ρ
  | .done value => .done value
  | .pause next => .pause (next.within part)
  | .act change next =>
    .act (fun state => part.put (change (part.get state)) state)
      fun state => (next (part.get state)).within part
  | .lock next => .lock (next.within part)
  | .unlock next => .unlock (next.within part)

/-- It does to the part what it did before, and nothing to the rest. -/
theorem Code.alone_within {τ : Type x} (part : Part τ σ) (code : Code σ ρ) (state : τ) :
    (code.within part).alone state =
      ((code.alone (part.get state)).1, part.put (code.alone (part.get state)).2 state) := by
  induction code generalizing state with
  | done value => exact Prod.ext rfl (part.put_get state).symm
  | pause next inductionHypothesis => exact inductionHypothesis state
  | act change next inductionHypothesis =>
    have later := inductionHypothesis (part.get state)
      (part.put (change (part.get state)) state)
    rw [part.get_put, part.put_put] at later
    exact later
  | lock next inductionHypothesis => exact inductionHypothesis state
  | unlock next inductionHypothesis => exact inductionHypothesis state

/-- Threads over a shared state, and who holds the lock. -/
structure Threads (ι : Type u) (σ : Type v) (ρ : Type w) where
  shared : σ
  holder : Option ι
  codes : ι → Code σ ρ

namespace Threads

variable [DecidableEq ι]

/-- One thread goes on. -/
def goOn (thread : ι) (code : Code σ ρ) (threads : Threads ι σ ρ) : Threads ι σ ρ :=
  { threads with codes := Function.update threads.codes thread code }

/-- The next step of a thread. While another one holds the lock, it spins. -/
def step (thread : ι) (threads : Threads ι σ ρ) : Threads ι σ ρ :=
  match threads.codes thread with
  | .done _ => threads
  | .pause next => threads.goOn thread next
  | .act change next =>
    { threads.goOn thread (next threads.shared) with shared := change threads.shared }
  | .lock next =>
    if threads.holder.isNone then { threads.goOn thread next with holder := some thread }
    else threads
  | .unlock next => { threads.goOn thread next with holder := none }

/-- A schedule of steps. -/
def run (schedule : List ι) (threads : Threads ι σ ρ) : Threads ι σ ρ :=
  schedule.foldl (fun current thread => current.step thread) threads

/-- The section that is under way, if there is one, completed in one go. -/
def settled (threads : Threads ι σ ρ) : Threads ι σ ρ :=
  match threads.holder with
  | none => threads
  | some thread =>
    let finished := (threads.codes thread).finish threads.shared
    ⟨finished.2, none, Function.update threads.codes thread finished.1⟩

/-- A step of a thread, a whole section at once. -/
def whole (thread : ι) (threads : Threads ι σ ρ) : Threads ι σ ρ := (threads.step thread).settled

/-- A schedule of whole sections. -/
def wholeRun (order : List ι) (threads : Threads ι σ ρ) : Threads ι σ ρ :=
  order.foldl (fun current thread => current.whole thread) threads

/-- The steps that can be noticed: the lock is taken, or a thread does something of its own. -/
def moves (thread : ι) (threads : Threads ι σ ρ) : Bool :=
  match threads.codes thread with
  | .pause _ => true
  | .lock _ => threads.holder.isNone
  | _ => false

/-- The threads of a schedule at the steps that can be noticed. -/
def order : List ι → Threads ι σ ρ → List ι
  | [], _ => []
  | thread :: rest, threads =>
    if threads.moves thread then thread :: order rest (threads.step thread)
    else order rest (threads.step thread)

/-- No section of any thread has more than `most` steps. -/
def Paced (most : Nat) (threads : Threads ι σ ρ) : Prop :=
  ∀ thread, ∃ left ≤ most, (threads.codes thread).Paced most left

/-- Every thread keeps to the lock. -/
def Disciplined (threads : Threads ι σ ρ) : Prop :=
  ∀ thread, (threads.codes thread).Guarded (decide (threads.holder = some thread))

section Steps

variable {threads : Threads ι σ ρ}

/-- Without a holder there is nothing to complete, and the settled threads are the threads as they
are. -/
theorem settled_free (free : threads.holder = none) : threads.settled = threads := by
  rw [settled, free]

/-- Of the codes, only that of the holder is run by completing its section. -/
theorem settled_other {thread : ι} (other : threads.holder ≠ some thread) :
    threads.settled.codes thread = threads.codes thread := by
  cases holder : threads.holder with
  | none => rw [settled_free holder]
  | some owner =>
    have apart : thread ≠ owner := by
      rintro rfl
      exact other holder
    simp only [settled, holder]
    exact Function.update_of_ne apart _ _

/-- A thread whose code does not ask for the lock to be held does not hold it. -/
theorem not_holder (disciplined : threads.Disciplined) {thread : ι}
    (outside : ¬ (threads.codes thread).Guarded true) : threads.holder ≠ some thread := by
  intro holder
  have guarded := disciplined thread
  rw [decide_eq_true holder] at guarded
  exact outside guarded

/-- A thread whose code asks for the lock to be held holds it. -/
theorem is_holder (disciplined : threads.Disciplined) {thread : ι}
    (inside : ¬ (threads.codes thread).Guarded false) : threads.holder = some thread := by
  by_contra other
  have guarded := disciplined thread
  rw [decide_eq_false other] at guarded
  exact inside guarded

/-- Completing a section and a step of another thread's own do not meet. -/
theorem settled_goOn {thread : ι} (other : threads.holder ≠ some thread) (code : Code σ ρ) :
    (threads.goOn thread code).settled = threads.settled.goOn thread code := by
  cases holder : threads.holder with
  | none =>
    have free : (threads.goOn thread code).holder = none := holder
    rw [settled_free holder, settled_free free]
  | some owner =>
    have apart : owner ≠ thread := by
      rintro rfl
      exact other holder
    simp only [settled, goOn, holder, Function.update_of_ne apart]
    rw [Function.update_comm apart]

/-- A step that can be noticed is a whole section for the others, and no other step makes a
difference. -/
theorem settled_step (disciplined : threads.Disciplined) (thread : ι) :
    (threads.step thread).settled =
      if threads.moves thread then threads.settled.whole thread else threads.settled := by
  cases code : threads.codes thread with
  | done value =>
    have still : threads.step thread = threads := by simp only [step, code]
    have silent : threads.moves thread = false := by simp only [moves, code]
    rw [still, silent, if_neg Bool.false_ne_true]
  | pause next =>
    have moving : threads.moves thread = true := by simp only [moves, code]
    have other : threads.holder ≠ some thread :=
      not_holder disciplined (by simp [code, Code.Guarded])
    have own : threads.settled.codes thread = .pause next := (settled_other other).trans code
    have free : threads.settled.holder = none := by
      rw [settled]
      split
      · assumption
      · rfl
    have stepped : threads.step thread = threads.goOn thread next := by simp only [step, code]
    have completed : threads.settled.step thread = threads.settled.goOn thread next := by
      simp only [step, own]
    rw [moving, if_pos rfl, stepped, settled_goOn other, whole, completed]
    have released : (threads.settled.goOn thread next).holder = none := free
    exact (settled_free released).symm
  | act change next =>
    have silent : threads.moves thread = false := by simp only [moves, code]
    have holder : threads.holder = some thread :=
      is_holder disciplined (by simp [code, Code.Guarded])
    rw [silent, if_neg Bool.false_ne_true]
    simp only [step, code, settled, goOn, holder, Function.update_self, Function.update_idem,
      Code.finish]
  | lock next =>
    have other : threads.holder ≠ some thread :=
      not_holder disciplined (by simp [code, Code.Guarded])
    cases holder : threads.holder with
    | none =>
      have moving : threads.moves thread = true := by simp only [moves, code, holder]; rfl
      rw [moving, if_pos rfl, settled_free holder, whole]
    | some owner =>
      have silent : threads.moves thread = false := by simp only [moves, code, holder]; rfl
      have still : threads.step thread = threads := by
        simp only [step, code, holder, Option.isNone_some, Bool.false_eq_true, if_false]
      rw [silent, if_neg Bool.false_ne_true, still]
  | unlock next =>
    have silent : threads.moves thread = false := by simp only [moves, code]
    have holder : threads.holder = some thread :=
      is_holder disciplined (by simp [code, Code.Guarded])
    rw [silent, if_neg Bool.false_ne_true]
    simp only [step, code, settled, goOn, holder, Code.finish]

/-- A step keeps to the lock: the thread that moves stays guarded, and the others are as they were.
-/
theorem step_disciplined (disciplined : threads.Disciplined) (thread : ι) :
    (threads.step thread).Disciplined := by
  intro other
  have own := disciplined thread
  have guarded := disciplined other
  cases code : threads.codes thread with
  | done value => simpa only [step, code] using guarded
  | pause next =>
    rw [code, Code.Guarded] at own
    simp only [step, code, goOn]
    by_cases same : other = thread
    · subst same
      rw [Function.update_self, own.1]
      exact own.2
    · rwa [Function.update_of_ne same]
  | act change next =>
    rw [code, Code.Guarded] at own
    simp only [step, code, goOn]
    by_cases same : other = thread
    · subst same
      rw [Function.update_self, own.1]
      exact own.2 threads.shared
    · rwa [Function.update_of_ne same]
  | lock next =>
    rw [code, Code.Guarded] at own
    cases holder : threads.holder with
    | none =>
      simp only [step, code, holder, goOn, Option.isNone_none, if_true]
      by_cases same : other = thread
      · subst same
        rw [Function.update_self, decide_eq_true rfl]
        exact own.2
      · have apart : some thread ≠ some other := fun equal => same (Option.some.inj equal).symm
        rw [holder] at guarded
        rw [Function.update_of_ne same, decide_eq_false apart]
        simpa using guarded
    | some owner =>
      simp only [step, code, holder, Option.isNone_some, Bool.false_eq_true, if_false]
      rwa [holder] at guarded
  | unlock next =>
    rw [code, Code.Guarded] at own
    have holder := of_decide_eq_true own.1
    simp only [step, code, goOn]
    by_cases same : other = thread
    · subst same
      rw [Function.update_self]
      exact own.2
    · have apart : some thread ≠ some other := fun equal => same (Option.some.inj equal).symm
      rw [holder, decide_eq_false apart] at guarded
      rwa [Function.update_of_ne same]

/-- What is noticed of a schedule is part of it, in its order. -/
theorem order_sublist (schedule : List ι) (threads : Threads ι σ ρ) :
    (order schedule threads).Sublist schedule := by
  induction schedule generalizing threads with
  | nil => exact List.Sublist.slnil
  | cons thread rest inductionHypothesis =>
    have later := inductionHypothesis (threads.step thread)
    rw [order]
    split
    · exact later.cons_cons thread
    · exact later.cons thread

/-- Threads that keep to the lock keep to it throughout every schedule. -/
theorem run_disciplined (disciplined : threads.Disciplined) (schedule : List ι) :
    (threads.run schedule).Disciplined := by
  induction schedule generalizing threads with
  | nil => exact disciplined
  | cons thread rest inductionHypothesis =>
    exact inductionHypothesis (step_disciplined disciplined thread)

/-- Any interleaving is a run of whole sections. The induction is on the schedule; it carries
along the state in which the section under way is completed. -/
theorem run_settled (disciplined : threads.Disciplined) (schedule : List ι) :
    (threads.run schedule).settled = threads.settled.wholeRun (order schedule threads) := by
  induction schedule generalizing threads with
  | nil => rfl
  | cons thread rest inductionHypothesis =>
    have stepped := settled_step disciplined thread
    have later := inductionHypothesis (step_disciplined disciplined thread)
    rw [order]
    refine later.trans ?_
    rw [stepped]
    split
    · rfl
    · rfl

/-- A step leaves the sections as short as they were: the one that is under way gets shorter, and a
new one has its full length at most. -/
theorem step_paced {most : Nat} (paced : threads.Paced most) (thread : ι) :
    (threads.step thread).Paced most := by
  intro other
  obtain ⟨left, bound, own⟩ := paced thread
  cases code : threads.codes thread with
  | done value => simpa only [step, code] using paced other
  | pause next =>
    rw [code] at own
    simp only [step, code, goOn]
    by_cases same : other = thread
    · subst same
      rw [Function.update_self]
      exact ⟨0, Nat.zero_le most, own⟩
    · rw [Function.update_of_ne same]
      exact paced other
  | act change next =>
    rw [code] at own
    obtain ⟨less, fewer, own⟩ := own
    simp only [step, code, goOn]
    by_cases same : other = thread
    · subst same
      rw [Function.update_self]
      exact ⟨less, by omega, own threads.shared⟩
    · rw [Function.update_of_ne same]
      exact paced other
  | lock next =>
    rw [code] at own
    simp only [step, code]
    split
    · simp only [goOn]
      by_cases same : other = thread
      · subst same
        rw [Function.update_self]
        exact ⟨most, le_refl most, own⟩
      · rw [Function.update_of_ne same]
        exact paced other
    · exact paced other
  | unlock next =>
    rw [code] at own
    simp only [step, code, goOn]
    by_cases same : other = thread
    · subst same
      rw [Function.update_self]
      exact ⟨0, Nat.zero_le most, own.2⟩
    · rw [Function.update_of_ne same]
      exact paced other

/-- So does every schedule. This bounds the steps after which a holder releases the lock. -/
theorem run_paced {most : Nat} (paced : threads.Paced most) (schedule : List ι) :
    (threads.run schedule).Paced most := by
  induction schedule generalizing threads with
  | nil => exact paced
  | cons thread rest inductionHypothesis => exact inductionHypothesis (step_paced paced thread)

/-- While a thread holds the lock, the steps of the others leave the shared state, the lock and
what the thread still has to do as they are: they wait for the lock, or do something of their
own. -/
theorem step_other (disciplined : threads.Disciplined) {thread other : ι}
    (holder : threads.holder = some thread) (apart : other ≠ thread) :
    (threads.step other).holder = some thread ∧ (threads.step other).shared = threads.shared ∧
      (threads.step other).codes thread = threads.codes thread := by
  have outside : ¬ (threads.holder = some other) := by
    rw [holder]
    exact fun same => apart (Option.some.inj same).symm
  cases code : threads.codes other with
  | done value => simp only [step, code, holder, and_self]
  | pause next =>
    simp only [step, code, goOn]
    exact ⟨holder, trivial, Function.update_of_ne apart.symm _ _⟩
  | act change next =>
    exact absurd (is_holder disciplined (by simp [code, Code.Guarded])) outside
  | lock next =>
    simp only [step, code, holder, Option.isNone_some, Bool.false_eq_true, if_false, and_self]
  | unlock next =>
    exact absurd (is_holder disciplined (by simp [code, Code.Guarded])) outside

/-- What completing a section leaves depends on the shared state and on the code of the thread
that holds the lock, and on nothing else. -/
theorem settled_held {thread : ι} (holder : threads.holder = some thread) :
    threads.settled.shared = ((threads.codes thread).finish threads.shared).2 ∧
      threads.settled.codes thread = ((threads.codes thread).finish threads.shared).1 := by
  simp only [settled, holder, Function.update_self, and_self]

/-- Nobody waits for ever: in any schedule in which the holder of the lock takes as many steps
as its section may have left, it comes to the release, however the steps of the others lie
between its own. Then the shared state and its code are as if the section had been one step.
The induction is on the schedule; a step of another thread changes nothing that counts, and
one of the holder leaves fewer steps. -/
theorem holder_ends (disciplined : threads.Disciplined) {thread : ι} {most left : Nat}
    (holder : threads.holder = some thread)
    (paced : (threads.codes thread).Paced most left) (schedule : List ι)
    (enough : left ≤ schedule.count thread) :
    ∃ front, front <+: schedule ∧ front.count thread ≤ left ∧
      (threads.run front).holder = none ∧ (threads.run front).shared = threads.settled.shared ∧
        (threads.run front).codes thread = threads.settled.codes thread := by
  obtain ⟨shared, code⟩ := settled_held holder
  rw [shared, code]
  induction schedule generalizing threads left with
  | nil =>
    rw [List.count_nil, Nat.le_zero] at enough
    subst enough
    cases same : threads.codes thread with
    | act change next =>
      rw [same] at paced
      obtain ⟨_, fewer, _⟩ := paced
      exact absurd fewer (Nat.not_lt_zero _)
    | unlock next =>
      rw [same] at paced
      exact absurd paced.1 (Nat.not_lt_zero _)
    | done value | pause next | lock next =>
      exact absurd holder (not_holder disciplined (by simp [same, Code.Guarded]))
  | cons other rest inductionHypothesis =>
    have later := step_disciplined disciplined other
    by_cases own : other = thread
    · subst own
      rw [List.count_cons_self] at enough
      cases same : threads.codes other with
      | done value | pause next | lock next =>
        exact absurd holder (not_holder disciplined (by simp [same, Code.Guarded]))
      | act change next =>
        rw [same] at paced
        obtain ⟨less, fewer, goes⟩ := paced
        have held : (threads.step other).holder = some other := by
          simp only [step, same, goOn, holder]
        have changed : (threads.step other).shared = change threads.shared := by
          simp only [step, same, goOn]
        have left : (threads.step other).codes other = next threads.shared := by
          simp only [step, same, goOn, Function.update_self]
        obtain ⟨shared, code⟩ := settled_held held
        obtain ⟨front, part, few, free, ends, last⟩ := inductionHypothesis later held
          (left ▸ goes threads.shared) (by omega) shared code
        rw [changed, left] at ends last
        refine ⟨other :: front, List.cons_prefix_cons.mpr ⟨rfl, part⟩, ?_, free, ends, last⟩
        rw [List.count_cons_self]
        omega
      | unlock next =>
        rw [same] at paced
        refine ⟨[other], List.cons_prefix_cons.mpr ⟨rfl, List.nil_prefix⟩, ?_, ?_, ?_, ?_⟩
        · rw [List.count_singleton_self]
          exact paced.1
        · simp only [run, List.foldl_cons, List.foldl_nil, step, same]
        · simp only [run, List.foldl_cons, List.foldl_nil, step, same, goOn, Code.finish]
        · simp only [run, List.foldl_cons, List.foldl_nil, step, same, goOn, Code.finish,
            Function.update_self]
    · obtain ⟨held, still, kept⟩ := step_other disciplined holder own
      rw [List.count_cons_of_ne own] at enough
      obtain ⟨shared, code⟩ := settled_held held
      obtain ⟨front, part, few, free, ends, last⟩ := inductionHypothesis later held
        (kept.symm ▸ paced) enough shared code
      rw [still, kept] at ends last
      refine ⟨other :: front, List.cons_prefix_cons.mpr ⟨rfl, part⟩, ?_, free, ends, last⟩
      rwa [List.count_cons_of_ne own]

end Steps

end Threads

section Clients

variable {κ : Type*} {α : Type*}

/-- A client of a service: what it asks for next depends on the answers so far. -/
inductive Client (κ : Type*) (α : Type*) (ρ : Type w) where
  | stop (value : ρ)
  | call (request : κ) (next : α → Client κ α ρ)

/-- Some steps under the lock, its release, and the answer: no more steps than this. -/
inductive Code.Section : Code σ ρ → Nat → Prop where
  | act {change : σ → σ} {next : σ → Code σ ρ} {less most : Nat} (fewer : less < most)
      (inside : ∀ state, (next state).Section less) : Section (.act change next) most
  | unlock {value : ρ} {most : Nat} (positive : 0 < most) : Section (.unlock (.done value)) most

/-- A request that is answered without the lock, or one section. -/
inductive Code.Single (most : Nat) : Code σ ρ → Prop where
  | refused (value : ρ) : Single most (.pause (.done value))
  | locked {next : Code σ ρ} (inside : next.Section most) : Single most (.lock next)

/-- A section on a part of the state is one on the whole state, with the same number of steps. -/
theorem Code.Section.within {τ : Type x} (part : Part τ σ) {code : Code σ ρ} {most : Nat}
    (inside : code.Section most) : (code.within part).Section most := by
  induction inside with
  | act fewer _ inductionHypothesis =>
    exact .act fewer fun state => inductionHypothesis (part.get state)
  | unlock positive => exact .unlock positive

/-- So is a request of one section at most, since working on a part adds no section. -/
theorem Code.Single.within {τ : Type x} (part : Part τ σ) {code : Code σ ρ} {most : Nat}
    (single : code.Single most) : (code.within part).Single most := by
  cases single with
  | refused value => exact .refused value
  | locked inside => exact .locked (inside.within part)

/-- The steps that carry out the requests of a service: each is one section or none, no longer
than this, and does alone what the service says. -/
structure Implements (most : Nat) (service : κ → Code σ α) (serve : κ → σ → α × σ) : Prop where
  single : ∀ request, (service request).Single most
  alone : ∀ request state, (service request).alone state = serve request state

variable (service : κ → Code σ α) (serve : κ → σ → α × σ)

/-- The steps of a client. -/
def Client.code : Client κ α ρ → Code σ ρ
  | .stop value => .done value
  | .call request next => (service request).andThen fun answer => (next answer).code

/-- Clients of a service that serves one request at a time, and whom it has served with what
so far. -/
structure Serial (ι : Type u) (σ : Type v) (κ α : Type*) (ρ : Type w) where
  shared : σ
  clients : ι → Client κ α ρ
  log : List (ι × κ)

variable [DecidableEq ι]

namespace Serial

/-- The next request of a client is served. -/
def step (thread : ι) (serial : Serial ι σ κ α ρ) : Serial ι σ κ α ρ :=
  match serial.clients thread with
  | .stop _ => serial
  | .call request next =>
    let served := serve request serial.shared
    ⟨served.2, Function.update serial.clients thread (next served.1),
      serial.log ++ [(thread, request)]⟩

/-- The requests of clients, in this order. -/
def run (order : List ι) (serial : Serial ι σ κ α ρ) : Serial ι σ κ α ρ :=
  order.foldl (fun current thread => current.step serve thread) serial

/-- The clients as threads, before they have begun. -/
def threads (serial : Serial ι σ κ α ρ) : Threads ι σ ρ :=
  ⟨serial.shared, none, fun thread => (serial.clients thread).code service⟩

/-- What holds of a state and the requests served until then holds in a run when it survives
each request. -/
theorem run_keeps (Holds : List (ι × κ) → σ → Prop)
    (kept : ∀ log state, Holds log state → ∀ thread request,
      Holds (log ++ [(thread, request)]) (serve request state).2)
    (order : List ι) (serial : Serial ι σ κ α ρ) (start : Holds serial.log serial.shared) :
    Holds (serial.run serve order).log (serial.run serve order).shared := by
  induction order generalizing serial with
  | nil => exact start
  | cons thread rest inductionHypothesis =>
    apply inductionHypothesis
    cases client : serial.clients thread with
    | stop value => simpa only [step, client] using start
    | call request next =>
      simp only [step, client]
      exact kept serial.log serial.shared start thread request

end Serial

section Simulation

/-- A section goes on, after its end, with what follows it. -/
theorem Code.Section.finish_andThen {code : Code σ α} {most : Nat} (inside : code.Section most)
    (next : α → Code σ ρ) (state : σ) :
    (code.andThen next).finish state = (next (code.alone state).1, (code.alone state).2) := by
  induction inside generalizing state with
  | act fewer _ inductionHypothesis => exact inductionHypothesis state _
  | unlock positive => rfl

section After

variable {code : Code σ α} {next : α → Code σ ρ} {count most : Nat}

/-- A section keeps to the lock: it changes the state under it, and releases it before the answer.
-/
theorem Code.Section.guarded (inside : code.Section count)
    (after : ∀ answer, (next answer).Guarded false) : (code.andThen next).Guarded true := by
  induction inside with
  | act fewer _ inductionHypothesis => exact ⟨rfl, inductionHypothesis⟩
  | unlock positive => exact ⟨rfl, after _⟩

/-- So does a request of one section, before which and after which the lock is not held. -/
theorem Code.Single.guarded (single : code.Single most)
    (after : ∀ answer, (next answer).Guarded false) : (code.andThen next).Guarded false := by
  cases single with
  | refused value => exact ⟨rfl, after value⟩
  | locked inside => exact ⟨rfl, inside.guarded after⟩

/-- A section has the pace of its number of steps, if what follows it has a pace. -/
theorem Code.Section.paced (inside : code.Section count)
    (after : ∀ answer, (next answer).Paced most 0) : (code.andThen next).Paced most count := by
  induction inside with
  | act fewer _ inductionHypothesis => exact ⟨_, fewer, inductionHypothesis⟩
  | unlock positive => exact ⟨positive, after _⟩

/-- So has a request of one section, from outside of the lock. -/
theorem Code.Single.paced (single : code.Single most)
    (after : ∀ answer, (next answer).Paced most 0) : (code.andThen next).Paced most 0 := by
  cases single with
  | refused value => exact after value
  | locked inside => exact inside.paced after

end After

variable {service serve} {most : Nat} (implements : Implements most service serve)

include implements

/-- Clients keep to the lock: each request does, and no client holds the lock between two of them.
-/
theorem Client.code_guarded (client : Client κ α ρ) : (client.code service).Guarded false := by
  induction client with
  | stop value => rfl
  | call request next inductionHypothesis => exact (implements.single request).guarded inductionHypothesis

/-- A client has the pace of its requests, as each of them is one section at most. -/
theorem Client.code_paced (client : Client κ α ρ) : (client.code service).Paced most 0 := by
  induction client with
  | stop value => trivial
  | call request next inductionHypothesis => exact (implements.single request).paced inductionHypothesis

/-- The threads of clients keep to the lock in every state that serving one by one can reach. -/
theorem Serial.threads_disciplined (serial : Serial ι σ κ α ρ) :
    (serial.threads service).Disciplined :=
  fun thread => Client.code_guarded implements (serial.clients thread)

/-- A whole step of a client is the service of its request. -/
theorem Serial.whole_threads (serial : Serial ι σ κ α ρ) (thread : ι) :
    (serial.threads service).whole thread = (serial.step serve thread).threads service := by
  have update : ∀ client : Client κ α ρ,
      Function.update (serial.threads service).codes thread (client.code service) =
        fun other => (Function.update serial.clients thread client other).code service := by
    intro client
    funext other
    by_cases same : other = thread
    · subst same
      rw [Function.update_self, Function.update_self]
    · rw [Function.update_of_ne same, Function.update_of_ne same]
      rfl
  cases client : serial.clients thread with
  | stop value =>
    have own : (serial.threads service).codes thread = .done value := by
      simp only [threads, client, Client.code]
    have still : serial.step serve thread = serial := by simp only [step, client]
    rw [Threads.whole, still]
    simp only [Threads.step, own]
    rfl
  | call request next =>
    have own : (serial.threads service).codes thread =
        (service request).andThen fun answer => (next answer).code service := by
      simp only [threads, client, Client.code]
    have served : serial.step serve thread = ⟨((service request).alone serial.shared).2,
        Function.update serial.clients thread
          (next ((service request).alone serial.shared).1), serial.log ++ [(thread, request)]⟩ := by
      simp only [step, client, implements.alone]
    rw [Threads.whole, served]
    obtain ⟨code, same⟩ : ∃ code, service request = code := ⟨_, rfl⟩
    have alone := implements.single request
    rw [same] at own alone ⊢
    cases alone with
    | refused value =>
      simp only [Threads.step, own, Code.andThen, Threads.goOn, update]
      rfl
    | locked inside =>
      have ends := inside.finish_andThen (fun answer => (next answer).code service) serial.shared
      have free : (serial.threads service).holder = none := rfl
      have shared : (serial.threads service).shared = serial.shared := rfl
      simp only [Threads.step, own, Code.andThen, Threads.goOn, free, Option.isNone_none, if_true,
        Threads.settled, Function.update_self, Function.update_idem, shared, ends, update]
      rfl

/-- Whole steps of clients are the service of their requests, one after the other in the order of
the steps. -/
theorem Serial.wholeRun_threads (order : List ι) (serial : Serial ι σ κ α ρ) :
    (serial.threads service).wholeRun order = (serial.run serve order).threads service := by
  induction order generalizing serial with
  | nil => rfl
  | cons thread rest inductionHypothesis =>
    have first := Serial.whole_threads implements serial thread
    have later := inductionHypothesis (serial.step serve thread)
    rw [← first] at later
    exact later

/-- A client that has stopped as a thread has stopped, with the same value. -/
theorem Client.code_done {client : Client κ α ρ} {value : ρ}
    (done : client.code service = .done value) : client = .stop value := by
  cases client with
  | stop other => exact congrArg _ (Code.done.inj done)
  | call request next =>
    rw [Client.code] at done
    obtain ⟨code, same⟩ : ∃ code, service request = code := ⟨_, rfl⟩
    have alone := implements.single request
    rw [same] at done alone
    cases alone with
    | refused value => cases done
    | locked inside => cases done

/-- Any interleaving of the steps of the clients serves their requests one at a time, in an
order in which the threads are scheduled: once the section under way is completed, the
shared state and every client are those of that service. A client that is done has the value
it has there, and while nobody holds the lock the shared state is the one there. -/
theorem serialised (serial : Serial ι σ κ α ρ) (schedule : List ι) :
    ∃ order : List ι, order.Sublist schedule ∧
      let threads := (serial.threads service).run schedule
      let served := serial.run serve order
      threads.settled = served.threads service ∧
        (threads.holder = none → threads.shared = served.shared) ∧
        ∀ thread value, threads.codes thread = .done value →
          served.clients thread = .stop value := by
  have disciplined := Serial.threads_disciplined implements serial
  have settled := (Threads.run_settled disciplined schedule).trans
    (Serial.wholeRun_threads implements _ serial)
  refine ⟨_, Threads.order_sublist schedule (serial.threads service), settled, ?_, ?_⟩
  · intro free
    rw [Threads.settled_free free] at settled
    exact congrArg Threads.shared settled
  · intro thread value done
    have kept := Threads.run_disciplined disciplined schedule
    have other : ((serial.threads service).run schedule).holder ≠ some thread :=
      Threads.not_holder kept (by simp [done, Code.Guarded])
    have own := congrFun (congrArg Threads.codes settled) thread
    rw [Threads.settled_other other, done] at own
    exact Client.code_done implements own.symm

/-- Whatever the interleaving was, who holds the lock releases it within as many steps of its
own as the longest section has, whatever steps the others take between them. The shared state
and what the holder goes on with are then as if the section had been one step. -/
theorem released (serial : Serial ι σ κ α ρ) (schedule : List ι) (thread : ι)
    (holder : ((serial.threads service).run schedule).holder = some thread) (more : List ι)
    (enough : most ≤ more.count thread) :
    ∃ front, front <+: more ∧ front.count thread ≤ most ∧
      let held := (serial.threads service).run schedule
      let free := (serial.threads service).run (schedule ++ front)
      free.holder = none ∧ free.shared = held.settled.shared ∧
        free.codes thread = held.settled.codes thread := by
  have disciplined := Threads.run_disciplined
    (Serial.threads_disciplined implements serial) schedule
  have begun : (serial.threads service).Paced most := fun other =>
    ⟨0, Nat.zero_le most, Client.code_paced implements (serial.clients other)⟩
  obtain ⟨left, bound, paced⟩ := Threads.run_paced begun schedule thread
  obtain ⟨front, part, few, ends⟩ :=
    Threads.holder_ends disciplined holder paced more (bound.trans enough)
  refine ⟨front, part, few.trans bound, ?_⟩
  simp only [Threads.run, List.foldl_append]
  exact ends

end Simulation

end Clients

end Lfdk.LockedSections
