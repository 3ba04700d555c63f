import Mathlib.Tactic

/-!
# Counted loops over machine integers

A `for` loop in C counts an unsigned integer up from zero as long as a test holds.
The counter wraps, so a test that no value of the counter fails makes the loop go on
forever. A test against a bound that the counter can reach makes it run its body for
the numbers below the bound, in order: the loop then is a fold over a list, which ends
early when the body does. Nested loops are one fold over the list of all counters.

What the body keeps of a state, whether it goes on or ends early, the loop keeps, also
when it wraps.
-/

namespace Lfdk.CountedLoops

universe u v w x
variable {α : Type u} {σ : Type v} {ε : Type w} {β : Type x} {width : Nat}

/-- `for (i = ..; test(i); i++)` for at most `fuel` iterations. A run that needs more
ends as unfinished. -/
def forLoop (unfinished : σ → ε) (test : BitVec width → Bool)
    (body : BitVec width → σ → Except ε σ) : Nat → BitVec width → σ → Except ε σ
  | 0, counter, state => if test counter then .error (unfinished state) else .ok state
  | fuel + 1, counter, state =>
    if test counter then do
      let state ← body counter state
      forLoop unfinished test body fuel (counter + 1) state
    else .ok state

/-- The numbers below a bound, as values of a counter. -/
def below (width bound : Nat) : List (BitVec width) :=
  (List.range bound).map (BitVec.ofNat width)

section Numbers

variable {bound : Nat} (fits : bound ≤ 2 ^ width)

include fits

/-- A counter of some width goes through the numbers below the bound. This holds also where the
bound is none of the counter's values. -/
theorem mem_below (counter : BitVec width) : counter ∈ below width bound ↔ counter.toNat < bound := by
  unfold below
  rw [List.mem_map]
  constructor
  · rintro ⟨number, member, rfl⟩
    have small := List.mem_range.mp member
    rwa [BitVec.toNat_ofNat, Nat.mod_eq_of_lt (by omega)]
  · intro small
    exact ⟨counter.toNat, List.mem_range.mpr small, by simp⟩

/-- The counter counts up: the values below a bound are strictly increasing, so none occurs twice.
-/
theorem below_increasing : (below width bound).Pairwise (· < ·) := by
  unfold below
  rw [List.pairwise_map]
  apply List.pairwise_lt_range.imp_of_mem
  intro first second _ member ordered
  have small := List.mem_range.mp member
  rw [BitVec.lt_def, BitVec.toNat_ofNat, BitVec.toNat_ofNat, Nat.mod_eq_of_lt (by omega),
    Nat.mod_eq_of_lt (by omega)]
  exact ordered

end Numbers

section Loops

variable (unfinished : σ → ε) (test : BitVec width → Bool) (body : BitVec width → σ → Except ε σ)

/-- A loop whose test compares with a bound that fits the counter runs its body for
every number up to the bound. -/
theorem forLoop_from (bound : Nat) (fits : bound < 2 ^ width)
    (compares : ∀ counter, test counter = decide (counter.toNat < bound)) (fuel start : Nat)
    (within : start ≤ bound) (enough : bound ≤ start + fuel) (state : σ) :
    forLoop unfinished test body fuel (BitVec.ofNat width start) state =
      ((List.range' start (bound - start)).map (BitVec.ofNat width)).foldlM
        (fun state counter => body counter state) state := by
  have value : (BitVec.ofNat width start).toNat = start := by
    rw [BitVec.toNat_ofNat]
    exact Nat.mod_eq_of_lt (by omega)
  induction fuel generalizing start state with
  | zero =>
    have last : bound - start = 0 := by omega
    have ended : ¬ start < bound := by omega
    rw [forLoop, compares, value, last]
    simp [ended]
    rfl
  | succ fuel inductionHypothesis =>
    rw [forLoop, compares, value]
    by_cases more : start < bound
    · have split : bound - start = (bound - (start + 1)) + 1 := by omega
      have next : BitVec.ofNat width start + 1 = BitVec.ofNat width (start + 1) := by
        rw [BitVec.ofNat_add]
        rfl
      rw [split, List.range'_succ, List.map_cons, List.foldlM_cons, if_pos (by simpa using more),
        next]
      congr 1
      funext state
      apply inductionHypothesis (start + 1) (by omega) (by omega)
      rw [BitVec.toNat_ofNat]
      exact Nat.mod_eq_of_lt (by omega)
    · have last : bound - start = 0 := by omega
      rw [last]
      simp [more]
      rfl

/-- From zero on, a loop that runs while its counter is below a bound passes through the values
below it, in order. -/
theorem forLoop_below (bound : Nat) (fits : bound < 2 ^ width)
    (compares : ∀ counter, test counter = decide (counter.toNat < bound)) (fuel : Nat)
    (enough : bound ≤ fuel) (state : σ) :
    forLoop unfinished test body fuel 0 state =
      (below width bound).foldlM (fun state counter => body counter state) state := by
  have counted := forLoop_from unfinished test body bound fits compares fuel 0 (Nat.zero_le _)
    (by omega) state
  rw [Nat.sub_zero, ← List.range_eq_range'] at counted
  exact counted

end Loops

/-- A fold of folds is a fold over all their elements, so nested loops are one loop. -/
theorem foldlM_flatMap (outer : List β) (inner : β → List α) (body : σ → α → Except ε σ)
    (state : σ) :
    outer.foldlM (fun state value => (inner value).foldlM body state) state =
      (outer.flatMap inner).foldlM body state := by
  induction outer generalizing state with
  | nil => rfl
  | cons value rest inductionHypothesis =>
    rw [List.foldlM_cons, List.flatMap_cons, List.foldlM_append]
    congr 1
    funext state
    exact inductionHypothesis state

/-- What holds of a computation's outcome: one condition for the state it goes on with and
one for where it ends early. -/
def Ends (good : σ → Prop) (stopped : ε → Prop) : Except ε σ → Prop
  | .ok state => good state
  | .error ended => stopped ended

section Outcomes

variable {good : σ → Prop} {stopped : ε → Prop}

/-- Two steps end well if the first one does and the second one does from every state that the first
can leave. -/
theorem Ends.bind {result : Except ε σ} {next : σ → Except ε σ} (first : Ends good stopped result)
    (rest : ∀ state, good state → Ends good stopped (next state)) :
    Ends good stopped (result >>= next) := by
  cases result with
  | ok state => exact rest state first
  | error ended => exact first

/-- A loop ends as its body does: where every pass keeps what holds, or stops as it should, so does
the loop, with any amount of fuel. -/
theorem forLoop_ends {unfinished : σ → ε} {test : BitVec width → Bool}
    {body : BitVec width → σ → Except ε σ}
    (out : ∀ state, good state → stopped (unfinished state))
    (step : ∀ counter state, good state → Ends good stopped (body counter state)) (fuel : Nat)
    (counter : BitVec width) (state : σ) (start : good state) :
    Ends good stopped (forLoop unfinished test body fuel counter state) := by
  induction fuel generalizing counter state with
  | zero =>
    rw [forLoop]
    split
    · exact out state start
    · exact start
  | succ fuel inductionHypothesis =>
    rw [forLoop]
    split
    · exact (step counter state start).bind fun next kept =>
        inductionHypothesis (counter + 1) next kept
    · exact start

end Outcomes

end Lfdk.CountedLoops
