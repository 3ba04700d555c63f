import Mathlib.Tactic

/-!
# A cache that holds one window of an address space

The cache remembers the start of one window of a fixed size. A demand names the
address it wants and the window it would install itself. When the address lies
in the remembered window the cache keeps that window; otherwise it installs the
demand's own. Serving does not compare the remembered window with the demand's
own window, so a hit may leave a demand with a window it did not ask for.

The results say when that never happens: for one demand when all windows are
aligned, and for a whole sequence exactly when no demand hits the different
window of the demand before it.
-/

namespace Lfdk.SlotCache

/-- An address to be reached and the window installed for it on a miss. -/
structure Demand where
  own : Nat
  address : Nat
deriving DecidableEq, Repr

variable (size : Nat)

/-- The address lies in the window that begins at `start`. -/
def Hits (start address : Nat) : Prop := start ≤ address ∧ address < start + size

instance (start address : Nat) : Decidable (Hits size start address) :=
  inferInstanceAs (Decidable (_ ∧ _))

/-- The window in effect after a demand. -/
def serve (cached : Option Nat) (demand : Demand) : Nat :=
  match cached with
  | none => demand.own
  | some start => if Hits size start demand.address then start else demand.own

/-- The windows in effect after each demand of a sequence. -/
def starts : Option Nat → List Demand → List Nat
  | _, [] => []
  | cached, demand :: rest =>
      serve size cached demand :: starts (some (serve size cached demand)) rest

/-- The later demand does not hit a different window left by the earlier one. -/
def Compatible (earlier later : Demand) : Prop :=
  later.own = earlier.own ∨ ¬ Hits size earlier.own later.address

instance (earlier later : Demand) : Decidable (Compatible size earlier later) :=
  inferInstanceAs (Decidable (_ ∨ _))

/-- A demand gets its own window from a remembered one exactly when it asks for
that same window or misses. -/
theorem serve_own_iff (start : Nat) (demand : Demand) :
    serve size (some start) demand = demand.own ↔
      demand.own = start ∨ ¬ Hits size start demand.address := by
  by_cases hit : Hits size start demand.address
  · simp [serve, hit, eq_comm]
  · simp [serve, hit]

/-- A demand gets its own window unless a different one is remembered over its address. -/
theorem serve_own_forall_iff (cached : Option Nat) (demand : Demand) :
    serve size cached demand = demand.own ↔
      ∀ start ∈ cached, Hits size start demand.address → start = demand.own := by
  cases cached with
  | none => simp [serve]
  | some start =>
    rw [serve_own_iff]
    simp only [Option.mem_def, Option.some.injEq, forall_eq']
    constructor
    · rintro (same | missed) hit
      · exact same.symm
      · exact absurd hit missed
    · intro same
      by_cases hit : Hits size start demand.address
      · exact Or.inl (same hit).symm
      · exact Or.inr hit

/-- The window in effect is the demand's own, or its address lies in it. -/
theorem serve_own_or_hits (cached : Option Nat) (demand : Demand) :
    serve size cached demand = demand.own ∨
      Hits size (serve size cached demand) demand.address := by
  cases cached with
  | none => exact Or.inl rfl
  | some start =>
    rw [serve]
    split
    · next hit => exact Or.inr hit
    · exact Or.inl rfl

/-- Two aligned windows of the same size that share an address are the same. -/
theorem serve_aligned (cached : Option Nat) (demand : Demand)
    (remembered : ∀ start ∈ cached, size ∣ start) (aligned : size ∣ demand.own)
    (covered : Hits size demand.own demand.address) :
    serve size cached demand = demand.own := by
  cases cached with
  | none => rfl
  | some start =>
    by_cases hit : Hits size start demand.address
    · obtain ⟨block, rfl⟩ := remembered start rfl
      obtain ⟨ownBlock, equal⟩ := aligned
      simp only [Hits, equal] at hit covered
      have below : block < ownBlock + 1 := by
        apply Nat.lt_of_mul_lt_mul_left (a := size)
        rw [Nat.mul_succ]
        omega
      have above : ownBlock < block + 1 := by
        apply Nat.lt_of_mul_lt_mul_left (a := size)
        rw [Nat.mul_succ]
        omega
      have same : block = ownBlock := by omega
      rw [serve_own_iff, equal, same]
      exact Or.inl rfl
    · simp [serve, hit]

/-- After a demand that got its own window, every later demand gets its own
window exactly when the whole sequence is pairwise compatible. The induction
moves the remembered window along the chain. -/
theorem starts_own_after_iff (first : Demand) (demands : List Demand) :
    starts size (some first.own) demands = demands.map Demand.own ↔
      List.IsChain (Compatible size) (first :: demands) := by
  induction demands generalizing first with
  | nil => simp [starts]
  | cons demand rest inductionHypothesis =>
    rw [List.isChain_cons_cons, ← inductionHypothesis demand, starts, List.map_cons,
      List.cons.injEq, serve_own_iff]
    constructor
    · rintro ⟨own, others⟩
      rw [(serve_own_iff size _ _).mpr own] at others
      exact ⟨own, others⟩
    · rintro ⟨own, others⟩
      refine ⟨own, ?_⟩
      rw [(serve_own_iff size _ _).mpr own]
      exact others

/-- From an empty cache, every demand gets its own window exactly when no demand
hits a different window of its predecessor. -/
theorem starts_own_iff (demands : List Demand) :
    starts size none demands = demands.map Demand.own ↔
      List.IsChain (Compatible size) demands := by
  cases demands with
  | nil => simp [starts]
  | cons demand rest =>
    rw [← starts_own_after_iff, starts, List.map_cons, List.cons.injEq]
    simp [serve]

/-- There is one window in effect for each demand. -/
theorem forall_starts_iff (Holds : Nat → Prop) (cached : Option Nat) (demands : List Demand) :
    List.Forall₂ (fun _ start => Holds start) demands (starts size cached demands) ↔
      ∀ start ∈ starts size cached demands, Holds start := by
  induction demands generalizing cached with
  | nil => simp [starts]
  | cons demand rest inductionHypothesis =>
    rw [starts, List.forall₂_cons, List.forall_mem_cons, inductionHypothesis]

/-- Windows stay at or above a limit exactly when every demand's own window is,
provided that a demand below the limit asks for the first address of its window.
Such a demand misses every window above the limit, so it installs its own. -/
theorem starts_above_iff (limit : Nat) (cached : Option Nat) (demands : List Demand)
    (remembered : ∀ start ∈ cached, limit ≤ start)
    (exposed : ∀ demand ∈ demands, demand.own < limit → demand.address = demand.own) :
    (∀ start ∈ starts size cached demands, limit ≤ start) ↔
      ∀ demand ∈ demands, limit ≤ demand.own := by
  induction demands generalizing cached with
  | nil => simp [starts]
  | cons demand rest inductionHypothesis =>
    have servedAbove : limit ≤ serve size cached demand ↔ limit ≤ demand.own := by
      cases cached with
      | none => rfl
      | some start =>
        have startAbove : limit ≤ start := remembered start rfl
        by_cases hit : Hits size start demand.address
        · have kept : serve size (some start) demand = start := by simp [serve, hit]
          have ownAbove : limit ≤ demand.own := by
            by_contra below
            have exact := exposed demand List.mem_cons_self (by omega)
            have reached : start ≤ demand.address := hit.1
            omega
          rw [kept]
          exact ⟨fun _ => ownAbove, fun _ => startAbove⟩
        · simp [serve, hit]
    simp only [starts, List.forall_mem_cons, servedAbove]
    apply and_congr_right
    intro above
    apply inductionHypothesis (some (serve size cached demand))
    · intro start same
      obtain rfl := Option.some.inj same
      exact servedAbove.mpr above
    · exact fun other inside => exposed other (List.mem_cons_of_mem demand inside)

end Lfdk.SlotCache
