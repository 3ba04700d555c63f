import Lfdk.PciScan

/-!
# Which functions get a window

`AssignMMIOBase` looks for the PCI Express capability in the list of a function's
capabilities, and compares the first dword of the function through the ports and through the
window. The list is what the bytes of configuration space make of it: it may be cyclic or run
anywhere, so only so many links are followed.

The pointer to the list is not looked at before it is followed. Where it is zero, which says
that there is no list, the identification of the function is taken for a capability: a vendor
id that ends in 10h is the capability that is sought, and of any other the bytes it leads to
are searched.
-/

namespace Lfdk.PciScan

/-- A function as the calls of `AssignMMIOBase` see it: the bytes of its configuration space,
its first dword through the window, the calls that fail, and what these leave behind. -/
structure Function where
  config : Nat → BitVec 8
  mmio : BitVec 32
  fails : Nat → Bool
  spoiled : Nat → LfddPcix → LfddPcix

namespace Function

variable (function : Function)

/-- The two bytes at a register. -/
def word (register : Nat) : BitVec 32 :=
  (function.config (register + 1) ++ function.config register).setWidth 32

/-- The first dword through the ports. -/
def dword : BitVec 32 :=
  (function.config 3 ++ function.config 2) ++ (function.config 1 ++ function.config 0)

/-- The driver, which counts its calls. Only the two commands of `AssignMMIOBase` are
answered. -/
def ioctl : Ioctl LfddPcix Nat := fun operation target calls =>
  if function.fails calls then (false, function.spoiled calls target, calls + 1)
  else
    match operation with
    | .readWord => (true, { target with buf := function.word target.reg.toNat }, calls + 1)
    | .readDword =>
      (true, { target with buf := if target.phyBase = 0 then function.dword else function.mmio },
        calls + 1)
    | _ => (true, target, calls + 1)

/-- The list of capabilities from a pointer on holds the one of PCI Express, with at most so
many links followed. -/
def Contains : Nat → BitVec 8 → Prop
  | 0, pointer => pointer ≠ 0 ∧ function.config pointer.toNat = 0x10
  | links + 1, pointer =>
    pointer ≠ 0 ∧ (function.config pointer.toNat = 0x10 ∨
      Contains links (function.config (pointer.toNat + 1)))

/-- What the walk takes for the capability comes after so many links, if the first pointer is
not looked at. -/
def FoundAfter : Nat → BitVec 8 → Prop
  | 0, pointer => function.config pointer.toNat = 0x10
  | links + 1, pointer =>
    function.config pointer.toNat ≠ 0x10 ∧ function.config (pointer.toNat + 1) ≠ 0 ∧
      FoundAfter links (function.config (pointer.toNat + 1))

/-- The function is one of PCI Express, as far as can be told. -/
def IsExpress : Prop :=
  function.Contains 64 (function.config 0x34) ∧ function.dword ≠ 0 ∧
    function.dword = function.mmio

/-- The detection is exact: it makes at most 68 calls, and the record has the window if no
call failed and the function is one of PCI Express, and none otherwise. -/
def DetectionExact (pcixMmioBase : BitVec 64) (target : LfddPcix) (record : PciData) : Prop :=
  (assignMMIOBase function.ioctl pcixMmioBase target record 0).2.2 ≤ 68 ∧
    ((assignMMIOBase function.ioctl pcixMmioBase target record 0).2.1.phyBase = pcixMmioBase ↔
      (∀ call < (assignMMIOBase function.ioctl pcixMmioBase target record 0).2.2,
        function.fails call = false) ∧ function.IsExpress) ∧
    ((assignMMIOBase function.ioctl pcixMmioBase target record 0).2.1.phyBase ≠ pcixMmioBase →
      (assignMMIOBase function.ioctl pcixMmioBase target record 0).2.1.phyBase = 0)

/-- There is no list, and the identification of the function leads to what is taken for the
capability, with no call failing on the way. -/
def Mistaken : Prop :=
  function.config 0x34 = 0 ∧ function.dword ≠ 0 ∧ function.dword = function.mmio ∧
    ∃ links ≤ 64, function.FoundAfter links 0 ∧ ∀ call < links + 4, function.fails call = false

/-- A list holds the capability if it begins and the walk finds it. -/
theorem contains_iff (limit : Nat) (pointer : BitVec 8) :
    function.Contains limit pointer ↔
      pointer ≠ 0 ∧ ∃ links ≤ limit, function.FoundAfter links pointer := by
  induction limit generalizing pointer with
  | zero =>
    constructor
    · rintro ⟨begins, express⟩
      exact ⟨begins, 0, Nat.le_refl 0, express⟩
    · rintro ⟨begins, links, few, found⟩
      obtain rfl := Nat.le_zero.mp few
      exact ⟨begins, found⟩
  | succ limit inductionHypothesis =>
    rw [Contains, inductionHypothesis]
    refine and_congr_right fun _ => ?_
    constructor
    · rintro (express | ⟨next, links, few, found⟩)
      · exact ⟨0, Nat.zero_le _, express⟩
      · by_cases express : function.config pointer.toNat = 0x10
        · exact ⟨0, Nat.zero_le _, express⟩
        · exact ⟨links + 1, Nat.succ_le_succ few, express, next, found⟩
    · rintro ⟨links, few, found⟩
      cases links with
      | zero => exact Or.inl found
      | succ links => exact Or.inr ⟨found.2.1, links, Nat.le_of_succ_le_succ few, found.2.2⟩

/-- The low byte of a word of the configuration space is the byte at its register, -/
theorem word_low (register : Nat) :
    (function.word register).setWidth 8 = function.config register := by
  apply BitVec.eq_of_getLsbD_eq
  intro i inside
  rw [word, BitVec.getLsbD_setWidth, BitVec.getLsbD_setWidth, BitVec.getLsbD_append,
    if_pos inside, decide_eq_true inside, decide_eq_true (by omega : i < 32), Bool.true_and,
    Bool.true_and]

/-- and the high byte is that of the next register. -/
theorem word_high (register : Nat) :
    (function.word register >>> 8).setWidth 8 = function.config (register + 1) := by
  apply BitVec.eq_of_getLsbD_eq
  intro i inside
  rw [word, BitVec.getLsbD_setWidth, BitVec.getLsbD_ushiftRight, BitVec.getLsbD_setWidth,
    BitVec.getLsbD_append, if_neg (by omega), decide_eq_true inside,
    decide_eq_true (by omega : 8 + i < 32), Bool.true_and, Bool.true_and,
    Nat.add_sub_cancel_left]

/-- A pointer to a capability is the register with its number, as eight bits fit sixteen. -/
theorem pointer_register (pointer : BitVec 8) : (pointer.setWidth 16).toNat = pointer.toNat := by
  have small := pointer.isLt
  rw [BitVec.toNat_setWidth]
  omega

/-- The pointer in the low byte of a word, as a register. -/
theorem word_pointer (register : Nat) :
    ((function.word register &&& 0xff).setWidth 16).toNat = (function.config register).toNat := by
  have low : (function.word register &&& 0xff).setWidth 16 =
      ((function.word register).setWidth 8).setWidth 16 := by
    apply BitVec.eq_of_toNat_eq
    have mask : (0xff : BitVec 32).toNat = 2 ^ 8 - 1 := rfl
    rw [BitVec.toNat_setWidth, BitVec.toNat_and, mask, Nat.and_two_pow_sub_one_eq_mod,
      BitVec.toNat_setWidth, BitVec.toNat_setWidth]
  rw [low, word_low, pointer_register]

section Calls

variable {function}

/-- A call that fails leaves what it leaves in the request, and counts. -/
theorem ioctl_failed {calls : Nat} (fails : function.fails calls = true) (operation : Operation)
    (target : LfddPcix) :
    function.ioctl operation target calls = (false, function.spoiled calls target, calls + 1) :=
  if_pos fails

/-- One that works reads the word at the register of the request, -/
theorem ioctl_word {calls : Nat} (works : function.fails calls = false) (target : LfddPcix) :
    function.ioctl .readWord target calls =
      (true, { target with buf := function.word target.reg.toNat }, calls + 1) :=
  if_neg (Bool.eq_false_iff.mp works)

/-- and a dword through the window or the ports, by the base of the request. -/
theorem ioctl_dword {calls : Nat} (works : function.fails calls = false) (target : LfddPcix) :
    function.ioctl .readDword target calls =
      (true, { target with buf := if target.phyBase = 0 then function.dword else function.mmio },
        calls + 1) :=
  if_neg (Bool.eq_false_iff.mp works)

end Calls

/-- What a walk from a pointer on leaves behind, whose capability has been read already. -/
structure Walked (limit : Nat) (pointer : BitVec 8) (calls : Nat)
    (left : Bool × BitVec 8 × LfddPcix × Nat) : Prop where
  bounded : left.2.2.2 ≤ calls + limit
  /-- a walk that stops has made a call that failed, before the capability was found -/
  stopped : left.1 = false → ∃ call < left.2.2.2, function.fails call = true ∧
    ∀ links, function.FoundAfter links pointer → call < calls + links
  /-- any other walk is one to the capability, or there is none to be found -/
  ended : left.1 = true →
    (left.2.1 = 0x10 ∧ ∃ links ≤ limit, function.FoundAfter links pointer ∧
      left.2.2.2 = calls + links ∧
      ∀ call, calls ≤ call → call < calls + links → function.fails call = false) ∨
    (left.2.1 ≠ 0x10 ∧ ∀ links ≤ limit, ¬ function.FoundAfter links pointer)

/-- The walk, with the links that are left to follow, ends as `Walked` has it. By induction on these
links. -/
theorem walkCapabilities_walked (limit : Nat) (pointer : BitVec 8) (target : LfddPcix)
    (calls : Nat) :
    function.Walked limit pointer calls
      (walkCapabilities function.ioctl limit (function.config pointer.toNat)
        (function.config (pointer.toNat + 1)) target calls) := by
  induction limit generalizing pointer target calls with
  | zero =>
    refine ⟨Nat.le_refl calls, fun failed => (nomatch failed), fun _ => ?_⟩
    by_cases express : function.config pointer.toNat = 0x10
    · left
      exact ⟨express, 0, Nat.le_refl 0, express, rfl, fun call from_ below => by omega⟩
    · right
      refine ⟨express, fun links few found => ?_⟩
      obtain rfl := Nat.le_zero.mp few
      exact express found
  | succ limit inductionHypothesis =>
    rw [walkCapabilities]
    by_cases goes : function.config (pointer.toNat + 1) ≠ 0 ∧
        function.config pointer.toNat ≠ 0x10
    · rw [if_pos goes]
      obtain ⟨next, other⟩ := goes
      have beyond : ∀ links, function.FoundAfter links pointer →
          ∃ more, links = more + 1 ∧
            function.FoundAfter more (function.config (pointer.toNat + 1)) := by
        intro links found
        cases links with
        | zero => exact absurd found other
        | succ more => exact ⟨more, rfl, found.2.2⟩
      cases fails : function.fails calls with
      | true =>
        simp only [ioctl_failed fails, if_true]
        have made : calls + 1 ≤ calls + (limit + 1) :=
          Nat.add_le_add_left (Nat.le_add_left 1 limit) calls
        refine ⟨made, fun _ => ?_, fun worked => nomatch worked⟩
        refine ⟨calls, Nat.lt_succ_self calls, fails, fun links found => ?_⟩
        obtain ⟨more, rfl, _⟩ := beyond links found
        omega
      | false =>
        simp only [ioctl_word fails, pointer_register, word_low, word_high, Bool.true_eq_false,
          if_false]
        obtain ⟨bounded, stopped, ended⟩ := inductionHypothesis
          (function.config (pointer.toNat + 1))
          { target with
            reg := (function.config (pointer.toNat + 1)).setWidth 16
            buf := function.word (function.config (pointer.toNat + 1)).toNat } (calls + 1)
        refine ⟨by omega, fun failed => ?_, fun worked => ?_⟩
        · obtain ⟨call, made, fail, before⟩ := stopped failed
          refine ⟨call, made, fail, fun links found => ?_⟩
          obtain ⟨more, rfl, later⟩ := beyond links found
          have bound := before more later
          omega
        · rcases ended worked with ⟨express, links, few, found, made, works⟩ | ⟨none, absent⟩
          · left
            refine ⟨express, links + 1, Nat.succ_le_succ few, ⟨other, next, found⟩, by omega, ?_⟩
            intro call from_ below
            rcases Nat.eq_or_lt_of_le from_ with rfl | later
            · exact fails
            · exact works call later (by omega)
          · right
            refine ⟨none, fun links few found => ?_⟩
            obtain ⟨more, rfl, later⟩ := beyond links found
            exact absent more (Nat.le_of_succ_le_succ few) later
    · rw [if_neg goes]
      refine ⟨Nat.le_add_right .., fun failed => (nomatch failed), fun _ => ?_⟩
      by_cases express : function.config pointer.toNat = 0x10
      · left
        exact ⟨express, 0, Nat.zero_le _, express, rfl, fun call from_ below => by omega⟩
      · right
        refine ⟨express, fun links few found => ?_⟩
        cases links with
        | zero => exact express found
        | succ more => exact goes ⟨found.2.1, express⟩

/-- The capability is found in one place only: a walk that finds it goes no further. -/
theorem foundAfter_unique {pointer : BitVec 8} {first second : Nat}
    (found : function.FoundAfter first pointer) (again : function.FoundAfter second pointer) :
    first = second := by
  induction first generalizing pointer second with
  | zero =>
    cases second with
    | zero => rfl
    | succ second => exact absurd found again.1
  | succ first inductionHypothesis =>
    cases second with
    | zero => exact absurd again found.1
    | succ second => exact congrArg (· + 1) (inductionHypothesis found.2.2 again.2.2)

/-- The comparison assigns the window, or something is not as it should be. -/
theorem compareDwords_cases {pcixMmioBase : BitVec 64} (window : pcixMmioBase ≠ 0)
    (target : LfddPcix) (calls : Nat)
    (left : BitVec 64 × LfddPcix × Nat)
    (compared : compareDwords function.ioctl pcixMmioBase target calls = left) :
    (left.1 = pcixMmioBase ∧ left.2.2 = calls + 2 ∧ function.fails calls = false ∧
      function.fails (calls + 1) = false ∧ function.dword ≠ 0 ∧
      function.dword = function.mmio) ∨
    (left.1 = 0 ∧ left.2.2 ≤ calls + 2 ∧
      (function.dword = 0 ∨ function.dword ≠ function.mmio ∨
        ∃ call < left.2.2, function.fails call = true ∧ call < calls + 2)) := by
  unfold compareDwords at compared
  cases first : function.fails calls with
  | true =>
    right
    simp only [ioctl_failed first, true_or, if_true] at compared
    subst compared
    refine ⟨rfl, Nat.le_succ _, Or.inr (Or.inr ⟨calls, Nat.lt_succ_self calls, first, ?_⟩)⟩
    omega
  | false =>
    simp only [ioctl_dword first, if_true, Bool.true_eq_false, false_or] at compared
    by_cases zero : function.dword = 0
    · right
      rw [if_pos zero] at compared
      subst compared
      exact ⟨rfl, Nat.le_succ _, Or.inl zero⟩
    · rw [if_neg zero] at compared
      cases second : function.fails (calls + 1) with
      | true =>
        right
        simp only [ioctl_failed second, Bool.false_eq_true, false_and, if_false] at compared
        subst compared
        refine ⟨rfl, Nat.le_refl _, Or.inr (Or.inr ⟨calls + 1, Nat.lt_succ_self _, second, ?_⟩)⟩
        omega
      | false =>
        simp only [ioctl_dword second, if_neg window, true_and] at compared
        by_cases equal : function.dword = function.mmio
        · left
          rw [if_pos equal] at compared
          subst compared
          exact ⟨rfl, rfl, rfl, rfl, zero, equal⟩
        · right
          rw [if_neg equal] at compared
          subst compared
          exact ⟨rfl, Nat.le_refl _, Or.inr (Or.inl equal)⟩

/-- The window is assigned: the capability is found behind the pointer at 34h, the dwords
agree, and no call fails. -/
def Assigns (pcixMmioBase : BitVec 64) (left : BitVec 64 × LfddPcix × Nat) : Prop :=
  left.1 = pcixMmioBase ∧ function.dword ≠ 0 ∧ function.dword = function.mmio ∧
    ∃ links ≤ 64, function.FoundAfter links (function.config 0x34) ∧ left.2.2 = links + 4 ∧
      ∀ call < links + 4, function.fails call = false

/-- It is not: the dwords do not agree, there is no capability to be found, or a call fails
before it has been found and the dwords have been compared. -/
def Refuses (left : BitVec 64 × LfddPcix × Nat) : Prop :=
  left.1 = 0 ∧ left.2.2 ≤ 68 ∧
    (function.dword = 0 ∨ function.dword ≠ function.mmio ∨
      (∀ links ≤ 64, ¬ function.FoundAfter links (function.config 0x34)) ∨
      ∃ call < left.2.2, function.fails call = true ∧
        ∀ links ≤ 64, function.FoundAfter links (function.config 0x34) → call < links + 4)

/-- A call fails before anything is found: the result is an error and there is no base. -/
theorem refuses_failed {target : LfddPcix} {call calls : Nat} (made : call < calls)
    (few : calls ≤ 68) (fails : function.fails call = true)
    (before : ∀ links ≤ 64, function.FoundAfter links (function.config 0x34) → call < links + 4) :
    function.Refuses (0, target, calls) :=
  ⟨rfl, few, Or.inr (Or.inr (Or.inr ⟨call, made, fails, before⟩))⟩

/-- Behind the capability, the comparison decides whether the window is assigned or refused. -/
theorem compareDwords_found {pcixMmioBase : BitVec 64} (window : pcixMmioBase ≠ 0) {links : Nat}
    (few : links ≤ 64) (found : function.FoundAfter links (function.config 0x34))
    (works : ∀ call < links + 2, function.fails call = false) (target : LfddPcix) :
    function.Assigns pcixMmioBase
        (compareDwords function.ioctl pcixMmioBase target (links + 2)) ∨
      function.Refuses (compareDwords function.ioctl pcixMmioBase target (links + 2)) := by
  rcases function.compareDwords_cases window target (links + 2) _ rfl with
    ⟨assigned, last, third, fourth, some, equal⟩ | ⟨zero, last, wrong⟩
  · left
    refine ⟨assigned, some, equal, links, few, found, last, fun call below => ?_⟩
    rcases (by omega : call < links + 2 ∨ call = links + 2 ∨ call = links + 2 + 1) with
      before | rfl | rfl
    · exact works call before
    · exact third
    · exact fourth
  · right
    refine ⟨zero, by omega, ?_⟩
    rcases wrong with none | differs | ⟨call, made, fails, bound⟩
    · exact Or.inl none
    · exact Or.inr (Or.inl differs)
    · refine Or.inr (Or.inr (Or.inr ⟨call, made, fails, fun other _ again => ?_⟩))
      have same := function.foundAfter_unique found again
      omega

/-- What `findBase` does, in all cases: it assigns the window as it should, or refuses for a reason
it has. -/
theorem findBase_cases {pcixMmioBase : BitVec 64} (window : pcixMmioBase ≠ 0)
    (target : LfddPcix) :
    function.Assigns pcixMmioBase (findBase function.ioctl pcixMmioBase target 0) ∨
      function.Refuses (findBase function.ioctl pcixMmioBase target 0) := by
  unfold findBase
  cases first : function.fails 0 with
  | true =>
    right
    simp only [ioctl_failed first, if_true]
    exact function.refuses_failed (Nat.lt_succ_self 0) (by decide) first fun links _ _ => by omega
  | false =>
    simp only [ioctl_word first, Bool.true_eq_false, if_false]
    cases second : function.fails 1 with
    | true =>
      right
      simp only [ioctl_failed second, if_true]
      exact function.refuses_failed (Nat.lt_succ_self 1) (by decide) second
        fun links _ _ => by omega
    | false =>
      have pointer : ((function.word (0x34 : BitVec 16).toNat &&& 0xff).setWidth 16).toNat =
          (function.config 0x34).toNat := word_pointer function 0x34
      simp only [ioctl_word second, Bool.true_eq_false, if_false, pointer, word_low, word_high]
      generalize ({ target with reg := _, buf := _ } : LfddPcix) = request
      have walked := function.walkCapabilities_walked 64 (function.config 0x34) request 2
      obtain ⟨bounded, stopped, ended⟩ := walked
      rcases walk : walkCapabilities function.ioctl 64
          (function.config (function.config 0x34).toNat)
          (function.config ((function.config 0x34).toNat + 1)) request 2
        with ⟨success, capId, walkedTarget, calls⟩
      rw [walk] at bounded stopped ended
      simp only at bounded stopped ended ⊢
      have short : calls ≤ 68 := by omega
      cases success with
      | false =>
        right
        obtain ⟨call, made, fails, before⟩ := stopped rfl
        rw [if_neg fun both => Bool.false_ne_true both.1]
        refine function.refuses_failed made short fails fun links _ found => ?_
        have bound := before links found
        omega
      | true =>
        rcases ended rfl with ⟨express, links, few, found, made, works⟩ | ⟨none, absent⟩
        · obtain rfl : calls = links + 2 := by omega
          have working : ∀ call < links + 2, function.fails call = false := by
            intro call below
            rcases (by omega : call = 0 ∨ call = 1 ∨ 2 ≤ call) with rfl | rfl | later
            · exact first
            · exact second
            · exact works call later (by omega)
          rw [if_pos ⟨rfl, express⟩]
          exact function.compareDwords_found window few found working walkedTarget
        · right
          rw [if_neg fun both => none both.2]
          exact ⟨rfl, short, Or.inr (Or.inr (Or.inl absent))⟩

end Function

/-- The detection is exact unless it takes the identification of a function without a list for
a capability, and gets to the one of PCI Express from there. -/
theorem detection_exact_iff (function : Function) (pcixMmioBase : BitVec 64)
    (target : LfddPcix) (record : PciData) (window : pcixMmioBase ≠ 0) :
    function.DetectionExact pcixMmioBase target record ↔ ¬ function.Mistaken := by
  have cases := function.findBase_cases window target
  rcases ran : findBase function.ioctl pcixMmioBase target 0 with ⟨phyBase, request, calls⟩
  have assigned : assignMMIOBase function.ioctl pcixMmioBase target record 0 =
      (request, { record with phyBase := phyBase }, calls) := by
    rw [assignMMIOBase, if_neg window, ran]
  rw [ran] at cases
  rw [Function.DetectionExact, assigned]
  simp only
  rcases cases with ⟨base, some, equal, links, few, found, made, works⟩ | ⟨zero, few, wrong⟩
  · simp only at base made
    by_cases begins : function.config 0x34 = 0
    · rw [begins] at found
      refine iff_of_false ?_ fun exact_ => exact_ ⟨begins, some, equal, links, few, found, works⟩
      rintro ⟨_, both, _⟩
      have list := ((function.contains_iff 64 _).mp (both.mp base).2.1).1
      exact list begins
    · have list : function.IsExpress :=
        ⟨(function.contains_iff 64 _).mpr ⟨begins, links, few, found⟩, some, equal⟩
      have working : ∀ call < calls, function.fails call = false := made ▸ works
      refine iff_of_true ⟨by omega, iff_of_true base ⟨working, list⟩, fun other => ?_⟩ ?_
      · exact absurd base other
      · exact fun mistaken => begins mistaken.1
  · simp only at zero few wrong
    have none : phyBase ≠ pcixMmioBase := fun same => window (same.symm.trans zero)
    refine iff_of_true ⟨few, iff_of_false none ?_, fun _ => zero⟩ ?_
    · rintro ⟨works, list, some, equal⟩
      obtain ⟨_, links, short, found⟩ := (function.contains_iff 64 _).mp list
      rcases wrong with missing | differs | absent | ⟨call, made, fails, _⟩
      · exact some missing
      · exact differs equal
      · exact absent links short found
      · exact Bool.false_ne_true ((works call made).symm.trans fails)
    · rintro ⟨begins, some, equal, links, short, found, works⟩
      rw [begins] at wrong
      rcases wrong with missing | differs | absent | ⟨call, made, fails, before⟩
      · exact some missing
      · exact differs equal
      · exact absent links short found
      · have bound := before links short found
        exact Bool.false_ne_true ((works call bound).symm.trans fails)

/-- A function of PCI Express, whose list begins at 40h. -/
def expressFunction : Function :=
  ⟨fun register => if register = 0x34 then 0x40 else if register = 0x40 then 0x10 else 0x86,
    0x86868686, fun _ => false, fun _ target => target⟩

/-- The detection is exact for a function with the capability, whose calls all work. -/
theorem express_function_exact :
    expressFunction.DetectionExact 0xe0000000 (LfddPcix.atRegister 0 0 0) PciData.zero :=
  (detection_exact_iff expressFunction 0xe0000000 (LfddPcix.atRegister 0 0 0) PciData.zero
    (by decide)).mpr fun mistaken => absurd mistaken.1 (by decide)

/-- A function whose vendor id is 9710h and that has no list. -/
def conventionalFunction : Function :=
  ⟨fun register => [0x10, 0x97, 0x15, 0x98].getD register 0, 0x98159710, fun _ => false,
    fun _ target => target⟩

/-- It gets the window, though its capability list is empty, so detection is not exact there. -/
theorem vendor_taken_for_express :
    conventionalFunction.config 0x34 = 0 ∧
      (assignMMIOBase conventionalFunction.ioctl 0xe0000000 (LfddPcix.atRegister 0 0 0)
        PciData.zero 0).2.1.phyBase = 0xe0000000 ∧
      ¬ conventionalFunction.DetectionExact 0xe0000000 (LfddPcix.atRegister 0 0 0)
        PciData.zero := by
  have base : (assignMMIOBase conventionalFunction.ioctl 0xe0000000 (LfddPcix.atRegister 0 0 0)
      PciData.zero 0).2.1.phyBase = 0xe0000000 := rfl
  refine ⟨rfl, base, ?_⟩
  rintro ⟨_, both, _⟩
  exact (both.mp base).2.1.1 rfl

end Lfdk.PciScan
