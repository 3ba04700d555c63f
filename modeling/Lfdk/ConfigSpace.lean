import Lfdk.PciAddress
import Lfdk.RegisterBits

/-!
# The configuration space behind the ports and the ECAM window

A PCI function has 4096 bytes of registers. The ports show the first 256 of them
and the ECAM window shows all, one page for each function. Whether a window does
show what the ports show is a property of the platform; a platform made of plain
register bits has it.
-/

namespace Lfdk

open RegisterBits

universe u
variable {σ : Type u}

/-- A base that can hold an ECAM window: page-aligned, ending by 4 GiB. Zero is
not a base for the driver. -/
structure EcamWindow (base : BitVec 64) : Prop where
  nonzero : base ≠ 0
  aligned : 4096 ∣ base.toNat
  fits : base.toNat + 2 ^ 28 ≤ 2 ^ 32

/-- The first 256 bytes of every function's page in the window at `base` are the
dwords that the ports show for that function. The function number is
bus·256 + device·8 + function. -/
structure ExposesEcam (platform : Platform σ) (base : Nat) : Prop where
  read : ∀ device function register, function < 2 ^ 16 → register < 2 ^ 8 → 4 ∣ register →
    platform.memoryRead device (base + function * 2 ^ 12 + register) =
      platform.configRead device (BitVec.ofNat 32 (2 ^ 31 + function * 2 ^ 8 + register))
  write : ∀ device function register value, function < 2 ^ 16 → register < 2 ^ 8 →
    4 ∣ register →
    platform.memoryWrite device (base + function * 2 ^ 12 + register) value =
      platform.configWrite device (BitVec.ofNat 32 (2 ^ 31 + function * 2 ^ 8 + register)) value

/-- The dwords of all functions, by function number and dword number. -/
abbrev ConfigSpace := Nat → Nat → BitVec 32

/-- What each bit of each dword of each function does with a written value. -/
abbrev RegisterKinds := Nat → Nat → Nat → BitKind

namespace ConfigSpace

/-- One byte of a function. -/
def byte (space : ConfigSpace) (function number : Nat) : BitVec 8 :=
  RegisterBits.byte (number % 4) (space function (number / 4))

/-- Write one dword of one function. -/
def write (kinds : RegisterKinds) (space : ConfigSpace) (function dword : Nat)
    (value : BitVec 32) : ConfigSpace :=
  Function.update space function (Function.update (space function) dword
    (written (kinds function dword) (space function dword) value))

/-- The dword that is written becomes what its bits make of the value: each bit is read-only,
read-write, or cleared by ones. -/
theorem write_same (kinds : RegisterKinds) (space : ConfigSpace) (function dword : Nat)
    (value : BitVec 32) :
    space.write kinds function dword value function dword =
      written (kinds function dword) (space function dword) value := by
  simp [write]

/-- The other dwords of all functions stay as they are. With the lemma before, this is all that a
write does. -/
theorem write_other (kinds : RegisterKinds) (space : ConfigSpace) (function dword : Nat)
    (value : BitVec 32) (otherFunction otherDword : Nat)
    (apart : ¬ (otherFunction = function ∧ otherDword = dword)) :
    space.write kinds function dword value otherFunction otherDword =
      space otherFunction otherDword := by
  by_cases sameFunction : otherFunction = function
  · subst sameFunction
    have differ : otherDword ≠ dword := fun same => apart ⟨rfl, same⟩
    simp [write, differ]
  · simp [write, sameFunction]

/-- After one dword was written, the bytes outside a set keep their values exactly
when the bytes of that dword outside the set do. -/
theorem write_keeps_iff (kinds : RegisterKinds) (space : ConfigSpace) (Named : Nat → Nat → Prop) (function dword : Nat)
    (value : BitVec 32) :
    (∀ other number, ¬ Named other number →
        (space.write kinds function dword value).byte other number = space.byte other number) ↔
      ∀ bit < 32, ¬ Named function (4 * dword + bit / 8) →
        (kinds function dword bit).next ((space function dword).getLsbD bit)
          (value.getLsbD bit) = (space function dword).getLsbD bit := by
  have chosen := bytes_kept_iff
    (fun number => number < 4 ∧ ¬ Named function (4 * dword + number))
    (kinds function dword) (space function dword) value
  constructor
  · intro kept bit inside unnamed
    refine chosen.mp ?_ bit inside ⟨by omega, unnamed⟩
    rintro number ⟨small, outside⟩
    have same := kept function (4 * dword + number) outside
    have located : (4 * dword + number) / 4 = dword := by omega
    have offset : (4 * dword + number) % 4 = number := by omega
    rwa [byte, byte, located, offset, write_same] at same
  · intro kept other number outside
    by_cases target : other = function ∧ number / 4 = dword
    · obtain ⟨rfl, rfl⟩ := target
      have located : 4 * (number / 4) + number % 4 = number := by omega
      rw [byte, byte, write_same]
      refine chosen.mpr (fun bit inside named => kept bit inside named.2) _ ⟨by omega, ?_⟩
      rwa [located]
    · rw [byte, byte, write_other _ _ _ _ _ _ _ target]

end ConfigSpace

/-- A platform of plain register bits. The ports select a function's dword in
bits 23 to 2 of the address; the window at `ecam` gives each function a page.
Outside the window, reads deliver all ones and writes are lost. -/
def registerPlatform (kinds : RegisterKinds) (ecam : Nat) (highMemory : BitVec 64)
    (ioremapSucceeds : Nat → Bool) : Platform ConfigSpace where
  configRead := fun space address =>
    space (address.toNat / 2 ^ 8 % 2 ^ 16) (address.toNat % 2 ^ 8 / 4)
  configWrite := fun space address value =>
    space.write kinds (address.toNat / 2 ^ 8 % 2 ^ 16) (address.toNat % 2 ^ 8 / 4) value
  memoryRead := fun space place =>
    if ecam ≤ place ∧ place < ecam + 2 ^ 28 then
      space ((place - ecam) / 2 ^ 12) ((place - ecam) % 2 ^ 12 / 4)
    else ~~~0
  memoryWrite := fun space place value =>
    if ecam ≤ place ∧ place < ecam + 2 ^ 28 then
      space.write kinds ((place - ecam) / 2 ^ 12) ((place - ecam) % 2 ^ 12 / 4) value
    else space
  strayRead := fun _ => ~~~0
  highMemory := highMemory
  ioremapSucceeds := ioremapSucceeds

/-- The address that the ports use for a register selects its function and its
dword. -/
theorem port_address (function register : Nat) (functionFits : function < 2 ^ 16)
    (registerFits : register < 2 ^ 8) :
    (BitVec.ofNat 32 (2 ^ 31 + function * 2 ^ 8 + register)).toNat / 2 ^ 8 % 2 ^ 16 = function ∧
      (BitVec.ofNat 32 (2 ^ 31 + function * 2 ^ 8 + register)).toNat % 2 ^ 8 / 4 =
        register / 4 := by
  rw [BitVec.toNat_ofNat]
  omega

/-- A place in the window splits into a page and an offset. -/
theorem page_place (ecam function register : Nat) (functionFits : function < 2 ^ 16)
    (registerFits : register < 2 ^ 12) :
    let place := ecam + function * 2 ^ 12 + register
    (ecam ≤ place ∧ place < ecam + 2 ^ 28) ∧ (place - ecam) / 2 ^ 12 = function ∧
      (place - ecam) % 2 ^ 12 / 4 = register / 4 := by
  intro place
  omega

section Registers

variable (kinds : RegisterKinds) (ecam : Nat) (highMemory : BitVec 64)
  (ioremapSucceeds : Nat → Bool) (space : ConfigSpace) (function register : Nat)

/-- A load from the window gives the dword of the function and register that its offset stands for,
twelve bits for a register. -/
theorem registers_memoryRead (functionFits : function < 2 ^ 16) (registerFits : register < 2 ^ 12) :
    (registerPlatform kinds ecam highMemory ioremapSucceeds).memoryRead space
        (ecam + function * 2 ^ 12 + register) =
      space function (register / 4) := by
  obtain ⟨inside, page, dword⟩ := page_place ecam function register functionFits registerFits
  simp only [registerPlatform]
  rw [if_pos inside, page, dword]

/-- A store to the window is a write of this dword, with the same rules for its bits as a write
through the ports. -/
theorem registers_memoryWrite (value : BitVec 32) (functionFits : function < 2 ^ 16)
    (registerFits : register < 2 ^ 12) :
    (registerPlatform kinds ecam highMemory ioremapSucceeds).memoryWrite space
        (ecam + function * 2 ^ 12 + register) value =
      space.write kinds function (register / 4) value := by
  obtain ⟨inside, page, dword⟩ := page_place ecam function register functionFits registerFits
  simp only [registerPlatform]
  rw [if_pos inside, page, dword]

/-- A platform of register bits shows the same dwords by both methods. -/
theorem registers_exposed :
    ExposesEcam (registerPlatform kinds ecam highMemory ioremapSucceeds) ecam := by
  constructor
  · intro device function register functionFits registerFits _
    obtain ⟨selected, dword⟩ := port_address function register functionFits registerFits
    rw [registers_memoryRead _ _ _ _ _ _ _ functionFits (by omega)]
    simp only [registerPlatform]
    rw [selected, dword]
  · intro device function register value functionFits registerFits _
    obtain ⟨selected, dword⟩ := port_address function register functionFits registerFits
    rw [registers_memoryWrite _ _ _ _ _ _ _ _ functionFits (by omega)]
    simp only [registerPlatform]
    rw [selected, dword]

end Registers

end Lfdk
