import Lfdk.ByteMemory
import Lfdk.RegisterFrames

/-!
# The registers of a function as bytes

A request names a byte of the configuration space, and the dword it lies in is read and
written by the method of the request. From a cache that holds an aligned block or none, a
request for a single value is served from its own dword, and leaves such a cache.

Registers one after another in a function are bytes one after another in this view, and a
space whose registers keep what is written to them is one whose dwords do.
-/

namespace Lfdk

open RegisterBits

universe u
variable {σ : Type u} (platform : Platform σ)

namespace LfddPcix

/-- The dword that a request's register lies in. -/
def dwordAt (pci : LfddPcix) (device : σ) : BitVec 32 :=
  if pci.phyBase = 0 then platform.configRead device pci.selected
  else platform.memoryRead device (pci.addr &&& ~~~3).toNat

/-- The device after this dword was written. -/
def withDword (pci : LfddPcix) (device : σ) (value : BitVec 32) : σ :=
  if pci.phyBase = 0 then platform.configWrite device pci.selected value
  else platform.memoryWrite device (pci.addr &&& ~~~3).toNat value

/-- The byte at a request's register. -/
def registerByte (pci : LfddPcix) (device : σ) : BitVec 8 :=
  byte (pci.reg.toNat % 4) (pci.dwordAt platform device)

end LfddPcix

/-- A byte read so many registers further on. -/
def Request.byteAt (request : Request) (count : Nat) : Request :=
  ⟨.readByte, { request.pci with reg := request.pci.reg + BitVec.ofNat 16 count }⟩

section Further

variable (request : Request) (count : Nat) (inside : request.pci.reg.toNat + count < request.space)

include inside

/-- The byte of a request with this number has the register so far behind that of the request. -/
theorem byteAt_reg : (request.byteAt count).pci.reg.toNat = request.pci.reg.toNat + count := by
  have bound : request.space ≤ 2 ^ 12 := by
    rw [Request.space]
    split
    · decide
    · exact le_refl _
  rw [Request.byteAt, BitVec.toNat_add, BitVec.toNat_ofNat]
  omega

/-- Its address is so much higher, for a base at a page boundary. -/
theorem byteAt_addr (paged : 4096 ∣ request.pci.phyBase.toNat) :
    (request.byteAt count).pci.addr.toNat = request.pci.addr.toNat + count := by
  have reg := byteAt_reg request count inside
  have function : (request.byteAt count).pci.function = request.pci.function := rfl
  by_cases ports : request.pci.phyBase = 0
  · have further : (request.byteAt count).pci.phyBase = 0 := ports
    rw [Request.space, if_pos ports] at inside
    have low : (request.byteAt count).pci.reg.toNat < 2 ^ 8 := by omega
    rw [addr_ports _ ports, addr_ports _ further, merged_low request.pci (by omega),
      merged_low _ low, function, reg]
    omega
  · have further : (request.byteAt count).pci.phyBase ≠ 0 := ports
    have base : (request.byteAt count).pci.phyBase = request.pci.phyBase := rfl
    rw [Request.space, if_neg ports] at inside
    obtain ⟨pages, multiple⟩ := paged
    rw [LfddPcix.addr, LfddPcix.addr, BitVec.toNat_setWidth, BitVec.toNat_setWidth,
      calPcixAddr_mmio _ ports, calPcixAddr_mmio _ further, function, base, reg, multiple]
    omega

/-- A register further on in the same dword is addressed through the same aligned address. -/
theorem byteAt_dword (paged : 4096 ∣ request.pci.phyBase.toNat)
    (within : (request.pci.reg.toNat + count) / 4 = request.pci.reg.toNat / 4) :
    (request.byteAt count).pci.addr &&& ~~~3 = request.pci.addr &&& ~~~3 := by
  have next := byteAt_addr request count inside paged
  have lane := addr_lane request.pci paged
  rw [lane_toNat] at lane
  rw [← BitVec.toNat_inj, dword_toNat, dword_toNat, next]
  omega

end Further

/-- The selected address of the ports is the dword's address too, so both methods are one formula.
-/
theorem selected_dword (pci : LfddPcix) : pci.selected = pci.addr &&& ~~~3 := by
  rw [LfddPcix.selected]
  rfl

/-- Registers of one dword share it: both requests see the same dword of the device. -/
theorem dwordAt_shared (request : Request) (count : Nat)
    (inside : request.pci.reg.toNat + count < request.space)
    (paged : 4096 ∣ request.pci.phyBase.toNat)
    (within : (request.pci.reg.toNat + count) / 4 = request.pci.reg.toNat / 4) (device : σ) :
    (request.byteAt count).pci.dwordAt platform device = request.pci.dwordAt platform device := by
  have same := byteAt_dword request count inside paged within
  have base : (request.byteAt count).pci.phyBase = request.pci.phyBase := rfl
  rw [LfddPcix.dwordAt, LfddPcix.dwordAt, base, selected_dword, selected_dword, same]

section Answers

variable (pci : LfddPcix) (paged : 4096 ∣ pci.phyBase.toNat) (dword : BitVec 32)
  (page : Nat → BitVec 32)

include paged

/-- The shift of a read moves its byte to the front, as a lane is eight bits wide. -/
theorem shift_lane : dword >>> ((pci.addr &&& 0x03) * 8) = dword >>> (8 * (pci.reg.toNat % 4)) := by
  have lane : (pci.addr &&& 0x3).toNat = pci.reg.toNat % 2 ^ 2 := addr_lane pci paged
  have eight : (8 : BitVec 32).toNat = 8 := rfl
  have amount : ((pci.addr &&& 0x3) * 8).toNat = 8 * (pci.reg.toNat % 4) := by
    rw [BitVec.toNat_mul, lane, eight]
    omega
  rw [BitVec.ushiftRight_eq', amount]

/-- A byte read answers with the byte of its register. -/
theorem readByte_answer :
    ((⟨.readByte, pci⟩ : Request).answer dword page).1 =
      some ((byte (pci.reg.toNat % 4) dword).setWidth 32) := by
  simp only [Request.answer, shift_lane pci paged, Option.some.injEq]
  congr 1
  apply BitVec.eq_of_getLsbD_eq
  intro bit small
  have ones : ∀ bit < 8, (0xff : BitVec 32).getLsbD bit = true := by decide
  have wide : bit < 32 := by omega
  rw [getLsbD_byte _ _ _ small, BitVec.getLsbD_setWidth, BitVec.getLsbD_and,
    BitVec.getLsbD_ushiftRight, ones bit small]
  simp [small]

/-- A word read answers with the bytes from its register on to the end of the dword. -/
theorem readWord_answer :
    ((⟨.readWord, pci⟩ : Request).answer dword page).1 =
      some (((dword >>> (8 * (pci.reg.toNat % 4))).setWidth 16).setWidth 32) := by
  simp only [Request.answer, shift_lane pci paged, Option.some.injEq]
  congr 1
  apply BitVec.eq_of_getLsbD_eq
  intro bit small
  have ones : ∀ bit < 16, (0xffff : BitVec 32).getLsbD bit = true := by decide
  rw [BitVec.getLsbD_setWidth, BitVec.getLsbD_setWidth, BitVec.getLsbD_and, ones bit small,
    Bool.and_true]

end Answers

/-- Bytes are equal when they are equal as values of 32 bits. -/
theorem extended_inj (first second : BitVec 8) :
    (some (first.setWidth 32) : Option (BitVec 32)) = some (second.setWidth 32) ↔
      first = second := by
  rw [Option.some.injEq]
  constructor
  · intro same
    have cut := congrArg (BitVec.setWidth 8) same
    rwa [BitVec.setWidth_setWidth_of_le _ (by decide), BitVec.setWidth_setWidth_of_le _ (by decide),
      BitVec.setWidth_eq, BitVec.setWidth_eq] at cut
  · rintro rfl
    rfl

/-- The mapped block, if there is one, begins at a multiple of its size. -/
structure Machine.Paged (machine : Machine σ) : Prop where
  consistent : machine.Consistent
  aligned : ∀ start ∈ machine.window, 256 ∣ start

/-- An answer of one value does not depend on the page, which only a bulk read delivers. -/
theorem answer_value (request : Request) (dword : BitVec 32) (page other : Nat → BitVec 32) :
    (request.answer dword page).1 = (request.answer dword other).1 := by
  obtain ⟨operation, pci⟩ := request
  cases operation <;> rfl

/-- A request for a single value is a transaction on the dword of its register. -/
theorem serve_single (succeeds : ∀ call, platform.ioremapSucceeds call = true) (request : Request)
    (machine : Machine σ) (single : request.operation ≠ .read256byte)
    (accepted : request.refused platform = false) (cache : request.IsMmio → machine.Paged) :
    let dword := request.pci.dwordAt platform machine.device
    (serve platform request machine).1.value = (request.answer dword fun _ => 0).1 ∧
      (serve platform request machine).2.device =
        (request.written dword).elim machine.device
          (request.pci.withDword platform machine.device) ∧
      (request.IsMmio → (serve platform request machine).2.Paged) := by
  intro dword
  by_cases ports : request.pci.phyBase = 0
  · obtain ⟨result, device⟩ := serve_ports platform request machine ports accepted
    have own : dword = platform.configRead machine.device request.pci.selected := if_pos ports
    have put : request.pci.withDword platform machine.device =
        platform.configWrite machine.device request.pci.selected := by
      funext value
      exact if_pos ports
    refine ⟨?_, ?_, fun mmio => absurd ports mmio⟩
    · rw [own, ← answer_value request _ _ fun _ => 0, ← result]
      rfl
    · rw [device, own, put]
  · obtain ⟨consistent, aligned⟩ := cache ports
    have mapped : request.Mapped platform machine := .inr (succeeds _)
    have block : request.demand.own = (addrAlighBuf request.pci.addr).toNat := by
      obtain ⟨operation, pci⟩ := request
      cases operation with
      | read256byte => exact absurd rfl single
      | readByte | readWord | readDword | writeByte | writeWord | writeDword => rfl
    have start := addrAlighBuf_toNat request.pci.addr
    have whole : 256 ∣ request.demand.own := by
      rw [block, start]
      exact Nat.dvd_mul_left _ _
    have served : SlotCache.serve 256 machine.window request.demand = request.demand.own := by
      apply SlotCache.serve_aligned 256 machine.window request.demand aligned whole
      have address : request.demand.address = request.pci.addr.toNat := rfl
      rw [SlotCache.Hits, block, start, address]
      omega
    have place : SlotCache.serve 256 machine.window request.demand +
        (dwordOffset request.pci.addr).toNat = (request.pci.addr &&& ~~~3).toNat := by
      rw [served, block, block_add_offset]
    obtain ⟨result, device⟩ := serve_mmio platform request machine consistent ports accepted mapped
    obtain ⟨after, windowed, _⟩ :=
      serve_mapped platform request machine consistent ports accepted mapped
    rw [place] at result device
    have own : dword = platform.memoryRead machine.device (request.pci.addr &&& ~~~3).toNat :=
      if_neg ports
    have put : request.pci.withDword platform machine.device =
        platform.memoryWrite machine.device (request.pci.addr &&& ~~~3).toNat := by
      funext value
      exact if_neg ports
    refine ⟨?_, ?_, fun _ => ⟨after, ?_⟩⟩
    · rw [own, ← answer_value request _ _ fun _ => 0, ← result]
      rfl
    · rw [device, own, put]
    · intro other remembered
      rw [windowed, served] at remembered
      obtain rfl := Option.some.inj remembered
      exact whole

/-- Registers that keep what is written to them. A dword is unchanged by a write to another one
of the same function. -/
structure ReadWrite (platform : Platform σ) : Prop where
  configSame : ∀ device (select value : BitVec 32), 4 ∣ select.toNat →
    platform.configRead (platform.configWrite device select value) select = value
  configOther : ∀ device (select other value : BitVec 32), 4 ∣ select.toNat → 4 ∣ other.toNat →
    other.toNat / 2 ^ 8 = select.toNat / 2 ^ 8 → other ≠ select →
    platform.configRead (platform.configWrite device select value) other =
      platform.configRead device other
  memorySame : ∀ device place value, 4 ∣ place →
    platform.memoryRead (platform.memoryWrite device place value) place = value
  memoryOther : ∀ device place other value, 4 ∣ place → 4 ∣ other → other ≠ place →
    platform.memoryRead (platform.memoryWrite device place value) other =
      platform.memoryRead device other

/-- Bytes of configuration space and of physical memory. -/
structure Contents where
  config : ByteMemory.Memory
  memory : ByteMemory.Memory

/-- A platform whose registers are plain bytes. The data port ignores the two low bits of the
address that is selected. -/
def bytePlatform (highMemory : BitVec 64) (ioremapSucceeds : Nat → Bool) : Platform Contents where
  configRead := fun contents select =>
    ByteMemory.load 32 contents.config (select.toNat / 4 * 4)
  configWrite := fun contents select value => { contents with
    config := ByteMemory.store 4 value (select.toNat / 4 * 4) contents.config }
  memoryRead := fun contents place => ByteMemory.load 32 contents.memory place
  memoryWrite := fun contents place value => { contents with
    memory := ByteMemory.store 4 value place contents.memory }
  strayRead := fun _ => ~~~0
  highMemory := highMemory
  ioremapSucceeds := ioremapSucceeds

/-- A dword that was stored, loaded at the same and at another place. -/
theorem load_stored_dword (memory : ByteMemory.Memory) (value : BitVec 32) (place other : Nat)
    (first : 4 ∣ place) (second : 4 ∣ other) :
    ByteMemory.load 32 (ByteMemory.store 4 value place memory) other =
      if other = place then value else ByteMemory.load 32 memory other := by
  by_cases same : other = place
  · rw [if_pos same, same]
    exact ByteMemory.load_store (by decide) value place memory
  · rw [if_neg same, ByteMemory.load_eq_load_iff (by decide)]
    intro number small
    rw [ByteMemory.store_outside _ _ _ _ (by omega)]

/-- A platform of bytes reads and writes through the ports what it does through the window. The
witnesses run on it. -/
theorem bytes_readWrite (highMemory : BitVec 64) (ioremapSucceeds : Nat → Bool) :
    ReadWrite (bytePlatform highMemory ioremapSucceeds) where
  configSame := by
    intro device select value aligned
    have whole := Nat.div_mul_cancel aligned
    simp only [bytePlatform, whole]
    rw [load_stored_dword _ _ _ _ aligned aligned, if_pos rfl]
  configOther := by
    intro device select other value first second _ apart
    have whole := Nat.div_mul_cancel first
    have rest := Nat.div_mul_cancel second
    have distinct : other.toNat ≠ select.toNat := fun same => apart (BitVec.eq_of_toNat_eq same)
    simp only [bytePlatform, whole, rest]
    rw [load_stored_dword _ _ _ _ first second, if_neg distinct]
  memorySame := by
    intro device place value aligned
    simp only [bytePlatform]
    rw [load_stored_dword _ _ _ _ aligned aligned, if_pos rfl]
  memoryOther := by
    intro device place other value first second apart
    simp only [bytePlatform]
    rw [load_stored_dword _ _ _ _ first second, if_neg apart]

section Registers

variable {platform} (registers : ReadWrite platform) (request : Request) (count : Nat)
  (inside : request.pci.reg.toNat + count < request.space)
  (paged : 4096 ∣ request.pci.phyBase.toNat) (device : σ) (value : BitVec 32)

include registers inside paged

/-- A register further on in the dword that was written sees what was written. -/
theorem dwordAt_same
    (within : (request.pci.reg.toNat + count) / 4 = request.pci.reg.toNat / 4) :
    (request.byteAt count).pci.dwordAt platform (request.pci.withDword platform device value) =
      value := by
  have four : 4 ∣ (request.pci.addr &&& ~~~3).toNat := by
    rw [dword_toNat]
    exact Nat.dvd_mul_left _ _
  rw [dwordAt_shared platform request count inside paged within, LfddPcix.dwordAt,
    LfddPcix.withDword]
  by_cases ports : request.pci.phyBase = 0
  · rw [if_pos ports, if_pos ports, selected_dword]
    exact registers.configSame device _ value four
  · rw [if_neg ports, if_neg ports]
    exact registers.memorySame device _ value four

/-- A register further on in another dword does not see what was written to this one. -/
theorem dwordAt_other
    (beyond : (request.pci.reg.toNat + count) / 4 ≠ request.pci.reg.toNat / 4) :
    (request.byteAt count).pci.dwordAt platform (request.pci.withDword platform device value) =
      (request.byteAt count).pci.dwordAt platform device := by
  have next := byteAt_addr request count inside paged
  have lane := addr_lane request.pci paged
  rw [lane_toNat] at lane
  have apart : ((request.byteAt count).pci.addr &&& ~~~3).toNat ≠
      (request.pci.addr &&& ~~~3).toNat := by
    rw [dword_toNat, dword_toNat, next]
    omega
  have four : ∀ addr : BitVec 32, 4 ∣ (addr &&& ~~~3).toNat := by
    intro addr
    rw [dword_toNat]
    exact Nat.dvd_mul_left _ _
  have base : (request.byteAt count).pci.phyBase = request.pci.phyBase := rfl
  unfold LfddPcix.dwordAt LfddPcix.withDword
  rw [base]
  by_cases ports : request.pci.phyBase = 0
  · have page : ((request.byteAt count).pci.addr &&& ~~~3).toNat / 2 ^ 8 =
        (request.pci.addr &&& ~~~3).toNat / 2 ^ 8 := by
      have reg := inside
      rw [Request.space, if_pos ports] at reg
      rw [dword_toNat, dword_toNat, next, addr_ports _ ports]
      omega
    rw [if_pos ports, if_pos ports, if_pos ports, selected_dword, selected_dword]
    exact registers.configOther device _ _ value (four _) (four _) page
      fun same => apart (congrArg BitVec.toNat same)
  · rw [if_neg ports, if_neg ports, if_neg ports]
    exact registers.memoryOther device _ _ value (four _) (four _) apart

end Registers

end Lfdk
