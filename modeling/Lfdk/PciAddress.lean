import Lfdk.PciAccess
import Lfdk.Words

/-!
# The address of a request as a number

`lfdd_cal_pcix_addr` shifts and ors its fields together. Bus, device and function
always land in fields of their own and form the 16-bit number of a PCI function.
The MMIO form masks the register number, so its or is a sum. The port form does
not: the high byte of the register number is or-ed into the function number.
-/

namespace Lfdk

/-- The start of the block an address lies in, a multiple of 256 as the buffer has 256 bytes. -/
theorem addrAlighBuf_toNat (addr : BitVec 32) :
    (addrAlighBuf addr).toNat = addr.toNat / 2 ^ 8 * 2 ^ 8 := by
  have mask : lfddMassbufSize - 1 = BitVec.twoPow 32 8 - 1#32 := by decide
  rw [addrAlighBuf, mask, Words.high_toNat addr (by decide)]

/-- The start of the dword an address lies in, which is where an aligned access goes. -/
theorem dword_toNat (addr : BitVec 32) : (addr &&& ~~~3).toNat = addr.toNat / 2 ^ 2 * 2 ^ 2 := by
  have mask : (3 : BitVec 32) = BitVec.twoPow 32 2 - 1#32 := by decide
  rw [mask, Words.high_toNat addr (by decide)]

/-- The byte of its dword that an address names, from 0 to 3. -/
theorem lane_toNat (addr : BitVec 32) : (addr &&& 3).toNat = addr.toNat % 2 ^ 2 := by
  have mask : (3 : BitVec 32) = BitVec.twoPow 32 2 - 1#32 := by decide
  rw [mask, Words.low_toNat addr (by decide)]

/-- The dword of an address counted from the start of its block. -/
theorem dwordOffset_toNat (addr : BitVec 32) :
    (dwordOffset addr).toNat = addr.toNat % 2 ^ 8 / 2 ^ 2 * 2 ^ 2 := by
  have mask : lfddMassbufSize - 1 = BitVec.twoPow 32 8 - 1#32 := by decide
  rw [dwordOffset, dword_toNat, addrAlighBuf, mask, Words.sub_high, Words.low_toNat addr (by decide)]

/-- An aligned block's start and the dword offset in it add up to the dword. -/
theorem block_add_offset (addr : BitVec 32) :
    (addrAlighBuf addr).toNat + (dwordOffset addr).toNat = (addr &&& ~~~3).toNat := by
  rw [addrAlighBuf_toNat, dwordOffset_toNat, dword_toNat]
  omega

/-- The number of the PCI function a request names: bus, device, function. -/
def LfddPcix.function (pci : LfddPcix) : Nat :=
  pci.bus.toNat * 2 ^ 8 + pci.dev.toNat % 2 ^ 5 * 2 ^ 3 + pci.func.toNat % 2 ^ 3

variable (pci : LfddPcix)

/-- The numbers of bus, device and function together have sixteen bits, so that the page of a
function is inside 256 MiB. -/
theorem function_bound : pci.function < 2 ^ 16 := by
  have bus := pci.bus.isLt
  simp only [LfddPcix.function]
  omega

/-- The first three fields of the address computation, shifted together, number the function. -/
theorem function_word_toNat :
    (((pci.bus.setWidth 64 &&& 0xff) <<< 5 ||| (pci.dev.setWidth 64 &&& 0x1f)) <<< 3 |||
      (pci.func.setWidth 64 &&& 0x07)).toNat = pci.function := by
  have busBound := pci.bus.isLt
  have devBound := pci.dev.isLt
  have funcBound := pci.func.isLt
  have bus : (pci.bus.setWidth 64 &&& 0xff).toNat = pci.bus.toNat := by
    rw [show (0xff : BitVec 64) = BitVec.twoPow 64 8 - 1#64 by decide,
      Words.low_toNat _ (by decide), BitVec.toNat_setWidth]
    omega
  have dev : (pci.dev.setWidth 64 &&& 0x1f).toNat = pci.dev.toNat % 2 ^ 5 := by
    rw [show (0x1f : BitVec 64) = BitVec.twoPow 64 5 - 1#64 by decide,
      Words.low_toNat _ (by decide), BitVec.toNat_setWidth]
    omega
  have func : (pci.func.setWidth 64 &&& 0x07).toNat = pci.func.toNat % 2 ^ 3 := by
    rw [show (0x07 : BitVec 64) = BitVec.twoPow 64 3 - 1#64 by decide,
      Words.low_toNat _ (by decide), BitVec.toNat_setWidth]
    omega
  have upper : ((pci.bus.setWidth 64 &&& 0xff) <<< 5 ||| (pci.dev.setWidth 64 &&& 0x1f)).toNat =
      pci.bus.toNat * 2 ^ 5 + pci.dev.toNat % 2 ^ 5 := by
    rw [Words.shift_or_toNat _ _ (by omega) (by omega), bus, dev]
  rw [Words.shift_or_toNat _ _ (by omega) (by omega), upper, func]
  simp only [LfddPcix.function]
  omega

/-- The MMIO form: base, function and the low twelve bits of the register. -/
theorem calPcixAddr_mmio (mmio : pci.phyBase ≠ 0) :
    (lfddCalPcixAddr pci).toNat =
      (pci.function * 2 ^ 12 + pci.reg.toNat % 2 ^ 12 + pci.phyBase.toNat) % 2 ^ 64 := by
  have bound := function_bound pci
  have word := function_word_toNat pci
  have regBound := pci.reg.isLt
  have reg : (pci.reg.setWidth 64 &&& 0x0fff).toNat = pci.reg.toNat % 2 ^ 12 := by
    rw [show (0x0fff : BitVec 64) = BitVec.twoPow 64 12 - 1#64 by decide,
      Words.low_toNat _ (by decide), BitVec.toNat_setWidth]
    omega
  rw [lfddCalPcixAddr, if_neg mmio, BitVec.toNat_add,
    Words.shift_or_toNat _ _ (by omega) (by omega), word, reg]

/-- The port form: the enable bit, the function number with the high byte of the
register or-ed into it, and the low byte of the register. -/
theorem calPcixAddr_ports (ports : pci.phyBase = 0) :
    (lfddCalPcixAddr pci).toNat =
      2 ^ 31 + (pci.function ||| pci.reg.toNat / 2 ^ 8) * 2 ^ 8 + pci.reg.toNat % 2 ^ 8 := by
  have bound := function_bound pci
  have word := function_word_toNat pci
  have regBound := pci.reg.isLt
  have reg : (pci.reg.setWidth 64).toNat = pci.reg.toNat := by
    rw [BitVec.toNat_setWidth]
    omega
  have enable : (0x80000000 : BitVec 64).toNat = 2 ^ 23 * 2 ^ 8 := by decide
  have merged : pci.function ||| pci.reg.toNat / 2 ^ 8 < 2 ^ 23 :=
    Nat.or_lt_two_pow (by omega) (by omega)
  have enabled : (2 ^ 23 ||| (pci.function ||| pci.reg.toNat / 2 ^ 8)) =
      2 ^ 23 + (pci.function ||| pci.reg.toNat / 2 ^ 8) := by
    have apart := Nat.shiftLeft_add_eq_or_of_lt merged 1
    simpa [Nat.shiftLeft_eq] using apart.symm
  have top : 2 ^ 23 * 2 ^ 8 = 2 ^ 31 := by decide
  rw [lfddCalPcixAddr, if_pos ports, BitVec.toNat_or, BitVec.toNat_or, BitVec.toNat_shiftLeft,
    Nat.shiftLeft_eq, word, Nat.mod_eq_of_lt (by omega), enable, reg,
    Nat.or_comm (pci.function * 2 ^ 8), Words.high_or, Nat.mul_mod_left, Nat.add_zero,
    Nat.mul_div_cancel _ (by decide), Words.high_or, Nat.or_assoc, enabled, Nat.add_mul,
    top]

/-- The function number that a port address selects. -/
def LfddPcix.merged (pci : LfddPcix) : Nat := pci.function ||| pci.reg.toNat / 2 ^ 8

/-- So have those that the driver puts into the address, where too large numbers reach into their
neighbours. -/
theorem merged_bound : pci.merged < 2 ^ 16 := by
  have regBound := pci.reg.isLt
  exact Nat.or_lt_two_pow (function_bound pci) (by omega)

/-- A register number below 0x100 adds nothing to the function number: the ports reach the function
itself. -/
theorem merged_low (low : pci.reg.toNat < 2 ^ 8) : pci.merged = pci.function := by
  have high : pci.reg.toNat / 2 ^ 8 = 0 := by omega
  rw [LfddPcix.merged, high, Nat.or_zero]

/-- The port address fits 32 bits: the enable bit, the merged function number and the low byte of
the register. -/
theorem addr_ports (ports : pci.phyBase = 0) :
    pci.addr.toNat = 2 ^ 31 + pci.merged * 2 ^ 8 + pci.reg.toNat % 2 ^ 8 := by
  have bound := merged_bound pci
  have whole : (lfddCalPcixAddr pci).toNat =
      2 ^ 31 + pci.merged * 2 ^ 8 + pci.reg.toNat % 2 ^ 8 := calPcixAddr_ports pci ports
  rw [LfddPcix.addr, BitVec.toNat_setWidth, whole]
  omega

/-- The dword-aligned port address, which is what is written to the address port. -/
theorem selected_ports (ports : pci.phyBase = 0) :
    pci.selected.toNat =
      2 ^ 31 + pci.merged * 2 ^ 8 + pci.reg.toNat % 2 ^ 8 / 2 ^ 2 * 2 ^ 2 := by
  have mask : (0xfffffffc : BitVec 32) = ~~~3 := by decide
  rw [LfddPcix.selected, mask, dword_toNat, addr_ports pci ports]
  omega

/-- The MMIO address of a base whose 256 MiB of configuration space end at or
below 4 GiB. -/
theorem addr_mmio (mmio : pci.phyBase ≠ 0) (fits : pci.phyBase.toNat + 2 ^ 28 ≤ 2 ^ 32) :
    pci.addr.toNat = pci.phyBase.toNat + pci.function * 2 ^ 12 + pci.reg.toNat % 2 ^ 12 := by
  have bound := function_bound pci
  rw [LfddPcix.addr, BitVec.toNat_setWidth, calPcixAddr_mmio pci mmio]
  omega

/-- The lane of an address is the lane of its register number, in both forms. -/
theorem addr_lane (aligned : 4096 ∣ pci.phyBase.toNat) :
    (pci.addr &&& 0x3).toNat = pci.reg.toNat % 2 ^ 2 := by
  rw [lane_toNat]
  by_cases ports : pci.phyBase = 0
  · rw [addr_ports pci ports]
    omega
  · obtain ⟨pages, base⟩ := aligned
    rw [LfddPcix.addr, BitVec.toNat_setWidth, calPcixAddr_mmio pci ports]
    omega

end Lfdk
