import Lfdk.Machine

/-!
# The seven configuration-space operations

This is `libpci_x86.c`. Each operation computes a 32-bit address from the
request, refuses it or not, makes sure a block is mapped when the request names
an MMIO base, and then accesses the hardware under the driver's lock: through
the ports when `phy_base` is zero, through the mapping otherwise.

The seven functions share the mapping code word for word; they differ in the
block they ask for, in the refusal and in what they do with the dword. The parts
they share are definitions with parameters, and every function of the source is
one of them applied to its own values.
-/

namespace Lfdk

universe u
variable {σ : Type u}

/-- `struct lfdd_pcix_t`. A non-zero `phyBase` asks for the MMIO method. -/
structure LfddPcix where
  bus : BitVec 8
  dev : BitVec 8
  func : BitVec 8
  reg : BitVec 16
  phyBase : BitVec 64
  buf : BitVec 32
  massBuf : Vector (BitVec 8) 256
deriving DecidableEq, Repr

/-- A request structure for function 0 of device 0 on bus 0. -/
def LfddPcix.atRegister (reg : BitVec 16) (phyBase : BitVec 64) (buf : BitVec 32) : LfddPcix :=
  ⟨0, 0, 0, reg, phyBase, buf, Vector.replicate 256 0⟩

/-- `LFDD_MASSBUF_SIZE`, which is also the `MAP_SIZE` of a mapped block. -/
def lfddMassbufSize : BitVec 32 := 256

/-- `out_range` -/
def outRange (addr start size : BitVec 64) : Bool :=
  decide (addr < start) || decide (start + size ≤ addr)

/-- `lfdd_cal_pcix_addr`. Only the MMIO form masks the register number. -/
def lfddCalPcixAddr (ppci : LfddPcix) : BitVec 64 :=
  let addr := ppci.bus.setWidth 64 &&& 0xff
  let addr := addr <<< 5 ||| (ppci.dev.setWidth 64 &&& 0x1f)
  let addr := addr <<< 3 ||| (ppci.func.setWidth 64 &&& 0x07)
  if ppci.phyBase = 0 then
    addr <<< 8 ||| 0x80000000 ||| ppci.reg.setWidth 64
  else
    (addr <<< 12 ||| (ppci.reg.setWidth 64 &&& 0x0fff)) + ppci.phyBase

/-- The `addr` local of every operation: the address cut to 32 bits. -/
def LfddPcix.addr (ppci : LfddPcix) : BitVec 32 := (lfddCalPcixAddr ppci).setWidth 32

/-- The address a port access selects: `addr & 0xfffffffc`. -/
def LfddPcix.selected (ppci : LfddPcix) : BitVec 32 := ppci.addr &&& 0xfffffffc

/-- `addr_aligh_buf`: the start of the 256-byte block an address lies in. -/
def addrAlighBuf (addr : BitVec 32) : BitVec 32 := addr &&& ~~~(lfddMassbufSize - 1)

/-- The RAM check of all operations, made with a wrapping 32-bit addition. -/
def invalidMmio (platform : Platform σ) (ppci : LfddPcix) (block : BitVec 32) : Bool :=
  decide (ppci.phyBase ≠ 0) &&
    decide ((block + lfddMassbufSize).setWidth 64 ≤ platform.highMemory)

/-- Install a block as the driver's mapping. -/
def remap (platform : Platform σ) (block : BitVec 32) (machine : Machine σ) : Machine σ :=
  let (mapping, machine) := ioremap platform block.toNat machine
  { machine with phy2virtMem := mapping, phyMapStartAddr := block.setWidth 64 }

/-- The mapping phase, before the lock is taken: keep the mapped block when the
address lies in it, otherwise replace it. Requests without a base skip it. -/
def mapBlock (platform : Platform σ) (ppci : LfddPcix) (block : BitVec 32)
    (machine : Machine σ) : Machine σ :=
  if ppci.phyBase = 0 then machine
  else
    match machine.phy2virtMem with
    | none => remap platform block machine
    | some mapping =>
      if outRange (ppci.addr.setWidth 64) machine.phyMapStartAddr
          (lfddMassbufSize.setWidth 64) then
        remap platform block (iounmap mapping machine)
      else machine

/-- Offset of the addressed dword in the aligned block: `off & ~0x3`. -/
def dwordOffset (addr : BitVec 32) : BitVec 32 := (addr - addrAlighBuf addr) &&& ~~~3

/-- The locked part of the three single-width reads. -/
def readAccess (platform : Platform σ) (ppci : LfddPcix) (machine : Machine σ) :
    BitVec 32 × Machine σ :=
  if ppci.phyBase = 0 then
    let (origIdx, machine) := inl platform .pciAddr machine
    let machine := outl platform ppci.selected .pciAddr machine
    let (value, machine) := inl platform .pciData machine
    (value, outl platform origIdx .pciAddr machine)
  else
    readl platform machine.phy2virtMem (dwordOffset ppci.addr).toNat machine

/-- A single-width read: its answer to a refused address and the part of the
dword it returns are what the three reads differ in. -/
def readSingle {w : Nat} (refusal : BitVec w) (part : BitVec 32 → BitVec 32 → BitVec w)
    (platform : Platform σ) (ppci : LfddPcix) (machine : Machine σ) : BitVec w × Machine σ :=
  if invalidMmio platform ppci (addrAlighBuf ppci.addr) then (refusal, machine)
  else
    let (value, machine) :=
      readAccess platform ppci (mapBlock platform ppci (addrAlighBuf ppci.addr) machine)
    (part ppci.addr value, machine)

/-- `lfdd_pcix_read_byte` -/
def lfddPcixReadByte : Platform σ → LfddPcix → Machine σ → BitVec 8 × Machine σ :=
  readSingle 0xff fun addr value => ((value >>> ((addr &&& 0x03) * 8)) &&& 0xff).setWidth 8

/-- `lfdd_pcix_read_word` -/
def lfddPcixReadWord : Platform σ → LfddPcix → Machine σ → BitVec 16 × Machine σ :=
  readSingle 0xffff fun addr value => ((value >>> ((addr &&& 0x03) * 8)) &&& 0xffff).setWidth 16

/-- `lfdd_pcix_read_dword` -/
def lfddPcixReadDword : Platform σ → LfddPcix → Machine σ → BitVec 32 × Machine σ :=
  readSingle (~~~0) fun _ value => value

/-- Replace one lane of a dword. The lane is chosen by the given address bits. -/
def mergeLane (lane mask addr buf temp : BitVec 32) : BitVec 32 :=
  temp &&& ~~~(mask <<< ((addr &&& lane) * 8)) ||| (buf &&& mask) <<< ((addr &&& lane) * 8)

/-- The locked read-modify-write of the byte and word writes. -/
def mergeAccess (lane mask : BitVec 32) (platform : Platform σ) (ppci : LfddPcix)
    (machine : Machine σ) : Machine σ :=
  if ppci.phyBase = 0 then
    let (origIdx, machine) := inl platform .pciAddr machine
    let machine := outl platform ppci.selected .pciAddr machine
    let (temp, machine) := inl platform .pciData machine
    let machine := outl platform (mergeLane lane mask ppci.addr ppci.buf temp) .pciData machine
    outl platform origIdx .pciAddr machine
  else
    let (temp, machine) :=
      readl platform machine.phy2virtMem (dwordOffset ppci.addr).toNat machine
    writel platform (mergeLane lane mask ppci.addr ppci.buf temp) machine.phy2virtMem
      (dwordOffset ppci.addr).toNat machine

/-- A byte or word write. -/
def writeMerged (lane mask : BitVec 32) (platform : Platform σ) (ppci : LfddPcix)
    (machine : Machine σ) : Machine σ :=
  if invalidMmio platform ppci (addrAlighBuf ppci.addr) then machine
  else mergeAccess lane mask platform ppci
    (mapBlock platform ppci (addrAlighBuf ppci.addr) machine)

/-- `lfdd_pcix_write_byte` -/
def lfddPcixWriteByte : Platform σ → LfddPcix → Machine σ → Machine σ :=
  writeMerged 0x03 0xff

/-- `lfdd_pcix_write_word`, which takes its lane from one address bit only. -/
def lfddPcixWriteWord : Platform σ → LfddPcix → Machine σ → Machine σ :=
  writeMerged 0x02 0xffff

/-- The locked part of the dword write. The port path does not mask the address. -/
def dwordAccess (platform : Platform σ) (ppci : LfddPcix) (machine : Machine σ) : Machine σ :=
  if ppci.phyBase = 0 then
    let (origIdx, machine) := inl platform .pciAddr machine
    let machine := outl platform ppci.addr .pciAddr machine
    let machine := outl platform ppci.buf .pciData machine
    outl platform origIdx .pciAddr machine
  else
    writel platform ppci.buf machine.phy2virtMem (dwordOffset ppci.addr).toNat machine

/-- `lfdd_pcix_write_dword`, the only operation that refuses by alignment. -/
def lfddPcixWriteDword (platform : Platform σ) (ppci : LfddPcix) (machine : Machine σ) :
    Machine σ :=
  if ppci.addr &&& 0x3 ≠ 0 ∨ invalidMmio platform ppci (addrAlighBuf ppci.addr) then machine
  else dwordAccess platform ppci (mapBlock platform ppci (addrAlighBuf ppci.addr) machine)

/-- Store a dword as four bytes, lowest first. -/
def storeDword (massBuf : Vector (BitVec 8) 256) (i : Nat) (value : BitVec 32) :
    Vector (BitVec 8) 256 :=
  (((massBuf.setIfInBounds i (value.setWidth 8)).setIfInBounds (i + 1)
    ((value >>> 8).setWidth 8)).setIfInBounds (i + 2)
    ((value >>> 16).setWidth 8)).setIfInBounds (i + 3) ((value >>> 24).setWidth 8)

/-- The loop of the bulk read with `count` dwords left, at byte `i`. -/
def readDwords (platform : Platform σ) (ppci : LfddPcix) :
    Nat → Nat → Vector (BitVec 8) 256 → Machine σ → Vector (BitVec 8) 256 × Machine σ
  | 0, _, massBuf, machine => (massBuf, machine)
  | count + 1, i, massBuf, machine =>
    let (value, machine) :=
      if ppci.phyBase = 0 then
        inl platform .pciData (outl platform (ppci.addr + BitVec.ofNat 32 i) .pciAddr machine)
      else readl platform machine.phy2virtMem i machine
    readDwords platform ppci count (i + 4) (storeDword massBuf i value) machine

/-- The locked part of the bulk read. -/
def bulkAccess (platform : Platform σ) (ppci : LfddPcix) (machine : Machine σ) :
    LfddPcix × Machine σ :=
  if ppci.phyBase = 0 then
    let (origIdx, machine) := inl platform .pciAddr machine
    let (massBuf, machine) := readDwords platform ppci 64 0 ppci.massBuf machine
    ({ ppci with massBuf := massBuf }, outl platform origIdx .pciAddr machine)
  else
    let (massBuf, machine) := readDwords platform ppci 64 0 ppci.massBuf machine
    ({ ppci with massBuf := massBuf }, machine)

/-- `lfdd_pcix_read_256byte`. It checks and maps the block that begins at the
address itself. -/
def lfddPcixRead256byte (platform : Platform σ) (ppci : LfddPcix) (machine : Machine σ) :
    LfddPcix × Machine σ :=
  if invalidMmio platform ppci ppci.addr then (ppci, machine)
  else bulkAccess platform ppci (mapBlock platform ppci ppci.addr machine)

end Lfdk
