import Mathlib.Data.List.GetD
import Lfdk.ByteMemory

/-!
# The window in the MCFG table

`find_mmio_in_MCFG` reads a table of the firmware into a buffer on the stack and takes the
address of the window from it. The table has a header of 44 bytes, which tells its length,
and entries of 16 bytes. All bytes of it sum to zero.

The address is taken from the first entry when the table goes on behind the header. Whether
the entry is all there is not asked. So of a table that ends within the first entry an
address is taken, and of one that ends within the address of the entry an address that the
stack completes.
-/

namespace Lfdk.McfgTable

open RegisterBits ByteMemory

/-- `buf` -/
abbrev TableBuffer := Vector (BitVec 8) 512

/-- The bytes as a memory. -/
def memoryOf (bytes : List (BitVec 8)) : Memory := fun place => bytes.getD place 0

/-- `fread(buf, 1, sizeof(buf), fp)` -/
def fread (file : List (BitVec 8)) (buf : TableBuffer) : Nat × TableBuffer :=
  (min file.length 512, Vector.ofFn fun place => file.getD place buf[place])

/-- The sum that validates a table. -/
def checksum (bytes : List (BitVec 8)) : BitVec 8 := bytes.foldl (· + ·) 0

/-- `find_mmio_in_MCFG`, with what its buffer holds before it is read into. There is no file
if `fopen` fails. -/
def findMmioInMCFG (stale : TableBuffer) (file : Option (List (BitVec 8))) : BitVec 64 :=
  match file with
  | none => 0
  | some file =>
    let (byteCount, buf) := fread file stale
    if byteCount < 44 then 0
    else if (load 32 (memoryOf buf.toList) 4).toNat ≠ byteCount then 0
    else if checksum (buf.toList.take byteCount) ≠ 0 then 0
    -- the loop over the entries ends in its first turn
    else if 44 < byteCount then load 64 (memoryOf buf.toList) 44
    else 0

/-- What is read of a file. -/
def table (file : List (BitVec 8)) : List (BitVec 8) := file.take 512

/-- The header of a table is there, with the length of the table, and the sum is right. -/
structure HasHeader (table : List (BitVec 8)) : Prop where
  whole : 44 ≤ table.length
  length : (load 32 (memoryOf table) 4).toNat = table.length
  sum : checksum table = 0

instance (table : List (BitVec 8)) : Decidable (HasHeader table) :=
  decidable_of_iff
    (44 ≤ table.length ∧ (load 32 (memoryOf table) 4).toNat = table.length ∧ checksum table = 0)
    ⟨fun parts => ⟨parts.1, parts.2.1, parts.2.2⟩,
      fun header => ⟨header.whole, header.length, header.sum⟩⟩

/-- The address in the first entry. -/
def firstBase (table : List (BitVec 8)) : BitVec 64 := load 64 (memoryOf table) 44

/-- The result depends on nothing but the bytes that are read, it is zero or the address in the
first entry of a valid table that holds this entry, and a valid table that holds it gives it. -/
def TrustsTable (file : List (BitVec 8)) : Prop :=
  (∀ other stale before, table other = table file →
    findMmioInMCFG before (some other) = findMmioInMCFG stale (some file)) ∧
  (∀ stale, findMmioInMCFG stale (some file) ≠ 0 →
    (HasHeader (table file) ∧ 60 ≤ (table file).length) ∧
      findMmioInMCFG stale (some file) = firstBase (table file)) ∧
  ∀ stale, HasHeader (table file) → 60 ≤ (table file).length →
    findMmioInMCFG stale (some file) = firstBase (table file)

section Buffer

variable (file : List (BitVec 8)) (stale : TableBuffer)

/-- The part of the table that is read has 512 bytes at most. -/
theorem table_length : (table file).length = min 512 file.length := List.length_take

/-- The count that `fread` returns is the length of this part, which is never more than the buffer.
-/
theorem fread_count : (fread file stale).1 = (table file).length := by
  rw [table_length, Nat.min_comm]
  rfl

/-- What the buffer holds: the bytes of the table, and behind them what it held before. -/
theorem fread_byte (place : Nat) (inside : place < 512) :
    memoryOf (fread file stale).2.toList place =
      if place < (table file).length then memoryOf (table file) place else stale[place] := by
  have stored : (fread file stale).2[place] = file.getD place stale[place] :=
    Vector.getElem_ofFn ..
  have size : place < (fread file stale).2.toList.length := by
    rw [Vector.length_toList]
    exact inside
  have bound := table_length file
  rw [memoryOf, List.getD_eq_getElem _ _ size, Vector.getElem_toList, stored]
  by_cases short : place < file.length
  · rw [if_pos (by omega), memoryOf, table, List.getD_eq_getElem?_getD,
      List.getD_eq_getElem?_getD, List.getElem?_take_of_lt inside, List.getElem?_eq_getElem short]
    rfl
  · rw [if_neg (by omega), List.getD_eq_getElem?_getD, List.getElem?_eq_none (by omega)]
    rfl

/-- So many bytes of the buffer are the table's. What stands behind them is stale. -/
theorem fread_take : (fread file stale).2.toList.take (table file).length = table file := by
  have bound := table_length file
  apply List.ext_getElem
  · rw [List.length_take, Vector.length_toList]
    omega
  · intro place first second
    have byte := fread_byte file stale place (by omega)
    rw [if_pos second, memoryOf, memoryOf, List.getD_eq_getElem _ _ second,
      List.getD_eq_getElem _ _ (by rw [Vector.length_toList]; omega)] at byte
    rw [List.getElem_take]
    exact byte

/-- A word of the buffer that lies inside of the table is the table's own, whatever the stack held.
-/
theorem load_table {w : Nat} (whole : 8 ∣ w) (start : Nat)
    (inside : start + w / 8 ≤ (table file).length) :
    load w (memoryOf (fread file stale).2.toList) start = load w (memoryOf (table file)) start := by
  have bound := table_length file
  rw [load_eq_load_iff whole]
  intro number small
  rw [fread_byte file stale _ (by omega), if_pos (by omega)]

/-- What is found is decided by the header and the bytes at the first entry. -/
theorem findMmioInMCFG_table :
    findMmioInMCFG stale (some file) =
      if HasHeader (table file) ∧ 44 < (table file).length then
        load 64 (memoryOf (fread file stale).2.toList) 44
      else 0 := by
  have count := fread_count file stale
  have bytes := fread_take file stale
  simp only [findMmioInMCFG]
  rw [count, bytes]
  by_cases whole : 44 ≤ (table file).length
  · have field := load_table file stale (w := 32) (by decide) 4 (by omega)
    rw [if_neg (by omega), field]
    by_cases length : (load 32 (memoryOf (table file)) 4).toNat = (table file).length
    · rw [if_neg (fun differs => differs length)]
      by_cases sum : checksum (table file) = 0
      · rw [if_neg (fun differs => differs sum)]
        have header : HasHeader (table file) := ⟨whole, length, sum⟩
        simp only [header, true_and]
      · rw [if_pos sum, if_neg fun both => sum both.1.sum]
    · rw [if_pos length, if_neg fun both => length both.1.length]
  · rw [if_pos (by omega), if_neg fun both => whole both.1.whole]

end Buffer

section Entry

variable (file : List (BitVec 8)) (stale : TableBuffer)

/-- A table whose first address is inside gives this address, of which no byte is left from the
stack. -/
theorem load_first (inside : 52 ≤ (table file).length) :
    load 64 (memoryOf (fread file stale).2.toList) 44 = firstBase (table file) :=
  load_table file stale (by decide) 44 (by omega)

/-- Otherwise the stack decides about its highest byte, the one place of the eight that the file did
not fill. -/
theorem load_stale (cut : (table file).length ≤ 51) :
    byte 7 (load 64 (memoryOf (fread file stale).2.toList) 44) = stale[51] := by
  have last := fread_byte file stale 51 (by decide)
  rw [if_neg (by omega)] at last
  rw [byte_load _ _ _ (by decide)]
  exact last

/-- A valid table that holds the address of its first entry gives it. -/
theorem findMmioInMCFG_first (header : HasHeader (table file))
    (inside : 52 ≤ (table file).length) :
    findMmioInMCFG stale (some file) = firstBase (table file) := by
  have behind : 44 < (table file).length := by omega
  rw [findMmioInMCFG_table, if_pos ⟨header, behind⟩, load_first file stale inside]

/-- A table without the header, or one that ends before the address of its first entry, gives
nothing: the result is 0. -/
theorem findMmioInMCFG_invalid
    (invalid : ¬ (HasHeader (table file) ∧ 44 < (table file).length)) :
    findMmioInMCFG stale (some file) = 0 := by
  rw [findMmioInMCFG_table, if_neg invalid]

end Entry

/-- The result is that of the table alone unless its header is right and it ends in the first
entry, and if it holds the address of this entry, the address is not zero. -/
theorem trusts_table_iff (file : List (BitVec 8)) :
    TrustsTable file ↔
      ¬ (HasHeader (table file) ∧ 45 ≤ (table file).length ∧ (table file).length ≤ 59 ∧
        ((table file).length ≤ 51 ∨ firstBase (table file) ≠ 0)) := by
  constructor
  · rintro ⟨alone, sound, _⟩ ⟨header, behind, short, trusted⟩
    have goes : HasHeader (table file) ∧ 44 < (table file).length := ⟨header, by omega⟩
    by_cases cut : (table file).length ≤ 51
    · have same := alone file (Vector.replicate 512 0) (Vector.replicate 512 1) rfl
      rw [findMmioInMCFG_table, findMmioInMCFG_table, if_pos goes, if_pos goes] at same
      have bytes := congrArg (byte 7) same
      rw [load_stale _ _ cut, load_stale _ _ cut, Vector.getElem_replicate,
        Vector.getElem_replicate] at bytes
      exact absurd bytes (by decide)
    · have address : firstBase (table file) ≠ 0 := trusted.resolve_left cut
      have found := findMmioInMCFG_first file (Vector.replicate 512 0) header (by omega)
      have entry := (sound (Vector.replicate 512 0) (found ▸ address)).1.2
      omega
  · intro excluded
    have complete : ∀ stale, HasHeader (table file) → 60 ≤ (table file).length →
        findMmioInMCFG stale (some file) = firstBase (table file) :=
      fun stale header whole => findMmioInMCFG_first file stale header (by omega)
    by_cases goes : HasHeader (table file) ∧ 44 < (table file).length
    · obtain ⟨header, behind⟩ := goes
      have inside : 52 ≤ (table file).length := by
        by_contra cut
        exact excluded ⟨header, behind, by omega, Or.inl (by omega)⟩
      have base := fun stale => findMmioInMCFG_first file stale header inside
      refine ⟨fun other stale before same => ?_, fun stale found => ?_, complete⟩
      · have again := findMmioInMCFG_first other before (same ▸ header) (same ▸ inside)
        rw [again, base, same]
      · rw [base] at found
        refine ⟨⟨header, ?_⟩, base stale⟩
        by_contra cut
        exact excluded ⟨header, behind, by omega, Or.inr found⟩
    · refine ⟨fun other stale before same => ?_, fun stale found => ?_, complete⟩
      · rw [findMmioInMCFG_invalid other before (same ▸ goes), findMmioInMCFG_invalid file stale goes]
      · exact absurd (findMmioInMCFG_invalid file stale goes) found

/-- A table of 52 bytes: a header, and an address with nothing behind it. -/
def cutTable : List (BitVec 8) :=
  [0x4d, 0x43, 0x46, 0x47, 0x34, 0, 0, 0, 0, 0xcf] ++ List.replicate 37 0 ++ [0xe0, 0, 0, 0, 0]

/-- The window is taken from an entry that is not all there. -/
theorem cut_table_trusted :
    (table cutTable).length = 52 ∧
      (∀ stale, findMmioInMCFG stale (some cutTable) = 0xe0000000) ∧ ¬ TrustsTable cutTable := by
  have size : (table cutTable).length = 52 := by decide
  have header : HasHeader (table cutTable) := ⟨by decide, by decide, by decide⟩
  have base : firstBase (table cutTable) = 0xe0000000 := by decide +kernel
  have found : ∀ stale, findMmioInMCFG stale (some cutTable) = 0xe0000000 := by
    intro stale
    rw [findMmioInMCFG_first cutTable stale header (by omega), base]
  refine ⟨size, found, ?_⟩
  rintro ⟨_, sound, _⟩
  have first := found (Vector.replicate 512 0)
  have address : findMmioInMCFG (Vector.replicate 512 0) (some cutTable) ≠ 0 := by
    rw [first]
    decide
  have entry := (sound _ address).1.2
  omega

end Lfdk.McfgTable
