import Lfdk.EditorWrites

/-!
# The byte that the CMOS editor writes

Three functions find a byte from the two coordinates of the cursor. The screen shows the
byte at column `x` of line `y`, and lines follow each other in the order in which the
bytes were read. The write takes `x` for the line and `y` for the column instead. It
reaches the highlighted byte exactly when the two are the same.
-/

namespace Lfdk.HexEditors

open HexPages Runs

universe u
variable {δ : Type u}

/-- A chip that stores what is written. The address port selects a byte, and the data port
writes and reads it. -/
structure CmosPorts.Stores (ports : CmosPorts δ) (selected : δ → BitVec 8)
    (contents : δ → BitVec 8 → BitVec 8) : Prop where
  select : ∀ index driver, selected (ports.outb index cmosAddrPort driver) = index
  keep : ∀ index driver, contents (ports.outb index cmosAddrPort driver) = contents driver
  store : ∀ value driver, contents (ports.outb value cmosDataPort driver) =
    Function.update (contents driver) (selected driver) value
  load : ∀ driver, (ports.inb cmosDataPort driver).1 = contents driver (selected driver)
  loaded : ∀ driver, contents (ports.inb cmosDataPort driver).2 = contents driver

/-- What is written replaces the highlighted byte: its index is the one of the highlighted
cell, and the next read of all bytes shows the typed byte there and the others as they
were. -/
structure ReplacesByte (ports : CmosPorts δ) (before after : CmosWindow δ) (index : BitVec 8) :
    Prop where
  highlighted : ∃ cell, before.cells.filter (fun cell => decide (cell.color = .yellowRed)) = [cell] ∧
    index.toNat = cell.row * 16 + cell.column
  shown : ∀ (i : Nat) (inside : i < 256),
    (readCmos256Bytes ports after.massBuf after.driver).1[i] =
      if (i : Int) = before.editor.cursor.offset then before.editor.wbuf.setWidth 8
      else (readCmos256Bytes ports before.massBuf before.driver).1[i]

/-- Enter is pressed while a value is typed. -/
def Commits (input : SpaceInput) (window : CmosWindow δ) : Prop :=
  input = .key keyEnter ∧ window.editor.input = true

section Reads

variable {ports : CmosPorts δ} {selected : δ → BitVec 8} {contents : δ → BitVec 8 → BitVec 8}
  (stores : ports.Stores selected contents)

include stores

/-- The loop reads the bytes that are left and keeps the ones it has read. -/
theorem readCmosFrom_bytes (left : Nat) (within : left ≤ 256) (buf : Vector (BitVec 8) 256)
    (driver : δ) (i : Nat) (inside : i < 256) :
    (readCmosFrom ports left buf driver).1[i] =
      if 256 - left ≤ i then contents driver (BitVec.ofNat 8 i) else buf[i] := by
  induction left generalizing buf driver with
  | zero =>
    rw [if_neg (by omega)]
    rfl
  | succ left inductionHypothesis =>
    rw [readCmosFrom]
    simp only
    rw [inductionHypothesis (by omega), stores.loaded, stores.keep, stores.load, stores.select,
      stores.keep, Vector.getElem_setIfInBounds]
    by_cases here : 255 - left = i
    · rw [if_neg (by omega), if_pos here, if_pos (by omega), here]
    · rw [if_neg here]
      by_cases before : i < 255 - left
      · rw [if_neg (by omega), if_neg (by omega)]
      · rw [if_pos (by omega), if_pos (by omega)]

/-- The buffer has the byte of the chip at each index. The loop reads each index once, in order, and
nothing else changes the chip in between. -/
theorem readCmos256Bytes_bytes (buf : Vector (BitVec 8) 256) (driver : δ) (i : Nat)
    (inside : i < 256) :
    (readCmos256Bytes ports buf driver).1[i] = contents driver (BitVec.ofNat 8 i) := by
  rw [readCmos256Bytes, readCmosFrom_bytes stores 256 (le_refl _), if_pos (by omega)]

/-- After a write, all bytes but the one that was addressed are as before. -/
theorem written_bytes (window : CmosWindow δ) (index : BitVec 8) :
    contents (writeCmosByteValue ports window).driver index =
      if index = window.editor.written.1 then window.editor.written.2
      else contents window.driver index := by
  rw [writeCmosByteValue]
  simp only
  rw [stores.store, stores.select, stores.keep, Function.update_apply]

end Reads

section Steps

variable (ports : CmosPorts δ) (window : CmosWindow δ)

/-- The bytes that a step writes, when it writes at all: the two of the editor's commit, after which
the editor browses again. -/
theorem cmosStep_output (input : SpaceInput) (commits : Commits input window) :
    cmosStep ports input window = (some window.editor.written,
      (writeCmosByteValue ports window).edit
        fun editor => { editor with input := false, wbuf := 0 }) := by
  obtain ⟨rfl, typing⟩ := commits
  rw [cmosStep, cmosKeyPress]
  simp only [typing, if_true]
  rfl

/-- Every other step writes nothing and keeps the cursor on the page. -/
theorem cmosStep_other (input : SpaceInput) (other : ¬ Commits input window)
    (onPage : window.editor.cursor.OnPage 0) :
    (cmosStep ports input window).1 = none ∧
      (cmosStep ports input window).2.editor.cursor.OnPage 0 := by
  have fits : 0 ≤ 4 := Nat.zero_le 4
  cases input with
  | key code =>
    rw [cmosStep, cmosKeyPress]
    simp only
    split
    · next typing =>
      cases typed : typeKey 0xf0 window.editor.wbuf code with
      | enter => exact absurd ⟨congrArg SpaceInput.key (typeKey_enter typed), typing⟩ other
      | number wbuf => exact ⟨rfl, onPage⟩
      | left => exact ⟨rfl, onPage⟩
    · split
      · exact ⟨rfl, Cursor.up_onPage onPage⟩
      · split
        · exact ⟨rfl, Cursor.down_onPage onPage⟩
        · split
          · exact ⟨rfl, Cursor.left_onPage fits onPage⟩
          · split
            · have same : (if 16 ≤ window.editor.cursor.x + 1 then 16 - 1
                  else window.editor.cursor.x + 1) = (window.editor.cursor.right 0).x := by
                have last := onPage.last
                simp only [Cursor.right, width, pow_zero] at last ⊢
                split
                · omega
                · rfl
              simp only [CmosWindow.edit, same]
              exact ⟨trivial, Cursor.right_onPage fits onPage⟩
            · split
              · exact ⟨rfl, onPage⟩
              · exact ⟨rfl, onPage⟩
  | getFocus => exact ⟨rfl, onPage⟩
  | lostFocus => exact ⟨rfl, onPage⟩
  | paint => exact ⟨rfl, onPage⟩

/-- The cursor stays on the page of 16 by 16 bytes whatever the input is, so that the index it
selects is always one of the chip's. -/
theorem cmosStep_onPage (onPage : window.editor.cursor.OnPage 0) (input : SpaceInput) :
    (cmosStep ports input window).2.editor.cursor.OnPage 0 := by
  by_cases commits : Commits input window
  · rw [cmosStep_output ports window input commits]
    exact onPage
  · exact (cmosStep_other ports window input commits onPage).2

end Steps

/-- A write replaces the highlighted byte exactly when the cursor's column has the number of
its line. -/
theorem replacesByte_iff {ports : CmosPorts δ} {selected : δ → BitVec 8}
    {contents : δ → BitVec 8 → BitVec 8} (stores : ports.Stores selected contents)
    (window : CmosWindow δ) (onPage : window.editor.cursor.OnPage 0)
    (typing : window.editor.input = true) (change : CmosEditor → CmosEditor) :
    ReplacesByte ports window ((writeCmosByteValue ports window).edit change)
        window.editor.written.1 ↔
      window.editor.cursor.x = window.editor.cursor.y := by
  have screen : window.cells = printCells 0 true true window.editor.cursor window.editor.wbuf
      window.massBuf := by
    rw [CmosWindow.cells, typing]
  have highlighted := printCells_typed true window.editor.wbuf window.massBuf (Nat.zero_le 4) onPage
  obtain ⟨row, column⟩ := cellAt_place 0 true true window.editor.wbuf window.massBuf
    window.editor.cursor (window.editor.cursor.y.toNat, window.editor.cursor.x.toNat)
  obtain ⟨_, first, last, top, bottom⟩ := onPage
  simp only [width, pow_zero] at last
  have index : (window.editor.written.1.toNat : Int) =
      window.editor.cursor.x * 16 + window.editor.cursor.y := by
    rw [CmosEditor.written, BitVec.toNat_ofInt]
    omega
  constructor
  · rintro ⟨⟨cell, only, place⟩, _⟩
    rw [screen, highlighted, List.singleton_inj] at only
    rw [← only, row, column] at place
    omega
  · intro same
    refine ⟨⟨_, screen ▸ highlighted, ?_⟩, fun i inside => ?_⟩
    · rw [row, column]
      omega
    · have addressed : BitVec.ofNat 8 i = window.editor.written.1 ↔
          (i : Int) = window.editor.cursor.offset := by
        rw [← BitVec.toNat_inj, BitVec.toNat_ofNat, Cursor.offset]
        omega
      have bytes := written_bytes stores window (BitVec.ofNat 8 i)
      simp only [addressed] at bytes
      rw [readCmos256Bytes_bytes stores, readCmos256Bytes_bytes stores]
      exact bytes

/-- In every run of the CMOS editor, all writes replace the highlighted byte exactly when
the cursor's column has the number of its line at each of them. -/
theorem cmos_written_iff {ports : CmosPorts δ} {selected : δ → BitVec 8}
    {contents : δ → BitVec 8 → BitVec 8} (stores : ports.Stores selected contents)
    (inputs : List SpaceInput) (massBuf : Vector (BitVec 8) 256) (driver : δ) :
    (∀ stage ∈ stages (cmosStep ports) inputs ⟨CmosEditor.starting, massBuf, driver⟩,
      ∀ written, stage.output = some written →
        ReplacesByte ports stage.before stage.after written.1) ↔
      ∀ stage ∈ stages (cmosStep ports) inputs ⟨CmosEditor.starting, massBuf, driver⟩,
        Commits stage.input stage.before →
          stage.before.editor.cursor.x = stage.before.editor.cursor.y := by
  apply stages_iff (cmosStep ports) (fun window => window.editor.cursor.OnPage 0)
    (fun input window => Commits input window → window.editor.cursor.x = window.editor.cursor.y)
  · exact Cursor.start_onPage (Nat.zero_le 4)
  · intro input _ window onPage
    by_cases commits : Commits input window
    · rw [cmosStep_output ports window input commits]
      have replaces := replacesByte_iff stores window onPage commits.2
        fun editor => { editor with input := false, wbuf := 0 }
      constructor
      · intro fine _
        exact replaces.mp (fine _ rfl)
      · intro allowed written output
        obtain rfl := Option.some.inj output
        exact replaces.mpr (allowed commits)
    · constructor
      · intro _ committed
        exact absurd committed commits
      · intro _ written output
        have silent := (cmosStep_other ports window input commits onPage).1
        exact absurd (silent.symm.trans output) (by simp)
  · intro input _ window onPage _
    exact cmosStep_onPage ports window onPage input

/-- A chip with 256 bytes. -/
structure Chip where
  selected : BitVec 8
  contents : BitVec 8 → BitVec 8

/-- Its two ports. -/
def chipPorts : CmosPorts Chip where
  outb := fun value port chip =>
    if port = cmosAddrPort then { chip with selected := value }
    else if port = cmosDataPort then
      { chip with contents := Function.update chip.contents chip.selected value }
    else chip
  inb := fun _ chip => (chip.contents chip.selected, chip)

/-- The small chip stores what is written to it, as the claims about CMOS-SPACE ask of a chip. -/
theorem chipPorts_stores : chipPorts.Stores Chip.selected Chip.contents where
  select := fun _ _ => rfl
  keep := fun _ _ => rfl
  store := fun _ _ => rfl
  load := fun _ => rfl
  loaded := fun _ => rfl

/-- A digit is typed and entered with the cursor at the first byte. -/
theorem first_byte_written :
    (∃ stage ∈ stages (cmosStep chipPorts) [.key 0x34, .key keyEnter]
        ⟨CmosEditor.starting, Vector.replicate 256 0, ⟨0, fun _ => 0⟩⟩, stage.output.isSome) ∧
      ∀ stage ∈ stages (cmosStep chipPorts) [.key 0x34, .key keyEnter]
          ⟨CmosEditor.starting, Vector.replicate 256 0, ⟨0, fun _ => 0⟩⟩,
        ∀ written, stage.output = some written →
          ReplacesByte chipPorts stage.before stage.after written.1 := by
  constructor
  · exact ⟨_, List.mem_cons_of_mem _ List.mem_cons_self, rfl⟩
  · refine (cmos_written_iff chipPorts_stores [.key 0x34, .key keyEnter] (Vector.replicate 256 0)
      ⟨0, fun _ => 0⟩).mpr fun stage member _ => ?_
    rcases List.mem_cons.mp member with rfl | later
    · rfl
    · obtain rfl := List.mem_singleton.mp later
      rfl

/-- With the cursor one byte further, the write goes to the byte below the first one. -/
theorem second_byte_missed :
    ¬ ∀ stage ∈ stages (cmosStep chipPorts) [.key keyRight, .key 0x34, .key keyEnter]
        ⟨CmosEditor.starting, Vector.replicate 256 0, ⟨0, fun _ => 0⟩⟩,
      ∀ written, stage.output = some written →
        ReplacesByte chipPorts stage.before stage.after written.1 := by
  intro all
  have entered := all _ (List.mem_cons_of_mem _ (List.mem_cons_of_mem _ List.mem_cons_self)) _ rfl
  have onPage : (⟨1, 0⟩ : Cursor).OnPage 0 :=
    ⟨one_dvd _, by decide, by decide, by decide, by decide⟩
  have same : (1 : Int) = 0 := (replacesByte_iff chipPorts_stores
    ⟨⟨⟨1, 0⟩, true, 4⟩, Vector.replicate 256 0, ⟨0, fun _ => 0⟩⟩ onPage rfl
    fun editor => { editor with input := false, wbuf := 0 }).mp entered
  exact absurd same (by decide)

end Lfdk.HexEditors
