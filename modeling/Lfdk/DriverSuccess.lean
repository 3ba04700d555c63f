import Lfdk.CmosWrites
import Lfdk.EditorEffects
import Lfdk.ScanOutcomes

/-!
# As long as the driver succeeds

A call of the driver that fails ends the program, in the scanner and in the editors alike.
So for each of them it is enough to know which operations it calls and that these succeed:
what is known of the driver is kept then, and the program does not end at a call.

The memory and the port editor call two operations, the one that reads a page, and the one
that writes a value of the width that is chosen; they call the second only when Enter ends
the typing of a value.
-/

namespace Lfdk.HexEditors

universe u
variable {δ : Type u} {ρ : Type}

/-- An operation that succeeds for every structure, and keeps what is known of the driver. -/
def Succeeds (ioctl : Ioctl ρ δ) (Good : δ → Prop) (operation : Operation) : Prop :=
  ∀ request driver, Good driver →
    (ioctl operation request driver).1 = true ∧ Good (ioctl operation request driver).2.2

end Lfdk.HexEditors

namespace Lfdk.PciScan

open CountedLoops PciNames HexEditors

universe u
variable {δ : Type u} {Good : δ → Prop}
variable (ioctl : Ioctl LfddPcix δ) (succeeds : ∀ operation, Succeeds ioctl Good operation)
  (pcixMmioBase : BitVec 64) (database : NameDatabase)

/-- A part of a scan goes on or stops with what is known of the driver, and not at a call. -/
abbrev EndsServed (Good : δ → Prop) : Except (Ending × Scan δ) (Scan δ) → Prop :=
  Ends (fun scan => Good scan.driver) (fun ended => ended.1 ≠ .exited ∧ Good ended.2.driver)

section Bases

include succeeds

/-- The walk through the capabilities keeps a good driver: each of its reads leaves the driver good,
and there is nothing else that changes it. -/
theorem walkCapabilities_served (walkLimit : Nat) (capId capNext : BitVec 8) (target : LfddPcix)
    (driver : δ) (good : Good driver) :
    Good (walkCapabilities ioctl walkLimit capId capNext target driver).2.2.2 := by
  induction walkLimit generalizing capId capNext target driver with
  | zero => exact good
  | succ walkLimit inductionHypothesis =>
    unfold walkCapabilities
    split
    · obtain ⟨success, kept⟩ :=
        succeeds .readWord { target with reg := capNext.setWidth 16 } driver good
      simp only [success, Bool.true_eq_false, if_false]
      exact inductionHypothesis _ _ _ _ kept
    · exact good

/-- The comparison of the first dwords keeps it, with one read through the window and one through
the ports. -/
theorem compareDwords_served (target : LfddPcix) (driver : δ) (good : Good driver) :
    Good (compareDwords ioctl pcixMmioBase target driver).2.2 := by
  have first := (succeeds .readDword { target with reg := 0, phyBase := 0, buf := 0 } driver good).2
  simp only [compareDwords]
  split
  · exact first
  · have second := fun request => (succeeds .readDword request _ first).2
    split
    · exact second _
    · exact second _

/-- The search for the base keeps it, whichever of its steps ends the search. -/
theorem findBase_served (target : LfddPcix) (driver : δ) (good : Good driver) :
    Good (findBase ioctl pcixMmioBase target driver).2.2 := by
  have first := (succeeds .readWord { target with reg := 0x34 } driver good).2
  simp only [findBase]
  split
  · exact first
  · have second := fun request => (succeeds .readWord request _ first).2
    split
    · exact second _
    · have walked := fun request capId capNext target =>
        walkCapabilities_served ioctl succeeds 64 capId capNext target _ (second request)
      split
      · exact compareDwords_served ioctl succeeds pcixMmioBase _ _ (walked _ _ _ _)
      · exact walked _ _ _ _

/-- So does the assignment of a base to a record, also where the walk does not find the capability.
-/
theorem assignMMIOBase_served (target : LfddPcix) (record : PciData) (driver : δ)
    (good : Good driver) : Good (assignMMIOBase ioctl pcixMmioBase target record driver).2.2 := by
  rw [assignMMIOBase]
  split
  · exact good
  · exact findBase_served ioctl succeeds pcixMmioBase target driver good

end Bases

section Parts

variable {scan : Scan δ} (good : Good scan.driver)

include good

/-- Storing into the list does not call the driver at all; it can only fail where there is no room.
-/
theorem store_served (change : PciData → PciData) : EndsServed Good (store change scan) := by
  rw [store]
  split
  · exact good
  · exact ⟨by simp, good⟩

/-- Neither does storing the names, which reads the database only, and may fail. -/
theorem storeTexts_served : EndsServed Good (storeTexts database scan) := by
  rw [storeTexts]
  split
  · simp only
    split
    · exact ⟨by simp, good⟩
    · exact store_served good _
  · exact ⟨by simp, good⟩

/-- Neither does going on to the next record, which may find the list full. -/
theorem nextRecord_served : EndsServed Good (nextRecord scan) := by
  simp only [nextRecord]
  split
  · exact ⟨by simp, good⟩
  · exact good

include succeeds

/-- A read of the scan keeps a good driver and succeeds, so that the scan goes on. -/
theorem callDriver_served (operation : Operation) (request : LfddPcix) :
    EndsServed Good (callDriver ioctl operation { scan with lfddPciData := request }) := by
  obtain ⟨success, kept⟩ := succeeds operation request scan.driver good
  simp only [callDriver, success, if_true]
  exact kept

/-- Storing the base makes the reads of its search, and they keep the driver good. -/
theorem storeBase_served : EndsServed Good (storeBase ioctl pcixMmioBase scan) := by
  rw [storeBase]
  split
  · exact good
  · split
    · exact assignMMIOBase_served ioctl succeeds pcixMmioBase _ _ _ good
    · exact ⟨by simp, good⟩

/-- Recording a function is these steps one after the other, and they keep the driver good or stop
the scan. -/
theorem recordDevice_served (place : Place) :
    EndsServed Good (recordDevice ioctl pcixMmioBase database place scan) := by
  rw [recordDevice]
  apply Ends.bind
  · exact store_served good _
  intro placed good
  apply Ends.bind
  · exact callDriver_served ioctl succeeds good .readWord _
  intro read good
  apply Ends.bind
  · exact store_served good _
  intro identified good
  apply Ends.bind
  · exact storeTexts_served database good
  intro named good
  apply Ends.bind
  · exact storeBase_served ioctl succeeds pcixMmioBase good
  intro based good
  exact nextRecord_served good

/-- Probing a place reads the vendor id and records the function if there is one. -/
theorem probe_served (place : Place) :
    EndsServed Good (probe ioctl pcixMmioBase database place scan) := by
  rw [probe]
  apply Ends.bind
  · exact callDriver_served ioctl succeeds good .readWord _
  intro read good
  split
  · exact good
  · exact recordDevice_served ioctl succeeds pcixMmioBase database good place

end Parts

include succeeds

/-- A scan whose calls succeed does not end at one of them. -/
theorem scan_served (fuel : Nat) (maxpcibus : Int) (scan : Scan δ) (good : Good scan.driver) :
    let ran := scanPCIDevice ioctl pcixMmioBase database fuel maxpcibus scan
    ran.1 ≠ .exited ∧ Good ran.2.driver := by
  intro ran
  have ends : ran.1 = .completed ∧ Good ran.2.driver ∨ ran.1 ≠ .exited ∧ Good ran.2.driver :=
    scan_ends ioctl pcixMmioBase database (fun _ good => ⟨by simp, good⟩)
      (fun place _ good => probe_served ioctl succeeds pcixMmioBase database good place)
      fuel maxpcibus scan good
  rcases ends with ⟨completed, good⟩ | stopped
  · exact ⟨by rw [completed]; decide, good⟩
  · exact stopped

end Lfdk.PciScan

namespace Lfdk.HexEditors

open PciScan

universe u
variable {δ : Type u} {Good : δ → Prop}

section PciDevices

variable (ioctl : Ioctl LfddPcix δ) (succeeds : ∀ operation, Succeeds ioctl Good operation)
  {window : DevWindow δ}

/-- An edit of the variables calls nothing and ends nothing, so it needs nothing of the driver. -/
theorem DevWindow.edit_served (window : DevWindow δ) (change : PciDev → PciDev) :
    (window.edit change).halted = window.halted ∧ (window.edit change).driver = window.driver := by
  rw [edit]
  split
  · exact ⟨rfl, rfl⟩
  · exact ⟨rfl, rfl⟩

/-- Turning a page calls nothing. It is undefined where there is no selected record, but it does not
end the program with an error. -/
theorem turnPage_served (running : window.halted = none) (good : Good window.driver)
    (change : Int → Int) :
    (turnPage change window).halted ≠ some .exited ∧ Good (turnPage change window).driver := by
  unfold turnPage
  split
  · exact ⟨by simp, good⟩
  · split
    · obtain ⟨halted, driver⟩ := window.edit_served fun dev =>
        { dev with buffPage := change dev.buffPage }
      rw [halted, driver, running]
      exact ⟨by simp, good⟩
    · rw [running]
      exact ⟨by simp, good⟩

include succeeds

/-- A call for the selected function succeeds on a good driver and leaves it good, or it is not made
as there is no such function. -/
theorem callSelected_served (good : Good window.driver) (operation : Operation)
    (reg : BitVec 16) (buf : BitVec 32) :
    (callSelected ioctl operation reg buf window).2.halted ≠ some .exited ∧
      Good (callSelected ioctl operation reg buf window).2.driver := by
  rw [callSelected]
  split
  · exact ⟨by simp, good⟩
  · obtain ⟨success, kept⟩ := succeeds operation _ window.driver good
    exact ⟨by simp [success], kept⟩

/-- PCI-DEV with calls that succeed does not end the program at one of them. -/
theorem devStep_served (running : window.halted = none) (good : Good window.driver)
    (input : DevInput) :
    (devStep ioctl input window).2.halted ≠ some .exited ∧
      Good (devStep ioctl input window).2.driver := by
  have idle : window.halted ≠ some .exited ∧ Good window.driver := ⟨by simp [running], good⟩
  unfold devStep
  split
  · exact idle
  · cases input with
    | key code =>
      have effect := pciDevKeyPress_effect ioctl window running code
      simp only
      generalize pciDevKeyPress ioctl code window = ran at effect
      cases effect with
      | wrote typing =>
        obtain ⟨halted, driver⟩ := (writePCIValue ioctl window).2.edit_served fun dev =>
          { dev with input := false, wbuf := 0 }
        rw [halted, driver]
        exact callSelected_served ioctl succeeds good _ _ _
      | edited dev change => exact idle
      | turned change turn => exact turnPage_served running good change
      | following | preceding | nothing => exact idle
    | getFocus | others => exact idle
    | lostFocus =>
      obtain ⟨halted, driver⟩ := window.edit_served fun dev =>
        { PciDev.starting with displayMode := dev.displayMode }
      simp only [pciDevLostFocus]
      rw [halted, driver]
      exact idle
    | paint => exact callSelected_served ioctl succeeds good _ _ _

end PciDevices

section Spaces

variable {α μ : Type} (space : AddressSpace α μ) (ioctl : Ioctl LfddSpace δ)
  {window : SpaceWindow α μ δ}

/-- An edit of the variables of a space calls nothing and ends nothing. -/
theorem SpaceWindow.edit_served (window : SpaceWindow α μ δ)
    (change : SpaceEditor α μ → SpaceEditor α μ) :
    (window.edit change).halted = window.halted ∧ (window.edit change).driver = window.driver := by
  rw [edit]
  split
  · exact ⟨rfl, rfl⟩
  · exact ⟨rfl, rfl⟩

/-- A call that succeeds on a good driver does not end the program and leaves the driver good. -/
theorem callSpace_served {operation : Operation} (succeeds : Succeeds ioctl Good operation)
    (good : Good window.driver) (request : LfddSpace) :
    (callSpace ioctl operation request window).2.halted = none ∧
      Good (callSpace ioctl operation request window).2.driver := by
  obtain ⟨success, kept⟩ := succeeds request window.driver good
  exact ⟨by simp [callSpace, success], kept⟩

/-- An editor whose calls succeed goes on, and the driver stays good: no branch of a step ends the
program but a failing call. -/
theorem spaceStep_served (running : window.halted = none) (good : Good window.driver)
    (input : SpaceInput)
    (succeeds : ∀ call ∈ (spaceStep space ioctl input window).1, Succeeds ioctl Good call.1) :
    (spaceStep space ioctl input window).2.halted = none ∧
      Good (spaceStep space ioctl input window).2.driver := by
  have idle : window.halted = none ∧ Good window.driver := ⟨running, good⟩
  unfold spaceStep at succeeds ⊢
  split
  · exact idle
  · next going =>
    rw [if_neg going] at succeeds
    cases input with
    | key code =>
      have effect := spaceKeyPress_effect space ioctl window running code
      simp only at succeeds ⊢
      generalize spaceKeyPress space ioctl code window = ran at effect succeeds
      cases effect with
      | wrote typing =>
        obtain ⟨halted, driver⟩ := (writeSpaceValue space ioctl window).2.edit_served fun editor =>
          { editor with input := .noInput, wbuf := 0 }
        rw [halted, driver]
        exact callSpace_served ioctl (succeeds _ (List.mem_singleton_self _)) good _
      | edited editor change => exact idle
      | nothing => exact idle
    | getFocus =>
      obtain ⟨halted, driver⟩ := window.edit_served fun editor =>
        { editor with input := .inputAddr, wbuf := 0 }
      simp only [spaceGetFocus]
      rw [halted, driver]
      exact idle
    | lostFocus =>
      obtain ⟨halted, driver⟩ := window.edit_served fun editor =>
        { editor with input := .noInput, wbuf := 0 }
      simp only [spaceLostFocus]
      rw [halted, driver]
      exact idle
    | paint =>
      simp only [printSpaceScreen] at succeeds ⊢
      split
      · exact idle
      · next shown =>
        rw [if_neg shown] at succeeds
        exact callSpace_served ioctl (succeeds _ (List.mem_singleton_self _)) good _

end Spaces

section CmosBytes

variable (ports : CmosPorts δ) (outb : ∀ value port driver, Good driver →
  Good (ports.outb value port driver))

include outb

/-- Reading the chip goes through the ports only, so the driver is good after all reads if each of
them keeps it so. -/
theorem readCmosFrom_served (inb : ∀ port driver, Good driver → Good (ports.inb port driver).2)
    (left : Nat) (buf : Vector (BitVec 8) 256) (driver : δ) (good : Good driver) :
    Good (readCmosFrom ports left buf driver).2 := by
  induction left generalizing buf driver with
  | zero => exact good
  | succ left inductionHypothesis =>
    rw [readCmosFrom]
    exact inductionHypothesis _ _ (inb _ _ (outb _ _ _ good))

/-- CMOS-SPACE makes no calls, but it uses ports; the driver stays good as long as the two port
functions keep it so. -/
theorem cmosStep_served (inb : ∀ port driver, Good driver → Good (ports.inb port driver).2)
    (window : CmosWindow δ) (good : Good window.driver) (input : SpaceInput) :
    Good (cmosStep ports input window).2.driver := by
  by_cases commits : Commits input window
  · rw [cmosStep_output ports window input commits]
    exact outb _ _ _ (outb _ _ _ good)
  · cases input with
    | key code =>
      simp only [cmosStep, cmosKeyPress]
      split
      · next typing =>
        cases typed : typeKey 0xf0 window.editor.wbuf code with
        | enter => exact absurd ⟨congrArg SpaceInput.key (typeKey_enter typed), typing⟩ commits
        | number wbuf => exact good
        | left => exact good
      · -- no other key reaches the ports
        repeat' split
        all_goals exact good
    | getFocus | lostFocus => exact good
    | paint =>
      have read := readCmosFrom_served ports outb inb 256 window.massBuf window.driver good
      rw [cmosStep, printCmosScreen, readCmos256Bytes]
      exact read

end CmosBytes

end Lfdk.HexEditors
