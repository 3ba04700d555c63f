import Lfdk.HexEditors
import Lfdk.Runs

/-!
# The keys that are asked about

`isxdigit` is a look into a table that has entries for the characters 0 to 255. The editors
ask it about any key that no case of their `switch` names, and keys of the terminal library
have larger codes.

Here the handlers are written once more with each question to `isxdigit` on record. They do
what they did. So a run stays within the table exactly when every key that comes is a
character, or one that the `switch` of the moment names.
-/

namespace Lfdk.HexEditors

open HexPages PciScan Runs

universe u v
variable {δ : Type u} {β : Type v}

/-- The questions to `isxdigit`, and a result. -/
abbrev Asking (β : Type v) := List (BitVec 32) × β

/-- A branch without a question. -/
def unasked (result : β) : Asking β := ([], result)

/-- The branch that `isxdigit` decides. -/
def askXdigit (key : BitVec 32) (digit other : β) : Asking β :=
  ([key], if isxdigit key then digit else other)

/-- `isxdigit` is defined for all of these. -/
def InTable (asked : List (BitVec 32)) : Prop := ∀ key ∈ asked, key ≤ 255

/-- Where nothing is asked, nothing is asked outside of the characters that `isxdigit` is defined
for. -/
theorem inTable_nil : InTable [] := fun _ member => absurd member List.not_mem_nil

/-- The keys that the `switch` names while a value or an address is typed. -/
def typingKeys : List (BitVec 32) := [keyEnter, keyBackspace]

/-- Those that it names while a page is browsed. -/
def browsingKeys : List (BitVec 32) :=
  [keyUp, keyDown, keyLeft, keyRight, keyNpage, keyPpage, keyF7]

/-- Those of CMOS-SPACE, which has one page of bytes. -/
def cmosKeys : List (BitVec 32) := [keyUp, keyDown, keyLeft, keyRight]

/-- A key is asked about if it is not named. -/
def askedUnless (named : List (BitVec 32)) (key : BitVec 32) : List (BitVec 32) :=
  if key ∈ named then [] else [key]

/-- A class is asked inside the table exactly if the key is one of its characters, or is one of the
named keys, for which the question is not reached. -/
theorem inTable_iff (named : List (BitVec 32)) (key : BitVec 32) :
    InTable (askedUnless named key) ↔ key ≤ 255 ∨ key ∈ named := by
  unfold askedUnless
  by_cases listed : key ∈ named
  · rw [if_pos listed]
    exact iff_of_true inTable_nil (Or.inr listed)
  · rw [if_neg listed, or_iff_left listed]
    constructor
    · exact fun inside => inside key List.mem_cons_self
    · intro small other member
      obtain rfl := List.mem_singleton.mp member
      exact small

/-- An answer without a question is the answer itself. -/
@[simp] theorem unasked_result (result : β) : (unasked result).2 = result := rfl

/-- No question was asked for it, so the list of questions is empty. -/
@[simp] theorem unasked_asked (result : β) : (unasked result).1 = [] := rfl

/-- The answer to the question for a digit is chosen by `isxdigit`, as in the editors. -/
@[simp] theorem askXdigit_result (key : BitVec 32) (digit other : β) :
    (askXdigit key digit other).2 = if isxdigit key then digit else other := rfl

/-- Exactly this key was asked about, whatever the answers are that are chosen between. -/
@[simp] theorem askXdigit_asked (key : BitVec 32) (digit other : β) :
    (askXdigit key digit other).1 = askedUnless [] key := rfl

/-- A `switch` asks about a key if none of its cases is taken. -/
theorem askedUnless_cons (first : BitVec 32) (named : List (BitVec 32)) (key : BitVec 32) :
    (if key = first then [] else askedUnless named key) = askedUnless (first :: named) key := by
  unfold askedUnless
  by_cases same : key = first
  · rw [if_pos same, if_pos (same ▸ List.mem_cons_self)]
  · have listed : key ∈ first :: named ↔ key ∈ named := by
      rw [List.mem_cons, or_iff_right same]
    rw [if_neg same]
    simp only [listed]

/-- `typeKey` -/
def typeKeyAsking (mask wbuf key : BitVec 32) : Asking Typed :=
  if key = keyEnter then unasked .enter
  else if key = keyBackspace then unasked (.number (wbuf >>> 4))
  else askXdigit key (.number (wbuf <<< 4 &&& mask ||| digitOf key)) .left

/-- With its questions noted, a key that is typed has the same result as without. -/
theorem typeKeyAsking_result (mask wbuf key : BitVec 32) :
    (typeKeyAsking mask wbuf key).2 = typeKey mask wbuf key := by
  simp only [typeKeyAsking, typeKey, apply_ite Prod.snd, unasked_result, askXdigit_result]

/-- A key that is typed is asked about unless it is one of those that are named before the question.
-/
theorem typeKeyAsking_asked (mask wbuf key : BitVec 32) :
    (typeKeyAsking mask wbuf key).1 = askedUnless typingKeys key := by
  simp only [typeKeyAsking, apply_ite Prod.fst, unasked_asked, askXdigit_asked, askedUnless_cons,
    typingKeys]

section PciDevices

variable (ioctl : Ioctl LfddPcix δ)

/-- `pci_dev_key_press` -/
def pciDevKeyPressAsking (key : BitVec 32) (window : DevWindow δ) :
    Asking (Ran LfddPcix (DevWindow δ)) :=
  let dev := window.dev
  if dev.input then
    let typed := typeKeyAsking dev.displayMode.mask dev.wbuf key
    (typed.1, match typed.2 with
      | .enter =>
        let (calls, window) := writePCIValue ioctl window
        (calls, window.edit fun dev => { dev with input := false, wbuf := 0 })
      | .number wbuf => ([], window.edit fun dev => { dev with wbuf := wbuf })
      | .left => ([], window.edit fun dev => { dev with wbuf := 0, input := false }))
  else if key = keyUp then
    unasked (
      if 0 < dev.cursor.y then ([], window.edit fun dev => { dev with cursor := dev.cursor.up })
      else ([], turnPage (fun page => if 256 ≤ page then page - 256 else page) window))
  else if key = keyDown then
    unasked (
      if dev.cursor.y < 15 then ([], window.edit fun dev => { dev with cursor := dev.cursor.down })
      else ([], turnPage (fun page => if page + 256 < 0x1000 then page + 256 else page) window))
  else if key = keyLeft then
    unasked ([], window.edit fun dev =>
      { dev with cursor := dev.cursor.left dev.displayMode.shift })
  else if key = keyRight then
    unasked ([], window.edit fun dev =>
      { dev with cursor := dev.cursor.right dev.displayMode.shift })
  else if key = keyNpage then
    unasked (
      if window.table.currIndex < (window.table.pciListLen : Int) - 1 then
        ([], selectFunction 1 window)
      else ([], window))
  else if key = keyPpage then
    unasked (
      if 0 < window.table.currIndex then ([], selectFunction (-1) window) else ([], window))
  else if key = keyF7 then
    unasked ([], window.edit fun dev =>
      { dev with
        displayMode := dev.displayMode.next
        cursor := dev.cursor.realign dev.displayMode.next.shift })
  else
    askXdigit key ([], window.edit fun dev => { dev with input := true, wbuf := digitOf key })
      ([], window)

/-- With its questions noted, PCI-DEV does with a key what it does without. -/
theorem pciDevKeyPressAsking_result (key : BitVec 32) (window : DevWindow δ) :
    (pciDevKeyPressAsking ioctl key window).2 = pciDevKeyPress ioctl key window := by
  cases typing : window.dev.input with
  | true =>
    cases typed : typeKey window.dev.displayMode.mask window.dev.wbuf key <;>
      simp only [pciDevKeyPressAsking, pciDevKeyPress, typing, if_true, typeKeyAsking_result, typed]
  | false =>
    simp only [pciDevKeyPressAsking, pciDevKeyPress, typing, Bool.false_eq_true, if_false,
      apply_ite Prod.snd, unasked_result, askXdigit_result]

/-- PCI-DEV asks about a key unless it is one of those that it names first, which are others while a
value is typed. -/
theorem pciDevKeyPressAsking_asked (key : BitVec 32) (window : DevWindow δ) :
    (pciDevKeyPressAsking ioctl key window).1 =
      askedUnless (if window.dev.input then typingKeys else browsingKeys) key := by
  simp only [pciDevKeyPressAsking]
  cases window.dev.input with
  | true => exact typeKeyAsking_asked _ _ _
  | false =>
    simp only [Bool.false_eq_true, if_false, apply_ite Prod.fst, unasked_asked, askXdigit_asked,
      askedUnless_cons, browsingKeys]

/-- PCI-DEV with its questions. -/
def devStepAsking (input : DevInput) (window : DevWindow δ) :
    List (BitVec 32) × DevWindow δ :=
  match input with
  | .key code =>
    if window.halted.isSome then ([], window)
    else ((pciDevKeyPressAsking ioctl code window).1, (pciDevKeyPressAsking ioctl code window).2.2)
  | .getFocus | .lostFocus | .paint | .others _ _ => ([], (devStep ioctl input window).2)

/-- So does a step of PCI-DEV: the record of questions changes nothing of what it does. -/
theorem devStepAsking_result (input : DevInput) (window : DevWindow δ) :
    (devStepAsking ioctl input window).2 = (devStep ioctl input window).2 := by
  cases input with
  | key code =>
    simp only [devStepAsking, devStep, apply_ite Prod.snd, pciDevKeyPressAsking_result]
  | getFocus => rfl
  | lostFocus => rfl
  | paint => rfl
  | others table lfddPciData => rfl

/-- A key is a character, or the `switch` of PCI-DEV names it at this moment. -/
def DevNamed (input : DevInput) (window : DevWindow δ) : Prop :=
  ∀ code, input = .key code → window.halted = none →
    code ≤ 255 ∨ code ∈ if window.dev.input then typingKeys else browsingKeys

/-- A step of PCI-DEV asks inside the table exactly if its key is named or is a character, or no key
is pressed. -/
theorem devStepAsking_inTable_iff (input : DevInput) (window : DevWindow δ) :
    InTable (devStepAsking ioctl input window).1 ↔ DevNamed input window := by
  cases input with
  | key code =>
    simp only [devStepAsking, DevNamed]
    cases halted : window.halted with
    | some ending => exact iff_of_true inTable_nil fun _ _ running => nomatch running
    | none =>
      simp only [Option.isSome_none, Bool.false_eq_true, if_false, pciDevKeyPressAsking_asked,
        inTable_iff]
      constructor
      · rintro inside other ⟨⟩ _
        exact inside
      · exact fun named => named code rfl trivial
  | getFocus => exact iff_of_true inTable_nil fun _ same => nomatch same
  | lostFocus => exact iff_of_true inTable_nil fun _ same => nomatch same
  | paint => exact iff_of_true inTable_nil fun _ same => nomatch same
  | others table lfddPciData => exact iff_of_true inTable_nil fun _ same => nomatch same

end PciDevices

section Spaces

variable {α μ : Type} (space : AddressSpace α μ) (ioctl : Ioctl LfddSpace δ)

/-- `mem_key_press` and `io_key_press` -/
def spaceKeyPressAsking (key : BitVec 32) (window : SpaceWindow α μ δ) :
    Asking (Ran LfddSpace (SpaceWindow α μ δ)) :=
  let editor := window.editor
  match editor.input with
  | .inputAddr =>
    let typed := typeKeyAsking space.addrMask editor.wbuf key
    (typed.1, match typed.2 with
      | .enter => ([], window.edit fun editor =>
          { editor with input := .noInput, page := space.typedPage editor.wbuf, wbuf := 0 })
      | .number wbuf => ([], window.edit fun editor => { editor with wbuf := wbuf })
      | .left => ([], window.edit fun editor => { editor with wbuf := 0, input := .noInput }))
  | .inputValue =>
    let typed := typeKeyAsking (space.mask editor.displayMode) editor.wbuf key
    (typed.1, match typed.2 with
      | .enter =>
        let (calls, window) := writeSpaceValue space ioctl window
        (calls, window.edit fun editor => { editor with input := .noInput, wbuf := 0 })
      | .number wbuf => ([], window.edit fun editor => { editor with wbuf := wbuf })
      | .left => ([], window.edit fun editor => { editor with wbuf := 0, input := .noInput }))
  | .noInput =>
    if key = keyUp then
      unasked ([], window.edit fun editor => { editor with cursor := editor.cursor.up })
    else if key = keyDown then
      unasked ([], window.edit fun editor => { editor with cursor := editor.cursor.down })
    else if key = keyLeft then
      unasked ([], window.edit fun editor =>
        { editor with cursor := editor.cursor.left (space.shift editor.displayMode) })
    else if key = keyRight then
      unasked ([], window.edit fun editor =>
        { editor with cursor := editor.cursor.right (space.shift editor.displayMode) })
    else if key = keyNpage then
      unasked ([], window.edit fun editor => { editor with page := space.nextPage editor.page })
    else if key = keyPpage then
      unasked ([], window.edit fun editor =>
        { editor with page := space.previousPage editor.page })
    else if key = keyF7 then
      unasked ([], window.edit fun editor =>
        { editor with
          displayMode := space.nextMode editor.displayMode
          cursor := editor.cursor.realign (space.shift (space.nextMode editor.displayMode)) })
    else if key = space.shortKey then
      unasked ([], window.edit fun editor => { editor with input := .inputAddr, wbuf := 0 })
    else
      askXdigit key
        ([], window.edit fun editor => { editor with input := .inputValue, wbuf := digitOf key })
        ([], window)

/-- With its questions noted, a space does with a key what it does without. -/
theorem spaceKeyPressAsking_result (key : BitVec 32) (window : SpaceWindow α μ δ) :
    (spaceKeyPressAsking space ioctl key window).2 = spaceKeyPress space ioctl key window := by
  cases mode : window.editor.input with
  | inputAddr =>
    cases typed : typeKey space.addrMask window.editor.wbuf key <;>
      simp only [spaceKeyPressAsking, spaceKeyPress, mode, typeKeyAsking_result, typed]
  | inputValue =>
    cases typed : typeKey (space.mask window.editor.displayMode) window.editor.wbuf key <;>
      simp only [spaceKeyPressAsking, spaceKeyPress, mode, typeKeyAsking_result, typed]
  | noInput =>
    simp only [spaceKeyPressAsking, spaceKeyPress, mode, apply_ite Prod.snd, unasked_result,
      askXdigit_result]

/-- The keys that the `switch` names in a mode, and the short key, which is looked for first. -/
def spaceKeys : InputMode → List (BitVec 32)
  | .noInput => browsingKeys ++ [space.shortKey]
  | .inputValue | .inputAddr => typingKeys

/-- A space asks about a key unless it is one of those that it names first, by what is being typed.
-/
theorem spaceKeyPressAsking_asked (key : BitVec 32) (window : SpaceWindow α μ δ) :
    (spaceKeyPressAsking space ioctl key window).1 =
      askedUnless (spaceKeys space window.editor.input) key := by
  simp only [spaceKeyPressAsking]
  cases window.editor.input with
  | inputAddr => exact typeKeyAsking_asked _ _ _
  | inputValue => exact typeKeyAsking_asked _ _ _
  | noInput =>
    simp only [apply_ite Prod.fst, unasked_asked, askXdigit_asked, askedUnless_cons]
    rfl

/-- An editor with its questions. -/
def spaceStepAsking (input : SpaceInput) (window : SpaceWindow α μ δ) :
    List (BitVec 32) × SpaceWindow α μ δ :=
  match input with
  | .key code =>
    if window.halted.isSome then ([], window)
    else
      ((spaceKeyPressAsking space ioctl code window).1,
        (spaceKeyPressAsking space ioctl code window).2.2)
  | .getFocus | .lostFocus | .paint => ([], (spaceStep space ioctl input window).2)

/-- So does a step of a space, and keys are the only inputs for which it asks. -/
theorem spaceStepAsking_result (input : SpaceInput) (window : SpaceWindow α μ δ) :
    (spaceStepAsking space ioctl input window).2 = (spaceStep space ioctl input window).2 := by
  cases input with
  | key code =>
    simp only [spaceStepAsking, spaceStep, apply_ite Prod.snd, spaceKeyPressAsking_result]
  | getFocus => rfl
  | lostFocus => rfl
  | paint => rfl

/-- A key is a character, or the `switch` of the editor names it at this moment. -/
def SpaceNamed (input : SpaceInput) (window : SpaceWindow α μ δ) : Prop :=
  ∀ code, input = .key code → window.halted = none →
    code ≤ 255 ∨ code ∈ spaceKeys space window.editor.input

/-- A step of a space asks inside the table exactly if its key is named or is a character, or no key
is pressed. -/
theorem spaceStepAsking_inTable_iff (input : SpaceInput) (window : SpaceWindow α μ δ) :
    InTable (spaceStepAsking space ioctl input window).1 ↔ SpaceNamed space input window := by
  cases input with
  | key code =>
    simp only [spaceStepAsking, SpaceNamed]
    cases halted : window.halted with
    | some ending => exact iff_of_true inTable_nil fun _ _ running => nomatch running
    | none =>
      simp only [Option.isSome_none, Bool.false_eq_true, if_false, spaceKeyPressAsking_asked,
        inTable_iff]
      constructor
      · rintro inside other ⟨⟩ _
        exact inside
      · exact fun named => named code rfl trivial
  | getFocus => exact iff_of_true inTable_nil fun _ same => nomatch same
  | lostFocus => exact iff_of_true inTable_nil fun _ same => nomatch same
  | paint => exact iff_of_true inTable_nil fun _ same => nomatch same

end Spaces

section CmosBytes

variable (ports : CmosPorts δ)

/-- `cmos_key_press` -/
def cmosKeyPressAsking (key : BitVec 32) (window : CmosWindow δ) :
    Asking (Option (BitVec 8 × BitVec 8) × CmosWindow δ) :=
  let editor := window.editor
  if editor.input then
    let typed := typeKeyAsking 0xf0 editor.wbuf key
    (typed.1, match typed.2 with
      | .enter => (some editor.written, (writeCmosByteValue ports window).edit fun editor =>
          { editor with input := false, wbuf := 0 })
      | .number wbuf => (none, window.edit fun editor => { editor with wbuf := wbuf })
      | .left => (none, window.edit fun editor => { editor with wbuf := 0, input := false }))
  else if key = keyUp then
    unasked (none, window.edit fun editor => { editor with cursor := editor.cursor.up })
  else if key = keyDown then
    unasked (none, window.edit fun editor => { editor with cursor := editor.cursor.down })
  else if key = keyLeft then
    unasked (none, window.edit fun editor => { editor with cursor := editor.cursor.left 0 })
  else if key = keyRight then
    unasked (none, window.edit fun editor => { editor with
      cursor := { editor.cursor with
        x := if 16 ≤ editor.cursor.x + 1 then 16 - 1 else editor.cursor.x + 1 } })
  else
    askXdigit key
      (none, window.edit fun editor => { editor with input := true, wbuf := digitOf key })
      (none, window)

/-- With its questions noted, CMOS-SPACE does with a key what it does without. -/
theorem cmosKeyPressAsking_result (key : BitVec 32) (window : CmosWindow δ) :
    (cmosKeyPressAsking ports key window).2 = cmosKeyPress ports key window := by
  cases typing : window.editor.input with
  | true =>
    cases typed : typeKey 0xf0 window.editor.wbuf key <;>
      simp only [cmosKeyPressAsking, cmosKeyPress, typing, if_true, typeKeyAsking_result, typed]
  | false =>
    simp only [cmosKeyPressAsking, cmosKeyPress, typing, Bool.false_eq_true, if_false,
      apply_ite Prod.snd, unasked_result, askXdigit_result]

/-- CMOS-SPACE asks about a key unless it is one of those that it names first. -/
theorem cmosKeyPressAsking_asked (key : BitVec 32) (window : CmosWindow δ) :
    (cmosKeyPressAsking ports key window).1 =
      askedUnless (if window.editor.input then typingKeys else cmosKeys) key := by
  simp only [cmosKeyPressAsking]
  cases window.editor.input with
  | true => exact typeKeyAsking_asked _ _ _
  | false =>
    simp only [Bool.false_eq_true, if_false, apply_ite Prod.fst, unasked_asked, askXdigit_asked,
      askedUnless_cons, cmosKeys]

/-- CMOS-SPACE with its questions. -/
def cmosStepAsking (input : SpaceInput) (window : CmosWindow δ) :
    List (BitVec 32) × CmosWindow δ :=
  match input with
  | .key code =>
    ((cmosKeyPressAsking ports code window).1, (cmosKeyPressAsking ports code window).2.2)
  | .getFocus | .lostFocus | .paint => ([], (cmosStep ports input window).2)

/-- So does a step of CMOS-SPACE, by the same cases. -/
theorem cmosStepAsking_result (input : SpaceInput) (window : CmosWindow δ) :
    (cmosStepAsking ports input window).2 = (cmosStep ports input window).2 := by
  cases input with
  | key code => simp only [cmosStepAsking, cmosStep, cmosKeyPressAsking_result]
  | getFocus => rfl
  | lostFocus => rfl
  | paint => rfl

/-- A key is a character, or the `switch` of CMOS-SPACE names it at this moment. -/
def CmosNamed (input : SpaceInput) (window : CmosWindow δ) : Prop :=
  ∀ code, input = .key code →
    code ≤ 255 ∨ code ∈ if window.editor.input then typingKeys else cmosKeys

/-- A step of CMOS-SPACE asks inside the table exactly if its key is named or is a character, or no
key is pressed. -/
theorem cmosStepAsking_inTable_iff (input : SpaceInput) (window : CmosWindow δ) :
    InTable (cmosStepAsking ports input window).1 ↔ CmosNamed input window := by
  cases input with
  | key code =>
    simp only [cmosStepAsking, CmosNamed, cmosKeyPressAsking_asked, inTable_iff]
    constructor
    · rintro inside other ⟨⟩
      exact inside
    · exact fun named => named code rfl
  | getFocus => exact iff_of_true inTable_nil fun _ same => nomatch same
  | lostFocus => exact iff_of_true inTable_nil fun _ same => nomatch same
  | paint => exact iff_of_true inTable_nil fun _ same => nomatch same

end CmosBytes

/-- Steps that lead to the same states lead to the same state in the end. -/
theorem final_same {ι : Type} {σ : Type u} {ρ τ : Type v} (step : ι → σ → ρ × σ)
    (other : ι → σ → τ × σ) (same : ∀ input state, (step input state).2 = (other input state).2)
    (inputs : List ι) (state : σ) : final step inputs state = final other inputs state := by
  induction inputs generalizing state with
  | nil => rfl
  | cons input inputs inductionHypothesis =>
    have rest := inductionHypothesis (other input state).2
    rw [final, List.foldl_cons, same]
    exact rest

/-- The editors reach the states that they reach without the record, after any sequence of inputs.
-/
theorem asking_final (pci : Ioctl LfddPcix δ) {α μ : Type} (space : AddressSpace α μ)
    (ioctl : Ioctl LfddSpace δ) (ports : CmosPorts δ) :
    (∀ inputs window, final (devStepAsking pci) inputs window =
      final (fun input window => ((), (devStep pci input window).2)) inputs window) ∧
    (∀ inputs window, final (spaceStepAsking space ioctl) inputs window =
      final (fun input window => ((), (spaceStep space ioctl input window).2)) inputs window) ∧
    ∀ inputs window, final (cmosStepAsking ports) inputs window =
      final (fun input window => ((), (cmosStep ports input window).2)) inputs window := by
  refine ⟨?_, ?_, ?_⟩
  · exact final_same _ _ (devStepAsking_result pci)
  · exact final_same _ _ (spaceStepAsking_result space ioctl)
  · exact final_same _ _ (cmosStepAsking_result ports)

/-- A run asks about characters only exactly when the inputs are named where they come. -/
theorem asks_inTable_iff {ι : Type} {σ : Type u} (step : ι → σ → List (BitVec 32) × σ)
    (Named : ι → σ → Prop) (each : ∀ input state, InTable (step input state).1 ↔ Named input state)
    (inputs : List ι) (state : σ) :
    (∀ stage ∈ stages step inputs state, InTable stage.output) ↔
      ∀ stage ∈ stages step inputs state, Named stage.input stage.before := by
  apply stages_iff step (fun _ => True) Named (fun stage => InTable stage.output)
  · trivial
  · intro input _ current _
    exact each input current
  · intro input _ current _ _
    trivial

/-- In a run of any of the four editors, `isxdigit` is asked about characters only exactly
when every key is a character or one that the `switch` names where the key comes. -/
theorem key_classes_iff (pci : Ioctl LfddPcix δ) (mem io : Ioctl LfddSpace δ)
    (ports : CmosPorts δ) :
    (∀ inputs (window : DevWindow δ),
      (∀ stage ∈ stages (devStepAsking pci) inputs window, InTable stage.output) ↔
        ∀ stage ∈ stages (devStepAsking pci) inputs window,
          DevNamed stage.input stage.before) ∧
    (∀ inputs (window : SpaceWindow (BitVec 32) DisplayMode δ),
      (∀ stage ∈ stages (spaceStepAsking memSpace mem) inputs window, InTable stage.output) ↔
        ∀ stage ∈ stages (spaceStepAsking memSpace mem) inputs window,
          SpaceNamed memSpace stage.input stage.before) ∧
    (∀ inputs (window : SpaceWindow Int IoDisplayMode δ),
      (∀ stage ∈ stages (spaceStepAsking ioSpace io) inputs window, InTable stage.output) ↔
        ∀ stage ∈ stages (spaceStepAsking ioSpace io) inputs window,
          SpaceNamed ioSpace stage.input stage.before) ∧
    ∀ inputs (window : CmosWindow δ),
      (∀ stage ∈ stages (cmosStepAsking ports) inputs window, InTable stage.output) ↔
        ∀ stage ∈ stages (cmosStepAsking ports) inputs window,
          CmosNamed stage.input stage.before := by
  refine ⟨?_, ?_, ?_, ?_⟩
  · exact asks_inTable_iff _ _ (devStepAsking_inTable_iff pci)
  · exact asks_inTable_iff _ _ (spaceStepAsking_inTable_iff memSpace mem)
  · exact asks_inTable_iff _ _ (spaceStepAsking_inTable_iff ioSpace io)
  · exact asks_inTable_iff _ _ (cmosStepAsking_inTable_iff ports)

/-- PCI-DEV as the program starts, with a driver that answers nothing. -/
def idleDev : DevWindow Unit :=
  ⟨PciDev.starting, ⟨Vector.replicate 200 PciData.zero, 0, 0⟩, LfddPcix.atRegister 0 0 0, (), none⟩

/-- The digit 1, and then the key for the line above. -/
def digitThenUp : List DevInput := [.key 0x31, .key keyUp]

/-- The second key is looked for in the table, and its code is 259. -/
theorem up_key_asked :
    outputs (devStepAsking fun _ target driver => (true, target, driver)) digitThenUp idleDev =
        [[0x31], [0x103]] ∧
      ¬ ∀ stage ∈ stages (devStepAsking fun _ target driver => (true, target, driver))
        digitThenUp idleDev, InTable stage.output := by
  have asked : outputs (devStepAsking fun _ target driver => (true, target, driver)) digitThenUp
      idleDev = [[0x31], [0x103]] := rfl
  refine ⟨asked, fun inside => ?_⟩
  have all : ∀ questions ∈ outputs (devStepAsking fun _ target driver => (true, target, driver))
      digitThenUp idleDev, InTable questions := by
    intro questions member
    obtain ⟨stage, reached, rfl⟩ := List.mem_map.mp member
    exact inside stage reached
  rw [asked] at all
  have second : InTable [0x103] := all _ (List.mem_cons_of_mem _ List.mem_cons_self)
  exact absurd (second 0x103 List.mem_cons_self) (by decide)

end Lfdk.HexEditors
