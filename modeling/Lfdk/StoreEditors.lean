import Lfdk.ShownCells

/-!
# Editing what a driver stores

An editor of an address space sees its space through calls of a driver. Suppose the driver
stores a memory: the 256-byte read shows it, and a write at an address that the driver lets
through puts the value there, lowest byte first. Then the editor is an editor of that
memory.

In a run of keys, changes of the focus and paintings, the memory is changed by Enter at the
end of a value only, and by that value only. What a painting prints are the words of the
memory at that moment. A value that is typed digit by digit is stored in the highlighted cell
and shown there afterwards, and nothing else on the screen changes; typing what the cell
shows changes nothing at all.
-/

namespace Lfdk.HexEditors

open HexPages PciScan ByteMemory MemoryAccess Runs DigitRegister

universe u
variable {δ : Type u} {α μ : Type}

/-- The driver of an editor stores a memory. It shows the part of it that can be read, and
changes the part that can be written. -/
structure Stores (space : AddressSpace α μ) (ioctl : Ioctl LfddSpace δ) (memory : δ → Memory)
    (readable : BitVec 32 → Prop) (writable : BitVec 32 → Bool) : Prop where
  reads : ∀ request driver,
    (ioctl .read256byte request driver).1 = true ∧
      memory (ioctl .read256byte request driver).2.2 = memory driver
  shows_ : ∀ request driver, readable request.addr → ∀ index < 256,
    contents (ioctl .read256byte request driver).2.1.massBuf index =
      memory driver (request.addr.toNat + index)
  writes : ∀ mode request driver,
    (ioctl (space.write mode) request driver).1 = true ∧
      memory (ioctl (space.write mode) request driver).2.2 =
        if writable request.addr then
          store (2 ^ space.shift mode) request.buf request.addr.toNat (memory driver)
        else memory driver

/-- A value to be stored: its place, the number of its bytes, and the value. -/
structure Commit where
  addr : BitVec 32
  count : Nat
  value : BitVec 32
deriving DecidableEq, Repr

/-- What Enter commits at the end of a value, and nothing else does. -/
def SpaceWindow.commit (space : AddressSpace α μ) (input : SpaceInput)
    (window : SpaceWindow α μ δ) : Option Commit :=
  match input with
  | .key code =>
    if code = keyEnter ∧ window.editor.input = .inputValue then
      some ⟨space.address window.editor.page window.editor.cursor.offset,
        2 ^ space.shift window.editor.displayMode, window.editor.wbuf⟩
    else none
  | .getFocus | .lostFocus | .paint => none

/-- The memory after a commit. -/
def Commit.applied (writable : BitVec 32 → Bool) (memory : Memory) (commit : Commit) : Memory :=
  if writable commit.addr then store commit.count commit.value commit.addr.toNat memory else memory

section Keys

variable (space : AddressSpace α μ) (ioctl : Ioctl LfddSpace δ) {window : SpaceWindow α μ δ}
  (running : window.halted = none)

/-- Enter at the end of a value writes it and ends the typing. -/
theorem spaceKeyPress_enters (typing : window.editor.input = .inputValue) :
    spaceKeyPress space ioctl keyEnter window =
      ((writeSpaceValue space ioctl window).1,
        (writeSpaceValue space ioctl window).2.edit fun editor =>
          { editor with input := .noInput, wbuf := 0 }) := by
  simp only [spaceKeyPress, typing, typeKey_keyEnter]

include running

/-- Any other key leaves the driver alone: it makes no call, and changes the editor at most. -/
theorem spaceKeyPress_quiet (key : BitVec 32)
    (other : ¬ (key = keyEnter ∧ window.editor.input = .inputValue)) :
    ∃ editor, spaceKeyPress space ioctl key window = ([], { window with editor := editor }) := by
  by_cases typing : window.editor.input = .inputValue
  · simp only [spaceKeyPress, typing, window.edit_running running]
    cases typed : typeKey (space.mask window.editor.displayMode) window.editor.wbuf key with
    | enter => exact absurd ⟨typeKey_enter typed, typing⟩ other
    | number wbuf => exact ⟨_, rfl⟩
    | left => exact ⟨_, rfl⟩
  · have effect := spaceKeyPress_effect space ioctl window running key
    generalize spaceKeyPress space ioctl key window = ran at effect ⊢
    cases effect with
    | wrote value => exact absurd value typing
    | edited editor change => exact ⟨editor, rfl⟩
    | nothing => exact ⟨window.editor, rfl⟩

end Keys

section Runs

variable {space : AddressSpace α μ} {ioctl : Ioctl LfddSpace δ} {memory : δ → Memory}
  {readable : BitVec 32 → Prop} {writable : BitVec 32 → Bool}
  (stores : Stores space ioctl memory readable writable)

include stores

/-- A step goes on, and leaves the memory as its commit does. -/
theorem spaceStep_commits (input : SpaceInput) (window : SpaceWindow α μ δ)
    (running : window.halted = none) :
    (spaceStep space ioctl input window).2.halted = none ∧
      memory (spaceStep space ioctl input window).2.driver =
        (window.commit space input).elim (memory window.driver)
          (Commit.applied writable (memory window.driver)) := by
  have alive : window.halted.isSome = false := by rw [running]; rfl
  unfold spaceStep
  rw [if_neg (by simp [alive])]
  cases input with
  | key code =>
    by_cases enters : code = keyEnter ∧ window.editor.input = .inputValue
    · obtain ⟨rfl, typing⟩ := enters
      obtain ⟨succeeds, stored⟩ := stores.writes window.editor.displayMode
        { window.lfddData with
          addr := space.address window.editor.page window.editor.cursor.offset
          buf := window.editor.wbuf } window.driver
      have goes : (writeSpaceValue space ioctl window).2.halted = none := by
        simp only [writeSpaceValue, callSpace, succeeds, if_true]
      have commits : window.commit space (.key keyEnter) =
          some ⟨space.address window.editor.page window.editor.cursor.offset,
            2 ^ space.shift window.editor.displayMode, window.editor.wbuf⟩ :=
        if_pos ⟨rfl, typing⟩
      simp only [spaceKeyPress_enters space ioctl typing, commits,
        SpaceWindow.edit_running _ goes, Option.elim_some]
      exact ⟨goes, stored⟩
    · obtain ⟨editor, quiet⟩ := spaceKeyPress_quiet space ioctl running code enters
      have none_ : window.commit space (.key code) = none := if_neg enters
      simp only [quiet, none_, Option.elim_none]
      exact ⟨running, trivial⟩
  | getFocus =>
    have edited := window.edit_running running
    simp only [spaceGetFocus, edited, SpaceWindow.commit]
    exact ⟨running, rfl⟩
  | lostFocus =>
    have edited := window.edit_running running
    simp only [spaceLostFocus, edited, SpaceWindow.commit]
    exact ⟨running, rfl⟩
  | paint =>
    simp only [printSpaceScreen, SpaceWindow.commit]
    split
    · exact ⟨running, rfl⟩
    · obtain ⟨succeeds, kept⟩ := stores.reads
        { window.lfddData with addr := space.address window.editor.page 0 } window.driver
      simp only [callSpace, succeeds, if_true]
      exact ⟨trivial, kept⟩

/-- After a painting the buffer holds the memory of the page, unless an address is typed. -/
theorem painted_contents (window : SpaceWindow α μ δ)
    (browsing : window.editor.input ≠ .inputAddr)
    (page : readable (space.address window.editor.page 0)) (index : Nat) (small : index < 256) :
    (printSpaceScreen space ioctl window).2.editor = window.editor ∧
      contents (printSpaceScreen space ioctl window).2.lfddData.massBuf index =
        memory window.driver ((space.address window.editor.page 0).toNat + index) := by
  rw [printSpaceScreen, if_neg browsing]
  exact ⟨rfl, stores.shows_ _ _ page index small⟩

/-- The commits of a run, in order. -/
def commits (space : AddressSpace α μ) (ioctl : Ioctl LfddSpace δ) (inputs : List SpaceInput)
    (window : SpaceWindow α μ δ) : List Commit :=
  (stages (spaceStep space ioctl) inputs window).filterMap fun stage =>
    stage.before.commit space stage.input

/-- A run goes on to its end, and leaves the memory as its commits do, one after the other. -/
theorem run_commits (inputs : List SpaceInput) (window : SpaceWindow α μ δ)
    (running : window.halted = none) :
    (final (spaceStep space ioctl) inputs window).halted = none ∧
      memory (final (spaceStep space ioctl) inputs window).driver =
        (commits space ioctl inputs window).foldl (Commit.applied writable)
          (memory window.driver) := by
  induction inputs generalizing window with
  | nil => exact ⟨running, rfl⟩
  | cons input rest inductionHypothesis =>
    obtain ⟨goes, stored⟩ := spaceStep_commits stores input window running
    obtain ⟨ends, later⟩ := inductionHypothesis _ goes
    refine ⟨ends, later.trans ?_⟩
    have split : commits space ioctl (input :: rest) window =
        (window.commit space input).toList ++
          commits space ioctl rest (spaceStep space ioctl input window).2 := by
      rw [commits, stages_cons, List.filterMap_cons]
      cases window.commit space input with
      | none => rfl
      | some commit => rfl
    rw [split, stored]
    cases window.commit space input with
    | none => rfl
    | some commit => rfl

variable {start : α → Int} {limit : Int} {digits : Nat} (paged : space.Paged start limit digits)

include paged

/-- What a painting prints: the words of the memory, and the value that is typed. -/
theorem painted_cells (window : SpaceWindow α μ δ)
    (settled : window.editor.Settled space start limit digits)
    (browsing : window.editor.input ≠ .inputAddr)
    (page : readable (space.address window.editor.page 0)) :
    (printSpaceScreen space ioctl window).2.cells space =
      shownPage (space.shift window.editor.displayMode) (window.editor.input = .inputValue)
        window.editor.cursor window.editor.wbuf (memory window.driver)
        (start window.editor.page).toNat := by
  obtain ⟨⟨_, inside⟩, _⟩ := settled
  have fits := paged.shift_le window.editor.displayMode
  have first : ((space.address window.editor.page 0).toNat : Int) = start window.editor.page := by
    have located := paged.address window.editor.page 0 inside (by decide) (by decide)
    rwa [Int.add_zero] at located
  have same := (painted_contents stores window browsing page 0 (by decide)).1
  rw [SpaceWindow.cells, same]
  apply printCells_shown fits
  · intro untyped
    cases input : window.editor.input with
    | noInput => rfl
    | inputValue =>
      rw [input] at untyped
      cases untyped
    | inputAddr => exact absurd input browsing
  · intro index small
    rw [(painted_contents stores window browsing page index small).2]
    congr 1
    omega

end Runs

section Typing

variable {space : AddressSpace α μ} {ioctl : Ioctl LfddSpace δ}
  (keeps : ∀ mode, Keeps (space.mask mode) (2 * 2 ^ space.shift mode))
  (shortKey : isxdigit space.shortKey = false)
  {window : SpaceWindow α μ δ} (running : window.halted = none)
  (browsing : window.editor.input = .noInput) {first : BitVec 32}
  (digit : isxdigit first = true) {keys : List (BitVec 32)} (all : ∀ key ∈ keys, TypingKey key)

/-- The window of a key. -/
def press (space : AddressSpace α μ) (ioctl : Ioctl LfddSpace δ) (key : BitVec 32)
    (window : SpaceWindow α μ δ) : SpaceWindow α μ δ :=
  (spaceKeyPress space ioctl key window).2

include keeps shortKey running browsing digit all

variable (ioctl) in
/-- Typing a value changes the field it is typed into and nothing else. -/
theorem pressed_value :
    ∃ wbuf : BitVec 32,
      pressed (press space ioctl) (first :: keys) window =
        { window with editor := { window.editor with input := .inputValue, wbuf := wbuf } } ∧
      wbuf.toNat =
        (typed (2 * 2 ^ space.shift window.editor.displayMode) (first :: keys)).value := by
  have apart := xdigit_other digit
  simp only [List.mem_cons, List.not_mem_nil, or_false, not_or] at apart
  have short : first ≠ space.shortKey := by
    rintro rfl
    exact Bool.false_ne_true (shortKey.symm.trans digit)
  have opened : press space ioctl first window =
      { window with
        editor := { window.editor with input := .inputValue, wbuf := digitOf first } } := by
    simp only [press, spaceKeyPress, browsing, if_false, apart, short, digit, if_true,
      window.edit_running running]
  obtain ⟨⟨wbuf, left⟩, value, _⟩ := value_typed (press space ioctl)
    (fun current => ∃ wbuf, current =
      { window with editor := { window.editor with input := .inputValue, wbuf := wbuf } })
    (fun current => current.editor.wbuf) (keeps window.editor.displayMode).1
    (by
      rintro current digits key ⟨wbuf, rfl⟩ same allowed
      obtain ⟨number, follows, value⟩ :=
        typeKey_typing (keeps window.editor.displayMode) same allowed
      have changed : press space ioctl key
          { window with editor := { window.editor with input := .inputValue, wbuf := wbuf } } =
            { window with
              editor := { window.editor with input := .inputValue, wbuf := number } } := by
        simp only [press, spaceKeyPress, follows, SpaceWindow.edit, running, if_true]
      rw [changed]
      exact ⟨⟨number, rfl⟩, value⟩)
    digit ⟨digitOf first, opened⟩ (by rw [opened]) keys all
  rw [left] at value
  exact ⟨wbuf, left, value⟩

variable {memory : δ → Memory} {readable : BitVec 32 → Prop} {writable : BitVec 32 → Bool}
  (stores : Stores space ioctl memory readable writable)

include stores

/-- A value that is typed and entered is stored where the cursor is, and the editor is as
before. -/
theorem entered_stored :
    let after := pressed (press space ioctl) (first :: keys ++ [keyEnter]) window
    after.halted = none ∧ after.editor = { window.editor with wbuf := 0 } ∧
      memory after.driver = Commit.applied writable (memory window.driver)
        ⟨space.address window.editor.page window.editor.cursor.offset,
          2 ^ space.shift window.editor.displayMode,
          BitVec.ofNat 32
            (typed (2 * 2 ^ space.shift window.editor.displayMode) (first :: keys)).value⟩ := by
  intro after
  obtain ⟨wbuf, typed_, value⟩ :=
    pressed_value ioctl keeps shortKey running browsing digit all
  have number : BitVec.ofNat 32
      (typed (2 * 2 ^ space.shift window.editor.displayMode) (first :: keys)).value = wbuf := by
    rw [← value, BitVec.ofNat_toNat, BitVec.setWidth_eq]
  have last : after = press space ioctl keyEnter
      { window with editor := { window.editor with input := .inputValue, wbuf := wbuf } } := by
    rw [← typed_]
    exact List.foldl_append
  obtain ⟨succeeds, stored⟩ := stores.writes window.editor.displayMode
    { window.lfddData with
      addr := space.address window.editor.page window.editor.cursor.offset
      buf := wbuf } window.driver
  rw [last, number]
  simp only [press, spaceKeyPress, typeKey_keyEnter, writeSpaceValue, callSpace, succeeds, if_true,
    SpaceWindow.edit]
  exact ⟨trivial, by simp [browsing], stored⟩

variable {start : α → Int} {limit : Int} {digits : Nat} (paged : space.Paged start limit digits)

include paged

/-- What a painting then prints: the value in the cell at the cursor, and in all others what was
there before. -/
theorem entered_shown (small : ∀ mode, space.shift mode ≤ 2)
    (settled : window.editor.Settled space start limit digits)
    (page : readable (space.address window.editor.page 0))
    (open_ : writable (space.address window.editor.page window.editor.cursor.offset) = true) :
    let after := pressed (press space ioctl) (first :: keys ++ [keyEnter]) window
    (printSpaceScreen space ioctl after).2.cells space =
      (HexPages.cells (space.shift window.editor.displayMode)).map fun place =>
        if window.editor.cursor.y = place.1 ∧ window.editor.cursor.x = place.2 then
          ⟨place.1, place.2, .blackYellow, BitVec.ofNat 32
            (typed (2 * 2 ^ space.shift window.editor.displayMode) (first :: keys)).value⟩
        else
          ⟨place.1, place.2, .whiteBlue,
            wordAt (memory window.driver)
              ((start window.editor.page).toNat + 16 * place.1 + place.2)
              (2 ^ space.shift window.editor.displayMode)⟩ := by
  intro after
  obtain ⟨_, kept, stored⟩ := entered_stored keeps shortKey running browsing digit all stores
  have fits := paged.shift_le window.editor.displayMode
  have few : 2 ^ space.shift window.editor.displayMode ≤ 4 :=
    Nat.pow_le_pow_right (by decide) (small window.editor.displayMode)
  obtain ⟨⟨onPage, inside⟩, _⟩ := settled
  obtain ⟨low, high⟩ := Cursor.offset_bounds onPage
  have located : ((space.address window.editor.page window.editor.cursor.offset).toNat : Int) =
      start window.editor.page + window.editor.cursor.offset :=
    paged.address _ _ inside low (by have positive := width_pos (space.shift window.editor.displayMode); omega)
  have place : (space.address window.editor.page window.editor.cursor.offset).toNat =
      (start window.editor.page).toNat + window.editor.cursor.offset.toNat := by
    have first := inside.first
    omega
  have bound := (typed (2 * 2 ^ space.shift window.editor.displayMode) (first :: keys)).value_lt
    (by decide)
  have power : 16 ^ (2 * 2 ^ space.shift window.editor.displayMode) =
      2 ^ (8 * 2 ^ space.shift window.editor.displayMode) := digits_power _
  have word : 2 ^ (8 * 2 ^ space.shift window.editor.displayMode) ≤ 2 ^ 32 :=
    Nat.pow_le_pow_right (by decide) (by omega)
  have value : (BitVec.ofNat 32 (typed (2 * 2 ^ space.shift window.editor.displayMode)
      (first :: keys)).value).toNat < 2 ^ (8 * 2 ^ space.shift window.editor.displayMode) := by
    rw [BitVec.toNat_ofNat, Nat.mod_eq_of_lt (by omega)]
    omega
  have own : after.editor.Settled space start limit digits := by
    rw [kept]
    exact ⟨⟨onPage, inside⟩, fun asked => by rw [browsing] at asked; cases asked⟩
  have idle : after.editor.input = .noInput := by rw [kept]; exact browsing
  have painted := painted_cells stores paged after own (by rw [idle]; decide)
    (by rw [kept]; exact page)
  rw [painted, kept, shownPage]
  apply List.map_congr_left
  intro cell member
  have untyped : decide (window.editor.input = .inputValue) = false := by rw [browsing]; rfl
  simp only [untyped, Bool.false_and, Bool.false_eq_true, if_false, Bool.not_false, Bool.true_and]
  rw [stored, Commit.applied, open_, if_pos rfl]
  by_cases here : window.editor.cursor.y = cell.1 ∧ window.editor.cursor.x = cell.2
  · have same : (start window.editor.page).toNat + 16 * cell.1 + cell.2 =
        (space.address window.editor.page window.editor.cursor.offset).toNat := by
      rw [place, Cursor.offset, here.1, here.2]
      omega
    rw [if_pos here, same, wordAt_store _ _ _ _ value]
    simp [here]
  · have apart := places_apart fits member onPage here (start window.editor.page).toNat
    rw [← place] at apart
    rw [if_neg here, wordAt_store_apart _ _ _ _ _ apart]
    simp [here]

end Typing

section Retyping

variable {space : AddressSpace α μ} {ioctl : Ioctl LfddSpace δ} {memory : δ → Memory}
  {readable : BitVec 32 → Prop} {writable : BitVec 32 → Bool}
  (keeps : ∀ mode, Keeps (space.mask mode) (2 * 2 ^ space.shift mode))
  (shortKey : isxdigit space.shortKey = false)
  (stores : Stores space ioctl memory readable writable)
  {window : SpaceWindow α μ δ} (running : window.halted = none)
  (browsing : window.editor.input = .noInput)

include keeps shortKey stores running browsing

/-- Typing the digits of the word at the cursor stores what is there already. -/
theorem retyped_kept :
    let place := (space.address window.editor.page window.editor.cursor.offset).toNat
    let count := 2 ^ space.shift window.editor.displayMode
    let text := hexText (2 * count) (wordAt (memory window.driver) place count).toNat
    let after := pressed (press space ioctl) (text ++ [keyEnter]) window
    after.halted = none ∧ after.editor = { window.editor with wbuf := 0 } ∧
      memory after.driver = memory window.driver := by
  intro place count text after
  have bound := (keeps window.editor.displayMode).2.1
  have few : count ≤ 4 := by omega
  have positive : 0 < count := Nat.pow_pos (by decide)
  have length : text.length = 2 * count := hexText_length _ _
  have fits := wordAt_small (memory window.driver) place count
  have value : (typed (2 * count) text).value = (wordAt (memory window.driver) place count).toNat :=
    hexText_typed (2 * count) (2 * count) _ (le_refl _) fits
  have digits : ∀ key ∈ text, isxdigit key = true := hexText_digits _ _
  obtain ⟨first, rest, same⟩ := List.exists_cons_of_length_pos (l := text) (by omega)
  rw [same] at value digits
  obtain ⟨runs, kept, stored⟩ := entered_stored keeps shortKey running browsing
    (digits first List.mem_cons_self)
    (fun key member => Or.inl (digits key (List.mem_cons_of_mem first member))) stores
  have typed_ : after = pressed (press space ioctl) (first :: rest ++ [keyEnter]) window := by
    rw [← same]
  rw [typed_]
  refine ⟨runs, kept, stored.trans ?_⟩
  rw [value, BitVec.ofNat_toNat, BitVec.setWidth_eq, Commit.applied]
  split
  · exact store_wordAt (memory window.driver) place count few
  · rfl

variable {start : α → Int} {limit : Int} {digits : Nat} (paged : space.Paged start limit digits)
  (settled : window.editor.Settled space start limit digits)
  (page : readable (space.address window.editor.page 0))

include paged settled page

/-- Typing what the highlighted cell shows leaves the memory and the page as they are. -/
theorem retyped_shown :
    let painted := (printSpaceScreen space ioctl window).2
    ∀ cell ∈ painted.cells space, cell.color = .blackYellow →
      let text := hexText (2 * 2 ^ space.shift window.editor.displayMode) cell.value.toNat
      let after := pressed (press space ioctl) (text ++ [keyEnter]) painted
      after.editor = { painted.editor with wbuf := 0 } ∧
        memory after.driver = memory painted.driver ∧
        (printSpaceScreen space ioctl after).2.cells space = painted.cells space := by
  intro painted cell member highlighted text after
  have idle : window.editor.input ≠ .inputAddr := by rw [browsing]; decide
  have untyped : decide (window.editor.input = .inputValue) = false := by rw [browsing]; rfl
  have stepped : (spaceStep space ioctl .paint window).2 = painted := by
    have alive : ¬ window.halted.isSome = true := by rw [running]; decide
    rw [spaceStep, if_neg alive]
  obtain ⟨goes, quiet⟩ := spaceStep_commits stores .paint window running
  rw [stepped] at goes quiet
  have unchanged : memory painted.driver = memory window.driver := quiet
  have same : painted.editor = window.editor :=
    (painted_contents stores window idle page 0 (by decide)).1
  have shown := painted_cells stores paged window settled idle page
  rw [untyped] at shown
  -- the highlighted cell is the one at the cursor, so its value is the word there
  have value : cell.value = wordAt (memory painted.driver)
      (space.address painted.editor.page painted.editor.cursor.offset).toNat
      (2 ^ space.shift painted.editor.displayMode) := by
    rw [shown, shownPage] at member
    obtain ⟨place, _, rfl⟩ := List.mem_map.mp member
    simp only [Bool.false_and, Bool.false_eq_true, if_false, Bool.not_false, Bool.true_and,
      decide_eq_true_eq] at highlighted ⊢
    by_cases here : window.editor.cursor.y = place.1 ∧ window.editor.cursor.x = place.2
    · obtain ⟨row, column⟩ := here
      obtain ⟨⟨onPage, inside⟩, _⟩ := settled
      obtain ⟨low, high⟩ := Cursor.offset_bounds onPage
      have positive := width_pos (space.shift window.editor.displayMode)
      have located := paged.address window.editor.page window.editor.cursor.offset inside low
        (by omega)
      have begins := inside.first
      have offset : window.editor.cursor.offset = 16 * place.1 + place.2 := by
        rw [Cursor.offset, row, column]
        omega
      rw [same, unchanged]
      congr 1
      omega
    · rw [if_neg here] at highlighted
      exact absurd highlighted (by decide)
  obtain ⟨_, kept, stored⟩ :=
    retyped_kept keeps shortKey stores goes (by rw [same]; exact browsing)
  rw [← value, same] at kept stored
  refine ⟨same ▸ kept, stored, ?_⟩
  have own : after.editor.Settled space start limit digits := by
    rw [kept]
    exact ⟨settled.1, fun asked => by rw [browsing] at asked; cases asked⟩
  have again := painted_cells stores paged after own (by rw [kept]; exact idle)
    (by rw [kept]; exact page)
  rw [again, shown, kept, untyped, stored, unchanged]
  simp only [shownPage, Bool.false_and, Bool.false_eq_true, if_false]

end Retyping

section Paintings

/-- The code of an input that is a key. -/
def SpaceInput.code : SpaceInput → Option (BitVec 32)
  | .key code => some code
  | .getFocus | .lostFocus | .paint => none

/-- Inputs that press these keys, one after the other, with paintings anywhere between them. -/
structure Presses (inputs : List SpaceInput) (keys : List (BitVec 32)) : Prop where
  keys : inputs.filterMap SpaceInput.code = keys
  plain : ∀ input ∈ inputs, input = .paint ∨ ∃ key, input = .key key

/-- Two windows that agree in what a user can change. They may differ in the buffer of the page
and in what else the driver remembers. -/
structure Agree (memory : δ → Memory) (first second : SpaceWindow α μ δ) : Prop where
  editor : first.editor = second.editor
  memory : memory first.driver = memory second.driver
  running : first.halted = none
  alive : second.halted = none

variable {space : AddressSpace α μ} {ioctl : Ioctl LfddSpace δ} {memory : δ → Memory}
  {readable : BitVec 32 → Prop} {writable : BitVec 32 → Bool}
  (stores : Stores space ioctl memory readable writable) {first second : SpaceWindow α μ δ}

include stores

/-- A key changes the variables of an editor in the same way whatever the buffer holds, since the
only call it makes succeeds. -/
theorem key_editor (agree : Agree memory first second) (key : BitVec 32) :
    (spaceKeyPress space ioctl key first).2.editor =
      (spaceKeyPress space ioctl key second).2.editor := by
  have edited : ∀ change, (first.edit change).editor = (second.edit change).editor := by
    intro change
    rw [first.edit_running agree.running, second.edit_running agree.alive, agree.editor]
  have branch : ∀ (condition : Prop) [Decidable condition]
      (yes no other different : Ran LfddSpace (SpaceWindow α μ δ)),
      yes.2.editor = other.2.editor → no.2.editor = different.2.editor →
        (if condition then yes else no).2.editor =
          (if condition then other else different).2.editor := by
    intro condition _ yes no other different first second
    split
    · exact first
    · exact second
  cases input : second.editor.input with
  | inputAddr =>
    simp only [spaceKeyPress, agree.editor, input]
    cases typeKey space.addrMask second.editor.wbuf key with
    | enter | number wbuf | left => exact edited _
  | inputValue =>
    have goes : ∀ window : SpaceWindow α μ δ, (writeSpaceValue space ioctl window).2.halted = none := by
      intro window
      obtain ⟨succeeds, _⟩ := stores.writes window.editor.displayMode
        { window.lfddData with
          addr := space.address window.editor.page window.editor.cursor.offset
          buf := window.editor.wbuf } window.driver
      simp only [writeSpaceValue, callSpace, succeeds, if_true]
    simp only [spaceKeyPress, agree.editor, input]
    cases typeKey (space.mask second.editor.displayMode) second.editor.wbuf key with
    | number wbuf | left => exact edited _
    | enter =>
      simp only [SpaceWindow.edit_running _ (goes _)]
      exact congrArg (fun editor : SpaceEditor α μ => { editor with input := .noInput, wbuf := 0 })
        agree.editor
  | noInput =>
    simp only [spaceKeyPress, agree.editor, input]
    refine branch _ _ _ _ _ (edited _) <| branch _ _ _ _ _ (edited _) <|
      branch _ _ _ _ _ (edited _) <| branch _ _ _ _ _ (edited _) <|
      branch _ _ _ _ _ (edited _) <| branch _ _ _ _ _ (edited _) <|
      branch _ _ _ _ _ (edited _) <| branch _ _ _ _ _ (edited _) <|
      branch _ _ _ _ _ (edited _) agree.editor

/-- After the same key two windows agree as before. -/
theorem key_agree (agree : Agree memory first second) (key : BitVec 32) :
    Agree memory (spaceKeyPress space ioctl key first).2
      (spaceKeyPress space ioctl key second).2 := by
  have pressed_ : ∀ window : SpaceWindow α μ δ, window.halted = none →
      spaceStep space ioctl (.key key) window = spaceKeyPress space ioctl key window := by
    intro window running
    rw [spaceStep, if_neg (by rw [running]; decide)]
  obtain ⟨running, stored⟩ := spaceStep_commits stores (.key key) first agree.running
  obtain ⟨alive, other⟩ := spaceStep_commits stores (.key key) second agree.alive
  have commits : first.commit space (.key key) = second.commit space (.key key) := by
    simp only [SpaceWindow.commit, agree.editor]
  rw [pressed_ first agree.running] at running stored
  rw [pressed_ second agree.alive] at alive other
  refine ⟨key_editor stores agree key, ?_, running, alive⟩
  rw [stored, other, commits, agree.memory]

/-- A painting changes nothing that a user can change. -/
theorem paint_agree (agree : Agree memory first second) :
    Agree memory (spaceStep space ioctl .paint first).2 second := by
  obtain ⟨running, kept⟩ := spaceStep_commits stores .paint first agree.running
  refine ⟨?_, kept.trans agree.memory, running, agree.alive⟩
  rw [spaceStep, if_neg (by rw [agree.running]; decide), ← agree.editor]
  simp only [printSpaceScreen]
  split
  · rfl
  · rfl

/-- Keys with paintings between them do what the keys do. The induction is on the inputs; a
painting is a step of one of the two runs only. -/
theorem presses_agree {inputs : List SpaceInput} {keys : List (BitVec 32)}
    (presses : Presses inputs keys) (agree : Agree memory first second) :
    Agree memory (final (spaceStep space ioctl) inputs first)
      (pressed (press space ioctl) keys second) := by
  obtain ⟨rfl, plain⟩ := presses
  induction inputs generalizing first second with
  | nil => exact agree
  | cons input rest inductionHypothesis =>
    have others := fun other member => plain other (List.mem_cons_of_mem input member)
    rcases plain input List.mem_cons_self with rfl | ⟨key, rfl⟩
    · exact inductionHypothesis (paint_agree stores agree) others
    · have stepped : (spaceStep space ioctl (.key key) first).2 =
          (spaceKeyPress space ioctl key first).2 := by
        rw [spaceStep, if_neg (by rw [agree.running]; decide)]
      have later := inductionHypothesis (key_agree stores agree key) others
      rw [← stepped] at later
      exact later

variable {start : α → Int} {limit : Int} {digits : Nat} (paged : space.Paged start limit digits)

include paged

/-- A painting shows the same of two windows that agree. -/
theorem agree_shown (agree : Agree memory first second)
    (settled : second.editor.Settled space start limit digits)
    (browsing : second.editor.input ≠ .inputAddr)
    (page : readable (space.address second.editor.page 0)) :
    (printSpaceScreen space ioctl first).2.cells space =
      (printSpaceScreen space ioctl second).2.cells space := by
  have own := agree.editor
  rw [painted_cells stores paged first (own ▸ settled) (own ▸ browsing) (own ▸ page),
    painted_cells stores paged second settled browsing page, own, agree.memory]

end Paintings

end Lfdk.HexEditors
