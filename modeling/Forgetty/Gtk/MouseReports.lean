import Mathlib.Data.BitVec
import Forgetty.Lib.Pairing
import Forgetty.Lib.Run
import Forgetty.Vt.Selection

/-! The reports of mouse buttons to the program of a pane. A press is reported only for the left
button, behind six other things that it may be for. A release is reported unless it ends the
dragging of a selection. -/

namespace Forgetty.MouseReports

open Lib

/-- `gdk_button_to_ghostty`. Zero is no button. -/
def gdkButtonToGhostty : ℕ → ℕ
  | 1 => 1
  | 2 => 3
  | 3 => 2
  | 4 => 4
  | 5 => 5
  | 6 => 6
  | 7 => 7
  | 8 => 8
  | 9 => 9
  | 10 => 10
  | 11 => 11
  | _ => 0

/-- A pane, with the reports that were written for it. The shift of `buttons_held` takes the number
of a button modulo 8 or panics, and which of them is up to the build. -/
structure MousePane where
  mouseTracking : Bool
  selection : Option Selection
  selecting : Bool
  wordAnchor : Option (ℕ × ℕ)
  dragOrigin : Option (ℕ × ℕ)
  buttonsHeld : BitVec 8
  overflowed : Bool
  reports : List (Mark ℕ)

/-- A press of a button: the cell under the pointer, and whether it belongs to a URL, is on the copy
button of a code block, and the word and the line that it is in. -/
structure Press where
  button : ℕ
  nPress : ℤ
  ctrl : Bool
  shift : Bool
  absRow : ℕ
  col : ℕ
  onUrl : Bool
  onCopyButton : Bool
  word : ℕ × ℕ
  lastCol : ℕ

/-- What happens to a pane. Motion, keys and commands make another selection. -/
inductive Event where
  | press (e : Press)
  | release (button : ℕ)
  | track (on : Bool)
  | select (selection : Option Selection) (selecting : Bool)

namespace MousePane

def new (mouseTracking : Bool) : MousePane where
  mouseTracking := mouseTracking
  selection := none
  selecting := false
  wordAnchor := none
  dragOrigin := none
  buttonsHeld := 0
  overflowed := false
  reports := []

/-- `encode_mouse_button`. There is a report while the program tracks the mouse. -/
def encodeMouseButton (gdkButton : ℕ) (pressed : Bool) (s : MousePane) : MousePane :=
  let gbtn := gdkButtonToGhostty gdkButton
  if gbtn = 0 then s
  else
    let bit : BitVec 8 := 1#8 <<< (gbtn % 8)
    let s :=
      { s with
        buttonsHeld := if pressed then s.buttonsHeld ||| bit else s.buttonsHeld &&& ~~~bit
        overflowed := s.overflowed || decide (8 ≤ gbtn) }
    if s.mouseTracking then
      { s with reports := s.reports ++ [if pressed then .opened gbtn else .closed gbtn] }
    else s

/-- A selection begins where the button is pressed, unless it is the end of another. -/
def beginSelection (e : Press) (s : MousePane) : MousePane :=
  match e.shift, s.selection with
  | true, some sel =>
    { s with selection := some { sel with stop := (e.absRow, e.col) }, selecting := false }
  | _, _ =>
    { s with
      selection := none
      selecting := true
      wordAnchor := none
      dragOrigin := some (e.absRow, e.col) }

/-- One click begins a selection, two take a word and three a line. -/
def selectClick (e : Press) (s : MousePane) : MousePane :=
  if e.nPress = 1 then s.beginSelection e
  else if e.nPress = 2 then
    { s with
      selection := some
        { start := (e.absRow, e.word.1), stop := (e.absRow, e.word.2), mode := .word }
      selecting := true
      wordAnchor := some e.word }
  else if e.nPress = 3 then
    { s with
      selection := some { start := (e.absRow, 0), stop := (e.absRow, e.lastCol), mode := .line }
      selecting := false
      wordAnchor := none }
  else s

/-- The handler of a press. -/
def pressed (e : Press) (s : MousePane) : MousePane :=
  -- the context menu
  if e.button = 3 then s
  -- the URL is opened
  else if e.button = 1 ∧ e.ctrl ∧ ¬e.shift ∧ ¬s.mouseTracking ∧ e.onUrl then s
  -- the code block is copied
  else if e.button = 1 ∧ e.nPress = 1 ∧ e.onCopyButton then s
  else if e.button ≠ 1 then s
  else if ¬s.mouseTracking ∨ e.shift then s.selectClick e
  else s.encodeMouseButton e.button true

/-- The handler of a release. -/
def released (button : ℕ) (s : MousePane) : MousePane :=
  if button = 1 ∧ s.selecting then
    { s with
      selection := s.selection.filter fun sel => ¬(sel.start = sel.stop ∧ sel.mode = .normal)
      selecting := false
      wordAnchor := none
      dragOrigin := none }
  else s.encodeMouseButton button false

def step (s : MousePane) : Event → MousePane
  | .press e => s.pressed e
  | .release button => s.released button
  | .track on => { s with mouseTracking := on }
  | .select selection selecting => { s with selection := selection, selecting := selecting }

/-! ### What is to hold -/

/-- The reports are paired, the buttons held are those with a press that was reported and a release
that was not, and no number was too large. -/
structure Balanced (s : MousePane) : Prop where
  paired : Paired s.reports
  held : ∀ b, s.buttonsHeld.getLsbD b = true ↔ IsOpen b s.reports
  noOverflow : s.overflowed = false

/-- A release that ends no selection is of a button with a number below 8. The left button is
released while the program tracks the mouse exactly if it is held, and the other ones only while
the program does not. -/
def Guard (s : MousePane) : Event → Prop
  | .release button =>
    if button = 1 then
      s.selecting = true ∨ (s.mouseTracking = true ↔ s.buttonsHeld.getLsbD 1 = true)
    else if 2 ≤ button ∧ button ≤ 11 then button < 8 ∧ s.mouseTracking = false
    else True
  | _ => True

/-! ### Steps -/

theorem getLsbD_bit {g b : ℕ} (hg : g < 8) : (1#8 <<< g).getLsbD b = true ↔ b = g := by
  rw [BitVec.getLsbD_shiftLeft, BitVec.getLsbD_one]
  simp only [Bool.and_eq_true, decide_eq_true_eq, Bool.not_eq_true', decide_eq_false_iff_not]
  omega

theorem getLsbD_hold {held : BitVec 8} {g : ℕ} (hg : g < 8) (b : ℕ) :
    (held ||| 1#8 <<< (g % 8)).getLsbD b = true ↔ b = g ∨ held.getLsbD b = true := by
  rw [Nat.mod_eq_of_lt hg, BitVec.getLsbD_or, Bool.or_eq_true, getLsbD_bit hg, or_comm]

theorem getLsbD_free (held : BitVec 8) (g b : ℕ) :
    (held &&& ~~~(1#8 <<< (g % 8))).getLsbD b = true ↔ held.getLsbD b = true ∧ b ≠ g % 8 := by
  rcases Nat.lt_or_ge b 8 with hb | hb
  · have hg : g % 8 < 8 := Nat.mod_lt _ (by omega)
    rw [BitVec.getLsbD_and, BitVec.getLsbD_not, decide_eq_true hb, Bool.true_and, Bool.and_eq_true,
      Bool.not_eq_true', Bool.eq_false_iff, Ne, getLsbD_bit hg]
  · simp [BitVec.getLsbD_of_ge _ _ hb]

variable {s : MousePane}

/-- No button but the left one is ever held. -/
def OnlyLeft (s : MousePane) : Prop := ∀ b, s.buttonsHeld.getLsbD b = true → b = 1

theorem encodeMouseButton_of_unknown {button : ℕ} (h : gdkButtonToGhostty button = 0)
    (pressed : Bool) : s.encodeMouseButton button pressed = s := by
  rw [encodeMouseButton, if_pos h]

theorem encodeMouseButton_press_left (htrack : s.mouseTracking = true) :
    s.encodeMouseButton 1 true =
      { s with
        buttonsHeld := s.buttonsHeld ||| 1#8 <<< (1 % 8)
        overflowed := s.overflowed || false
        reports := s.reports ++ [.opened 1] } := by
  simp [encodeMouseButton, gdkButtonToGhostty, htrack]

theorem encodeMouseButton_release {button : ℕ} (hg : gdkButtonToGhostty button ≠ 0) :
    s.encodeMouseButton button false =
      { s with
        buttonsHeld := s.buttonsHeld &&& ~~~(1#8 <<< (gdkButtonToGhostty button % 8))
        overflowed := s.overflowed || decide (8 ≤ gdkButtonToGhostty button)
        reports := if s.mouseTracking then s.reports ++ [.closed (gdkButtonToGhostty button)]
          else s.reports } := by
  rw [encodeMouseButton, if_neg hg]
  cases s.mouseTracking <;> simp

/-- A press of the left button may always be reported. -/
theorem balanced_press_left (h : s.Balanced) (htrack : s.mouseTracking = true) :
    (s.encodeMouseButton 1 true).Balanced := by
  rw [encodeMouseButton_press_left htrack]
  constructor
  · exact paired_concat_opened.mpr h.paired
  · intro b
    rw [getLsbD_hold (by omega), isOpen_concat_iff, h.held]
    simp [eq_comm]
  · rw [h.noOverflow]
    rfl

/-- A release is right exactly if the number of the button is below 8, and it is reported exactly if
the button is held. -/
theorem balanced_release_iff (h : s.Balanced) {button : ℕ} (hg : gdkButtonToGhostty button ≠ 0) :
    (s.encodeMouseButton button false).Balanced ↔ gdkButtonToGhostty button < 8 ∧
      (s.mouseTracking = true ↔ s.buttonsHeld.getLsbD (gdkButtonToGhostty button) = true) := by
  rw [encodeMouseButton_release hg]
  generalize gdkButtonToGhostty button = g
  have hoverflow : (s.overflowed || decide (8 ≤ g)) = false ↔ g < 8 := by
    rw [h.noOverflow, Bool.false_or, decide_eq_false_iff_not, Nat.not_le]
  cases htrack : s.mouseTracking with
  | true =>
    constructor
    · intro h'
      have hopen := (paired_concat_closed.mp h'.paired).2
      exact ⟨hoverflow.mp h'.noOverflow, iff_of_true rfl ((h.held g).mpr hopen)⟩
    · rintro ⟨hlt, hheld⟩
      refine ⟨paired_concat_closed.mpr ⟨h.paired, (h.held g).mp (hheld.mp rfl)⟩, fun b => ?_,
        hoverflow.mpr hlt⟩
      rw [getLsbD_free, Nat.mod_eq_of_lt hlt, h.held]
      show _ ↔ IsOpen b (s.reports ++ [.closed g])
      rw [isOpen_concat_iff]
      simp [eq_comm]
  | false =>
    constructor
    · intro h'
      have hlt := hoverflow.mp h'.noOverflow
      refine ⟨hlt, iff_of_false Bool.false_ne_true fun hheld => ?_⟩
      have hfree := (getLsbD_free s.buttonsHeld g g).mp ((h'.held g).mpr ((h.held g).mp hheld))
      exact hfree.2 (Nat.mod_eq_of_lt hlt).symm
    · rintro ⟨hlt, hheld⟩
      refine ⟨h.paired, fun b => ?_, hoverflow.mpr hlt⟩
      rw [getLsbD_free, Nat.mod_eq_of_lt hlt, h.held]
      show IsOpen b s.reports ∧ b ≠ g ↔ IsOpen b s.reports
      refine and_iff_left_of_imp fun hopen hb => ?_
      cases hheld.mpr ((h.held g).mpr (hb ▸ hopen))

/-- What a step does not change. -/
theorem balanced_of_same {s' : MousePane} (hr : s'.reports = s.reports)
    (hh : s'.buttonsHeld = s.buttonsHeld) (ho : s'.overflowed = s.overflowed) (h : s.Balanced) :
    s'.Balanced where
  paired := hr ▸ h.paired
  held := by
    rw [hr, hh]
    exact h.held
  noOverflow := ho.trans h.noOverflow

theorem selectClick_same (e : Press) (s : MousePane) :
    (s.selectClick e).reports = s.reports ∧ (s.selectClick e).buttonsHeld = s.buttonsHeld ∧
      (s.selectClick e).overflowed = s.overflowed := by
  unfold selectClick beginSelection
  split_ifs
  · split <;> exact ⟨rfl, rfl, rfl⟩
  · exact ⟨rfl, rfl, rfl⟩
  · exact ⟨rfl, rfl, rfl⟩
  · exact ⟨rfl, rfl, rfl⟩

/-- A press does nothing to the reports, or it is one of the left button that is reported. -/
theorem pressed_cases (e : Press) (s : MousePane) :
    ((s.pressed e).reports = s.reports ∧ (s.pressed e).buttonsHeld = s.buttonsHeld ∧
      (s.pressed e).overflowed = s.overflowed) ∨
    s.mouseTracking = true ∧ s.pressed e = s.encodeMouseButton 1 true := by
  unfold pressed
  split_ifs with h3 hurl hcopy hleft hselect
  · exact .inl ⟨rfl, rfl, rfl⟩
  · exact .inl ⟨rfl, rfl, rfl⟩
  · exact .inl ⟨rfl, rfl, rfl⟩
  · exact .inl ⟨rfl, rfl, rfl⟩
  · exact .inl (selectClick_same e s)
  · rw [not_or, not_not] at hselect
    rw [not_not] at hleft
    rw [hleft]
    exact .inr ⟨hselect.1, rfl⟩

theorem balanced_pressed (h : s.Balanced) (e : Press) : (s.pressed e).Balanced := by
  rcases pressed_cases e s with ⟨hr, hh, ho⟩ | ⟨htrack, heq⟩
  · exact balanced_of_same hr hh ho h
  · rw [heq]
    exact balanced_press_left h htrack

theorem onlyLeft_release (h : s.OnlyLeft) (button : ℕ) :
    (s.encodeMouseButton button false).OnlyLeft := by
  by_cases hg : gdkButtonToGhostty button = 0
  · rw [encodeMouseButton_of_unknown hg]
    exact h
  · rw [encodeMouseButton_release hg]
    exact fun b hb => h b ((getLsbD_free _ _ b).mp hb).1

theorem onlyLeft_press_left (h : s.OnlyLeft) (htrack : s.mouseTracking = true) :
    (s.encodeMouseButton 1 true).OnlyLeft := by
  rw [encodeMouseButton_press_left htrack]
  intro b hb
  rcases (getLsbD_hold (by omega) b).mp hb with rfl | hb
  · rfl
  · exact h b hb

theorem onlyLeft_step (h : s.OnlyLeft) (event : Event) : (s.step event).OnlyLeft := by
  cases event with
  | press e =>
    rcases pressed_cases e s with ⟨-, hh, -⟩ | ⟨htrack, heq⟩
    · intro b hb
      exact h b (hh ▸ hb)
    · show (s.pressed e).OnlyLeft
      rw [heq]
      exact onlyLeft_press_left h htrack
  | release button =>
    show (s.released button).OnlyLeft
    unfold released
    split_ifs
    · exact h
    · exact onlyLeft_release h button
  | track on => exact h
  | select selection selecting => exact h

/-- The numbers of the buttons other than the left one. -/
theorem gdkButtonToGhostty_other {button : ℕ} (h₂ : 2 ≤ button) (h₁₁ : button ≤ 11) :
    gdkButtonToGhostty button ≠ 0 ∧ gdkButtonToGhostty button ≠ 1 ∧
      (gdkButtonToGhostty button < 8 ↔ button < 8) := by
  have hall : ∀ b < 12, 2 ≤ b → gdkButtonToGhostty b ≠ 0 ∧ gdkButtonToGhostty b ≠ 1 ∧
      (gdkButtonToGhostty b < 8 ↔ b < 8) := by
    decide
  exact hall button (by omega) h₂

theorem gdkButtonToGhostty_unknown {button : ℕ} (h₁ : button ≠ 1)
    (h : ¬(2 ≤ button ∧ button ≤ 11)) : gdkButtonToGhostty button = 0 := by
  unfold gdkButtonToGhostty
  split <;> omega

theorem balanced_released_iff (h : s.Balanced) (hleft : s.OnlyLeft) (button : ℕ) :
    (s.released button).Balanced ↔ s.Guard (.release button) := by
  rw [released, Guard]
  by_cases hselect : button = 1 ∧ s.selecting
  · rw [if_pos hselect, if_pos hselect.1]
    exact iff_of_true (@balanced_of_same s _ rfl rfl rfl h) (.inl hselect.2)
  · rw [if_neg hselect]
    split_ifs with hbutton hknown
    · subst hbutton
      rw [balanced_release_iff h (by decide), or_iff_right fun hs => hselect ⟨rfl, hs⟩]
      exact and_iff_right (by decide)
    · obtain ⟨hzero, hone, hlt⟩ := gdkButtonToGhostty_other hknown.1 hknown.2
      have hfree : ¬s.buttonsHeld.getLsbD (gdkButtonToGhostty button) = true :=
        fun hheld => hone (hleft _ hheld)
      rw [balanced_release_iff h hzero, hlt, iff_false_right hfree, Bool.not_eq_true]
    · rw [encodeMouseButton_of_unknown (gdkButtonToGhostty_unknown hbutton hknown)]
      exact iff_of_true h trivial

/-- A step leaves the reports balanced exactly if it meets the guard. -/
theorem balanced_step_iff (h : s.Balanced) (hleft : s.OnlyLeft) (event : Event) :
    (s.step event).Balanced ↔ s.Guard event := by
  cases event with
  | press e => exact iff_of_true (balanced_pressed h e) trivial
  | release button => exact balanced_released_iff h hleft button
  | track on => exact iff_of_true (@balanced_of_same s _ rfl rfl rfl h) trivial
  | select selection selecting => exact iff_of_true (@balanced_of_same s _ rfl rfl rfl h) trivial

theorem balanced_new (on : Bool) : (new on).Balanced where
  paired := paired_nil
  held b := iff_of_false (by simp [new]) not_isOpen_nil
  noOverflow := rfl

/-- The reports are balanced all along a run exactly if every release of it meets the guard. -/
theorem balanced_along_iff (on : Bool) (events : List Event) :
    Along step Balanced (new on) events ↔ Meets step Guard (new on) events :=
  along_iff_meets (fun _ event hleft _ _ => onlyLeft_step hleft event)
    (fun _ event hleft h => balanced_step_iff h hleft event) (fun b hb => by simp [new] at hb)
    (balanced_new on)

/-- One click of the right button while the program tracks the mouse. -/
def contextClick : List Event :=
  [.press
      { button := 3
        nPress := 1
        ctrl := false
        shift := false
        absRow := 0
        col := 0
        onUrl := false
        onCopyButton := false
        word := (0, 0)
        lastCol := 0 },
    .release 3]

/-- The press opens the menu, and the release is reported. -/
theorem not_balanced_contextClick : ¬∀ on events, Along step Balanced (new on) events := by
  intro h
  have hpaired := (h true contextClick).last.paired
  have hopen : IsOpen 2 ([] : List (Mark ℕ)) := hpaired [] (.closed 2) [] rfl 2 rfl
  exact not_isOpen_nil hopen

end MousePane

end Forgetty.MouseReports
