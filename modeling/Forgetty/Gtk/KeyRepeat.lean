import Mathlib.Data.Finset.Basic
import Mathlib.Logic.Function.Basic
import Forgetty.Core.Basic
import Forgetty.Lib.Pairing
import Forgetty.Lib.Run

/-! How a pane tells a key that is pressed from one that repeats. It remembers the keys that its
encoder got and that it was not told the release of. The events go to the pane that has the focus,
and some of them are taken for something else before they reach the encoder. -/

namespace Forgetty.KeyRepeat

open Lib

inductive KeyAction where
  | press
  | repeatPress
  | release
  deriving DecidableEq, Repr

/-- The keycodes in `pressed_keys`. -/
structure GhosttyInput where
  pressedKeys : Finset ℕ

namespace GhosttyInput

def encodeKeyPress (keycode : ℕ) (input : GhosttyInput) : GhosttyInput × KeyAction :=
  if keycode ∈ input.pressedKeys then (input, .repeatPress)
  else ({ pressedKeys := insert keycode input.pressedKeys }, .press)

def encodeKeyRelease (keycode : ℕ) (input : GhosttyInput) : GhosttyInput × KeyAction :=
  ({ pressedKeys := input.pressedKeys.erase keycode }, .release)

end GhosttyInput

/-- A key-pressed event, with what the handler asks of it and of its pane. -/
structure KeyPressed where
  keycode : ℕ
  isAppShortcut : Bool
  ctrlC : Bool
  escape : Bool
  selection : Bool
  mouseTracking : Bool
  deriving DecidableEq, Repr

/-- Neither a shortcut, nor a copy or an interrupt, nor the end of a selection. -/
def KeyPressed.reachesEncoder (e : KeyPressed) : Bool :=
  !e.isAppShortcut && !e.ctrlC && !(e.escape && e.selection && !e.mouseTracking)

/-- What happens: a key goes down, is held and goes up, and the focus moves. -/
inductive Event where
  | press (e : KeyPressed)
  | autoRepeat (e : KeyPressed)
  | release (keycode : ℕ)
  | focus (pane : Option PaneId)

/-- An event as a pane got it: the number of the physical press that it belongs to, and how it was
encoded if it was. -/
structure Delivery where
  pane : PaneId
  press : ℕ
  keycode : ℕ
  encoded : Option KeyAction

/-- The keys that are down, each with the number of its press, the panes, and what they got. -/
structure Desk where
  down : ℕ → Option ℕ
  presses : ℕ
  focus : Option PaneId
  inputs : PaneId → GhosttyInput
  log : List Delivery

namespace Desk

def new (focus : Option PaneId) : Desk where
  down := fun _ => none
  presses := 0
  focus := focus
  inputs := fun _ => { pressedKeys := ∅ }
  log := []

/-- The handler of a key-pressed event in the pane with the focus. -/
def keyPressed (e : KeyPressed) (n : ℕ) (s : Desk) : Desk :=
  match s.focus with
  | none => s
  | some p =>
    if e.reachesEncoder then
      let r := (s.inputs p).encodeKeyPress e.keycode
      { s with
        inputs := Function.update s.inputs p r.1
        log := s.log ++ [{ pane := p, press := n, keycode := e.keycode, encoded := some r.2 }] }
    else
      { s with log := s.log ++ [{ pane := p, press := n, keycode := e.keycode, encoded := none }] }

/-- The handler of a key-released event in the pane with the focus. -/
def keyReleased (keycode n : ℕ) (s : Desk) : Desk :=
  match s.focus with
  | none => s
  | some p =>
    let r := (s.inputs p).encodeKeyRelease keycode
    { s with
      inputs := Function.update s.inputs p r.1
      log := s.log ++ [{ pane := p, press := n, keycode := keycode, encoded := some r.2 }] }

/-- A key goes down, which is the next press. -/
def keyDown (keycode : ℕ) (s : Desk) : Desk :=
  { s with
    down := Function.update s.down keycode (some s.presses)
    presses := s.presses + 1 }

def keyUp (keycode : ℕ) (s : Desk) : Desk :=
  { s with down := Function.update s.down keycode none }

/-- A key that is down is not pressed again, and only one that is down repeats or goes up. -/
def step (s : Desk) : Event → Desk
  | .press e =>
    match s.down e.keycode with
    | some _ => s
    | none => (s.keyDown e.keycode).keyPressed e s.presses
  | .autoRepeat e =>
    match s.down e.keycode with
    | some n => s.keyPressed e n
    | none => s
  | .release keycode =>
    match s.down keycode with
    | some n => (s.keyUp keycode).keyReleased keycode n
    | none => s
  | .focus pane => { s with focus := pane }

/-! ### What is to hold -/

/-- The pane got an event of the physical press. -/
def Got (p : PaneId) (n : ℕ) (log : List Delivery) : Prop := ∃ d ∈ log, d.pane = p ∧ d.press = n

/-- The encoder of the pane got one. -/
def Encoded (p : PaneId) (n : ℕ) (log : List Delivery) : Prop :=
  ∃ d ∈ log, d.pane = p ∧ d.press = n ∧ d.encoded.isSome

/-- The first event of a press in a pane is a press there and the further ones are repeats. Only the
release of what was encoded there is encoded. -/
def RightAction (before : List Delivery) (d : Delivery) : Prop :=
  match d.encoded with
  | none => True
  | some .press => ¬Got d.pane d.press before
  | some .repeatPress => Got d.pane d.press before
  | some .release => Encoded d.pane d.press before

def Detects (s : Desk) : Prop := Justified RightAction s.log

/-- What the encoder of a pane was told of keys. -/
def marks (p : PaneId) (log : List Delivery) : List (Mark ℕ) :=
  log.filterMap fun d =>
    if d.pane = p then
      d.encoded.map fun action => if action = .release then .closed d.keycode else .opened d.keycode
    else none

/-- An event that reaches the encoder of a pane is a further one of its press exactly if the encoder
got the key and was not told its release. -/
def GuardPressed (e : KeyPressed) (n : ℕ) (s : Desk) : Prop :=
  ∀ p, s.focus = some p → e.reachesEncoder = true →
    (Got p n s.log ↔ IsOpen e.keycode (marks p s.log))

/-- And the release of a key comes to a pane whose encoder got the press. -/
def Guard (s : Desk) : Event → Prop
  | .press e => s.down e.keycode = none → s.GuardPressed e s.presses
  | .autoRepeat e => ∀ n, s.down e.keycode = some n → s.GuardPressed e n
  | .release keycode =>
    ∀ p n, s.focus = some p → s.down keycode = some n → Encoded p n s.log
  | .focus _ => True

/-- The focus moves only while no key is down, and no key is taken for something else. -/
def Plain (s : Desk) : Event → Prop
  | .press e | .autoRepeat e => e.reachesEncoder = true
  | .release _ => True
  | .focus _ => ∀ k, s.down k = none

/-! ### Steps -/

variable {s : Desk} {p q : PaneId} {k n : ℕ} {log : List Delivery} {d : Delivery}

theorem encodeKeyPress_cases (keycode : ℕ) (input : GhosttyInput) :
    (input.encodeKeyPress keycode).1.pressedKeys = insert keycode input.pressedKeys ∧
      (input.encodeKeyPress keycode).2 =
        if keycode ∈ input.pressedKeys then .repeatPress else .press := by
  unfold GhosttyInput.encodeKeyPress
  split_ifs with hk
  · exact ⟨(Finset.insert_eq_of_mem hk).symm, rfl⟩
  · exact ⟨rfl, rfl⟩

theorem marks_concat (log : List Delivery) (d : Delivery) :
    marks p (log ++ [d]) = marks p log ++ marks p [d] := by
  rw [marks, List.filterMap_append]
  rfl

/-- What is not encoded leaves no mark, and what is encoded leaves one in its own pane. -/
theorem marks_singleton (d : Delivery) :
    marks p [d] =
      match d.encoded with
      | none => []
      | some action =>
        if d.pane = p then
          [if action = .release then .closed d.keycode else .opened d.keycode]
        else [] := by
  unfold marks
  by_cases hp : d.pane = p
  · cases hd : d.encoded <;> simp [hp, hd]
  · cases hd : d.encoded <;> simp [hp]

theorem isOpen_diverted_iff (hd : d.encoded = none) :
    IsOpen k (marks p (log ++ [d])) ↔ IsOpen k (marks p log) := by
  rw [marks_concat, marks_singleton, hd, List.append_nil]

theorem isOpen_pressed_iff {action : KeyAction} (hd : d.encoded = some action)
    (ha : action ≠ .release) :
    IsOpen k (marks p (log ++ [d])) ↔ IsOpen k (marks p log) ∨ d.pane = p ∧ d.keycode = k := by
  rw [marks_concat, marks_singleton, hd]
  by_cases hp : d.pane = p
  · simp only [hp, if_true, if_neg ha, true_and]
    rw [isOpen_concat_iff]
    simp [or_comm]
  · simp [hp]

theorem isOpen_released_iff (hd : d.encoded = some .release) :
    IsOpen k (marks p (log ++ [d])) ↔ IsOpen k (marks p log) ∧ ¬(d.pane = p ∧ d.keycode = k) := by
  rw [marks_concat, marks_singleton, hd]
  by_cases hp : d.pane = p
  · simp only [hp, if_true, true_and]
    rw [isOpen_concat_iff]
    simp
  · simp [hp]

/-- What a pane remembers of keys is what its encoder was told of them. -/
def Tracks (s : Desk) : Prop :=
  ∀ p k, k ∈ (s.inputs p).pressedKeys ↔ IsOpen k (marks p s.log)

theorem keyPressed_unfocused (hf : s.focus = none) (e : KeyPressed) (n : ℕ) :
    s.keyPressed e n = s := by
  rw [keyPressed, hf]

theorem keyPressed_diverted (hf : s.focus = some p) {e : KeyPressed}
    (he : ¬e.reachesEncoder = true) (n : ℕ) :
    s.keyPressed e n =
      { s with log := s.log ++ [{ pane := p, press := n, keycode := e.keycode, encoded := none }] } := by
  rw [keyPressed, hf]
  exact if_neg he

theorem keyPressed_encoded (hf : s.focus = some p) {e : KeyPressed}
    (he : e.reachesEncoder = true) (n : ℕ) :
    s.keyPressed e n =
      { s with
        inputs := Function.update s.inputs p ((s.inputs p).encodeKeyPress e.keycode).1
        log := s.log ++ [{
          pane := p
          press := n
          keycode := e.keycode
          encoded := some ((s.inputs p).encodeKeyPress e.keycode).2 }] } := by
  rw [keyPressed, hf]
  exact if_pos he

theorem keyReleased_unfocused (hf : s.focus = none) (keycode n : ℕ) :
    s.keyReleased keycode n = s := by
  rw [keyReleased, hf]

theorem keyReleased_encoded (hf : s.focus = some p) (keycode n : ℕ) :
    s.keyReleased keycode n =
      { s with
        inputs := Function.update s.inputs p ((s.inputs p).encodeKeyRelease keycode).1
        log := s.log ++ [{
          pane := p
          press := n
          keycode := keycode
          encoded := some .release }] } := by
  rw [keyReleased, hf]
  rfl

theorem encodeKeyPress_action_ne (keycode : ℕ) (input : GhosttyInput) :
    (input.encodeKeyPress keycode).2 ≠ .release := by
  rw [(encodeKeyPress_cases keycode input).2]
  split_ifs <;> exact KeyAction.noConfusion

theorem tracks_keyPressed (ht : s.Tracks) (e : KeyPressed) (n : ℕ) : (s.keyPressed e n).Tracks := by
  cases hf : s.focus with
  | none =>
    rw [keyPressed_unfocused hf]
    exact ht
  | some p =>
    by_cases he : e.reachesEncoder = true
    · rw [keyPressed_encoded hf he]
      intro q k
      rw [isOpen_pressed_iff rfl (encodeKeyPress_action_ne _ _), ← ht q k]
      by_cases hq : p = q
      · subst hq
        simp [encodeKeyPress_cases, or_comm, eq_comm]
      · simp [hq, Ne.symm hq]
    · rw [keyPressed_diverted hf he]
      intro q k
      rw [isOpen_diverted_iff rfl]
      exact ht q k

theorem tracks_keyReleased (ht : s.Tracks) (keycode n : ℕ) : (s.keyReleased keycode n).Tracks := by
  cases hf : s.focus with
  | none =>
    rw [keyReleased_unfocused hf]
    exact ht
  | some p =>
    rw [keyReleased_encoded hf]
    intro q k
    rw [isOpen_released_iff rfl, ← ht q k]
    by_cases hq : p = q
    · subst hq
      simp [GhosttyInput.encodeKeyRelease, and_comm, eq_comm]
    · simp [hq, Ne.symm hq]

/-- The encoder of a pane takes a key for one that repeats exactly if it knows it to be pressed. -/
theorem detects_keyPressed_iff (ht : s.Tracks) (hd : s.Detects) (e : KeyPressed) (n : ℕ) :
    (s.keyPressed e n).Detects ↔ s.GuardPressed e n := by
  cases hf : s.focus with
  | none =>
    rw [keyPressed_unfocused hf]
    exact iff_of_true hd fun p hp => by simp [hf] at hp
  | some p =>
    by_cases he : e.reachesEncoder = true
    · have hguard : s.GuardPressed e n ↔ (Got p n s.log ↔ e.keycode ∈ (s.inputs p).pressedKeys) := by
        simp [GuardPressed, hf, he, ht p e.keycode]
      rw [keyPressed_encoded hf he, Detects, justified_concat_iff, hguard]
      refine (and_iff_right hd).trans ?_
      rw [RightAction, (encodeKeyPress_cases e.keycode (s.inputs p)).2]
      split_ifs with hk <;> simp [hk]
    · rw [keyPressed_diverted hf he, Detects, justified_concat_iff]
      exact iff_of_true ⟨hd, trivial⟩ fun _ _ h => absurd h he

theorem detects_keyReleased_iff (hd : s.Detects) (keycode n : ℕ) :
    (s.keyReleased keycode n).Detects ↔ ∀ p, s.focus = some p → Encoded p n s.log := by
  cases hf : s.focus with
  | none =>
    rw [keyReleased_unfocused hf]
    exact iff_of_true hd fun p hp => by simp at hp
  | some p =>
    rw [keyReleased_encoded hf, Detects, justified_concat_iff]
    refine (and_iff_right hd).trans ?_
    simp [RightAction]

theorem step_press {e : KeyPressed} (h : s.down e.keycode = none) :
    s.step (.press e) = (s.keyDown e.keycode).keyPressed e s.presses := by
  rw [step, h]

theorem step_press_down {e : KeyPressed} (h : s.down e.keycode = some n) :
    s.step (.press e) = s := by
  rw [step, h]

theorem step_autoRepeat {e : KeyPressed} (h : s.down e.keycode = some n) :
    s.step (.autoRepeat e) = s.keyPressed e n := by
  rw [step, h]

theorem step_autoRepeat_up {e : KeyPressed} (h : s.down e.keycode = none) :
    s.step (.autoRepeat e) = s := by
  rw [step, h]

theorem step_release {keycode : ℕ} (h : s.down keycode = some n) :
    s.step (.release keycode) = (s.keyUp keycode).keyReleased keycode n := by
  rw [step, h]

theorem step_release_up {keycode : ℕ} (h : s.down keycode = none) :
    s.step (.release keycode) = s := by
  rw [step, h]

theorem tracks_step (ht : s.Tracks) (event : Event) : (s.step event).Tracks := by
  cases event with
  | press e =>
    cases hdown : s.down e.keycode with
    | none =>
      rw [step_press hdown]
      exact tracks_keyPressed (by exact ht) e s.presses
    | some n =>
      rw [step_press_down hdown]
      exact ht
  | autoRepeat e =>
    cases hdown : s.down e.keycode with
    | none =>
      rw [step_autoRepeat_up hdown]
      exact ht
    | some n =>
      rw [step_autoRepeat hdown]
      exact tracks_keyPressed ht e n
  | release keycode =>
    cases hdown : s.down keycode with
    | none =>
      rw [step_release_up hdown]
      exact ht
    | some n =>
      rw [step_release hdown]
      exact tracks_keyReleased (by exact ht) keycode n
  | focus pane => exact ht

/-- A step tells keys apart exactly if it meets the guard. -/
theorem detects_step_iff (ht : s.Tracks) (hd : s.Detects) (event : Event) :
    (s.step event).Detects ↔ s.Guard event := by
  cases event with
  | press e =>
    rw [Guard]
    cases hdown : s.down e.keycode with
    | none =>
      have hiff := detects_keyPressed_iff (s := s.keyDown e.keycode) ht hd e s.presses
      rw [step_press hdown, hiff]
      exact ⟨fun h _ => h, fun h => h rfl⟩
    | some n =>
      rw [step_press_down hdown]
      exact iff_of_true hd fun h => by simp at h
  | autoRepeat e =>
    rw [Guard]
    cases hdown : s.down e.keycode with
    | none =>
      rw [step_autoRepeat_up hdown]
      exact iff_of_true hd fun n h => by simp at h
    | some n =>
      rw [step_autoRepeat hdown, detects_keyPressed_iff ht hd]
      simp
  | release keycode =>
    rw [Guard]
    cases hdown : s.down keycode with
    | none =>
      rw [step_release_up hdown]
      exact iff_of_true hd fun p n _ h => by simp at h
    | some n =>
      rw [step_release hdown, detects_keyReleased_iff (by exact hd)]
      simp [keyUp]
  | focus pane => exact iff_of_true hd trivial

theorem tracks_new (focus : Option PaneId) : (new focus).Tracks :=
  fun _ _ => iff_of_false (Finset.notMem_empty _) not_isOpen_nil

theorem detects_new (focus : Option PaneId) : (new focus).Detects := justified_nil

/-! ### Runs in which nothing is diverted -/

/-- A key that is down was encoded in the pane with the focus, and no other key is open anywhere. -/
structure Settled (s : Desk) : Prop where
  isOpen : ∀ p k, IsOpen k (marks p s.log) ↔ s.focus = some p ∧ (s.down k).isSome = true
  encoded : ∀ p k n, s.focus = some p → s.down k = some n → Encoded p n s.log
  old : ∀ d ∈ s.log, d.press < s.presses

theorem settled_new (focus : Option PaneId) : (new focus).Settled where
  isOpen _ _ := iff_of_false not_isOpen_nil fun h => Bool.false_ne_true h.2
  encoded _ _ _ _ h := by simp [new] at h
  old d hd := absurd hd List.not_mem_nil

theorem Encoded.got (h : Encoded p n log) : Got p n log := by
  obtain ⟨d, hd, hp, hn, -⟩ := h
  exact ⟨d, hd, hp, hn⟩

theorem Encoded.concat (h : Encoded p n log) : Encoded p n (log ++ [d]) := by
  obtain ⟨d', hd', h⟩ := h
  exact ⟨d', List.mem_append_left _ hd', h⟩

theorem press_lt_concat {m : ℕ} (h : ∀ d ∈ log, d.press < m) (hd : d.press < m) :
    ∀ d' ∈ log ++ [d], d'.press < m := by
  intro d' hd'
  rcases List.mem_append.mp hd' with hd' | hd'
  · exact h d' hd'
  · rw [List.mem_singleton.mp hd']
    exact hd

theorem Settled.press_lt (h : s.Settled) (hf : s.focus = some p) (hk : s.down k = some n) :
    n < s.presses := by
  obtain ⟨d, hd, -, rfl, -⟩ := h.encoded p k n hf hk
  exact h.old d hd

/-- Such a run meets the guard. -/
theorem Settled.guard (h : s.Settled) {event : Event} (hplain : s.Plain event) : s.Guard event := by
  cases event with
  | press e =>
    rintro hdown p hf -
    refine iff_of_false ?_ ?_
    · rintro ⟨d, hd, -, hn⟩
      exact absurd (h.old d hd) (by omega)
    · rw [h.isOpen, hdown]
      exact fun hopen => Bool.false_ne_true hopen.2
  | autoRepeat e =>
    rintro n hdown p hf -
    refine iff_of_true (h.encoded p e.keycode n hf hdown).got ?_
    rw [h.isOpen, hdown]
    exact ⟨hf, rfl⟩
  | release keycode => exact fun p n hf hdown => h.encoded p keycode n hf hdown
  | focus pane => trivial

theorem settled_press (h : s.Settled) {e : KeyPressed} (he : e.reachesEncoder = true) :
    (s.step (.press e)).Settled := by
  cases hdown : s.down e.keycode with
  | some n =>
    rw [step_press_down hdown]
    exact h
  | none =>
    rw [step_press hdown]
    cases hf : s.focus with
    | none =>
      rw [keyPressed_unfocused (by exact hf)]
      constructor
      · intro p k
        refine (h.isOpen p k).trans ?_
        simp [keyDown, hf]
      · intro p k n hp
        cases hf.symm.trans hp
      · exact fun d hd => (h.old d hd).trans (Nat.lt_succ_self _)
    | some p =>
      rw [keyPressed_encoded (by exact hf) he]
      constructor
      · intro q k
        rw [isOpen_pressed_iff rfl (encodeKeyPress_action_ne _ _)]
        refine (or_congr_left (h.isOpen q k)).trans ?_
        by_cases hk : k = e.keycode
        · simp [keyDown, hf, hk, hdown]
        · simp [keyDown, hk, Ne.symm hk]
      · intro q k n hq hk
        show Encoded q n (s.log ++ _)
        replace hk : Function.update s.down e.keycode (some s.presses) k = some n := hk
        by_cases hkey : k = e.keycode
        · obtain rfl : p = q := Option.some.inj (hf.symm.trans hq)
          obtain rfl : s.presses = n := by simpa [hkey] using hk
          exact ⟨_, List.mem_append_right _ (List.mem_singleton_self _), rfl, rfl, rfl⟩
        · rw [Function.update_of_ne hkey] at hk
          exact (h.encoded q k n hq hk).concat
      · apply press_lt_concat
        · exact fun d hd => (h.old d hd).trans (Nat.lt_succ_self _)
        · exact Nat.lt_succ_self _

theorem settled_autoRepeat (h : s.Settled) {e : KeyPressed} (he : e.reachesEncoder = true) :
    (s.step (.autoRepeat e)).Settled := by
  cases hdown : s.down e.keycode with
  | none =>
    rw [step_autoRepeat_up hdown]
    exact h
  | some n =>
    rw [step_autoRepeat hdown]
    cases hf : s.focus with
    | none =>
      rw [keyPressed_unfocused hf]
      exact h
    | some p =>
      rw [keyPressed_encoded hf he]
      constructor
      · intro q k
        rw [isOpen_pressed_iff rfl (encodeKeyPress_action_ne _ _), h.isOpen]
        refine or_iff_left_of_imp ?_
        rintro ⟨rfl, rfl⟩
        simp [hf, hdown]
      · exact fun q k n hq hk => (h.encoded q k n hq hk).concat
      · exact press_lt_concat h.old (h.press_lt hf hdown)

theorem settled_release (h : s.Settled) (keycode : ℕ) : (s.step (.release keycode)).Settled := by
  cases hdown : s.down keycode with
  | none =>
    rw [step_release_up hdown]
    exact h
  | some n =>
    rw [step_release hdown]
    cases hf : s.focus with
    | none =>
      rw [keyReleased_unfocused (by exact hf)]
      constructor
      · intro p k
        refine (h.isOpen p k).trans ?_
        simp [keyUp, hf]
      · intro p k n hp
        cases hf.symm.trans hp
      · exact h.old
    | some p =>
      rw [keyReleased_encoded (by exact hf)]
      constructor
      · intro q k
        rw [isOpen_released_iff rfl]
        refine (and_congr_left' (h.isOpen q k)).trans ?_
        by_cases hk : k = keycode
        · simp [keyUp, hf, hk]
          exact fun hq _ => hq
        · simp [keyUp, hk, Ne.symm hk]
      · intro q k n' hq hk
        replace hk : Function.update s.down keycode none k = some n' := hk
        by_cases hkey : k = keycode
        · simp [hkey] at hk
        · rw [Function.update_of_ne hkey] at hk
          exact (h.encoded q k n' hq hk).concat
      · exact press_lt_concat h.old (h.press_lt hf hdown)

theorem settled_step (h : s.Settled) {event : Event} (hplain : s.Plain event) :
    (s.step event).Settled := by
  cases event with
  | press e => exact settled_press h hplain
  | autoRepeat e => exact settled_autoRepeat h hplain
  | release keycode => exact settled_release h keycode
  | focus pane =>
    have hdown : ∀ k, s.down k = none := hplain
    constructor
    · intro p k
      rw [step, h.isOpen, hdown]
      simp
    · intro p k n _ hk
      cases (hdown k).symm.trans hk
    · exact h.old

/-- Keys are told apart all along a run exactly if every event of it meets the guard. They are if the
focus moves only while no key is down and no key is taken for something else. -/
theorem detects_runs (focus : Option PaneId) (events : List Event) :
    (Along step Detects (new focus) events ↔ Meets step Guard (new focus) events) ∧
      (Meets step Plain (new focus) events → Along step Detects (new focus) events) := by
  have hiff : Along step Detects (new focus) events ↔ Meets step Guard (new focus) events :=
    along_iff_meets (fun _ event ht _ _ => tracks_step ht event)
      (fun _ event ht hd => detects_step_iff ht hd event) (tracks_new focus) (detects_new focus)
  refine ⟨hiff, fun hplain => hiff.mpr ?_⟩
  exact meets_of_invariant (fun _ _ h hplain => settled_step h hplain) (fun _ _ h hplain => Settled.guard h hplain)
    (settled_new focus) hplain

/-- A key that is pressed in one pane and let go in another. -/
def movedKey : List Event :=
  let a : KeyPressed :=
    { keycode := 38
      isAppShortcut := false
      ctrlC := false
      escape := false
      selection := false
      mouseTracking := false }
  [.press a, .focus (some ⟨⟨1⟩⟩), .release 38]

/-- The other pane is told of a release that it knows no press of. -/
theorem not_detects_movedKey : ¬∀ focus events, Along step Detects (new focus) events := by
  intro h
  have hlast : RightAction
      [{ pane := ⟨⟨0⟩⟩, press := 0, keycode := 38, encoded := some .press }]
      { pane := ⟨⟨1⟩⟩, press := 0, keycode := 38, encoded := some .release } :=
    (h (some ⟨⟨0⟩⟩) movedKey).last _ _ [] rfl
  obtain ⟨d, hd, hpane, -⟩ := hlast
  rw [List.mem_singleton.mp hd] at hpane
  exact absurd hpane (by decide)

end Desk

end Forgetty.KeyRepeat
