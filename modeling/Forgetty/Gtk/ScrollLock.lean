import Forgetty.Gtk.SearchScrollback
import Forgetty.Lib.Run

/-! The lock that keeps output from scrolling a pane to the bottom. It is set and cleared by the
wheel and cleared by keys that go to the program. Everything else that moves the screen over the
rows leaves it as it is. -/

namespace Forgetty.ScrollLock

open Lib Vt CopySelection

/-- A pane with the rows of its terminal and the part of them that it shows. -/
structure ScrolledPane where
  terminal : Scrollback
  scrollLock : Bool

/-- The last row is shown. -/
def AtBottom (t : Scrollback) : Prop := t.rows.length ≤ t.offset + t.len

instance (t : Scrollback) : Decidable (AtBottom t) := inferInstanceAs (Decidable (_ ≤ _))

def scrollViewportBottom (t : Scrollback) : Scrollback :=
  { t with
    offset := t.maxOffset
    offset_le := Nat.le_refl _ }

/-- What a pressed key comes to. -/
inductive KeyPress where
  /-- An accelerator of the window. -/
  | appShortcut
  /-- Ctrl+C with a selection. -/
  | copy
  /-- Ctrl+C without one. -/
  | interrupt
  /-- Escape with a selection, while the program does not track the mouse. -/
  | clearSelection
  /-- A key that the program is sent. -/
  | encoded
  | notEncoded
  deriving DecidableEq, Repr

/-- Where the pointer is while a selection is dragged. -/
inductive DragEdge where
  | above
  | inside
  | below
  deriving DecidableEq, Repr

/-- What happens to a pane. The library says how the terminal looks after it was fed or resized. -/
inductive Action where
  | wheel (delta : ℤ)
  | scrollbar (newOffset : ℤ)
  | drag (edge : DragEdge)
  /-- The row of the match that becomes the current one, if there are matches. -/
  | navigateSearch (absRow : Option ℕ)
  | keyPress (key : KeyPress)
  /-- A pane without a daemon pane is not pasted into. -/
  | paste (toDaemon : Bool)
  /-- Without a new terminal the grid is the one from before. -/
  | resize (resized : Option Scrollback)
  | output (fed : Scrollback)

namespace ScrolledPane

/-- The scroll handler, where the wheel is not reported to the program. -/
def wheel (delta : ℤ) (s : ScrolledPane) : ScrolledPane :=
  let t := s.terminal.scrollViewportDelta delta
  { terminal := t
    scrollLock := !decide (t.rows.length ≤ t.len ∨ t.offset + t.len ≥ t.rows.length) }

/-- The scrollbar has a new value. -/
def scrollbar (newOffset : ℤ) (s : ScrolledPane) : ScrolledPane :=
  let delta := newOffset - s.terminal.offset
  if delta ≠ 0 then { s with terminal := s.terminal.scrollViewportDelta delta } else s

/-- A selection is dragged past an edge of the viewport. -/
def drag (edge : DragEdge) (s : ScrolledPane) : ScrolledPane :=
  match edge with
  | .above => { s with terminal := s.terminal.scrollViewportDelta (-3) }
  | .inside => s
  | .below => { s with terminal := s.terminal.scrollViewportDelta 3 }

def navigateSearch (absRow : Option ℕ) (s : ScrolledPane) : ScrolledPane :=
  match absRow with
  | none => s
  | some absRow =>
    { s with terminal := scrollTo (Search.matchOffset absRow s.terminal) s.terminal }

def keyPress (key : KeyPress) (s : ScrolledPane) : ScrolledPane :=
  match key with
  | .interrupt | .encoded => { terminal := scrollViewportBottom s.terminal, scrollLock := false }
  | .appShortcut | .copy | .clearSelection | .notEncoded => s

/-- `do_paste`. -/
def paste (toDaemon : Bool) (s : ScrolledPane) : ScrolledPane :=
  if toDaemon then { s with terminal := scrollViewportBottom s.terminal } else s

def resize (resized : Option Scrollback) (s : ScrolledPane) : ScrolledPane :=
  match resized with
  | none => s
  | some t => { s with terminal := t }

/-- The data handler, after the terminal was fed. -/
def output (fed : Scrollback) (s : ScrolledPane) : ScrolledPane :=
  let s := { s with terminal := fed }
  if s.scrollLock = false then { s with terminal := scrollViewportBottom s.terminal } else s

def step (s : ScrolledPane) : Action → ScrolledPane
  | .wheel delta => s.wheel delta
  | .scrollbar newOffset => s.scrollbar newOffset
  | .drag edge => s.drag edge
  | .navigateSearch absRow => s.navigateSearch absRow
  | .keyPress key => s.keyPress key
  | .paste toDaemon => s.paste toDaemon
  | .resize resized => s.resize resized
  | .output fed => s.output fed

/-! ### What is to hold -/

/-- The lock is set exactly if the pane is scrolled back. -/
def InSync (s : ScrolledPane) : Prop := s.scrollLock = true ↔ ¬AtBottom s.terminal

/-- After a user action the lock is set exactly if the pane is scrolled back. Output leaves a pane
at the bottom there, and one that is scrolled back where the library left it. -/
def KeepsLock (s : ScrolledPane) : Action → Prop
  | .output fed =>
    (AtBottom s.terminal → AtBottom (s.step (.output fed)).terminal) ∧
      (¬AtBottom s.terminal → (s.step (.output fed)).terminal = fed)
  | action => (s.step action).InSync

/-- The screen is moved off the bottom only where the lock is set, and to the bottom only where it
is not, unless the lock is set or cleared with it. -/
def Guard (s : ScrolledPane) : Action → Prop
  | .wheel _ => True
  | .scrollbar newOffset => s.scrollLock = true ↔ newOffset.toNat < s.terminal.maxOffset
  | .drag .above => s.scrollLock = true ↔ s.terminal.offset - 3 < s.terminal.maxOffset
  | .drag .inside => True
  | .drag .below => s.scrollLock = true ↔ s.terminal.offset + 3 < s.terminal.maxOffset
  | .navigateSearch none => True
  | .navigateSearch (some absRow) =>
    s.scrollLock = true ↔ absRow - s.terminal.len / 3 < s.terminal.maxOffset
  | .keyPress _ => True
  | .paste toDaemon => toDaemon = true → s.scrollLock = false
  | .resize none => True
  | .resize (some t) => s.scrollLock = true ↔ t.offset < t.maxOffset
  | .output fed => s.scrollLock = true → fed.offset < fed.maxOffset

/-! ### Steps -/

theorem not_atBottom_iff (t : Scrollback) : ¬AtBottom t ↔ t.offset < t.maxOffset := by
  have hle := t.len_le
  rw [AtBottom, Scrollback.maxOffset]
  omega

theorem atBottom_scrollViewportBottom (t : Scrollback) : AtBottom (scrollViewportBottom t) :=
  not_not.mp fun h => Nat.lt_irrefl _ ((not_atBottom_iff _).mp h)

/-- Scrolled by some rows, the pane is off the bottom if the new offset is. -/
theorem not_atBottom_scroll (t : Scrollback) (delta : ℤ) :
    ¬AtBottom (t.scrollViewportDelta delta) ↔ (t.offset + delta).toNat < t.maxOffset := by
  rw [not_atBottom_iff, Scrollback.offset_scrollViewportDelta]
  exact min_lt_iff.trans (or_iff_left (Nat.lt_irrefl _))

theorem not_atBottom_navigate (t : Scrollback) (absRow : ℕ) :
    ¬AtBottom (scrollTo (Search.matchOffset absRow t) t) ↔ absRow - t.len / 3 < t.maxOffset := by
  have hlen := t.len_le
  have hlt := t.rows_lt
  have htarget : Search.matchOffset absRow t = min (absRow - t.len / 3) t.maxOffset := by
    unfold Search.matchOffset Scrollback.maxOffset
    dsimp only
    split_ifs <;> omega
  have hmax : t.maxOffset ≤ t.rows.length := Nat.sub_le _ _
  rw [not_atBottom_iff, htarget, offset_scrollTo (by omega), maxOffset_scrollTo]
  omega

variable {s : ScrolledPane}

/-- A step that leaves the lock as it is. -/
theorem inSync_of_moved {s' : ScrolledPane} {p : Prop} (hlock : s'.scrollLock = s.scrollLock)
    (hoff : ¬AtBottom s'.terminal ↔ p) : s'.InSync ↔ (s.scrollLock = true ↔ p) := by
  rw [InSync, hlock, hoff]

theorem inSync_wheel (delta : ℤ) (s : ScrolledPane) : (s.wheel delta).InSync := by
  have hlen := (s.terminal.scrollViewportDelta delta).len_le
  unfold wheel InSync AtBottom
  dsimp only
  rw [Bool.not_eq_true', decide_eq_false_iff_not]
  omega

theorem inSync_scrollbar_iff (newOffset : ℤ) :
    (s.scrollbar newOffset).InSync ↔
      (s.scrollLock = true ↔ newOffset.toNat < s.terminal.maxOffset) := by
  unfold scrollbar
  dsimp only
  split_ifs with hdelta
  · refine inSync_of_moved rfl ((not_atBottom_scroll _ _).trans ?_)
    rw [show (s.terminal.offset : ℤ) + (newOffset - s.terminal.offset) = newOffset by omega]
  · refine inSync_of_moved rfl ((not_atBottom_iff _).trans ?_)
    omega

theorem inSync_drag_above_iff : (s.drag .above).InSync ↔
    (s.scrollLock = true ↔ s.terminal.offset - 3 < s.terminal.maxOffset) := by
  refine inSync_of_moved rfl ((not_atBottom_scroll _ _).trans ?_)
  omega

theorem inSync_drag_below_iff : (s.drag .below).InSync ↔
    (s.scrollLock = true ↔ s.terminal.offset + 3 < s.terminal.maxOffset) := by
  refine inSync_of_moved rfl ((not_atBottom_scroll _ _).trans ?_)
  omega

theorem inSync_navigateSearch_iff (absRow : ℕ) : (s.navigateSearch (some absRow)).InSync ↔
    (s.scrollLock = true ↔ absRow - s.terminal.len / 3 < s.terminal.maxOffset) := by
  rw [navigateSearch, InSync]
  dsimp only
  rw [not_atBottom_navigate]

theorem inSync_keyPress (h : s.InSync) (key : KeyPress) : (s.keyPress key).InSync := by
  have hbottom : InSync { terminal := scrollViewportBottom s.terminal, scrollLock := false } :=
    iff_of_false Bool.false_ne_true (not_not.mpr (atBottom_scrollViewportBottom _))
  cases key with
  | interrupt => exact hbottom
  | encoded => exact hbottom
  | appShortcut => exact h
  | copy => exact h
  | clearSelection => exact h
  | notEncoded => exact h

theorem inSync_paste_iff : (s.paste true).InSync ↔ s.scrollLock = false := by
  have hbottom : ¬¬AtBottom (s.paste true).terminal :=
    not_not.mpr (atBottom_scrollViewportBottom _)
  have hmoved : (s.paste true).InSync ↔ (s.scrollLock = true ↔ False) :=
    inSync_of_moved rfl (iff_false_intro hbottom)
  rw [hmoved, iff_false, Bool.not_eq_true]

theorem inSync_output_iff (fed : Scrollback) : (s.output fed).InSync ↔
    (s.scrollLock = true → fed.offset < fed.maxOffset) := by
  unfold output
  dsimp only
  rw [← not_atBottom_iff]
  cases hlock : s.scrollLock with
  | false =>
    rw [if_pos rfl]
    refine iff_of_true ?_ fun hfalse => absurd hfalse Bool.false_ne_true
    exact iff_of_false Bool.false_ne_true (not_not.mpr (atBottom_scrollViewportBottom _))
  | true =>
    rw [if_neg (Ne.symm Bool.false_ne_true)]
    exact ⟨fun hsync _ => hsync.mp rfl, fun hoff => iff_of_true rfl (hoff rfl)⟩

/-- A step leaves the lock right exactly if it meets the guard. -/
theorem inSync_step_iff (h : s.InSync) (action : Action) :
    (s.step action).InSync ↔ s.Guard action := by
  cases action with
  | wheel delta => exact iff_of_true (inSync_wheel delta s) trivial
  | scrollbar newOffset => exact inSync_scrollbar_iff newOffset
  | drag edge =>
    cases edge with
    | above => exact inSync_drag_above_iff
    | inside => exact iff_of_true h trivial
    | below => exact inSync_drag_below_iff
  | navigateSearch absRow =>
    cases absRow with
    | none => exact iff_of_true h trivial
    | some absRow => exact inSync_navigateSearch_iff absRow
  | keyPress key => exact iff_of_true (inSync_keyPress h key) trivial
  | paste toDaemon =>
    cases toDaemon with
    | false => exact iff_of_true h fun hfalse => absurd hfalse Bool.false_ne_true
    | true => exact inSync_paste_iff.trans (imp_iff_right rfl).symm
  | resize resized =>
    cases resized with
    | none => exact iff_of_true h trivial
    | some t => exact inSync_of_moved rfl (not_atBottom_iff t)
  | output fed => exact inSync_output_iff fed

/-- With the lock right, output moves the screen to the bottom only where it was there. -/
theorem keepsLock_output (h : s.InSync) (fed : Scrollback) : s.KeepsLock (.output fed) := by
  constructor
  · intro hbottom
    have hlock : s.scrollLock = false := Bool.eq_false_iff.mpr fun hlock => h.mp hlock hbottom
    show AtBottom (s.output fed).terminal
    rw [output]
    dsimp only
    rw [if_pos hlock]
    exact atBottom_scrollViewportBottom fed
  · intro hback
    show (s.output fed).terminal = fed
    rw [output]
    dsimp only
    rw [if_neg (by rw [h.mpr hback]; exact Ne.symm Bool.false_ne_true)]

theorem keepsLock_of_guard (h : s.InSync) {action : Action} (hg : s.Guard action) :
    s.KeepsLock action := by
  have hsync := (inSync_step_iff h action).mpr hg
  cases action with
  | output fed => exact keepsLock_output h fed
  | wheel delta => exact hsync
  | scrollbar newOffset => exact hsync
  | drag edge => exact hsync
  | navigateSearch absRow => exact hsync
  | keyPress key => exact hsync
  | paste toDaemon => exact hsync
  | resize resized => exact hsync

/-- The lock is right all along a run exactly if every step of it meets the guard. -/
theorem along_inSync_iff (h : s.InSync) (actions : List Action) :
    Along step InSync s actions ↔ Meets step Guard s actions :=
  along_iff_meets (I := fun _ => True) (fun _ _ _ _ _ => trivial)
    (fun _ action _ hsync => inSync_step_iff hsync action) trivial h

/-- In a run whose steps meet the guard, the lock is right after every user action, and output
leaves a pane that is scrolled back where it is. In another run the lock is wrong at some time. -/
theorem runs_keepLock (t : Scrollback) (ht : AtBottom t) (actions : List Action) :
    (Meets step Guard { terminal := t, scrollLock := false } actions →
      Meets step KeepsLock { terminal := t, scrollLock := false } actions) ∧
    (Along step InSync { terminal := t, scrollLock := false } actions ↔
      Meets step Guard { terminal := t, scrollLock := false } actions) := by
  have hnew : InSync { terminal := t, scrollLock := false } :=
    iff_of_false Bool.false_ne_true (not_not.mpr ht)
  refine ⟨fun h => ?_, along_inSync_iff hnew actions⟩
  exact meets_of_invariant (fun _ action hsync hg => (inSync_step_iff hsync action).mpr hg)
    (fun _ _ hsync hg => keepsLock_of_guard hsync hg) hnew h

/-- A page of one row at the last of some empty rows. -/
def lastOf (n : Fin 100) : Scrollback where
  rows := List.replicate (n.val + 1) { cells := [], wrapped := false }
  cols := 0
  offset := n.val
  len := 1
  len_pos := Nat.one_pos
  len_le := by simp
  offset_le := by simp
  rows_lt := by
    rw [List.length_replicate]
    omega
  length_cells row h := by
    rw [List.eq_of_mem_replicate h]
    rfl
  grapheme_ne_nil row h := by
    rw [List.eq_of_mem_replicate h]
    exact List.forall_mem_nil _

/-- A key is typed, its echo comes on a new row, and the wheel goes up. -/
theorem keepLock_typing :
    Meets step KeepsLock { terminal := lastOf 1, scrollLock := false }
      [.keyPress .encoded, .output (lastOf 2), .wheel (-1)] :=
  (runs_keepLock (lastOf 1) (by decide) _).1
    ⟨trivial, fun hlock => absurd hlock Bool.false_ne_true, trivial, trivial⟩

/-- The scrollbar is moved to the first of two rows. -/
theorem not_keepLock_scrollbar :
    ¬Meets step KeepsLock { terminal := lastOf 1, scrollLock := false }
      [.scrollbar 0] := by
  rintro ⟨hsync, -⟩
  exact absurd (hsync.mpr (by decide)) Bool.false_ne_true

end ScrolledPane

end Forgetty.ScrollLock
