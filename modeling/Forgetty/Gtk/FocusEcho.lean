import Forgetty.Gtk.Rebuild

/-! Local focus changes and their echoes. A window queues every focus change it
makes and expects one event for it, while the daemon sends one only when the pane
is not the focused one of its tab already. The queue then stays one entry ahead of
the stream for good. -/

namespace Forgetty

open Lib SessionManager

namespace SessionManager

variable {sm : SessionManager} {idx : ℕ} {tabId : Uuid} {tab : SessionTab} {p : PaneId}

/-- The tab a focus change is routed to. -/
def tabAt (idx : ℕ) (tabId : Uuid) (sm : SessionManager) : Option SessionTab :=
  (sm.layout.workspaces[idx]?).bind fun ws => ws.tabs.find? (·.id = tabId)

theorem setActivePane_of_eq (h : sm.tabAt idx tabId = some tab) (hp : p ∈ tab.paneTree.leaves)
    (heq : tab.activePaneId = some p) : sm.setActivePane idx tabId (some p) = (sm, .ok ()) := by
  obtain ⟨ws, hws, htab⟩ := Option.bind_eq_some_iff.mp h
  rw [setActivePane]
  simp only [hws, htab]
  rw [Option.filter_some_neg (by simpa using hp)]
  exact if_pos heq

theorem setActivePane_of_ne (h : sm.tabAt idx tabId = some tab) (hp : p ∈ tab.paneTree.leaves)
    (hne : tab.activePaneId ≠ some p) :
    sm.setActivePane idx tabId (some p) =
      ((sm.modifyWorkspace idx (writeActivePane tabId (some p))).send
        (.activePaneChanged idx tabId (some p)), .ok ()) := by
  obtain ⟨ws, hws, htab⟩ := Option.bind_eq_some_iff.mp h
  rw [setActivePane]
  simp only [hws, htab]
  rw [Option.filter_some_neg (by simpa using hp)]
  exact if_neg hne

end SessionManager

namespace Attached

/-- The event that answers a queue entry. -/
def echoOf (x : ℕ × Uuid × PaneId) : SessionEvent := .activePaneChanged x.1 x.2.1 (some x.2.2)

/-- The steps considered: focus changes to a live leaf, and events handled. -/
def FocusOnly (a : Attached) : Action → Prop
  | .focusEnter tabId p => ∃ tab, a.sm.tabAt a.gtk.activeIndex tabId = some tab ∧
      p ∈ tab.paneTree.leaves
  | .drain => True
  | _ => False

/-- The pane that gets the focus is not the one the daemon keeps for the tab. -/
def MovesFocus (a : Attached) : Action → Prop
  | .focusEnter tabId p =>
    ∀ tab, a.sm.tabAt a.gtk.activeIndex tabId = some tab → tab.activePaneId ≠ some p
  | _ => True

/-- The event of a focus change that is handled is taken for an echo. -/
def Consumes (a : Attached) (i : Action) : Prop :=
  i = .drain → ∀ idx tabId p es, a.inFlight = .activePaneChanged idx tabId p :: es →
    (consumeActivePaneSelfEcho a.gtk.pendingActivePane idx tabId p).2 = true

/-- Nothing is expected any more once every event was handled. -/
def Settled (a : Attached) : Prop := a.inFlight = [] → a.gtk.pendingActivePane = []

/-- The events in flight answer the queue. -/
structure Echoing (a : Attached) : Prop where
  next : a.next ≤ a.sm.eventTx.sent.length
  inFlight : a.inFlight = a.gtk.pendingActivePane.map echoOf

/-- The queue is longer than the stream. -/
structure Ahead (a : Attached) : Prop where
  next : a.next ≤ a.sm.eventTx.sent.length
  longer : a.inFlight.length < a.gtk.pendingActivePane.length

section Steps

variable {w : World} {term : Terminals} {a : Attached} {tabId : Uuid} {p : PaneId}
  {tab : SessionTab} {i : Action}

@[simp] theorem focusEnter_pendingActivePane (a : Attached) :
    (a.focusEnter tabId p).gtk.pendingActivePane =
      a.gtk.pendingActivePane ++ [(a.gtk.activeIndex, tabId, p)] := rfl

theorem inFlight_focusEnter_of_eq (h : a.sm.tabAt a.gtk.activeIndex tabId = some tab)
    (hp : p ∈ tab.paneTree.leaves) (heq : tab.activePaneId = some p) :
    (a.focusEnter tabId p).inFlight = a.inFlight ∧ (a.focusEnter tabId p).sm = a.sm := by
  have hsm : (a.focusEnter tabId p).sm = a.sm := by
    rw [focusEnter, setActivePane_of_eq h hp heq]
  refine ⟨?_, hsm⟩
  rw [inFlight, hsm]
  rfl

theorem inFlight_focusEnter_of_ne (hn : a.next ≤ a.sm.eventTx.sent.length)
    (h : a.sm.tabAt a.gtk.activeIndex tabId = some tab) (hp : p ∈ tab.paneTree.leaves)
    (hne : tab.activePaneId ≠ some p) :
    (a.focusEnter tabId p).inFlight = a.inFlight ++ [echoOf (a.gtk.activeIndex, tabId, p)] ∧
      (a.focusEnter tabId p).next ≤ (a.focusEnter tabId p).sm.eventTx.sent.length := by
  have hsent : (a.focusEnter tabId p).sm.eventTx.sent =
      a.sm.eventTx.sent ++ [echoOf (a.gtk.activeIndex, tabId, p)] := by
    rw [focusEnter, setActivePane_of_ne h hp hne]
    rfl
  refine ⟨inFlight_append hn rfl hsent, ?_⟩
  rw [hsent, List.length_append]
  exact hn.trans (Nat.le_add_right _ _)

theorem consume_head (x : ℕ × Uuid × PaneId) (xs : List (ℕ × Uuid × PaneId)) :
    consumeActivePaneSelfEcho (x :: xs) x.1 x.2.1 (some x.2.2) = (xs, true) := if_pos rfl

theorem length_consume (pending : List (ℕ × Uuid × PaneId)) (idx : ℕ) (tabId : Uuid)
    (p : Option PaneId) :
    pending.length ≤ (consumeActivePaneSelfEcho pending idx tabId p).1.length + 1 := by
  unfold consumeActivePaneSelfEcho
  split
  · split_ifs
    · exact le_rfl
    · exact Nat.le_succ _
  · exact Nat.le_succ _

/-- An event of the queue's head takes the head away and moves no focus. -/
theorem onActivePaneChanged_head (x : ℕ × Uuid × PaneId) {xs : List (ℕ × Uuid × PaneId)}
    {mgr : WorkspaceManagerInner} (h : mgr.pendingActivePane = x :: xs) :
    mgr.handleLayoutEvent term (echoOf x) = { mgr with pendingActivePane := xs } := by
  show mgr.onActivePaneChanged x.1 x.2.1 (some x.2.2) = _
  simp only [WorkspaceManagerInner.onActivePaneChanged, h, consume_head, if_true]

theorem Echoing.drain (h : Echoing a) :
    Echoing (a.drain term) ∧ Consumes a .drain ∧
      (a.drain term).gtk.grabbed = a.gtk.grabbed := by
  cases hp : a.gtk.pendingActivePane with
  | nil =>
    have hnil : a.inFlight = [] := by rw [h.inFlight, hp, List.map_nil]
    rw [drain_of_nil hnil]
    refine ⟨h, fun _ idx tabId p es heq => ?_, rfl⟩
    rw [hnil] at heq
    cases heq
  | cons x xs =>
    have hcons : a.inFlight = echoOf x :: xs.map echoOf := by rw [h.inFlight, hp, List.map_cons]
    have hgtk : (a.drain term).gtk = { a.gtk with pendingActivePane := xs } := by
      rw [drain_of_cons hcons, onActivePaneChanged_head x hp]
    refine ⟨⟨next_drain_le h.next, ?_⟩, fun _ idx tabId p es heq => ?_, ?_⟩
    · rw [inFlight_drain, hcons, hgtk, List.tail_cons]
    · rw [hcons, List.cons.injEq, echoOf, SessionEvent.activePaneChanged.injEq] at heq
      obtain ⟨⟨rfl, rfl, rfl⟩, -⟩ := heq
      rw [hp, consumeActivePaneSelfEcho, if_pos rfl]
    · rw [hgtk]

theorem Echoing.focusEnter (h : Echoing a) (hl : FocusOnly a (.focusEnter tabId p))
    (hm : MovesFocus a (.focusEnter tabId p)) : Echoing (a.focusEnter tabId p) := by
  obtain ⟨tab, htab, hp⟩ := hl
  obtain ⟨hin, hnext⟩ := inFlight_focusEnter_of_ne h.next htab hp (hm tab htab)
  refine ⟨hnext, ?_⟩
  rw [hin, h.inFlight, focusEnter_pendingActivePane, List.map_append, List.map_singleton]

theorem Echoing.step (h : Echoing a) (hl : FocusOnly a i) (hm : MovesFocus a i) :
    Echoing (a.step w term i) ∧ Consumes a i ∧ (a.step w term i).gtk.grabbed = a.gtk.grabbed := by
  cases i with
  | focusEnter tabId p => exact ⟨h.focusEnter hl hm, nofun, rfl⟩
  | drain => exact h.drain
  | _ => exact hl.elim

theorem Echoing.settled (h : Echoing a) : Settled a := by
  intro hnil
  rw [h.inFlight] at hnil
  exact List.map_eq_nil_iff.mp hnil

/-- A focus change without an event puts the queue ahead of the stream. -/
theorem Echoing.ahead (h : Echoing a) (hl : FocusOnly a i) (hm : ¬MovesFocus a i) :
    Ahead (a.step w term i) := by
  cases i with
  | focusEnter tabId p =>
    obtain ⟨tab, htab, hp⟩ := hl
    have heq : tab.activePaneId = some p := by
      by_contra hne
      refine hm fun tab' htab' => ?_
      obtain rfl := Option.some.inj (htab.symm.trans htab')
      exact hne
    obtain ⟨hin, hsm⟩ := inFlight_focusEnter_of_eq htab hp heq
    constructor
    · rw [Attached.step, hsm]
      exact h.next
    · rw [Attached.step, hin, h.inFlight, focusEnter_pendingActivePane, List.length_map,
        List.length_append, List.length_singleton]
      omega
  | drain => exact absurd trivial hm
  | _ => exact hl.elim

/-- Handling an event takes one entry of the queue at most. -/
theorem length_pendingActivePane_handleLayoutEvent (e : SessionEvent)
    (mgr : WorkspaceManagerInner) : mgr.pendingActivePane.length ≤
      (mgr.handleLayoutEvent term e).pendingActivePane.length + 1 := by
  have hsame : ∀ {m : WorkspaceManagerInner}, m.pendingActivePane = mgr.pendingActivePane →
      mgr.pendingActivePane.length ≤ m.pendingActivePane.length + 1 := by
    intro m hm
    rw [hm]
    exact Nat.le_succ _
  cases e with
  | activePaneChanged idx tabId p =>
    refine (length_consume mgr.pendingActivePane idx tabId p).trans (le_of_eq ?_)
    simp only [WorkspaceManagerInner.handleLayoutEvent, WorkspaceManagerInner.onActivePaneChanged]
    split_ifs
    · rfl
    · split <;> rfl
  | tabCreated idx tabId p =>
    apply hsame
    simp only [WorkspaceManagerInner.handleLayoutEvent, WorkspaceManagerInner.onTabCreated]
    split
    · rfl
    · split_ifs <;> rfl
  | workspaceRenamed idx id name =>
    apply hsame
    simp only [WorkspaceManagerInner.handleLayoutEvent, WorkspaceManagerInner.onWorkspaceRenamed]
    split
    · rfl
    · split_ifs <;> rfl
  | workspaceDeleted idx id =>
    apply hsame
    simp only [WorkspaceManagerInner.handleLayoutEvent, WorkspaceManagerInner.onWorkspaceDeleted]
    split <;> rfl
  | workspaceColorChanged idx id color =>
    apply hsame
    simp only [WorkspaceManagerInner.handleLayoutEvent,
      WorkspaceManagerInner.onWorkspaceColorChanged]
    split
    · rfl
    · split_ifs <;> rfl
  | workspacesReordered i j u v =>
    apply hsame
    simp only [WorkspaceManagerInner.handleLayoutEvent,
      WorkspaceManagerInner.onWorkspacesReordered]
    split_ifs <;> rfl
  | _ => exact hsame rfl

/-- The queue stays ahead: no step takes more from it than from the stream. -/
theorem Ahead.step (h : Ahead a) (hl : FocusOnly a i) : Ahead (a.step w term i) := by
  have hlt := h.longer
  cases i with
  | focusEnter tabId p =>
    obtain ⟨tab, htab, hp⟩ := hl
    by_cases heq : tab.activePaneId = some p
    · obtain ⟨hin, hsm⟩ := inFlight_focusEnter_of_eq htab hp heq
      constructor
      · rw [Attached.step, hsm]
        exact h.next
      · rw [Attached.step, hin, focusEnter_pendingActivePane, List.length_append]
        omega
    · obtain ⟨hin, hnext⟩ := inFlight_focusEnter_of_ne h.next htab hp heq
      refine ⟨hnext, ?_⟩
      rw [Attached.step, hin, focusEnter_pendingActivePane, List.length_append, List.length_append,
        List.length_singleton, List.length_singleton]
      omega
  | drain =>
    refine ⟨next_drain_le h.next, ?_⟩
    rw [Attached.step, inFlight_drain]
    cases hin : a.inFlight with
    | nil =>
      rw [drain_of_nil hin, List.tail_nil, List.length_nil]
      omega
    | cons e es =>
      have htaken := @length_pendingActivePane_handleLayoutEvent term e a.gtk
      rw [hin, List.length_cons] at hlt
      rw [drain_of_cons hin, List.tail_cons]
      show es.length < (a.gtk.handleLayoutEvent term e).pendingActivePane.length
      omega
  | _ => exact hl.elim

theorem Ahead.not_settled (h : Ahead a) (hnil : a.inFlight = []) : ¬Settled a := by
  intro hs
  have hlt := h.longer
  rw [hs hnil, List.length_nil] at hlt
  omega

end Steps

/-- What the echo guard is meant to ensure along a run, and along it when the rest
of the events is handled in the end. -/
def OwnFocusQuiet (w : World) (term : Terminals) (a : Attached) (is : List Action) : Prop :=
  Meets (step w term) Consumes a is ∧
    Along (step w term) (fun b => b.gtk.grabbed = a.gtk.grabbed ∧ Settled b) a is

theorem focusOnly_drains (w : World) (term : Terminals) (a : Attached) (n : ℕ) :
    Meets (Attached.step w term) FocusOnly a (List.replicate n .drain) := by
  induction n generalizing a with
  | zero => trivial
  | succ n ih => exact ⟨trivial, ih _⟩

theorem movesFocus_drains (w : World) (term : Terminals) (a : Attached) (n : ℕ) :
    Meets (Attached.step w term) MovesFocus a (List.replicate n .drain) := by
  induction n generalizing a with
  | zero => trivial
  | succ n ih => exact ⟨trivial, ih _⟩

/-- Focus changes that the daemon answers are never replayed. -/
theorem Echoing.ownFocusQuiet {w : World} {term : Terminals} {a : Attached} {is : List Action}
    (h : Echoing a) (hl : Meets (Attached.step w term) FocusOnly a is)
    (hm : Meets (Attached.step w term) MovesFocus a is) : OwnFocusQuiet w term a is := by
  have hJ := meets_and.mpr ⟨hl, hm⟩
  constructor
  · exact meets_of_invariant (fun b i hb hi => (hb.step hi.1 hi.2).1)
      (fun b i hb hi => (@Echoing.step w term b i hb hi.1 hi.2).2.1) h hJ
  · exact along_of_invariant (I := fun b => Echoing b ∧ b.gtk.grabbed = a.gtk.grabbed)
      (fun b i hb hi => ⟨(hb.1.step hi.1 hi.2).1, (hb.1.step hi.1 hi.2).2.2.trans hb.2⟩)
      (fun b hb => ⟨hb.2, hb.1.settled⟩) ⟨h, rfl⟩ hJ

/-- A queue that is ahead is still so when every event was handled. -/
theorem Ahead.not_settled_drained {w : World} {term : Terminals} {a : Attached}
    {is : List Action} (h : Ahead a) (hl : Meets (Attached.step w term) FocusOnly a is) :
    ∃ n, ¬Settled (run (Attached.step w term) a (is ++ List.replicate n .drain)) := by
  set n := (run (Attached.step w term) a is).inFlight.length with hn
  refine ⟨n, ?_⟩
  have hdom : Meets (Attached.step w term) FocusOnly a (is ++ List.replicate n .drain) :=
    meets_append.mpr ⟨hl, focusOnly_drains w term _ n⟩
  have hlast : Ahead (run (Attached.step w term) a (is ++ List.replicate n .drain)) :=
    (along_of_invariant (fun _ _ hb hi => hb.step hi) (fun _ hb => hb) h hdom).last
  apply hlast.not_settled
  rw [run_append, inFlight_run_drain, hn, List.drop_length]

/-- A queue that is empty whenever the stream is has not gained an entry too many. -/
theorem Echoing.movesFocus {w : World} {term : Terminals} {a : Attached} {is : List Action}
    (h : Echoing a) (hl : Meets (Attached.step w term) FocusOnly a is)
    (hs : ∀ n, Settled (run (Attached.step w term) a (is ++ List.replicate n .drain))) :
    Meets (Attached.step w term) MovesFocus a is := by
  induction is generalizing a with
  | nil => trivial
  | cons i is ih =>
    have hm : MovesFocus a i := by
      by_contra hm
      obtain ⟨n, hn⟩ := (@Echoing.ahead w term a i h hl.1 hm).not_settled_drained hl.2
      exact hn (hs n)
    exact ⟨hm, ih (h.step hl.1 hm).1 hl.2 hs⟩

/-- Own focus changes stay quiet, however many events are handled after the run,
exactly if every one of them moves the focus of its tab. -/
theorem ownFocusQuiet_iff (w : World) (term : Terminals) (a : Attached) (is : List Action)
    (hnext : a.next = a.sm.eventTx.sent.length) (hpending : a.gtk.pendingActivePane = [])
    (hl : Meets (step w term) FocusOnly a is) :
    (∀ n, OwnFocusQuiet w term a (is ++ List.replicate n .drain)) ↔
      Meets (step w term) MovesFocus a is := by
  have h : Echoing a := ⟨hnext.le, by rw [inFlight_of_next_eq hnext, hpending, List.map_nil]⟩
  constructor
  · exact fun hq => h.movesFocus hl fun n => (hq n).2.last.2
  · intro hm n
    exact h.ownFocusQuiet (meets_append.mpr ⟨hl, focusOnly_drains w term _ n⟩)
      (meets_append.mpr ⟨hm, movesFocus_drains w term _ n⟩)

/-- The only pane of a tab gets the focus, loses it to another window, and gets it
again. -/
def refocus : List Action := [.focusEnter ⟨2⟩ ⟨⟨1⟩⟩, .focusEnter ⟨2⟩ ⟨⟨1⟩⟩, .drain]

theorem focusOnly_refocus :
    Meets (step .counting .all) FocusOnly (attach .all ⟨100⟩ twoTabs) refocus :=
  ⟨⟨_, rfl, by decide⟩, ⟨_, rfl, by decide⟩, trivial, trivial⟩

theorem not_ownFocusQuiet_refocus :
    Meets (step .counting .all) FocusOnly (attach .all ⟨100⟩ twoTabs) refocus ∧
      ¬OwnFocusQuiet .counting .all (attach .all ⟨100⟩ twoTabs) refocus := by
  refine ⟨focusOnly_refocus, fun h => ?_⟩
  have hs : Settled (run (step .counting .all) (attach .all ⟨100⟩ twoTabs) refocus) :=
    h.2.last.2
  have hnil : (run (step .counting .all) (attach .all ⟨100⟩ twoTabs) refocus).inFlight = [] := rfl
  exact absurd (hs hnil) (by decide)

/-- The first focus of the pane alone is quiet. -/
theorem ownFocusQuiet_focus :
    OwnFocusQuiet .counting .all (attach .all ⟨100⟩ twoTabs) [.focusEnter ⟨2⟩ ⟨⟨1⟩⟩, .drain] := by
  have hmoves : Meets (step .counting .all) MovesFocus (attach .all ⟨100⟩ twoTabs)
      [.focusEnter ⟨2⟩ ⟨⟨1⟩⟩] := by
    refine ⟨fun tab htab => ?_, trivial⟩
    obtain rfl := Option.some.inj htab
    decide
  exact (ownFocusQuiet_iff .counting .all (attach .all ⟨100⟩ twoTabs) [.focusEnter ⟨2⟩ ⟨⟨1⟩⟩]
    rfl rfl ⟨⟨_, rfl, by decide⟩, trivial⟩).mpr hmoves 1

end Attached

end Forgetty
