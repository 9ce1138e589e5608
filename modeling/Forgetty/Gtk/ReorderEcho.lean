import Forgetty.Gtk.Rebuild
import Forgetty.Lib.Echo
import Forgetty.Session.WorkspaceCalls

/-! Moves of one window among the moves of other clients. The window exchanges two
workspaces when the daemon has accepted the call, and so before the exchanges of
others that are still in flight; the daemon did them in the other order. -/

namespace Forgetty

open Lib SessionManager

/-- A queue entry and an event exchange the same two places. -/
def SameExchange (head event : ℕ × ℕ) : Prop := head = event ∨ head = (event.2, event.1)

instance : DecidableRel SameExchange := fun head event =>
  inferInstanceAs (Decidable (head = event ∨ head = (event.2, event.1)))

theorem SameExchange.swapIdx_eq {α : Type*} {p q : ℕ × ℕ} (h : SameExchange p q) (as : List α) :
    swapIdx as p.1 p.2 = swapIdx as q.1 q.2 := by
  rcases h with rfl | rfl
  · rfl
  · exact swapIdx_comm as q.2 q.1

/-- An exchange within bounds is dropped with the head of the queue, or carried out. -/
theorem onWorkspacesReordered_cases {mgr : WorkspaceManagerInner} {i j : ℕ}
    (hi : i < mgr.workspaces.length) (hj : j < mgr.workspaces.length) :
    (∃ q qs, mgr.pendingReorders = q :: qs ∧ SameExchange q (i, j) ∧
        mgr.onWorkspacesReordered i j = { mgr with pendingReorders := qs }) ∨
      ((∀ q ∈ mgr.pendingReorders.head?, ¬SameExchange q (i, j)) ∧
        mgr.onWorkspacesReordered i j = mgr.swap i j) := by
  have hbounds : ¬(mgr.workspaces.length ≤ i ∨ mgr.workspaces.length ≤ j) := by omega
  rw [WorkspaceManagerInner.onWorkspacesReordered, if_neg hbounds]
  cases hq : mgr.pendingReorders with
  | nil =>
    right
    refine ⟨nofun, ?_⟩
    simp only [consumeReorderSelfEcho, ← hq]
    rfl
  | cons q qs =>
    by_cases hs : SameExchange q (i, j)
    · left
      have hecho : consumeReorderSelfEcho (q :: qs) i j = (qs, true) := if_pos hs
      refine ⟨q, qs, rfl, hs, ?_⟩
      rw [hecho]
      rfl
    · right
      have hecho : consumeReorderSelfEcho (q :: qs) i j = (q :: qs, false) := if_neg hs
      refine ⟨fun q' hq' => Option.some.inj hq' ▸ hs, ?_⟩
      rw [hecho, ← hq]
      rfl

/-- The exchange an event reports. -/
def SessionEvent.exchange : SessionEvent → Option (ℕ × ℕ)
  | .workspacesReordered i j _ _ => some (i, j)
  | _ => none

namespace Attached

/-- The exchanges in flight. -/
def exchanges (a : Attached) : List (ℕ × ℕ) := a.inFlight.filterMap SessionEvent.exchange

/-- The id of the active workspace of the window. -/
def activeId (a : Attached) : Option Uuid := (a.gtk.workspaces[a.gtk.activeIndex]?).map (·.id)

/-- The steps considered. -/
def IsReorder : Action → Prop
  | .moveUp _ | .moveDown _ | .elsewhere (.moveWorkspace _ _) | .drain => True
  | _ => False

/-- The exchange an action of the window makes. -/
def localExchange (a : Attached) : Action → Option (ℕ × ℕ)
  | .moveUp idx => if idx = 0 ∨ a.gtk.workspaces.length ≤ idx then none else some (idx, idx - 1)
  | .moveDown idx => if a.gtk.workspaces.length ≤ idx + 1 then none else some (idx, idx + 1)
  | _ => none

/-- A local exchange comes to the same before and after the exchanges that the window
carries out until it drops the echo. -/
def Commutes (a : Attached) (i : Action) : Prop :=
  ∀ p ∈ a.localExchange i,
    let before := carriedBefore SameExchange (a.gtk.pendingReorders ++ [p]) a.exchanges
    swapIdx (swapAll a.viewIds before) p.1 p.2 = swapAll (swapIdx a.viewIds p.1 p.2) before

/-- Once the rest of the events is handled the orders agree, and `id` is the id of the
active workspace. -/
def OrderConverges (w : World) (term : Terminals) (id : Option Uuid) (a : Attached) : Prop :=
  ∀ n, (run (step w term) a (List.replicate n .drain)).inFlight = [] →
    (run (step w term) a (List.replicate n .drain)).viewIds =
        (run (step w term) a (List.replicate n .drain)).layoutIds ∧
      (run (step w term) a (List.replicate n .drain)).activeId = id

/-- The daemon's order is the one the window comes to with what is in flight. -/
def OnCourse (a : Attached) : Prop :=
  a.layoutIds = swapAll a.viewIds (residual SameExchange a.gtk.pendingReorders a.exchanges)

structure Reordering (id : Option Uuid) (a : Attached) : Prop where
  next : a.next ≤ a.sm.eventTx.sent.length
  length : a.gtk.workspaces.length = a.sm.layout.workspaces.length
  events : ∀ e ∈ a.inFlight, ∃ i j u v, e = .workspacesReordered i j u v ∧
    i < a.gtk.workspaces.length ∧ j < a.gtk.workspaces.length
  answered : Answered SameExchange a.gtk.pendingReorders a.exchanges
  active : a.activeId = id

section Steps

variable {w : World} {term : Terminals} {id : Option Uuid} {a b : Attached} {i j : ℕ}

theorem exchanges_append {u v : Uuid} (h : b.inFlight = a.inFlight ++ [.workspacesReordered i j u v]) :
    b.exchanges = a.exchanges ++ [(i, j)] := by
  rw [exchanges, h, List.filterMap_append]
  rfl

theorem exchanges_drain (es : List SessionEvent) {u v : Uuid}
    (h : a.inFlight = .workspacesReordered i j u v :: es) :
    a.exchanges = (i, j) :: (a.drain term).exchanges := by
  rw [exchanges, exchanges, inFlight_drain, h]
  rfl

/-- A call of another client comes behind what is in flight. -/
theorem Reordering.elsewhere (h : Reordering id a) (i j : ℕ) :
    Reordering id (a.step w term (.elsewhere (.moveWorkspace i j))) ∧
      (OnCourse a → OnCourse (a.step w term (.elsewhere (.moveWorkspace i j)))) := by
  set b := a.step w term (.elsewhere (.moveWorkspace i j)) with hb
  have hsm : b.sm = (a.sm.moveWorkspace i j).1 := rfl
  by_cases hij : i < a.sm.layout.workspaces.length ∧ j < a.sm.layout.workspaces.length ∧ i ≠ j
  · obtain ⟨hi, hj, hne⟩ := hij
    have heq := moveWorkspace_of_ne (List.getElem?_eq_getElem hi) (List.getElem?_eq_getElem hj) hne
    rw [heq] at hsm
    have hsent : b.sm.eventTx.sent = a.sm.eventTx.sent ++ [.workspacesReordered i j
        a.sm.layout.workspaces[i].id a.sm.layout.workspaces[j].id] := by rw [hsm]; rfl
    have hin := @inFlight_append a _ b h.next rfl hsent
    have hex := exchanges_append hin
    have hids : b.layoutIds = swapIdx a.layoutIds i j := by
      rw [layoutIds, hsm]
      exact map_swapIdx _ _ i j
    refine ⟨⟨?_, ?_, ?_, ?_, h.active⟩, fun hc => ?_⟩
    · exact next_le_append h.next rfl hsent
    · rw [hsm]
      exact h.length.trans (length_swapIdx _ i j).symm
    · intro e he
      rw [hin] at he
      rcases List.mem_append.mp he with he | he
      · exact h.events e he
      · rw [← h.length] at hi hj
        exact ⟨i, j, _, _, List.mem_singleton.mp he, hi, hj⟩
    · rw [hex]
      exact h.answered.append_right [(i, j)]
    · rw [OnCourse, hids, hex]
      show _ = swapAll a.viewIds (residual SameExchange a.gtk.pendingReorders _)
      rw [residual_append h.answered, swapAll_append, ← hc]
      rfl
  · have hself : b = a := by
      rw [hb, step, SessionManager.apply, Op.exec, moveWorkspace_eq_self hij]
    rw [hself]
    exact ⟨h, fun hc => hc⟩

/-- An accepted exchange of the window. -/
theorem Reordering.moveWorkspace (h : Reordering id a) (hi : i < a.gtk.workspaces.length)
    (hj : j < a.gtk.workspaces.length) (hne : i ≠ j) :
    Reordering id (a.moveWorkspace i j) ∧ (OnCourse a → (OnCourse (a.moveWorkspace i j) ↔
      swapIdx (swapAll a.viewIds
          (carriedBefore SameExchange (a.gtk.pendingReorders ++ [(i, j)]) a.exchanges)) i j =
        swapAll (swapIdx a.viewIds i j)
          (carriedBefore SameExchange (a.gtk.pendingReorders ++ [(i, j)]) a.exchanges))) := by
  have hi' := h.length ▸ hi
  have hj' := h.length ▸ hj
  have heq := moveWorkspace_of_ne (List.getElem?_eq_getElem hi') (List.getElem?_eq_getElem hj') hne
  set b := a.moveWorkspace i j with hb
  rw [Attached.moveWorkspace, call, heq] at hb
  have hsent : b.sm.eventTx.sent = a.sm.eventTx.sent ++ [.workspacesReordered i j
      a.sm.layout.workspaces[i].id a.sm.layout.workspaces[j].id] := by rw [hb]; rfl
  have hnext : b.next = a.next := by rw [hb]
  have hin := inFlight_append h.next hnext hsent
  have hex := exchanges_append hin
  have hpending : b.gtk.pendingReorders = a.gtk.pendingReorders ++ [(i, j)] := by rw [hb]
  have hviews : b.viewIds = swapIdx a.viewIds i j := by
    rw [hb]
    exact map_swapIdx _ _ i j
  have hids : b.layoutIds = swapIdx a.layoutIds i j := by
    rw [hb]
    exact map_swapIdx _ _ i j
  have hlen : b.gtk.workspaces.length = a.gtk.workspaces.length := by
    rw [hb]
    exact length_swapIdx _ i j
  refine ⟨⟨next_le_append h.next hnext hsent, ?_, ?_, ?_, ?_⟩, fun hc => ?_⟩
  · rw [hlen, hb]
    exact h.length.trans (length_swapIdx _ i j).symm
  · intro e he
    rw [hin] at he
    rw [hlen]
    rcases List.mem_append.mp he with he | he
    · exact h.events e he
    · exact ⟨i, j, _, _, List.mem_singleton.mp he, hi, hj⟩
  · rw [hpending, hex]
    exact h.answered.snoc (Or.inl rfl)
  · have hget : b.gtk.workspaces[b.gtk.activeIndex]? = a.gtk.workspaces[a.gtk.activeIndex]? := by
      rw [hb]
      exact getElem?_swapIdx_follow hi hj _
    rw [activeId, hget]
    exact h.active
  · rw [OnCourse, hpending, hex, hviews, hids, hc]
    exact @residual_snoc_iff _ _ SameExchange _ (fun as p => swapIdx as p.1 p.2) _ _ (i, j)
      h.answered (Or.inl rfl) (fun p => swapIdx_injective p.1 p.2)
      (fun p as hp => hp.swapIdx_eq as) a.viewIds

/-- The echo of the queue's head is dropped, any other exchange is carried out. -/
theorem Reordering.drain (h : Reordering id a) :
    Reordering id (a.drain term) ∧ (OnCourse (a.drain term) ↔ OnCourse a) := by
  cases hin : a.inFlight with
  | nil =>
    rw [drain_of_nil hin]
    exact ⟨h, Iff.rfl⟩
  | cons e es =>
    obtain ⟨i, j, u, v, rfl, hi, hj⟩ := h.events e (by rw [hin]; exact List.mem_cons_self)
    have hex := @exchanges_drain term a i j es u v hin
    set b := a.drain term with hb
    have hgtk : b.gtk = a.gtk.onWorkspacesReordered i j := by
      rw [hb, drain_of_cons hin]
      rfl
    have hsm : b.sm = a.sm := sm_drain a
    have hnext : b.next ≤ b.sm.eventTx.sent.length := next_drain_le h.next
    have hids : b.layoutIds = a.layoutIds := by rw [layoutIds, hsm, layoutIds]
    have hevents : ∀ e ∈ b.inFlight, ∃ i j u v, e = .workspacesReordered i j u v ∧
        i < a.gtk.workspaces.length ∧ j < a.gtk.workspaces.length := by
      intro e he
      rw [hb, inFlight_drain] at he
      exact h.events e (List.mem_of_mem_tail he)
    rcases onWorkspacesReordered_cases hi hj with ⟨q, qs, hq, hs, heq⟩ | ⟨hne, heq⟩
    · rw [heq] at hgtk
      have hans := h.answered
      rw [hq, hex] at hans
      refine ⟨⟨hnext, ?_, ?_, ?_, ?_⟩, ?_⟩
      · rw [hgtk, hsm]
        exact h.length
      · rw [hgtk]
        exact hevents
      · rw [hgtk]
        exact hans.drop
      · rw [activeId, hgtk]
        exact h.active
      · rw [OnCourse, OnCourse, hids, hq, hex, residual_cons_of_same hs, viewIds, hgtk]
        rfl
    · rw [heq] at hgtk
      have hans := h.answered
      rw [hex] at hans
      have hlen : b.gtk.workspaces.length = a.gtk.workspaces.length := by
        rw [hgtk]
        exact length_swapIdx _ i j
      refine ⟨⟨hnext, ?_, ?_, ?_, ?_⟩, ?_⟩
      · rw [hlen, hsm]
        exact h.length
      · rw [hlen]
        exact hevents
      · rw [hgtk]
        exact hans.keep hne
      · have hget : b.gtk.workspaces[b.gtk.activeIndex]? = a.gtk.workspaces[a.gtk.activeIndex]? := by
          rw [hgtk]
          exact getElem?_swapIdx_follow hi hj _
        rw [activeId, hget]
        exact h.active
      · have hviews : b.viewIds = swapIdx a.viewIds i j := by
          rw [viewIds, hgtk]
          exact map_swapIdx _ _ i j
        rw [OnCourse, OnCourse, hids, hex, residual_cons_of_not hne, hviews, hgtk]
        rfl

/-- An own exchange keeps the window on course exactly if it commutes. -/
theorem Reordering.local (h : Reordering id a) {action : Action} {refused : Prop}
    [Decidable refused] {i j : ℕ}
    (hexchange : a.localExchange action = if refused then none else some (i, j))
    (hrefused : refused → a.step w term action = a)
    (hmoved : ¬refused → a.step w term action = a.moveWorkspace i j ∧
      i < a.gtk.workspaces.length ∧ j < a.gtk.workspaces.length ∧ i ≠ j) :
    Reordering id (a.step w term action) ∧
      (OnCourse a → (OnCourse (a.step w term action) ↔ Commutes a action)) := by
  by_cases hr : refused
  · rw [hrefused hr]
    refine ⟨h, fun hc => ⟨fun _ p hmem => ?_, fun _ => hc⟩⟩
    rw [hexchange, if_pos hr] at hmem
    cases hmem
  · have hp : a.localExchange action = some (i, j) := by rw [hexchange, if_neg hr]
    obtain ⟨hstep, hi, hj, hne⟩ := hmoved hr
    obtain ⟨hr, hc⟩ := h.moveWorkspace hi hj hne
    rw [hstep]
    refine ⟨hr, fun hon => (hc hon).trans ⟨fun heq p hmem => ?_, fun hcomm => ?_⟩⟩
    · rw [hp] at hmem
      obtain rfl := Option.some.inj hmem
      exact heq
    · exact hcomm (i, j) hp

theorem Reordering.step (h : Reordering id a) {action : Action} (hi : IsReorder action) :
    Reordering id (a.step w term action) ∧
      (OnCourse a → (OnCourse (a.step w term action) ↔ Commutes a action)) := by
  cases action with
  | moveUp idx =>
    apply h.local rfl
    · intro hc
      exact if_pos hc
    · intro hc
      exact ⟨if_neg hc, by omega, by omega, by omega⟩
  | moveDown idx =>
    apply h.local rfl
    · intro hc
      exact if_pos hc
    · intro hc
      exact ⟨if_neg hc, by omega, by omega, by omega⟩
  | elsewhere op =>
    cases op with
    | moveWorkspace i j =>
      obtain ⟨hr, hc⟩ := @Reordering.elsewhere w term id a h i j
      exact ⟨hr, fun hon => ⟨fun _ _ hmem => (nomatch hmem), fun _ => hc hon⟩⟩
    | _ => exact hi.elim
  | drain =>
    obtain ⟨hr, hc⟩ := @Reordering.drain term id a h
    exact ⟨hr, fun hon => ⟨fun _ _ hmem => (nomatch hmem), fun _ => hc.mpr hon⟩⟩
  | _ => exact hi.elim

theorem Reordering.run_drain (h : Reordering id a) (n : ℕ) :
    Reordering id (run (Attached.step w term) a (List.replicate n .drain)) ∧
      (OnCourse (run (Attached.step w term) a (List.replicate n .drain)) ↔ OnCourse a) := by
  induction n generalizing a with
  | zero => exact ⟨h, Iff.rfl⟩
  | succ n ih =>
    obtain ⟨hr, hc⟩ := @Reordering.drain term id a h
    obtain ⟨hr', hc'⟩ := ih hr
    exact ⟨hr', hc'.trans hc⟩

/-- With nothing in flight the window is on course when the orders agree. -/
theorem Reordering.onCourse_iff (h : Reordering id a) (hnil : a.inFlight = []) :
    OnCourse a ↔ a.viewIds = a.layoutIds := by
  have hex : a.exchanges = [] := by rw [exchanges, hnil, List.filterMap_nil]
  have hq : a.gtk.pendingReorders = [] := by
    have hans := h.answered
    rw [hex] at hans
    cases hq : a.gtk.pendingReorders with
    | nil => rfl
    | cons q qs =>
      rw [hq] at hans
      exact (not_answered_nil hans).elim
  rw [OnCourse, hq, hex, residual_nil, swapAll_nil]
  exact eq_comm

theorem Reordering.converges_iff (h : Reordering id a) :
    OrderConverges w term id a ↔ OnCourse a := by
  constructor
  · intro hconv
    have hnil : (run (Attached.step w term) a (List.replicate a.inFlight.length .drain)).inFlight =
        [] := by rw [inFlight_run_drain, List.drop_length]
    obtain ⟨hr, hc⟩ := @Reordering.run_drain w term id a h a.inFlight.length
    exact hc.mp ((hr.onCourse_iff hnil).mpr (hconv _ hnil).1)
  · intro hon n hnil
    obtain ⟨hr, hc⟩ := @Reordering.run_drain w term id a h n
    exact ⟨(hr.onCourse_iff hnil).mp (hc.mpr hon), hr.active⟩

end Steps

/-- The orders converge in every state of a run exactly if every own exchange commutes
with the exchanges of others that the window carries out before its echo. -/
theorem orderConverges_along_iff (w : World) (term : Terminals) (a : Attached) (is : List Action)
    (hids : a.viewIds = a.layoutIds) (hnext : a.next = a.sm.eventTx.sent.length)
    (hpending : a.gtk.pendingReorders = []) (hr : ∀ i ∈ is, IsReorder i) :
    Along (step w term) (OrderConverges w term a.activeId) a is ↔
      Meets (step w term) Commutes a is := by
  have hnil := inFlight_of_next_eq hnext
  have h0 : Reordering a.activeId a := by
    refine ⟨hnext.le, ?_, ?_, ?_, rfl⟩
    · simpa [viewIds, layoutIds] using congrArg List.length hids
    · rw [hnil]
      exact nofun
    · rw [hpending]
      exact answered_nil _
  refine along_iff_meets_of (J := fun _ i => IsReorder i)
    (fun b i hb _ hi _ => (hb.step hi).1) (fun b i hb hp hi => ?_) h0
    (h0.converges_iff.mpr ((h0.onCourse_iff hnil).mpr hids)) (meets_of_mem hr)
  obtain ⟨hb', hc⟩ := @Reordering.step w term _ b hb i hi
  exact hb'.converges_iff.trans (hc (hb.converges_iff.mp hp))

/-- Three workspaces with a tab each. -/
def threeTabs : SessionManager :=
  (twoTabs.apply .counting (.createWorkspace "third")).apply .counting
    (.createTab 2 none .default none)

/-- Another client exchanges the first two workspaces, and before the event of that is
handled the window moves the second one down. -/
def crossedMoves : List Action := [.elsewhere (.moveWorkspace 0 1), .moveDown 1, .drain, .drain]

theorem not_orderConverges_crossedMoves :
    (attach .all ⟨100⟩ threeTabs).viewIds = (attach .all ⟨100⟩ threeTabs).layoutIds ∧
      (∀ i ∈ crossedMoves, IsReorder i) ∧
      ¬Along (step .counting .all)
        (OrderConverges .counting .all (attach .all ⟨100⟩ threeTabs).activeId)
        (attach .all ⟨100⟩ threeTabs) crossedMoves := by
  refine ⟨by decide, by simp [crossedMoves, IsReorder], fun h => ?_⟩
  have hlast := h.last 0
  rw [List.replicate_zero, run_nil] at hlast
  exact absurd (hlast rfl).1 (by decide)

/-- A move among moves of others that the window has handled. -/
theorem orderConverges_handledMoves :
    Along (step .counting .all)
      (OrderConverges .counting .all (attach .all ⟨100⟩ threeTabs).activeId)
      (attach .all ⟨100⟩ threeTabs)
      [.elsewhere (.moveWorkspace 0 1), .drain, .moveDown 1, .drain] := by
  refine (orderConverges_along_iff .counting .all (attach .all ⟨100⟩ threeTabs) _
    (by decide) rfl rfl (by simp [IsReorder])).mpr ⟨nofun, nofun, fun p hp => ?_, nofun, trivial⟩
  obtain rfl := Option.some.inj hp
  decide

end Attached

end Forgetty
