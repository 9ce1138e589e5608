import Forgetty.Session.Effect

/-! The registry, the creation order and the layout name the same panes. Every
operation keeps this except one: closing a pane that is a leaf of a split takes
the pane out of the registry and leaves its leaf in the tree. A run is coherent
throughout exactly if it never does that. What every run keeps, such closes
included, is `Tracked`: the leaves stay distinct and cover the live panes. -/

namespace Forgetty

open Lib

namespace SessionManager

/-- Every leaf is live, every live pane is exactly one leaf, and the creation
order lists every live pane once. -/
structure Coherent (s : SessionManager) : Prop where
  leaf_live : ∀ p ∈ s.layout.leaves, p ∈ s.panes
  live_once : ∀ p ∈ s.panes, s.layout.leaves.count p = 1
  order_nodup : s.paneOrder.Nodup
  order_live : ∀ p, p ∈ s.paneOrder ↔ p ∈ s.panes

/-- What holds in every state of every run: the leaves are distinct, every live
pane is one of them, the creation order lists the live panes once, no UUID still
to be handed out is the id of a leaf, and a workspace is left. -/
structure Tracked (w : World) (s : SessionManager) : Prop where
  leaves_nodup : s.layout.leaves.Nodup
  live_leaf : ∀ p ∈ s.panes, p ∈ s.layout.leaves
  order_nodup : s.paneOrder.Nodup
  order_live : ∀ p, p ∈ s.paneOrder ↔ p ∈ s.panes
  fresh : ∀ n, s.minted ≤ n → ⟨w.newV4 n⟩ ∉ s.layout.leaves
  workspaces : s.layout.workspaces ≠ []

section Step

variable {w : World} {s t : SessionManager}

/-- A tracked state is coherent if its leaves are live. -/
theorem Tracked.coherent (h : Tracked w s) (live : ∀ p ∈ s.layout.leaves, p ∈ s.panes) :
    Coherent s where
  leaf_live := live
  live_once p hp := List.count_eq_one_of_mem h.leaves_nodup (h.live_leaf p hp)
  order_nodup := h.order_nodup
  order_live := h.order_live

theorem tracked_new (w : World) (logs : PMap Uuid Bytes) : Tracked w (new w logs) where
  leaves_nodup := List.nodup_nil
  live_leaf p hp := absurd hp (PMap.not_mem_empty p)
  order_nodup := List.nodup_nil
  order_live p := by simp [new]
  fresh _ _ := List.not_mem_nil
  workspaces := by simp [new, SessionLayout.newDefault]

theorem coherent_new (w : World) (logs : PMap Uuid Bytes) : Coherent (new w logs) :=
  (tracked_new w logs).coherent fun _ h => absurd h List.not_mem_nil

theorem Tracked.fresh_panes (h : Tracked w s) {n : ℕ} (hn : s.minted ≤ n) :
    (⟨w.newV4 n⟩ : PaneId) ∉ s.panes := fun hp => h.fresh n hn (h.live_leaf _ hp)

theorem Tracked.fresh_order (h : Tracked w s) {n : ℕ} (hn : s.minted ≤ n) :
    (⟨w.newV4 n⟩ : PaneId) ∉ s.paneOrder := fun hp => h.fresh_panes hn ((h.order_live _).mp hp)

/-- What leaves and comes everywhere at once keeps the state tracked, when what comes was
not there and will not be handed out again. -/
theorem Tracked.effect_of_new (h : Tracked w s) {gone new : List PaneId}
    (he : Effect gone new s t) (hd : new.Nodup) (hnew : ∀ p ∈ new, p ∉ s.layout.leaves)
    (hold : ∀ p ∈ new, ∀ n, t.minted ≤ n → p ≠ ⟨w.newV4 n⟩) : Tracked w t := by
  refine ⟨?_, fun p hp => ?_, ?_, fun p => ?_, fun n hn hp => ?_, he.workspaces h.workspaces⟩
  · rw [he.leaves.nodup_iff, List.nodup_append]
    refine ⟨h.leaves_nodup.filter _, hd, fun p hp q hq heq => hnew q hq ?_⟩
    exact heq ▸ List.mem_of_mem_filter hp
  · rw [he.leaves.mem_iff, List.mem_append, List.mem_filter]
    rcases (he.keys p).mp hp with ⟨hp, hg⟩ | hp
    · exact Or.inl ⟨h.live_leaf p hp, by simpa using hg⟩
    · exact Or.inr hp
  · rw [he.order, List.nodup_append]
    refine ⟨h.order_nodup.filter _, hd, fun p hp q hq heq => hnew q hq (h.live_leaf q ?_)⟩
    rw [← heq, ← h.order_live]
    exact List.mem_of_mem_filter hp
  · rw [he.order, he.keys, List.mem_append, List.mem_filter, h.order_live]
    simp
  · rw [he.leaves.mem_iff, List.mem_append, List.mem_filter] at hp
    rcases hp with ⟨hp, -⟩ | hp
    · exact h.fresh n (he.minted.trans hn) hp
    · exact hold _ hp n hn rfl

/-- What comes carries ids handed out in between. -/
theorem Tracked.effect (hw : Function.Injective w.newV4) (h : Tracked w s)
    {gone new : List PaneId} (he : Effect gone new s t) (hm : Minted w new s t) : Tracked w t := by
  refine h.effect_of_new he hm.1 (fun p hp => ?_) fun p hp n hn heq => ?_
  · obtain ⟨n, hn, -, rfl⟩ := hm.2 p hp
    exact h.fresh n hn
  · obtain ⟨k, -, hk, rfl⟩ := hm.2 p hp
    have := hw (PaneId.mk.inj heq)
    omega

/-- What leaves and comes everywhere at once keeps the leaves live. -/
theorem Coherent.leaf_live_effect (h : Coherent s) {gone new : List PaneId}
    (he : Effect gone new s t) : ∀ p ∈ t.layout.leaves, p ∈ t.panes := by
  intro p hp
  rw [he.keys]
  rw [he.leaves.mem_iff, List.mem_append, List.mem_filter] at hp
  rcases hp with ⟨hp, hg⟩ | hp
  · exact Or.inl ⟨h.leaf_live p hp, by simpa using hg⟩
  · exact Or.inr hp

/-- The call does not close a leaf of a split. -/
def KeepsSplits (s : SessionManager) (op : Op) : Prop :=
  ∀ p, op = .closePane p → ¬SplitLeaf p s

theorem effect_splitPane (p : PaneId) (direction : String) (size : PtySize)
    (cwd : Option PathBuf) (hq : (⟨w.newV4 s.minted⟩ : PaneId) ∉ s.panes)
    (ho : (⟨w.newV4 s.minted⟩ : PaneId) ∉ s.paneOrder) :
    ∃ new, Effect [] new s (s.splitPane w p direction size cwd).1 ∧
      Minted w new s (s.splitPane w p direction size cwd).1 := by
  unfold splitPane
  split_ifs
  · exact Effect.of_mint (effect_splitAt w "split_pane" p direction (1 / 2) size cwd hq ho)
  · exact ⟨[], .refl s, .nil w s s⟩

theorem effect_splitPaneWithRatio (p : PaneId) (direction : String) (ratio : F32) (size : PtySize)
    (cwd : Option PathBuf) (hq : (⟨w.newV4 s.minted⟩ : PaneId) ∉ s.panes)
    (ho : (⟨w.newV4 s.minted⟩ : PaneId) ∉ s.paneOrder) :
    ∃ new, Effect [] new s (s.splitPaneWithRatio w p direction ratio size cwd).1 ∧
      Minted w new s (s.splitPaneWithRatio w p direction ratio size cwd).1 := by
  unfold splitPaneWithRatio splitPaneWithRatioAndPaneId
  apply Effect.of_mint
  split_ifs
  · exact effect_splitAt w "split_pane_with_ratio" p direction ratio size cwd hq ho
  · exact ⟨[], Or.inl rfl, .refl s.mint⟩

/-- A call that closes nothing only brings panes. -/
theorem effect_of_not_closing (hw : Function.Injective w.newV4) (hs : Tracked w s) {op : Op}
    (hpane : ∀ p, op ≠ .closePane p) (htab : ∀ tabId, op ≠ .closeTab tabId)
    (hworkspace : ∀ i, op ≠ .deleteWorkspace i) :
    ∃ new, Effect [] new s (s.apply w op) ∧ Minted w new s (s.apply w op) := by
  have hq := hs.fresh_panes le_rfl
  have ho := hs.fresh_order le_rfl
  cases op with
  | splitPane p direction size cwd => exact effect_splitPane p direction size cwd hq ho
  | splitPaneWithRatio p direction ratio size cwd =>
    exact effect_splitPaneWithRatio p direction ratio size cwd hq ho
  | closePane p => exact absurd rfl (hpane p)
  | closeTab tabId => exact absurd rfl (htab tabId)
  | deleteWorkspace i => exact absurd rfl (hworkspace i)
  | _ => exact effect_of_grows hw hs.workspaces trivial

/-- What an operation does to the panes, closing a leaf of a split aside. -/
theorem apply_effect (hw : Function.Injective w.newV4) (hs : Tracked w s) (op : Op)
    (hop : KeepsSplits s op) :
    ∃ gone new, Effect gone new s (s.apply w op) ∧ Minted w new s (s.apply w op) := by
  cases op with
  | closePane p =>
    exact effect_closePane w hs.leaves_nodup (hs.live_leaf p) hs.workspaces (hop p rfl)
  | closeTab tabId => exact effect_closeTab w tabId hs.leaves_nodup
  | deleteWorkspace i =>
    obtain ⟨gone, he⟩ := effect_deleteWorkspace i hs.leaves_nodup
    exact ⟨gone, [], he, .nil w _ _⟩
  | _ => exact ⟨[], effect_of_not_closing hw hs (by simp) (by simp) (by simp)⟩

/-- Closing a leaf of a split takes the pane out of the registry only. -/
theorem apply_closePane_of_splitLeaf (hs : Tracked w s) {p : PaneId} (hp : SplitLeaf p s) :
    s.apply w (.closePane p) = if p ∈ s.panes then (s.unregister p).send (.paneClosed p) else s := by
  split_ifs with hk
  · rw [SessionManager.apply, Op.exec, closePane_of_splitLeaf w hs.leaves_nodup hk hp]
  · rw [SessionManager.apply, Op.exec, closePane, if_neg hk]

theorem Tracked.unregister (h : Tracked w s) (p : PaneId) : Tracked w (s.unregister p) where
  leaves_nodup := h.leaves_nodup
  live_leaf q hq := h.live_leaf q (PMap.mem_erase.mp hq).2
  order_nodup := h.order_nodup.filter _
  order_live q := by
    rw [unregister_paneOrder, unregister_panes, List.mem_filter, h.order_live, PMap.mem_erase]
    simp [and_comm]
  fresh := h.fresh
  workspaces := h.workspaces

/-- Every call keeps a state tracked. -/
theorem Tracked.apply (hw : Function.Injective w.newV4) (h : Tracked w s) (op : Op) :
    Tracked w (s.apply w op) := by
  by_cases hop : KeepsSplits s op
  · obtain ⟨gone, new, he, hm⟩ := apply_effect hw h op hop
    exact h.effect hw he hm
  · simp only [KeepsSplits, not_forall, not_not] at hop
    obtain ⟨p, rfl, hp⟩ := hop
    rw [apply_closePane_of_splitLeaf h hp]
    split_ifs
    · have := h.unregister p
      exact ⟨this.1, this.2, this.3, this.4, this.5, this.6⟩
    · exact h

/-- The states an empty manager can be brought to. -/
def Reachable (w : World) (s : SessionManager) : Prop :=
  ∃ logs ops, s = (new w logs).runOps w ops

/-- Every reachable state is tracked. -/
theorem Reachable.tracked (hw : Function.Injective w.newV4) (h : Reachable w s) : Tracked w s := by
  obtain ⟨logs, ops, rfl⟩ := h
  exact (along_of_step (tracked_new w logs) fun _ op ht => Tracked.apply hw ht op).last

/-- Closing a leaf of a split leaves a leaf whose pane is gone. -/
theorem not_coherent_closePane (hs : Tracked w s) (hc : Coherent s) {p : PaneId}
    (hp : SplitLeaf p s) : ¬Coherent (s.apply w (.closePane p)) := by
  obtain ⟨ws, hws, tab, ht, hpt, -⟩ := id hp
  have hleaf : p ∈ s.layout.leaves :=
    List.mem_flatMap.mpr ⟨ws, hws, List.mem_flatMap.mpr ⟨tab, ht, hpt⟩⟩
  rw [apply_closePane_of_splitLeaf hs hp, if_pos (hc.leaf_live p hleaf)]
  intro h
  have hlive := h.leaf_live p hleaf
  rw [send_panes, unregister_panes, PMap.mem_erase] at hlive
  exact hlive.1 rfl

/-- A call keeps a coherent state coherent exactly if it does not close a leaf of a split. -/
theorem coherent_apply_iff (hw : Function.Injective w.newV4) (hs : Tracked w s) (hc : Coherent s)
    (op : Op) : Coherent (s.apply w op) ↔ KeepsSplits s op := by
  constructor
  · rintro h p rfl hp
    exact not_coherent_closePane hs hc hp h
  · intro hop
    obtain ⟨gone, new, he, -⟩ := apply_effect hw hs op hop
    exact (hs.apply hw op).coherent (hc.leaf_live_effect he)

end Step

/-- Every state of a run from an empty manager is coherent exactly if no call of
the run closes a pane that is a leaf of a split at that moment. -/
theorem coherent_along_iff (w : World) (hw : Function.Injective w.newV4) (logs : PMap Uuid Bytes)
    (ops : List Op) :
    Along (SessionManager.apply w) Coherent (new w logs) ops ↔
      Meets (SessionManager.apply w) KeepsSplits (new w logs) ops :=
  along_iff_meets (fun _ op hs _ _ => Tracked.apply hw hs op)
    (fun _ op hs hc => coherent_apply_iff hw hs hc op) (tracked_new w logs) (coherent_new w logs)

/-- A tab, a split, and closing the second pane of the split. -/
def splitThenClose : List Op :=
  [.createTab 0 none .default none, .splitPane ⟨⟨1⟩⟩ "horizontal" .default none,
    .closePane ⟨⟨3⟩⟩]

/-- A tab whose only pane is closed, and another one that is split. -/
def closeThenSplit : List Op :=
  [.createTab 0 none .default none, .closePane ⟨⟨1⟩⟩, .createTab 0 none .default none,
    .splitPane ⟨⟨3⟩⟩ "horizontal" .default none]

theorem coherent_along_closeThenSplit :
    Along (SessionManager.apply .counting) Coherent (new .counting .empty) closeThenSplit := by
  have hclose : KeepsSplits ((new .counting .empty).runOps .counting (closeThenSplit.take 1))
      (.closePane ⟨⟨1⟩⟩) := by
    rintro p ⟨⟩
    decide
  exact (coherent_along_iff .counting World.counting_injective .empty _).mpr
    ⟨nofun, hclose, nofun, nofun, trivial⟩

/-- The tab of the closed pane is gone. -/
example : (((new .counting .empty).runOps .counting closeThenSplit).layout.leaves,
    ((new .counting .empty).runOps .counting closeThenSplit).paneOrder) =
    ([⟨⟨3⟩⟩, ⟨⟨5⟩⟩], [⟨⟨3⟩⟩, ⟨⟨5⟩⟩]) := by decide

theorem not_coherent_splitThenClose :
    ¬Coherent ((new .counting .empty).runOps .counting splitThenClose) := by
  intro h
  have hleaf : (⟨⟨3⟩⟩ : PaneId) ∈
      ((new .counting .empty).runOps .counting splitThenClose).layout.leaves := by decide
  have hgone : (⟨⟨3⟩⟩ : PaneId) ∉
      ((new .counting .empty).runOps .counting splitThenClose).panes := by decide
  exact hgone (h.leaf_live _ hleaf)

end SessionManager

end Forgetty
