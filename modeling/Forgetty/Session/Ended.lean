import Forgetty.Session.Edits

/-! Which panes a call ends and which tabs it takes away. A pane is ended by itself, with
its tab or with its workspace; every other live pane stays live. -/

namespace Forgetty

open Lib

namespace SessionManager

/-- The panes a call ends. -/
def ended (s : SessionManager) : Call → List PaneId
  | .op (.closePane p) => [p]
  | .op (.closeTab tabId) =>
    ((s.findTab tabId).bind fun place => (s.layout.workspaces[place.1]?).bind fun ws =>
      (ws.tabs[place.2]?).map (·.paneTree.leaves)).getD []
  | .op (.deleteWorkspace i) =>
    if 1 < s.layout.workspaces.length then
      ((s.layout.workspaces[i]?).map SessionWorkspace.leaves).getD []
    else []
  | _ => []

/-- The tabs a call takes away from the workspace at an index. -/
def takes (s : SessionManager) (k : ℕ) (tab : SessionTab) : Call → Bool
  | .op (.deleteWorkspace i) => i = k && 1 < s.layout.workspaces.length
  | call => (s.dropped call).any fun d => d.1 = k && d.2 tab

/-- The calls that may end a pane. -/
def Ends : Call → Prop
  | .op (.closePane _) | .op (.closeTab _) | .op (.deleteWorkspace _) => True
  | _ => False

/-- Live panes stay live, and the leaves that come are live. -/
structure Gains (s t : SessionManager) : Prop where
  live : ∀ p ∈ s.panes, p ∈ t.panes
  leaf : ∀ p ∈ t.layout.leaves, p ∈ s.layout.leaves ∨ p ∈ t.panes

section Gains

variable {w : World} {s t : SessionManager}

theorem Effect.gains {new : List PaneId} (h : Effect [] new s t) : Gains s t where
  live p hp := (h.keys p).mpr (Or.inl ⟨hp, List.not_mem_nil⟩)
  leaf p hp := by
    rw [h.leaves.mem_iff, List.mem_append, List.mem_filter] at hp
    exact hp.imp And.left fun hp => (h.keys p).mpr (Or.inr hp)

/-- A pane of the layout is split in any case. -/
theorem gains_splitAt (caller : String) {p : PaneId} (direction : String) (ratio : F32)
    (size : PtySize) (cwd : Option PathBuf) (q : PaneId) (hp : p ∈ s.layout.leaves) :
    Gains s (s.splitAt w caller p direction ratio size cwd q).1 := by
  unfold splitAt
  split
  · exact ⟨fun _ h => h, fun _ h => Or.inl h⟩
  · dsimp only
    split
    · rename_i heq
      exact absurd hp (replaceLeafInLayout_none (congrArg Prod.snd heq))
    · rename_i wss tabId heq
      have hl := replaceLeafInLayout_leaves (by rw [heq])
      rw [heq] at hl
      constructor
      · intro r hr
        rw [spawnDrainTask_mem_panes, send_panes, send_panes, setWorkspaces_panes,
          registerPane_panes, PMap.mem_insert]
        exact Or.inr hr
      · intro r hr
        rw [SessionLayout.leaves, spawnDrainTask_layout] at hr
        rw [spawnDrainTask_mem_panes, send_panes, send_panes, setWorkspaces_panes,
          registerPane_panes, PMap.mem_insert]
        rcases List.mem_append.mp (hl.subset hr) with hr | hr
        · exact Or.inl hr
        · exact Or.inr (Or.inl (List.mem_singleton.mp hr))

theorem gains_splitPaneWithRatioAndPaneId (h : LiveShown s) (p : PaneId) (direction : String)
    (ratio : F32) (size : PtySize) (cwd : Option PathBuf) (q : PaneId) :
    Gains s (s.splitPaneWithRatioAndPaneId w p direction ratio size cwd q).1 := by
  unfold splitPaneWithRatioAndPaneId
  split_ifs with hp
  · exact gains_splitAt _ direction ratio size cwd q (h.leaf p hp)
  · exact ⟨fun _ h => h, fun _ h => Or.inl h⟩

/-- A call that ends nothing. -/
theorem gains_invoke (hw : Function.Injective w.newV4) (h : LiveShown s) {call : Call}
    (hc : ¬Ends call) : Gains s (s.invoke w call) := by
  have grown {t : SessionManager} (he : ∃ new, Effect [] new s t ∧ Minted w new s t) :
      Gains s t := by
    obtain ⟨new, he, -⟩ := he
    exact he.gains
  have of_mint {t : SessionManager} (h : Gains s.mint t) : Gains s t := ⟨h.live, h.leaf⟩
  have hmint : LiveShown s.mint := ⟨h.leaf, h.workspaces⟩
  match call with
  | .createTabWithPaneId i cwd size command p =>
    obtain ⟨new, -, he⟩ := effect_createTabWithPaneId w i cwd size command p s
    exact he.gains
  | .splitPaneWithRatioAndPaneId p direction ratio size cwd q =>
    exact gains_splitPaneWithRatioAndPaneId h p direction ratio size cwd q
  | .op op =>
    cases op with
    | splitPane p direction size cwd =>
      simp only [invoke, Call.exec, Op.exec, splitPane]
      split_ifs with hp
      · exact of_mint (gains_splitAt _ direction _ size cwd _ (h.leaf p hp))
      · exact ⟨fun _ h => h, fun _ h => Or.inl h⟩
    | splitPaneWithRatio p direction ratio size cwd =>
      exact of_mint (gains_splitPaneWithRatioAndPaneId hmint p direction ratio size cwd _)
    | closePane p => exact absurd trivial hc
    | closeTab tabId => exact absurd trivial hc
    | deleteWorkspace i => exact absurd trivial hc
    | _ => exact grown (effect_of_grows hw h.workspaces trivial)

/-! ### What is not ended -/

theorem live_closePane {p q : PaneId} (hq : q ∈ s.panes) (hne : q ∉ [p]) :
    q ∈ (s.closePane w p).1.panes := by
  unfold closePane
  split_ifs
  · obtain ⟨new, he, -⟩ := effect_healEmptied w
      ((dropLeafTabs p (s.unregister p).layout.workspaces).2.getD none)
      (((s.unregister p).setWorkspaces
        (dropLeafTabs p (s.unregister p).layout.workspaces).1).send (.paneClosed p))
    refine he.gains.live q (PMap.mem_erase.mpr ⟨?_, hq⟩)
    exact fun heq => hne (List.mem_singleton.mpr heq)
  · exact hq

theorem live_closeTab {tabId : Uuid} {q : PaneId} (hq : q ∈ s.panes)
    (hne : q ∉ s.ended (.op (.closeTab tabId))) : q ∈ (s.closeTab w tabId).1.panes := by
  unfold closeTab
  split
  · exact hq
  · rename_i i j heq
    obtain ⟨ws, tab, hws, htab, -⟩ := findTab_spec heq
    simp only [ended, heq, Option.bind_some, hws, htab, Option.map_some, Option.getD_some] at hne
    simp only [hws, Option.bind_some, htab, Option.map_some, Option.getD_some, collectPaneIds_eq,
      List.nil_append]
    obtain ⟨new, he, -⟩ := effect_healEmptied w _ _
    refine he.gains.live q ?_
    rw [send_panes, unregisters_closeTabPane.foldl_mem_panes]
    exact ⟨hq, hne⟩

theorem live_deleteWorkspace {i : ℕ} {q : PaneId} (hq : q ∈ s.panes)
    (hne : q ∉ s.ended (.op (.deleteWorkspace i))) : q ∈ (s.deleteWorkspace i).1.panes := by
  unfold deleteWorkspace
  split
  · exact hq
  · rename_i ws hws
    split_ifs with hlen
    · exact hq
    · simp only [ended, if_pos (Nat.not_le.mp hlen), hws, Option.map_some, Option.getD_some] at hne
      simp only [send_panes, setActive_panes, setWorkspaces_panes,
        unregisters_deletePane.foldl_mem_panes, foldl_collectPaneIds, List.nil_append]
      exact ⟨hq, hne⟩

/-- A live pane that the call does not end stays live. -/
theorem live_invoke (hw : Function.Injective w.newV4) (h : LiveShown s) {call : Call} {p : PaneId}
    (hp : p ∈ s.panes) (hne : p ∉ s.ended call) : p ∈ (s.invoke w call).panes := by
  by_cases hc : Ends call
  · match call with
    | .createTabWithPaneId .. => exact absurd hc id
    | .splitPaneWithRatioAndPaneId .. => exact absurd hc id
    | .op op =>
      cases op with
      | closePane q => exact live_closePane hp hne
      | closeTab tabId => exact live_closeTab hp hne
      | deleteWorkspace i => exact live_deleteWorkspace hp hne
      | _ => exact absurd hc id
  · exact (gains_invoke hw h hc).live p hp

end Gains

/-! ### Tabs that stay -/

section Stay

variable {w : World} {s t : SessionManager}

theorem takes_of_not_dropped {call : Call} (hd : s.dropped call = none)
    (hc : ∀ i, call ≠ .op (.deleteWorkspace i)) (k : ℕ) (tab : SessionTab) :
    s.takes k tab call = false := by
  unfold takes
  split
  · exact absurd rfl (hc _)
  · rw [hd]
    rfl

theorem takes_of_dropped {call : Call} {i : ℕ} {drop : SessionTab → Bool}
    (hd : s.dropped call = some (i, drop)) (k : ℕ) (tab : SessionTab) :
    s.takes k tab call = (i = k && drop tab) := by
  unfold takes
  split
  · exact nomatch hd
  · rw [hd]
    rfl

end Stay

end SessionManager

end Forgetty
