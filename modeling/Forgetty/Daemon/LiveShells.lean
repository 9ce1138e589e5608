import Forgetty.Daemon.RestoredIds
import Forgetty.Session.Ended

/-! A workspace has a shell while one of its panes is live. Closing heals a workspace that
loses its last tab. What it looks at are tabs: a workspace can lose its last live pane and
keep a tab whose panes were all closed, and then it is not healed. -/

namespace Forgetty

open Lib

namespace SessionManager

/-- A pane of the workspace is live. -/
def HasShell (s : SessionManager) (ws : SessionWorkspace) : Prop := ∃ p ∈ ws.leaves, p ∈ s.panes

/-- A workspace with a shell is still there and has one. -/
def KeepsShells (s t : SessionManager) : Prop :=
  ∀ ws ∈ s.layout.workspaces, HasShell s ws →
    ∃ ws' ∈ t.layout.workspaces, ws'.id = ws.id ∧ HasShell t ws'

/-- Closing a tab, or a pane, as the drain task of a pane that exits does too. -/
def Shuts : Call → Prop
  | .op (.closePane _) | .op (.closeTab _) => True
  | _ => False

/-- A workspace that loses its last live panes loses all its tabs. -/
def ShutsWhole (s : SessionManager) (call : Call) : Prop :=
  ∀ k ws, s.layout.workspaces[k]? = some ws → HasShell s ws →
    (∀ p ∈ ws.leaves, p ∈ s.panes → p ∈ s.ended call) → ∀ tab ∈ ws.tabs, s.takes k tab call = true

section Shells

variable {w : World} {s t : SessionManager} {call : Call}

theorem KeepsShells.refl (s : SessionManager) : KeepsShells s s :=
  fun ws hws h => ⟨ws, hws, rfl, h⟩

theorem mem_leaves_of_getElem? {k : ℕ} {ws : SessionWorkspace}
    (hws : s.layout.workspaces[k]? = some ws) {p : PaneId} (hp : p ∈ ws.leaves) :
    p ∈ s.layout.leaves :=
  List.mem_flatMap.mpr ⟨ws, List.mem_of_getElem? hws, hp⟩

/-- One workspace is changed and the ids stay. -/
theorem keepsShells_modify (hs : Identified w s) {i : ℕ} {f : SessionWorkspace → SessionWorkspace}
    (h : t.layout.workspaces = s.layout.workspaces.modify i f) (hf : ∀ ws, (f ws).id = ws.id) :
    KeepsShells s t ↔ ∀ k ws, s.layout.workspaces[k]? = some ws → HasShell s ws →
      HasShell t (if i = k then f ws else ws) := by
  constructor
  · intro hk k ws hws hshell
    obtain ⟨ws', hws', hid, hshell'⟩ := hk ws (List.mem_of_getElem? hws) hshell
    rw [h] at hws'
    rcases mem_modify hws' with ⟨a, ha, rfl⟩ | ⟨j, hj, hws'⟩
    · obtain ⟨rfl, rfl⟩ := hs.workspace_place hws ha ((hf a).symm.trans hid)
      rwa [if_pos rfl]
    · obtain ⟨rfl, rfl⟩ := hs.workspace_place hws hws' hid
      rwa [if_neg hj.symm]
  · intro hk ws hws hshell
    obtain ⟨k, hws⟩ := List.mem_iff_getElem?.mp hws
    refine ⟨_, ?_, ?_, hk k ws hws hshell⟩
    · refine List.mem_of_getElem? (i := k) ?_
      rw [h, List.getElem?_modify, hws]
      rfl
    · split_ifs
      · exact hf ws
      · rfl

/-- A live pane is spared or all are ended. -/
theorem spared_or_ended (ws : SessionWorkspace) (gone : List PaneId) :
    (∃ q ∈ ws.leaves, q ∈ s.panes ∧ q ∉ gone) ∨ ∀ q ∈ ws.leaves, q ∈ s.panes → q ∈ gone := by
  by_cases h : ∃ q ∈ ws.leaves, q ∈ s.panes ∧ q ∉ gone
  · exact Or.inl h
  · exact Or.inr fun q hq hlive => by_contra fun hgone => h ⟨q, hq, hlive, hgone⟩

theorem leaves_dropTabs_subset (drop : SessionTab → Bool) (ws : SessionWorkspace) :
    (dropTabs drop ws).leaves ⊆ ws.leaves := by
  intro q hq
  obtain ⟨tab, htab, hq⟩ := List.mem_flatMap.mp hq
  exact List.mem_flatMap.mpr ⟨tab, (mem_dropTabs.mp htab).1, hq⟩

/-- A pane that is spared is in a tab that stays. -/
theorem mem_leaves_dropTabs {drop : SessionTab → Bool} {gone : List PaneId}
    {ws : SessionWorkspace}
    (hdrop : ∀ tab ∈ ws.tabs, drop tab = true → tab.paneTree.leaves ⊆ gone) {q : PaneId}
    (hq : q ∈ ws.leaves) (hgone : q ∉ gone) : q ∈ (dropTabs drop ws).leaves := by
  obtain ⟨tab, htab, hq⟩ := List.mem_flatMap.mp hq
  refine List.mem_flatMap.mpr ⟨tab, mem_dropTabs.mpr ⟨htab, ?_⟩, hq⟩
  exact Bool.eq_false_iff.mpr fun h => hgone (hdrop tab htab h hq)

theorem HasShell.exists_tab {ws : SessionWorkspace} (h : HasShell s ws) : ∃ tab, tab ∈ ws.tabs := by
  obtain ⟨q, hq, -⟩ := h
  obtain ⟨tab, htab, -⟩ := List.mem_flatMap.mp hq
  exact ⟨tab, htab⟩

/-- Tabs are dropped from one workspace and it is healed where it is emptied. -/
theorem Closed.shells_kept_iff (hs : Identified w s) (ht : Tracked w s) (hspawn : w.SpawnsSucceed)
    (hlen : 1 < s.layout.workspaces.length) {i : ℕ} {drop : SessionTab → Bool}
    {gone : List PaneId} {told : List SessionEvent} (hd : s.dropped call = some (i, drop))
    (hgone : s.ended call = gone)
    (hdrop : ∀ ws, s.layout.workspaces[i]? = some ws → ∀ tab ∈ ws.tabs, drop tab = true →
      tab.paneTree.leaves ⊆ gone)
    (h : Closed w i drop gone told s t) : KeepsShells s t ↔ ShutsWhole s call := by
  have hlive {k : ℕ} {ws : SessionWorkspace} (hws : s.layout.workspaces[k]? = some ws) {q : PaneId}
      (hq : q ∈ ws.leaves) : q ∈ t.panes ↔ q ∈ s.panes ∧ q ∉ gone := by
    cases h with
    | left changed panes => exact panes q
    | seeded n minted emptied changed panes =>
      rw [panes, or_iff_left]
      rintro rfl
      exact ht.fresh n minted (mem_leaves_of_getElem? hws hq)
  rw [ShutsWhole, hgone]
  simp only [takes_of_dropped hd, Bool.and_eq_true, decide_eq_true_eq]
  cases h with
  | left changed panes unhealed =>
    rw [keepsShells_modify hs changed.workspaces (dropTabs_id drop)]
    constructor
    · intro hk k ws hws hshell hall
      obtain ⟨q, hq, hqt⟩ := hk k ws hws hshell
      have hq : q ∈ ws.leaves := by
        split_ifs at hq
        · exact leaves_dropTabs_subset drop ws hq
        · exact hq
      obtain ⟨hqs, hne⟩ := (hlive hws hq).mp hqt
      exact absurd (hall q hq hqs) hne
    · intro hk k ws hws hshell
      rcases spared_or_ended ws gone with ⟨q, hq, hqs, hne⟩ | hall
      · refine ⟨q, ?_, (hlive hws hq).mpr ⟨hqs, hne⟩⟩
        split_ifs with hik
        · exact mem_leaves_dropTabs (hdrop ws (hik ▸ hws)) hq hne
        · exact hq
      · -- All its tabs are dropped, and a workspace without tabs is healed.
        obtain ⟨tab, htab⟩ := hshell.exists_tab
        obtain ⟨ws₀, hws₀, hne⟩ := unhealed hspawn hlen
        obtain ⟨rfl, -⟩ := hk k ws hws hshell hall tab htab
        obtain rfl := Option.some.inj (hws.symm.trans hws₀)
        obtain ⟨tab', htab'⟩ := List.exists_mem_of_ne_nil _ hne
        obtain ⟨htab', hkept⟩ := mem_dropTabs.mp htab'
        have := (hk i ws hws hshell hall tab' htab').2
        rw [hkept] at this
        cases this
  | seeded n minted emptied changed panes =>
    rw [keepsShells_modify hs changed.workspaces (dropTabs_id drop)]
    constructor
    · intro hk k ws hws hshell hall tab htab
      obtain ⟨q, hq, hqt⟩ := hk k ws hws hshell
      split_ifs at hq with hik
      · subst hik
        refine ⟨rfl, Bool.not_eq_false _ ▸ fun hkept => ?_⟩
        have hmem := mem_dropTabs.mpr ⟨htab, hkept⟩
        rw [emptied ws hws] at hmem
        exact List.not_mem_nil hmem
      · obtain ⟨hqs, hne⟩ := (hlive hws hq).mp hqt
        exact absurd (hall q hq hqs) hne
    · intro hk k ws hws hshell
      split_ifs with hik
      · refine ⟨⟨w.newV4 n⟩, ?_, (panes _).mpr (Or.inr rfl)⟩
        rw [SessionWorkspace.leaves, seedTab, addTab]
        simp [SessionTab.ofLeaf]
      · rcases spared_or_ended ws gone with ⟨q, hq, hqs, hne⟩ | hall
        · exact ⟨q, hq, (hlive hws hq).mpr ⟨hqs, hne⟩⟩
        · obtain ⟨tab, htab⟩ := hshell.exists_tab
          exact absurd (hk k ws hws hshell hall tab htab).1 hik

/-- Nothing is ended, or nothing that is live. -/
theorem keepsShells_iff_of_eq (h : t = s) (hended : ∀ p ∈ s.panes, p ∉ s.ended call) :
    KeepsShells s t ↔ ShutsWhole s call := by
  subst h
  refine iff_of_true (.refl t) fun k ws _ hshell hall => ?_
  obtain ⟨q, hq, hlive⟩ := hshell
  exact absurd (hall q hq hlive) (hended q hlive)

/-- A pane is closed that is no tab by itself: its workspace is not healed. -/
theorem keepsShells_closePane_of_none (hs : Identified w s) {p : PaneId} (hp : p ∈ s.panes)
    (h : (s.layout.workspaces.findIdx? fun ws => ws.tabs.any fun tab => tab.paneTree = .leaf p) =
      none) : KeepsShells s (s.closePane w p).1 ↔ ShutsWhole s (.op (.closePane p)) := by
  obtain ⟨changed, panes⟩ := changed_closePane_of_none (w := w) hp h
  have hd : s.dropped (.op (.closePane p)) = none := by
    rw [dropped, if_pos hp, h]
    rfl
  constructor
  · intro hk k ws hws hshell hall
    obtain ⟨ws', hws', hid, q, hq, hqt⟩ := hk ws (List.mem_of_getElem? hws) hshell
    rw [changed.workspaces] at hws'
    obtain ⟨j, hj⟩ := List.mem_iff_getElem?.mp hws'
    obtain ⟨-, rfl⟩ := hs.workspace_place hws hj hid
    obtain ⟨hqs, hne⟩ := (panes q).mp hqt
    exact absurd (hall q hq hqs) hne
  · intro hk ws hws hshell
    refine ⟨ws, changed.workspaces ▸ hws, rfl, ?_⟩
    rcases spared_or_ended ws [p] with ⟨q, hq, hqs, hne⟩ | hall
    · exact ⟨q, hq, (panes q).mpr ⟨hqs, hne⟩⟩
    · obtain ⟨k, hk'⟩ := List.mem_iff_getElem?.mp hws
      obtain ⟨tab, htab⟩ := hshell.exists_tab
      have htakes := hk k ws hk' hshell hall tab htab
      rw [takes_of_not_dropped hd (by simp)] at htakes
      cases htakes

theorem keepsShells_closePane (hs : Identified w s) (ht : Tracked w s) (hspawn : w.SpawnsSucceed)
    (hlen : 1 < s.layout.workspaces.length) (p : PaneId) :
    KeepsShells s (s.closePane w p).1 ↔ ShutsWhole s (.op (.closePane p)) := by
  by_cases hp : p ∈ s.panes
  · cases hfind : s.layout.workspaces.findIdx? fun ws =>
        ws.tabs.any fun tab => tab.paneTree = .leaf p with
    | none => exact keepsShells_closePane_of_none hs hp hfind
    | some i =>
      refine Closed.shells_kept_iff hs ht hspawn hlen ?_ rfl ?_ (closed_closePane hp hfind)
      · rw [dropped, if_pos hp, hfind]
        rfl
      · intro ws _ tab _ hleaf
        rw [of_decide_eq_true hleaf]
        exact List.Subset.refl _
  · refine keepsShells_iff_of_eq (closePane_of_not_mem hp) fun q hq hmem => hp ?_
    exact List.mem_singleton.mp hmem ▸ hq

theorem keepsShells_closeTab (hs : Identified w s) (ht : Tracked w s) (hspawn : w.SpawnsSucceed)
    (hlen : 1 < s.layout.workspaces.length) (tabId : Uuid) :
    KeepsShells s (s.closeTab w tabId).1 ↔ ShutsWhole s (.op (.closeTab tabId)) := by
  cases hfind : s.findTab tabId with
  | none =>
    refine keepsShells_iff_of_eq ?_ fun q _ => ?_
    · rw [closeTab, hfind]
    · rw [ended, hfind]
      exact List.not_mem_nil
  | some place =>
    obtain ⟨i, j⟩ := place
    obtain ⟨ws, tab, hws, htab, hid, qs, h⟩ := closed_closeTab (w := w) hs hfind
    obtain ⟨ws₀, tab₀, hws₀, htab₀, hid₀⟩ := findTab_spec hfind
    obtain rfl := Option.some.inj (hws.symm.trans hws₀)
    obtain rfl : tab₀ = tab := List.inj_on_of_nodup_map (hs.nodup_tabs (List.mem_of_getElem? hws))
      (List.mem_of_getElem? htab₀) htab (hid₀.trans hid.symm)
    refine Closed.shells_kept_iff hs ht hspawn hlen ?_ ?_ ?_ h
    · rw [dropped, hfind]
      rfl
    · simp only [ended, hfind, Option.bind_some, hws, htab₀, Option.map_some, Option.getD_some]
    · intro ws' hws' tab' htab' hdrop
      obtain rfl := Option.some.inj (hws.symm.trans hws')
      rw [List.inj_on_of_nodup_map (hs.nodup_tabs (List.mem_of_getElem? hws)) htab' htab
        ((of_decide_eq_true hdrop).trans hid.symm)]
      exact List.Subset.refl _

end Shells

/-- In every state of a session with two or more workspaces: closing a pane or a tab leaves a
shell in every workspace that has one exactly if a workspace that loses its last live panes
loses all its tabs with them. -/
theorem keepsShells_iff (w : World) (hw : Function.Injective w.newV4) (hspawn : w.SpawnsSucceed)
    (s : SessionManager) (hs : SessionState w s) (hlen : 1 < s.layout.workspaces.length)
    (call : Call) (hc : Shuts call) : KeepsShells s (s.invoke w call) ↔ ShutsWhole s call := by
  have hids := hs.identified hw
  have ht := (hs.tracked_sound hw).1
  match call with
  | .createTabWithPaneId .. => exact absurd hc id
  | .splitPaneWithRatioAndPaneId .. => exact absurd hc id
  | .op op =>
    cases op with
    | closePane p => exact keepsShells_closePane hids ht hspawn hlen p
    | closeTab tabId => exact keepsShells_closeTab hids ht hspawn hlen tabId
    | _ => exact absurd hc id

/-- A second workspace with one tab, split, and the first of its panes closed. -/
def halfClosed : SessionManager :=
  ((SessionManager.new .counting .empty).setByteLogConfig 1024 10).runOps .counting
    [.createWorkspace "other", .createTab 1 none .default none,
      .splitPane ⟨⟨2⟩⟩ "horizontal" .default none, .closePane ⟨⟨2⟩⟩]

theorem sessionState_halfClosed : SessionState .counting halfClosed :=
  ⟨_, _, .empty .empty 1024 10, rfl⟩

/-- The shell in the other pane exits. -/
theorem not_keepsShells_closeLast :
    World.counting.SpawnsSucceed ∧ SessionState .counting halfClosed ∧
      1 < halfClosed.layout.workspaces.length ∧
      ¬KeepsShells halfClosed (halfClosed.invoke .counting (.op (.closePane ⟨⟨4⟩⟩))) := by
  refine ⟨World.counting_spawnsSucceed, sessionState_halfClosed, by decide, fun h => ?_⟩
  have hall : ∀ ws ∈ (halfClosed.invoke .counting (.op (.closePane ⟨⟨4⟩⟩))).layout.workspaces,
      ∀ p ∈ ws.leaves, p ∉ (halfClosed.invoke .counting (.op (.closePane ⟨⟨4⟩⟩))).panes := by decide
  obtain ⟨ws, hws, hshell⟩ : ∃ ws ∈ halfClosed.layout.workspaces,
      ∃ p ∈ ws.leaves, p ∈ halfClosed.panes := by decide
  obtain ⟨ws', hws', -, p, hp, hlive⟩ := h ws hws hshell
  exact hall ws' hws' p hp hlive

/-- The whole tab is closed instead. -/
theorem keepsShells_closeHalf :
    KeepsShells halfClosed (halfClosed.invoke .counting (.op (.closeTab ⟨3⟩))) := by
  have htakes : ∀ x ∈ halfClosed.layout.workspaces.zipIdx, ∀ tab ∈ x.1.tabs,
      halfClosed.takes x.2 tab (.op (.closeTab ⟨3⟩)) = true := by decide
  refine (keepsShells_iff .counting World.counting_injective World.counting_spawnsSucceed
    halfClosed sessionState_halfClosed (by decide) (.op (.closeTab ⟨3⟩)) trivial).mpr
      fun k ws hws _ _ tab htab => ?_
  exact htakes (ws, k) (List.mem_zipIdx_iff_getElem?.mpr hws) tab htab

end SessionManager

end Forgetty
