import Forgetty.Session.TabCalls

/-! What closing a pane or a tab does. Tabs are dropped from one workspace and panes
from the registry; a workspace that is emptied gets a fresh tab, unless it is the only
one or the spawn fails. -/

namespace Forgetty

open Lib

namespace SessionManager

/-- The tabs a call drops, by the workspace they are in. A pane that is closed takes its
own tabs along, from the first workspace that has one. -/
def dropped (s : SessionManager) : Call → Option (ℕ × (SessionTab → Bool))
  | .op (.closeTab tabId) => (s.findTab tabId).map fun place => (place.1, fun tab => tab.id = tabId)
  | .op (.closePane p) =>
    if p ∈ s.panes then
      (s.layout.workspaces.findIdx? fun ws => ws.tabs.any fun tab => tab.paneTree = .leaf p).map
        fun i => (i, fun tab => tab.paneTree = .leaf p)
    else none
  | _ => none

/-- A workspace that lost the tabs. -/
def dropTabs (drop : SessionTab → Bool) (ws : SessionWorkspace) : SessionWorkspace :=
  clampActiveTab { ws with tabs := ws.tabs.filter fun tab => !drop tab }

/-- A workspace that gets a fresh tab and makes it the active one. -/
def seedTab (tabId : Uuid) (p : PaneId) (ws : SessionWorkspace) : SessionWorkspace :=
  { addTab tabId p ws with activeTab := 0 }

/-- What closing leaves: the tabs are dropped from the workspace and the panes from the
registry, this is told, and when the workspace is emptied it may be seeded. -/
inductive Closed (w : World) (i : ℕ) (drop : SessionTab → Bool) (gone : List PaneId)
    (told : List SessionEvent) (s t : SessionManager) : Prop
  | left
    (changed : Changed (s.layout.workspaces.modify i (dropTabs drop)) s.layout.activeWorkspace told
      s t)
    (panes : ∀ q, q ∈ t.panes ↔ q ∈ s.panes ∧ q ∉ gone)
    (unhealed : w.SpawnsSucceed → 1 < s.layout.workspaces.length →
      ∃ ws, s.layout.workspaces[i]? = some ws ∧ (dropTabs drop ws).tabs ≠ [])
  | seeded (n : ℕ) (minted : s.minted ≤ n)
    (emptied : ∀ ws, s.layout.workspaces[i]? = some ws → (dropTabs drop ws).tabs = [])
    (changed : Changed
      (s.layout.workspaces.modify i fun ws =>
        seedTab (w.newV4 (n + 1)) ⟨w.newV4 n⟩ (dropTabs drop ws)) s.layout.activeWorkspace
      (told ++ [.paneCreated ⟨w.newV4 n⟩, .tabCreated i (w.newV4 (n + 1)) ⟨w.newV4 n⟩]) s t)
    (panes : ∀ q, q ∈ t.panes ↔ (q ∈ s.panes ∧ q ∉ gone) ∨ q = ⟨w.newV4 n⟩)

section Drop

variable {w : World} {s t : SessionManager}

theorem dropTabs_tabs (drop : SessionTab → Bool) (ws : SessionWorkspace) :
    (dropTabs drop ws).tabs = ws.tabs.filter fun tab => !drop tab := clampActiveTab_tabs _

theorem dropTabs_id (drop : SessionTab → Bool) (ws : SessionWorkspace) :
    (dropTabs drop ws).id = ws.id := by
  unfold dropTabs clampActiveTab
  split_ifs <;> rfl

theorem mem_dropTabs {drop : SessionTab → Bool} {ws : SessionWorkspace} {tab : SessionTab} :
    tab ∈ (dropTabs drop ws).tabs ↔ tab ∈ ws.tabs ∧ drop tab = false := by
  rw [dropTabs_tabs, List.mem_filter]
  simp

/-- The ids of the tabs of a workspace are distinct. -/
theorem Identified.nodup_tabs (hs : Identified w s) {ws : SessionWorkspace}
    (hws : ws ∈ s.layout.workspaces) : (ws.tabs.map (·.id)).Nodup :=
  (List.nodup_cons.mp ((List.nodup_flatMap.mp hs.nodup).1 ws hws)).2

/-- A workspace is where its id is. -/
theorem Identified.workspace_place (hs : Identified w s) {i k : ℕ} {ws ws' : SessionWorkspace}
    (hws : s.layout.workspaces[i]? = some ws) (hws' : s.layout.workspaces[k]? = some ws')
    (hid : ws'.id = ws.id) : k = i ∧ ws' = ws := by
  obtain rfl := List.inj_on_of_nodup_map hs.workspaceIds_nodup (List.mem_of_getElem? hws')
    (List.mem_of_getElem? hws) hid
  obtain ⟨hk, -⟩ := List.getElem?_eq_some_iff.mp hws'
  refine ⟨?_, rfl⟩
  exact (List.getElem?_inj hk (List.Nodup.of_map _ hs.workspaceIds_nodup)).mp (hws'.trans hws.symm)

/-- A tab is where its id is. -/
theorem Identified.tab_place (hs : Identified w s) {i j k l : ℕ} {ws ws' : SessionWorkspace}
    {tab tab' : SessionTab} (hws : s.layout.workspaces[i]? = some ws) (htab : ws.tabs[j]? = some tab)
    (hws' : s.layout.workspaces[k]? = some ws') (htab' : ws'.tabs[l]? = some tab')
    (hid : tab'.id = tab.id) : k = i ∧ l = j := by
  have hmem := List.mem_of_getElem? hws
  obtain rfl : ws' = ws := by
    refine eq_of_mem_flatMap hs.nodup (List.mem_of_getElem? hws') hmem (b := tab.id) ?_ ?_
    · rw [← hid]
      exact List.mem_cons_of_mem _ (List.mem_map_of_mem (List.mem_of_getElem? htab'))
    · exact List.mem_cons_of_mem _ (List.mem_map_of_mem (List.mem_of_getElem? htab))
  constructor
  · exact (hs.workspace_place hws hws' rfl).1
  · have hget : (ws'.tabs.map (·.id))[l]? = (ws'.tabs.map (·.id))[j]? := by
      rw [List.getElem?_map, List.getElem?_map, htab, htab', Option.map_some, Option.map_some, hid]
    refine (List.getElem?_inj ?_ (hs.nodup_tabs hmem)).mp hget
    rw [List.length_map]
    exact (List.getElem?_eq_some_iff.mp htab').1

/-! ### Seeding -/

/-- An emptied workspace is seeded, or nothing happens; that is when it is the only one
or the spawn fails. -/
theorem changed_healEmptied (emptied : Option ℕ) (t : SessionManager) :
    (Unchanged t (t.healEmptied w emptied) ∧ (∀ q, q ∈ (t.healEmptied w emptied).panes ↔ q ∈ t.panes) ∧
        (w.SpawnsSucceed → 1 < t.layout.workspaces.length → ∀ i, emptied = some i →
          t.layout.workspaces.length ≤ i)) ∨
      ∃ i, emptied = some i ∧
        Changed (t.layout.workspaces.modify i
            (seedTab (w.newV4 (t.minted + 1)) ⟨w.newV4 t.minted⟩)) t.layout.activeWorkspace
          [.paneCreated ⟨w.newV4 t.minted⟩,
            .tabCreated i (w.newV4 (t.minted + 1)) ⟨w.newV4 t.minted⟩] t
          (t.healEmptied w emptied) ∧
        ∀ q, q ∈ (t.healEmptied w emptied).panes ↔ q ∈ t.panes ∨ q = ⟨w.newV4 t.minted⟩ := by
  unfold healEmptied
  split
  · exact Or.inl ⟨.refl t, fun _ => Iff.rfl, fun _ _ _ h => nomatch h⟩
  · rename_i i
    split_ifs with hlen
    · unfold autoSeedDefaultTab
      split_ifs with hi
      · refine Or.inl ⟨.refl t, fun _ => Iff.rfl, fun _ _ k hk => ?_⟩
        rw [← Option.some.inj hk]
        exact hi
      · cases hspawn : PtyBridge.spawn w t.spawned .default none none none true with
        | error e =>
          refine Or.inl ⟨.of_eq rfl rfl, fun _ => Iff.rfl, fun hw => ?_⟩
          obtain ⟨b, hb⟩ := PtyBridge.spawn_ok hw t.spawned .default none none none true
          rw [hb] at hspawn
          cases hspawn
        | ok bridge =>
          refine Or.inr ⟨i, rfl, ?_, fun q => ?_⟩
          · refine .trans_unchanged ?_ (unchanged_spawnDrainTask _ _)
            exact ⟨List.modify_modify_eq _ _ _ _, rfl, List.append_assoc _ _ _⟩
          · rw [spawnDrainTask_mem_panes, or_comm]
            exact PMap.mem_insert
    · exact Or.inl ⟨.refl t, fun _ => Iff.rfl, fun _ h => absurd h hlen⟩

/-- Tabs were dropped and panes unregistered, and what was emptied is healed. -/
theorem closed_healEmptied {i : ℕ} {drop : SessionTab → Bool} {gone : List PaneId}
    {told : List SessionEvent} {emptied : Option ℕ}
    (hchanged : Changed (s.layout.workspaces.modify i (dropTabs drop)) s.layout.activeWorkspace
      told s t)
    (hpanes : ∀ q, q ∈ t.panes ↔ q ∈ s.panes ∧ q ∉ gone) (hm : s.minted ≤ t.minted)
    {ws : SessionWorkspace} (hws : s.layout.workspaces[i]? = some ws)
    (hemptied : emptied = if (dropTabs drop ws).tabs = [] then some i else none) :
    Closed w i drop gone told s (t.healEmptied w emptied) := by
  have hlen : t.layout.workspaces.length = s.layout.workspaces.length := by
    rw [hchanged.workspaces, List.length_modify]
  obtain ⟨hi, -⟩ := List.getElem?_eq_some_iff.mp hws
  rcases changed_healEmptied (w := w) emptied t with ⟨hu, hp, hnot⟩ | ⟨k, hk, hc, hp⟩
  · refine .left (hchanged.trans_unchanged hu) (fun q => (hp q).trans (hpanes q)) fun hw h1 => ?_
    refine ⟨ws, hws, fun hnil => ?_⟩
    rw [if_pos hnil] at hemptied
    have hle := hnot hw (hlen ▸ h1) i hemptied
    omega
  · rw [hk] at hemptied
    split_ifs at hemptied with hnil
    obtain rfl := Option.some.inj hemptied
    refine .seeded t.minted hm (fun ws' hws' => ?_) ?_ fun q => (hp q).trans (or_congr_left (hpanes q))
    · rwa [← Option.some.inj (hws.symm.trans hws')]
    · rw [hchanged.workspaces, List.modify_modify_eq, hchanged.active] at hc
      exact hchanged.trans hc

/-! ### Closing a tab -/

/-- Only closings of panes are told. -/
theorem foldl_closeTabPane_sent (ps : List PaneId) (t : SessionManager) :
    ∃ qs : List PaneId, (ps.foldl closeTabPane t).eventTx.sent =
      t.eventTx.sent ++ qs.map .paneClosed := by
  induction ps generalizing t with
  | nil => exact ⟨[], (List.append_nil _).symm⟩
  | cons p ps ih =>
    obtain ⟨qs, hqs⟩ := ih (closeTabPane t p)
    rw [List.foldl_cons, hqs]
    unfold closeTabPane
    split_ifs
    · exact ⟨p :: qs, List.append_assoc _ _ _⟩
    · exact ⟨qs, rfl⟩

/-- The tab goes with its panes. -/
theorem closed_closeTab (hs : Identified w s) {tabId : Uuid} {i j : ℕ}
    (hfind : s.findTab tabId = some (i, j)) :
    ∃ ws tab, s.layout.workspaces[i]? = some ws ∧ tab ∈ ws.tabs ∧ tab.id = tabId ∧
      ∃ qs : List PaneId, Closed w i (fun t => t.id = tabId) tab.paneTree.leaves
        (qs.map .paneClosed ++ [.tabClosed i tabId]) s (s.closeTab w tabId).1 := by
  obtain ⟨ws, tab, hws, htab, rfl⟩ := findTab_spec hfind
  have herase : s.layout.workspaces.modify i
      (fun ws => clampActiveTab { ws with tabs := ws.tabs.eraseIdx j }) =
        s.layout.workspaces.modify i (dropTabs fun t => t.id = tab.id) := by
    refine modify_congr fun ws' hws' => ?_
    obtain rfl := Option.some.inj (hws.symm.trans hws')
    obtain ⟨pre, post, hsplit, -, -, he⟩ := exists_split htab
    have hd := hs.nodup_tabs (List.mem_of_getElem? hws)
    rw [hsplit, List.map_append, List.map_cons, List.nodup_middle, List.nodup_cons,
      List.mem_append, not_or] at hd
    have hkeep (l : List SessionTab) (h : tab.id ∉ l.map (·.id)) :
        l.filter (fun t => !decide (t.id = tab.id)) = l := by
      refine List.filter_eq_self.mpr fun t ht => ?_
      simpa using fun heq => h (List.mem_map.mpr ⟨t, ht, heq⟩)
    rw [dropTabs, he, hsplit, List.filter_append, List.filter_cons_of_neg (by simp),
      hkeep pre hd.1.1, hkeep post hd.1.2]
  have hu := unregisters_closeTabPane
  obtain ⟨qs, hsent⟩ := foldl_closeTabPane_sent tab.paneTree.leaves
    (s.modifyWorkspace i fun ws => clampActiveTab { ws with tabs := ws.tabs.eraseIdx j })
  refine ⟨ws, tab, hws, List.mem_of_getElem? htab, rfl, qs, ?_⟩
  rw [closeTab, hfind]
  simp only [hws, Option.bind_some, htab, Option.map_some, Option.getD_some, collectPaneIds_eq,
    List.nil_append]
  refine closed_healEmptied ⟨?_, ?_, ?_⟩ (fun q => ?_) ?_ hws ?_
  · rw [send_layout, hu.foldl_layout, modifyWorkspace_workspaces, herase]
  · rw [send_layout, hu.foldl_layout, modifyWorkspace_activeWorkspace]
  · show (List.foldl closeTabPane _ _).eventTx.sent ++ [_] = _
    rw [hsent, List.append_assoc]
    rfl
  · rw [send_panes, hu.foldl_mem_panes, modifyWorkspace_panes]
  · rw [send_minted, hu.foldl_minted]
    exact le_rfl
  · rw [send_layout, hu.foldl_layout, modifyWorkspace_workspaces, herase, List.getElem?_modify,
      hws]
    simp

/-! ### Closing a pane -/

/-- A workspace with tabs of the pane loses them. -/
theorem dropLeafTabsOf_some {p : PaneId} {i : ℕ} {ws : SessionWorkspace} {b : Option ℕ}
    (h : (dropLeafTabsOf p i ws).2 = some b) :
    (ws.tabs.any fun tab => tab.paneTree = .leaf p) = true ∧
      (dropLeafTabsOf p i ws).1 = dropTabs (fun tab => tab.paneTree = .leaf p) ws ∧
      b = if (dropTabs (fun tab => tab.paneTree = .leaf p) ws).tabs = [] then some i else none := by
  have hkept : (ws.tabs.filter fun tab => !decide (tab.paneTree = .leaf p)) =
      ws.tabs.filter fun tab => tab.paneTree ≠ .leaf p := by
    refine List.filter_congr fun tab _ => ?_
    simp
  have hany : (ws.tabs.any fun tab => tab.paneTree = .leaf p) = true := by
    by_contra hno
    have hall : ∀ tab ∈ ws.tabs, tab.paneTree ≠ .leaf p := by simpa using hno
    rw [dropLeafTabsOf_eq_none.mpr hall] at h
    cases h
  refine ⟨hany, ?_⟩
  unfold dropLeafTabsOf at h ⊢
  rw [dropTabs_tabs, dropTabs, hkept]
  dsimp only at h ⊢
  split_ifs at h ⊢ <;> exact ⟨rfl, (Option.some.inj h).symm⟩

/-- The place where the pane has tabs of its own, and what is left of the list. -/
theorem dropLeafTabs_of_findIdx? {p : PaneId} {wss : List SessionWorkspace} {i : ℕ}
    (h : (wss.findIdx? fun ws => ws.tabs.any fun tab => tab.paneTree = .leaf p) = some i) :
    ∃ ws, wss[i]? = some ws ∧ (ws.tabs.any fun tab => tab.paneTree = .leaf p) = true ∧
      (dropLeafTabs p wss).1 = wss.modify i (dropTabs fun tab => tab.paneTree = .leaf p) ∧
      (dropLeafTabs p wss).2.getD none =
        if (dropTabs (fun tab => tab.paneTree = .leaf p) ws).tabs = [] then some i else none := by
  obtain ⟨hi, hany, hbefore⟩ := List.findIdx?_eq_some_iff_getElem.mp h
  cases hr : (dropLeafTabs p wss).2 with
  | none =>
    have hno := dropLeafTabsOf_eq_none.mp ((visit_none quiet_dropLeafTabsOf hr).2 i hi)
    obtain ⟨tab, htab, hleaf⟩ := List.any_eq_true.mp hany
    exact absurd (of_decide_eq_true hleaf) (hno tab htab)
  | some b =>
    obtain ⟨pre, ws, post, hsplit, hf, hout, hnone⟩ := visit_some quiet_dropLeafTabsOf hr
    obtain ⟨hws, hdrop, rfl⟩ := dropLeafTabsOf_some hf
    have hfind : (wss.findIdx? fun ws => ws.tabs.any fun tab => tab.paneTree = .leaf p) =
        some pre.length := by
      rw [hsplit, List.findIdx?_eq_some_iff_getElem]
      refine ⟨by simp, by simpa using hws, fun j hj => ?_⟩
      rw [List.getElem_append_left hj]
      simpa using dropLeafTabsOf_eq_none.mp (hnone j hj)
    obtain rfl := Option.some.inj (h.symm.trans hfind)
    refine ⟨ws, by rw [hsplit]; simp, hws, ?_, rfl⟩
    rw [dropLeafTabs, hout, hdrop, hsplit, modify_append_cons]

theorem closed_closePane {p : PaneId} {i : ℕ} (hp : p ∈ s.panes)
    (h : (s.layout.workspaces.findIdx? fun ws => ws.tabs.any fun tab => tab.paneTree = .leaf p) =
      some i) :
    Closed w i (fun tab => tab.paneTree = .leaf p) [p] [.paneClosed p] s (s.closePane w p).1 := by
  obtain ⟨ws, hws, -, hwss, hemptied⟩ := dropLeafTabs_of_findIdx? h
  rw [closePane, if_pos hp]
  refine closed_healEmptied ⟨hwss, rfl, rfl⟩ (fun q => ?_) le_rfl hws hemptied
  rw [List.mem_singleton, and_comm]
  exact PMap.mem_erase

/-- A pane without a tab of its own leaves the layout as it was. -/
theorem changed_closePane_of_none {p : PaneId} (hp : p ∈ s.panes)
    (h : (s.layout.workspaces.findIdx? fun ws => ws.tabs.any fun tab => tab.paneTree = .leaf p) =
      none) :
    Changed s.layout.workspaces s.layout.activeWorkspace [.paneClosed p] s (s.closePane w p).1 ∧
      ∀ q, q ∈ (s.closePane w p).1.panes ↔ q ∈ s.panes ∧ q ∉ [p] := by
  have hno : dropLeafTabs p s.layout.workspaces = (s.layout.workspaces, none) := by
    refine dropLeafTabs_of_forall fun ws hws tab htab => ?_
    have hany := List.findIdx?_eq_none_iff.mp h ws hws
    have hall : ∀ tab ∈ ws.tabs, tab.paneTree ≠ .leaf p := by simpa using hany
    exact hall tab htab
  rw [closePane, if_pos hp]
  dsimp only
  rw [unregister_layout, hno]
  refine ⟨⟨rfl, rfl, rfl⟩, fun q => ?_⟩
  rw [List.mem_singleton, and_comm]
  exact PMap.mem_erase

theorem closePane_of_not_mem {p : PaneId} (hp : p ∉ s.panes) : (s.closePane w p).1 = s := by
  rw [closePane, if_neg hp]

end Drop

end SessionManager

end Forgetty
