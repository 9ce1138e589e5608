import Forgetty.Session.Edits

/-! The active workspace and the active tabs are stored as indices. Every call that
moves, adds or drops a workspace carries the index along, and so does moving a tab.
Dropping tabs does not: the index is only clamped, so it stays with its tab exactly if
no tab in front of it is dropped or it is the last that is left. -/

namespace Forgetty

open Lib

/-- The active tab of a workspace is the active one later, if it is still there. -/
def KeepsActiveTab (ws ws' : SessionWorkspace) : Prop :=
  ∀ tab, ws.tabs[ws.activeTab]? = some tab → tab.id ∈ ws'.tabs.map (·.id) →
    (ws'.tabs[ws'.activeTab]?).map (·.id) = some tab.id

namespace SessionManager

/-- What is active stays active where it is still there. -/
structure KeepsFocus (s t : SessionManager) : Prop where
  workspace : ∀ ws, s.layout.workspaces[s.layout.activeWorkspace]? = some ws →
    ws.id ∈ t.layout.workspaces.map (·.id) →
    (t.layout.workspaces[t.layout.activeWorkspace]?).map (·.id) = some ws.id
  tabs : ∀ ws ∈ s.layout.workspaces, ∀ ws' ∈ t.layout.workspaces, ws'.id = ws.id →
    KeepsActiveTab ws ws'

/-- The calls that are made to move the focus. -/
def Refocuses : Call → Prop
  | .op (.setActiveWorkspace _) | .op (.setActiveTab ..) => True
  | _ => False

/-- The active tab is dropped, or nothing in front of it is, or all that is behind it. -/
def InPlace (drop : SessionTab → Bool) (ws : SessionWorkspace) : Prop :=
  ∀ tab, ws.tabs[ws.activeTab]? = some tab → drop tab = false →
    (∀ t ∈ ws.tabs.take ws.activeTab, drop t = false) ∨
      ∀ t ∈ ws.tabs.drop (ws.activeTab + 1), drop t = true

/-- The call drops tabs only where the active one keeps its place. -/
def DropsInPlace (s : SessionManager) (call : Call) : Prop :=
  ∀ i drop ws, s.dropped call = some (i, drop) → s.layout.workspaces[i]? = some ws →
    InPlace drop ws

section Rules

variable {w : World} {s t : SessionManager}

theorem KeepsActiveTab.refl (ws : SessionWorkspace) : KeepsActiveTab ws ws := by
  intro tab htab _
  rw [htab]
  rfl

/-- Tabs that come behind the others. -/
theorem keepsActiveTab_append (ws : SessionWorkspace) (new : List SessionTab) :
    KeepsActiveTab ws { ws with tabs := ws.tabs ++ new } := by
  intro tab htab _
  obtain ⟨hlt, -⟩ := List.getElem?_eq_some_iff.mp htab
  show ((ws.tabs ++ new)[ws.activeTab]?).map _ = _
  rw [List.getElem?_append_left hlt, htab]
  rfl

/-- Tabs that are changed and keep their ids. -/
theorem keepsActiveTab_of_ids {ws ws' : SessionWorkspace}
    (hids : ws'.tabs.map (·.id) = ws.tabs.map (·.id)) (hactive : ws'.activeTab = ws.activeTab) :
    KeepsActiveTab ws ws' := by
  intro tab htab _
  rw [hactive, ← List.getElem?_map, hids, List.getElem?_map, htab]
  rfl

/-- The workspaces are the same, each with its active tab. -/
theorem keepsFocus_of_forall₂ (hs : Identified w s)
    (hactive : t.layout.activeWorkspace = s.layout.activeWorkspace)
    (h : List.Forall₂ (fun ws ws' => ws'.id = ws.id ∧ KeepsActiveTab ws ws')
      s.layout.workspaces t.layout.workspaces) : KeepsFocus s t := by
  obtain ⟨hlen, hall⟩ := forall₂_iff_getElem?.mp h
  constructor
  · intro ws hws _
    obtain ⟨hlt, -⟩ := List.getElem?_eq_some_iff.mp hws
    rw [hlen] at hlt
    have hget := List.getElem?_eq_getElem hlt
    rw [hactive, hget, Option.map_some, (hall _ _ _ hws hget).1]
  · intro ws hws ws' hws' hid
    obtain ⟨i, hi⟩ := List.mem_iff_getElem?.mp hws
    obtain ⟨j, hj⟩ := List.mem_iff_getElem?.mp hws'
    obtain ⟨hjlt, -⟩ := List.getElem?_eq_some_iff.mp hj
    rw [← hlen] at hjlt
    have hget := List.getElem?_eq_getElem hjlt
    obtain ⟨hid', hkeeps⟩ := hall _ _ _ hget hj
    have hsame : ws = s.layout.workspaces[j] :=
      List.inj_on_of_nodup_map hs.workspaceIds_nodup hws (List.getElem_mem hjlt)
        (hid.symm.trans hid')
    rw [hsame]
    exact hkeeps

/-- One workspace is changed, and its active tab stays. -/
theorem Changed.keepsFocus_modify {i : ℕ} {f : SessionWorkspace → SessionWorkspace}
    {es : List SessionEvent} (hs : Identified w s)
    (h : Changed (s.layout.workspaces.modify i f) s.layout.activeWorkspace es s t)
    (hf : ∀ ws, s.layout.workspaces[i]? = some ws → (f ws).id = ws.id ∧ KeepsActiveTab ws (f ws)) :
    KeepsFocus s t := by
  refine keepsFocus_of_forall₂ hs h.active ?_
  rw [h.workspaces, forall₂_iff_getElem?]
  refine ⟨(List.length_modify ..).symm, fun j ws ws' hj hj' => ?_⟩
  rw [List.getElem?_modify] at hj'
  obtain ⟨old, hold, rfl⟩ := Option.map_eq_some_iff.mp hj'
  obtain rfl := Option.some.inj (hj.symm.trans hold)
  split_ifs with hij
  · exact hf ws (hij ▸ hj)
  · exact ⟨rfl, KeepsActiveTab.refl ws⟩

/-- Each workspace is as it was, or has an id that was not in the layout. -/
theorem keepsFocus_of_ids (hs : Identified w s)
    (hwss : ∀ ws ∈ t.layout.workspaces, ws ∈ s.layout.workspaces ∨ ws.id ∉ s.layout.ids)
    (hactive : ∀ ws, s.layout.workspaces[s.layout.activeWorkspace]? = some ws →
      ws.id ∈ t.layout.workspaces.map (·.id) →
      t.layout.workspaces[t.layout.activeWorkspace]? = some ws) : KeepsFocus s t where
  workspace ws hws hmem := by
    rw [hactive ws hws hmem]
    rfl
  tabs ws hws ws' hws' hid := by
    rcases hwss ws' hws' with hold | hnew
    · rw [List.inj_on_of_nodup_map hs.workspaceIds_nodup hold hws hid]
      exact KeepsActiveTab.refl ws
    · exact absurd (SessionLayout.id_mem_ids hws) (hid ▸ hnew)

/-- Workspaces that are new have ids that were in no layout before. -/
theorem keepsFocus_of_new (hs : Identified w s) (new : SessionWorkspace) {n : ℕ}
    (hn : s.minted ≤ n) (hnew : new.id = w.newV4 n)
    (hwss : ∀ ws ∈ t.layout.workspaces, ws = new ∨ ws ∈ s.layout.workspaces)
    (hactive : ∀ ws, s.layout.workspaces[s.layout.activeWorkspace]? = some ws →
      ws.id ∈ t.layout.workspaces.map (·.id) →
      t.layout.workspaces[t.layout.activeWorkspace]? = some ws) : KeepsFocus s t := by
  refine keepsFocus_of_ids hs (fun ws hws => ?_) hactive
  rcases hwss ws hws with rfl | hold
  · rw [hnew]
    exact Or.inr (hs.fresh n hn)
  · exact Or.inl hold

/-- The same when no workspace is new. -/
theorem keepsFocus_of_old (hs : Identified w s)
    (hwss : t.layout.workspaces ⊆ s.layout.workspaces)
    (hactive : ∀ ws, s.layout.workspaces[s.layout.activeWorkspace]? = some ws →
      ws.id ∈ t.layout.workspaces.map (·.id) →
      t.layout.workspaces[t.layout.activeWorkspace]? = some ws) : KeepsFocus s t :=
  keepsFocus_of_ids hs (fun _ hws => Or.inl (hwss hws)) hactive

end Rules

/-! ### Tabs that are dropped -/

section Drop

variable {w : World} {s t : SessionManager}

/-- Clamping, as a minimum. -/
theorem clampActiveTab_activeTab {ws : SessionWorkspace} (h : ws.tabs ≠ []) :
    (clampActiveTab ws).activeTab = min ws.activeTab (ws.tabs.length - 1) := by
  have hpos := List.length_pos_iff.mpr h
  unfold clampActiveTab
  split_ifs with hc
  · show ws.tabs.length - 1 = _
    omega
  · have hlt : ¬ws.tabs.length ≤ ws.activeTab := fun hle => hc ⟨hle, h⟩
    omega

/-- The active tab keeps its place exactly if tabs are dropped in place. -/
theorem keepsActiveTab_dropTabs_iff {ws : SessionWorkspace} (hd : (ws.tabs.map (·.id)).Nodup)
    (drop : SessionTab → Bool) : KeepsActiveTab ws (dropTabs drop ws) ↔ InPlace drop ws := by
  refine forall_congr' fun tab => forall_congr' fun htab => ?_
  obtain ⟨pre, post, hsplit, hlen, -, -⟩ := exists_split htab
  have hinj := List.inj_on_of_nodup_map hd
  have hkept : tab.id ∈ (dropTabs drop ws).tabs.map (·.id) ↔ drop tab = false := by
    rw [dropTabs_tabs]
    constructor
    · intro hmem
      obtain ⟨t, ht, hid⟩ := List.mem_map.mp hmem
      obtain ⟨ht, hdrop⟩ := List.mem_filter.mp ht
      obtain rfl := hinj ht (List.mem_of_getElem? htab) hid
      simpa using hdrop
    · intro hdrop
      exact List.mem_map_of_mem (List.mem_filter.mpr ⟨List.mem_of_getElem? htab, by simp [hdrop]⟩)
  rw [hkept]
  refine forall_congr' fun hdrop => ?_
  have hfilter : ws.tabs.filter (fun t => !drop t) =
      pre.filter (fun t => !drop t) ++ tab :: post.filter fun t => !drop t := by
    rw [hsplit, List.filter_append, List.filter_cons_of_pos (by simp [hdrop])]
  have hne : ws.tabs.filter (fun t => !drop t) ≠ [] := by
    rw [hfilter]
    exact List.append_ne_nil_of_right_ne_nil _ (List.cons_ne_nil _ _)
  have hindex : (dropTabs drop ws).activeTab =
      min pre.length (((pre ++ tab :: post).filter fun t => !drop t).length - 1) := by
    rw [dropTabs, clampActiveTab_activeTab hne, ← hsplit, hlen]
  have hids : ((ws.tabs.filter fun t => !drop t).map (·.id)).Nodup :=
    hd.sublist (List.filter_sublist.map _)
  have hplace : (((dropTabs drop ws).tabs[(dropTabs drop ws).activeTab]?).map (·.id) = some tab.id) ↔
      (dropTabs drop ws).activeTab = (pre.filter fun t => !drop t).length := by
    have hget : ((ws.tabs.filter fun t => !drop t).map (·.id))[(pre.filter fun t => !drop t).length]? =
        some tab.id := by
      rw [hfilter, List.map_append, List.map_cons, List.getElem?_append_right (by simp)]
      simp
    rw [← List.getElem?_map, dropTabs_tabs]
    constructor
    · intro h
      exact (List.getElem?_inj (List.getElem?_eq_some_iff.mp h).1 hids).mp (h.trans hget.symm)
    · intro h
      rw [h]
      exact hget
  rw [hplace, hindex, min_length_filter_iff (by simp [hdrop])]
  have htake : ws.tabs.take ws.activeTab = pre := by
    rw [hsplit, ← hlen, List.take_left]
  have hrest : ws.tabs.drop (ws.activeTab + 1) = post := by
    rw [hsplit, ← hlen]
    simp
  rw [htake, hrest]
  simp

theorem modified_mem {wss : List SessionWorkspace} {i : ℕ} {f : SessionWorkspace → SessionWorkspace}
    {ws : SessionWorkspace} (h : wss[i]? = some ws) : f ws ∈ wss.modify i f := by
  refine List.mem_of_getElem? (i := i) ?_
  rw [List.getElem?_modify, h]
  simp

/-- Dropping tabs keeps the focus exactly if they are dropped in place. -/
theorem Closed.focus_kept_iff {i : ℕ} {drop : SessionTab → Bool} {gone : List PaneId}
    {told : List SessionEvent} (hs : Identified w s) (h : Closed w i drop gone told s t) :
    KeepsFocus s t ↔ ∀ ws, s.layout.workspaces[i]? = some ws → InPlace drop ws := by
  cases h with
  | left changed panes unhealed =>
    constructor
    · intro hk ws hws
      have hmem := List.mem_of_getElem? hws
      rw [← keepsActiveTab_dropTabs_iff (hs.nodup_tabs hmem)]
      refine hk.tabs ws hmem (dropTabs drop ws) ?_ (dropTabs_id drop ws)
      rw [changed.workspaces]
      exact modified_mem hws
    · intro hplace
      refine changed.keepsFocus_modify hs fun ws hws => ⟨dropTabs_id drop ws, ?_⟩
      rw [keepsActiveTab_dropTabs_iff (hs.nodup_tabs (List.mem_of_getElem? hws))]
      exact hplace ws hws
  | seeded n minted emptied changed panes =>
    -- no tab is left, and the new one has an id of its own
    refine iff_of_true ?_ fun ws hws tab htab hdrop => ?_
    · refine changed.keepsFocus_modify hs fun ws hws =>
        ⟨dropTabs_id drop ws, fun tab htab hkept => ?_⟩
      have hids : (seedTab (w.newV4 (n + 1)) ⟨w.newV4 n⟩ (dropTabs drop ws)).tabs.map (·.id) =
          [w.newV4 (n + 1)] := by
        show ((dropTabs drop ws).tabs ++ [_]).map _ = _
        rw [emptied ws hws]
        rfl
      rw [hids, List.mem_singleton] at hkept
      refine absurd ?_ (hs.fresh (n + 1) (by omega))
      rw [← hkept]
      refine List.mem_flatMap.mpr ⟨ws, List.mem_of_getElem? hws, List.mem_cons_of_mem _ ?_⟩
      exact List.mem_map_of_mem (List.mem_of_getElem? htab)
    · have hkept := mem_dropTabs.mpr ⟨List.mem_of_getElem? htab, hdrop⟩
      rw [emptied ws hws] at hkept
      exact absurd hkept List.not_mem_nil

end Drop

/-! ### Edits -/

section Edits

variable {w : World} {s t : SessionManager}

theorem Changed.keepsFocus_same {es : List SessionEvent} (hs : Identified w s)
    (h : Changed s.layout.workspaces s.layout.activeWorkspace es s t) : KeepsFocus s t := by
  refine keepsFocus_of_forall₂ hs h.active ?_
  rw [h.workspaces]
  exact List.forall₂_same.mpr fun ws _ => ⟨rfl, KeepsActiveTab.refl ws⟩

/-- A tab that comes last. -/
theorem Changed.keepsFocus_addTab {i : ℕ} {tabId : Uuid} {p : PaneId} {es : List SessionEvent}
    (hs : Identified w s)
    (h : Changed (s.layout.workspaces.modify i (addTab tabId p)) s.layout.activeWorkspace es s t) :
    KeepsFocus s t :=
  h.keepsFocus_modify hs fun ws _ => ⟨rfl, keepsActiveTab_append ws [_]⟩

/-- The active index follows the active tab when a tab moves. -/
theorem keepsActiveTab_moveTabTo (j k : ℕ) (tab : SessionTab) (ws : SessionWorkspace) :
    KeepsActiveTab ws (moveTabTo j k tab ws) := by
  intro active hactive hmem
  obtain ⟨n, hn⟩ : ∃ n, (moveTabTo j k tab ws).tabs.findIdx? (·.id = active.id) = some n := by
    refine Option.isSome_iff_exists.mp (List.findIdx?_isSome.trans ?_)
    obtain ⟨t, ht, hid⟩ := List.mem_map.mp hmem
    exact List.any_eq_true.mpr ⟨t, ht, decide_eq_true hid⟩
  obtain ⟨hlt, hid, -⟩ := List.findIdx?_eq_some_iff_getElem.mp hn
  have hfollow : (moveTabTo j k tab ws).activeTab = n := by
    show (((ws.tabs[ws.activeTab]?).map (·.id)).bind fun activeId =>
      (moveTabTo j k tab ws).tabs.findIdx? (·.id = activeId)).getD ws.activeTab = n
    rw [hactive, Option.map_some, Option.bind_some, hn, Option.getD_some]
  rw [hfollow, List.getElem?_eq_getElem hlt, Option.map_some, of_decide_eq_true hid]

/-- The active index shifts with the workspaces behind the one that goes. -/
theorem keepsFocus_workspaceDeleted (hs : Identified w s) {i : ℕ} {ws : SessionWorkspace}
    {es : List SessionEvent} (hws : s.layout.workspaces[i]? = some ws)
    (hlen : 1 < s.layout.workspaces.length)
    (h : Changed (s.layout.workspaces.eraseIdx i)
      (if i < s.layout.activeWorkspace then s.layout.activeWorkspace - 1
        else if s.layout.workspaces.length - 1 ≤ s.layout.activeWorkspace then
          s.layout.workspaces.length - 2
        else s.layout.activeWorkspace) es s t) : KeepsFocus s t := by
  refine keepsFocus_of_old hs ?_ fun active hactive hmem => ?_
  · rw [h.workspaces]
    exact (List.eraseIdx_sublist _ i).subset
  · obtain ⟨hlt, -⟩ := List.getElem?_eq_some_iff.mp hactive
    obtain ⟨hi, -⟩ := List.getElem?_eq_some_iff.mp hws
    have hne : s.layout.activeWorkspace ≠ i := by
      rintro rfl
      obtain rfl := Option.some.inj (hactive.symm.trans hws)
      obtain ⟨pre, post, hsplit, -, -, he⟩ := exists_split hws
      have hd := hs.workspaceIds_nodup
      rw [hsplit, List.map_append, List.map_cons, List.nodup_middle, List.nodup_cons] at hd
      rw [h.workspaces, he, List.map_append] at hmem
      exact hd.1 hmem
    rw [h.workspaces, h.active, List.getElem?_eraseIdx, ← hactive]
    split_ifs <;> first | omega | (congr 1 <;> omega)

/-- An edit keeps the focus. -/
theorem Edit.keepsFocus (hs : Identified w s) (h : Edit w s t) : KeepsFocus s t := by
  cases h with
  | quiet es output changed => exact changed.keepsFocus_same hs
  | split i ws j tab p q direction ratio hws htab hp changed =>
    refine changed.keepsFocus_modify hs fun ws' _ => ⟨rfl, keepsActiveTab_of_ids ?_ rfl⟩
    apply map_modify_of_eq
    exact fun _ => rfl
  | tabMoved i ws j k tab hws htab hk changed =>
    exact changed.keepsFocus_modify hs fun ws' _ => ⟨rfl, keepsActiveTab_moveTabTo j k tab ws'⟩
  | workspaceMade name changed =>
    refine keepsFocus_of_new hs (emptyWorkspace (w.newV4 s.minted) name) le_rfl rfl
      (fun ws hws => ?_) fun ws hws _ => ?_
    · rw [changed.workspaces] at hws
      rcases List.mem_append.mp hws with hws | hws
      · exact Or.inr hws
      · exact Or.inl (List.mem_singleton.mp hws)
    · obtain ⟨hlt, -⟩ := List.getElem?_eq_some_iff.mp hws
      rw [changed.workspaces, changed.active]
      exact (List.getElem?_append_left hlt).trans hws
  | workspaceDeleted i ws hws hlen changed =>
    exact keepsFocus_workspaceDeleted hs hws hlen changed
  | duplicated i n dupName dupTabs hi hn changed =>
    refine keepsFocus_of_new hs
      { id := w.newV4 n
        name := dupName
        tabs := dupTabs.map fun dt => .ofLeaf dt.tabId dt.paneId
        activeTab := 0
        color := none } hn rfl (fun ws hws => ?_) fun ws hws _ => ?_
    · rw [changed.workspaces] at hws
      exact (List.mem_insertIdx (by omega)).mp hws
    · rw [changed.workspaces, changed.active, ← hws]
      exact getElem?_insertIdx_shift _ _ _ _
  | swapped i j u v hi hj changed =>
    refine keepsFocus_of_old hs ?_ fun ws hws _ => ?_
    · rw [changed.workspaces]
      exact (swapIdx_perm s.layout.workspaces i j).subset
    · rw [changed.workspaces, changed.active]
      exact (getElem?_swapIdx_follow hi hj _).trans hws
  | renamed i id name changed =>
    exact changed.keepsFocus_modify hs fun ws _ => ⟨rfl, keepsActiveTab_of_ids rfl rfl⟩
  | colored i id color changed =>
    exact changed.keepsFocus_modify hs fun ws _ => ⟨rfl, keepsActiveTab_of_ids rfl rfl⟩
  | ratios updates changed =>
    refine keepsFocus_of_forall₂ hs changed.active ?_
    rw [changed.workspaces, List.forall₂_map_right_iff]
    refine List.forall₂_same.mpr fun ws _ => ⟨rfl, keepsActiveTab_of_ids ?_ rfl⟩
    rw [List.map_map]
    rfl

end Edits

/-- In every state any calls lead to, a call that is not made to move the focus keeps it
exactly if it drops tabs only where the active one keeps its place. -/
theorem keepsFocus_iff (w : World) (hw : Function.Injective w.newV4) (s : SessionManager)
    (hs : Reached w s) (call : Call) (hc : ¬Refocuses call) :
    KeepsFocus s (s.invoke w call) ↔ DropsInPlace s call := by
  have hid := hs.identified hw
  have hnone (h : s.dropped call = none) (hkeep : KeepsFocus s (s.invoke w call)) :
      KeepsFocus s (s.invoke w call) ↔ DropsInPlace s call := by
    refine iff_of_true hkeep fun i drop ws hd => ?_
    rw [h] at hd
    cases hd
  have hsome {i : ℕ} {drop : SessionTab → Bool} {gone : List PaneId} {told : List SessionEvent}
      (hd : s.dropped call = some (i, drop)) (h : Closed w i drop gone told s (s.invoke w call)) :
      KeepsFocus s (s.invoke w call) ↔ DropsInPlace s call := by
    rw [h.focus_kept_iff hid]
    constructor
    · intro h k drop' ws hk hws
      rw [hd] at hk
      obtain ⟨rfl, rfl⟩ := Prod.mk.inj (Option.some.inj hk)
      exact h ws hws
    · exact fun h ws hws => h i drop ws hd hws
  cases outcome_invoke hid call with
  | unchanged call hd h => exact hnone hd (h.keepsFocus_same hid)
  | edit call hedits h => exact hnone (hedits.dropped s) (h.keepsFocus hid)
  | paneMade size cwd command shell login changed =>
    exact hnone rfl (changed.keepsFocus_addTab hid)
  | tabMade call i tabId p hcall changed =>
    refine hnone ?_ (changed.keepsFocus_addTab hid)
    exact dropped_of_madeIn hcall s
  | paneClosed p hp hd changed => exact hnone hd (changed.keepsFocus_same hid)
  | leafClosed p i ws hws hleaf hd h => exact hsome hd h
  | tabClosed i ws tab qs hws htab hd h => exact hsome hd h
  | tabActivated i j changed => exact absurd trivial hc
  | workspaceActivated i hi changed => exact absurd trivial hc
  | paneActivated i tabId p ws tab hws htab hp changed =>
    refine hnone rfl (changed.keepsFocus_modify hid fun ws' _ => ⟨rfl, keepsActiveTab_of_ids ?_ rfl⟩)
    apply map_modify_of_eq
    exact fun _ => rfl

/-- Three tabs, the second of them active. -/
def secondOfThree : SessionManager :=
  run (invoke .counting) (fresh .counting .empty 1024 10)
    [.op (.createTab 0 none .default none), .op (.createTab 0 none .default none),
      .op (.createTab 0 none .default none), .op (.setActiveTab 0 1)]

/-- The first tab is closed, and the third becomes the active one. -/
theorem not_keepsFocus_closeFirst :
    Reached .counting secondOfThree ∧
      ¬KeepsFocus secondOfThree (secondOfThree.invoke .counting (.op (.closeTab ⟨2⟩))) := by
  refine ⟨⟨_, _, _, _, rfl⟩, fun h => ?_⟩
  have hkeeps := h.tabs _ (List.mem_singleton.mpr rfl) _ (List.mem_singleton.mpr rfl) rfl
  have hactive := hkeeps (.ofLeaf ⟨4⟩ ⟨⟨3⟩⟩) (by decide) (by decide)
  exact absurd hactive (by decide)

/-- The third tab is closed. -/
theorem keepsFocus_closeThird :
    KeepsFocus secondOfThree (secondOfThree.invoke .counting (.op (.closeTab ⟨6⟩))) := by
  refine (keepsFocus_iff .counting World.counting_injective secondOfThree ⟨_, _, _, _, rfl⟩
    (.op (.closeTab ⟨6⟩)) id).mpr ?_
  intro i drop ws hd hws tab htab hdrop
  obtain ⟨rfl, rfl⟩ := Prod.mk.inj (Option.some.inj hd)
  obtain rfl := Option.some.inj hws
  exact Or.inl (by decide)

end SessionManager

end Forgetty
