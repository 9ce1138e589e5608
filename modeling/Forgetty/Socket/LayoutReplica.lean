import Forgetty.Socket.SubscribeLayout
import Forgetty.Lib.Replica

/-! A client that follows the layout notifications. Two changes are not told to it: the
tab `create_pane` makes, and the tabs that go with a pane that is closed. Every other
call is told in full, so a copy stays right, up to ratios and titles, exactly as long as
no call makes one of these changes. -/

namespace Forgetty

open Lib

namespace SessionManager

/-- The call changes nothing that subscribers are not told. A tab that is made in a
workspace without tabs is taken for the active one. -/
def Announced (w : World) (s : SessionManager) : Call → Prop
  | .op (.createPane size cwd command shell login) =>
    ∃ e, PtyBridge.spawn w s.spawned size cwd command shell login = .error e
  | .op (.closePane p) =>
    p ∈ s.panes → ∀ ws ∈ s.layout.workspaces, ∀ tab ∈ ws.tabs, tab.paneTree ≠ .leaf p
  | .op (.createTab i cwd size command) | .createTabWithPaneId i cwd size command _ =>
    (∃ bridge, PtyBridge.spawn w s.spawned size cwd command none true = .ok bridge) →
      ∀ ws, s.layout.workspaces[i]? = some ws → ws.tabs = [] → ws.activeTab = 0
  | _ => True

/-- The layout, as far as subscribers can know it. -/
def shown (s : SessionManager) : SessionLayout := s.layout.bare

/-- The events so far. -/
def events (s : SessionManager) : List SessionEvent := s.eventTx.sent

/-- What a subscriber makes of an event. -/
def hear (l : SessionLayout) (e : SessionEvent) : SessionLayout :=
  match handleSubscribeLayout e with
  | some n => l.onNotification n
  | none => l

/-- Subscribers are told all that happened between the states. -/
abbrev Heard (s t : SessionManager) : Prop := Told shown events hear s t

section Rules

variable {s t : SessionManager} {wss : List SessionWorkspace} {i : ℕ} {es : List SessionEvent}

theorem foldl_hear (es : List SessionEvent) (l : SessionLayout) :
    es.foldl hear l.bare =
      ((es.filterMap handleSubscribeLayout).foldl SessionLayout.onNotification l).bare := by
  rw [SessionLayout.bare_foldl_onNotification, List.foldl_filterMap]
  congr 1
  funext l e
  rw [hear]
  cases handleSubscribeLayout e <;> rfl

/-- The replica of a subscriber is the copy that follows its notifications. -/
theorem replica_eq (s t : SessionManager) :
    replica shown events hear s t =
      ((s.layoutStream t).foldl SessionLayout.onNotification s.layout).bare :=
  foldl_hear _ s.layout

/-- A change is told in full if the copy that hears of it is the new layout. -/
theorem Changed.heard_iff (h : Changed wss i es s t) :
    Heard s t ↔ (SessionLayout.mk wss i).bare =
      ((es.filterMap handleSubscribeLayout).foldl SessionLayout.onNotification s.layout).bare := by
  have hlayout : t.layout = ⟨wss, i⟩ := by rw [← h.workspaces, ← h.active]
  have hlog : events t = events s ++ es := h.sent
  rw [Heard, told_iff hlog, shown, shown, hlayout, foldl_hear]

theorem Changed.heard (h : Changed wss i es s t) (ns : List LayoutNotification)
    (hns : es.filterMap handleSubscribeLayout = ns)
    (hbare : (SessionLayout.mk wss i).bare =
      (ns.foldl SessionLayout.onNotification s.layout).bare) : Heard s t := by
  rw [h.heard_iff, hns]
  exact hbare

/-- Nothing that a subscriber sees is changed, and it hears nothing. -/
theorem Changed.heard_silent (h : Changed s.layout.workspaces s.layout.activeWorkspace es s t)
    (hns : es.filterMap handleSubscribeLayout = []) : Heard s t :=
  h.heard [] hns rfl

theorem filterMap_map_paneClosed (ps : List PaneId) :
    (ps.map SessionEvent.paneClosed).filterMap handleSubscribeLayout = [] := by
  rw [List.filterMap_map]
  exact List.filterMap_eq_nil_iff.mpr fun _ _ => rfl

end Rules

/-! ### Tabs that come and go -/

section Tabs

variable {w : World} {s t : SessionManager} {i : ℕ}

theorem modifyAt_congr {f g : SessionWorkspace → SessionWorkspace} {l : SessionLayout}
    (h : ∀ ws, l.workspaces[i]? = some ws → (f ws).bare = (g ws).bare) :
    (l.modifyAt i f).bare = (l.modifyAt i g).bare := by
  have hwss := map_modify_congr h
  simp only [SessionLayout.bare, SessionLayout.modifyAt, hwss]

/-- Where the workspace is, what one sees of it differs if the layouts do. -/
theorem bare_eq_of_modifyAt {f g : SessionWorkspace → SessionWorkspace} {l : SessionLayout}
    {ws : SessionWorkspace} (hws : l.workspaces[i]? = some ws)
    (h : (l.modifyAt i f).bare = (l.modifyAt i g).bare) : (f ws).bare = (g ws).bare := by
  have hget := congrArg (fun l => l.workspaces[i]?) h
  simp only [SessionLayout.bare, SessionLayout.modifyAt, List.getElem?_map, List.getElem?_modify,
    hws] at hget
  simpa using hget

/-- A tab that is told of is taken for the active one if it is the first. -/
theorem Changed.addTab_heard_iff {tabId : Uuid} {p : PaneId}
    (h : Changed (s.layout.workspaces.modify i (addTab tabId p)) s.layout.activeWorkspace
      [.paneCreated p, .tabCreated i tabId p] s t) :
    Heard s t ↔
      ∀ ws, s.layout.workspaces[i]? = some ws → ws.tabs = [] → ws.activeTab = 0 := by
  rw [h.heard_iff]
  show (s.layout.modifyAt i (addTab tabId p)).bare = (s.layout.modifyAt i (showTab tabId p)).bare ↔ _
  constructor
  · intro heq ws hws hnil
    have hactive := congrArg SessionWorkspace.activeTab (bare_eq_of_modifyAt hws heq)
    simpa [SessionWorkspace.bare, addTab, showTab, hnil] using hactive
  · intro hzero
    refine modifyAt_congr fun ws hws => congrArg SessionWorkspace.bare ?_
    rw [showTab]
    split_ifs with hnil
    · rw [← hzero ws hws hnil]
      rfl
    · rfl

/-- The tab of a bare pane is not told. -/
theorem Changed.not_heard_addTab {tabId : Uuid} {p : PaneId} {ws : SessionWorkspace}
    (hws : s.layout.workspaces[i]? = some ws)
    (h : Changed (s.layout.workspaces.modify i (addTab tabId p)) s.layout.activeWorkspace
      [.paneCreated p] s t) : ¬Heard s t := by
  rw [h.heard_iff]
  intro heq
  have hsame : s.layout.modifyAt i id = s.layout := by
    rw [SessionLayout.modifyAt, List.modify_id]
  have hbare : (s.layout.modifyAt i (addTab tabId p)).bare = (s.layout.modifyAt i id).bare := by
    rw [hsame]
    exact heq
  have hlen := congrArg (fun ws => ws.tabs.length) (bare_eq_of_modifyAt hws hbare)
  simp [addTab] at hlen

/-- The tab that is closed is told, and so is the one that is seeded in its place. -/
theorem Closed.heard_tabClosed {tabId : Uuid} {gone qs : List PaneId}
    (h : Closed w i (fun tab => tab.id = tabId) gone
      (qs.map .paneClosed ++ [.tabClosed i tabId]) s t) : Heard s t := by
  cases h with
  | left changed =>
    refine changed.heard [.tabClosed i tabId] ?_ rfl
    rw [List.filterMap_append, filterMap_map_paneClosed]
    rfl
  | seeded n minted emptied changed =>
    refine changed.heard [.tabClosed i tabId, .tabCreated i (w.newV4 (n + 1)) ⟨w.newV4 n⟩] ?_ ?_
    · rw [List.filterMap_append, List.filterMap_append, filterMap_map_paneClosed]
      rfl
    · simp only [List.foldl_cons, List.foldl_nil, SessionLayout.onNotification,
        SessionLayout.modifyAt, List.modify_modify_eq]
      refine modifyAt_congr (l := s.layout) fun ws hws => congrArg SessionWorkspace.bare ?_
      simp only [Function.comp_apply, showTab, seedTab, emptied ws hws, if_true]

/-- The tabs that go with a pane are not told. -/
theorem Closed.not_heard_leafClosed {p : PaneId} {gone : List PaneId} {ws : SessionWorkspace}
    (hws : s.layout.workspaces[i]? = some ws) (hleaf : ∃ tab ∈ ws.tabs, tab.paneTree = .leaf p)
    (h : Closed w i (fun tab => tab.paneTree = .leaf p) gone [.paneClosed p] s t) :
    ¬Heard s t := by
  have hlt : (dropTabs (fun tab => tab.paneTree = .leaf p) ws).tabs.length < ws.tabs.length := by
    obtain ⟨tab, htab, htree⟩ := hleaf
    rw [dropTabs_tabs]
    exact List.length_filter_lt_length_iff_exists.mpr ⟨tab, htab, by simp [htree]⟩
  cases h with
  | left changed =>
    rw [changed.heard_iff]
    intro heq
    have hsame : s.layout.modifyAt i id = s.layout := by
      rw [SessionLayout.modifyAt, List.modify_id]
    have hbare : (s.layout.modifyAt i (dropTabs fun tab => tab.paneTree = .leaf p)).bare =
        (s.layout.modifyAt i id).bare := by
      rw [hsame]
      exact heq
    have hlen := congrArg (fun ws => ws.tabs.length) (bare_eq_of_modifyAt hws hbare)
    simp only [SessionWorkspace.length_bare_tabs, id_eq] at hlen
    omega
  | seeded n minted emptied changed =>
    rw [changed.heard_iff]
    intro heq
    have hlen := congrArg (fun ws => ws.tabs.length) (bare_eq_of_modifyAt hws heq)
    simp only [SessionWorkspace.length_bare_tabs, seedTab, showTab, addTab, emptied ws hws,
      List.length_append, List.length_nil, List.length_singleton] at hlen
    rw [emptied ws hws, List.length_nil] at hlt
    omega

end Tabs

/-! ### Edits -/

section Edits

variable {w : World} {s t : SessionManager}

/-- The tab with the id is split, and no other. -/
theorem heard_split (hs : Identified w s) {i j : ℕ} {ws : SessionWorkspace} {tab : SessionTab}
    {p q : PaneId} {direction : String} {ratio : F32} (hws : s.layout.workspaces[i]? = some ws)
    (htab : ws.tabs[j]? = some tab)
    (h : Changed
      (s.layout.workspaces.modify i fun ws => { ws with tabs := ws.tabs.modify j fun tab =>
        { tab with paneTree := (replaceLeafWithRatio p q direction ratio tab.paneTree).1 } })
      s.layout.activeWorkspace [.paneCreated q, .paneSplit tab.id p q direction] s t) :
    Heard s t := by
  have htabs : ws.tabs.map (splitTabById tab.id p q direction) =
      ws.tabs.modify j (splitTabById tab.id p q direction) := by
    refine map_eq_modify fun l tab' htab' hl => if_neg fun hid => hl ?_
    exact (hs.tab_place hws htab hws htab' hid).2
  have hwss : (s.layout.onNotification (.paneSplit tab.id p q direction)) =
      s.layout.modifyAt i fun ws =>
        { ws with tabs := ws.tabs.map (splitTabById tab.id p q direction) } := by
    refine congrArg (fun wss => { s.layout with workspaces := wss }) (map_eq_modify ?_)
    intro k ws' hws' hk
    have hsame : ws'.tabs.map (splitTabById tab.id p q direction) = ws'.tabs := by
      refine (List.map_congr_left fun tab' htab' => if_neg fun hid => hk ?_).trans (List.map_id _)
      obtain ⟨l, hl⟩ := List.mem_iff_getElem?.mp htab'
      exact (hs.tab_place hws htab hws' hl hid).1
    rw [hsame]
  refine h.heard [.paneSplit tab.id p q direction] rfl ?_
  rw [List.foldl_cons, List.foldl_nil, hwss]
  refine modifyAt_congr (l := s.layout) fun ws' hws' => ?_
  obtain rfl := Option.some.inj (hws.symm.trans hws')
  rw [htabs]
  refine congrArg (fun tabs => { ws with tabs := tabs }) (map_modify_congr fun tab' htab' => ?_)
  obtain rfl := Option.some.inj (htab.symm.trans htab')
  rw [splitTabById, if_pos rfl]
  exact (bare_splitTab p q direction ratio).trans (bare_splitTab p q direction (1 / 2)).symm

/-- A tab is moved by its id. -/
theorem heard_tabMoved (hs : Identified w s) {i j k : ℕ} {ws : SessionWorkspace} {tab : SessionTab}
    (hws : s.layout.workspaces[i]? = some ws) (htab : ws.tabs[j]? = some tab)
    (h : Changed (s.layout.workspaces.modify i (moveTabTo j k tab)) s.layout.activeWorkspace
      [.tabMoved i tab.id k] s t) : Heard s t := by
  have hfind : ws.tabs.findIdx (·.id = tab.id) = j := by
    obtain ⟨hj, hget⟩ := List.getElem?_eq_some_iff.mp htab
    refine (List.findIdx_eq hj).mpr ⟨by simp [hget], fun l hl => ?_⟩
    refine decide_eq_false fun hid => ?_
    have hl' := List.getElem?_eq_getElem (hl.trans hj)
    have heq := (hs.tab_place hws htab hws hl' hid).2
    omega
  refine h.heard [.tabMoved i tab.id k] rfl (modifyAt_congr (l := s.layout) fun ws' hws' => ?_)
  obtain rfl := Option.some.inj (hws.symm.trans hws')
  rw [moveTabById]
  simp only [hfind, htab]

/-- The tabs of a copy are shown one after the other. -/
theorem foldl_tabCreated (k : ℕ) (dupTabs : List DuplicatedTab) (l : SessionLayout) :
    (dupTabs.map fun dt => LayoutNotification.tabCreated k dt.tabId dt.paneId).foldl
        SessionLayout.onNotification l =
      l.modifyAt k fun ws => dupTabs.foldl (fun ws dt => showTab dt.tabId dt.paneId ws) ws := by
  induction dupTabs generalizing l with
  | nil => exact congrArg (fun wss => { l with workspaces := wss }) (List.modify_id ..).symm
  | cons dt dupTabs ih =>
    rw [List.map_cons, List.foldl_cons, ih]
    simp only [SessionLayout.onNotification, SessionLayout.modifyAt, List.modify_modify_eq]
    rfl

theorem foldl_showTab (dupTabs : List DuplicatedTab) {ws : SessionWorkspace}
    (h : ws.activeTab = 0) :
    dupTabs.foldl (fun ws dt => showTab dt.tabId dt.paneId ws) ws =
      { ws with tabs := ws.tabs ++ dupTabs.map fun dt => .ofLeaf dt.tabId dt.paneId } := by
  induction dupTabs generalizing ws with
  | nil => simp
  | cons dt dupTabs ih =>
    have hzero : (showTab dt.tabId dt.paneId ws).activeTab = 0 := by
      simp only [showTab, h, ite_self]
    rw [List.foldl_cons, ih hzero]
    simp [showTab, addTab, h]

/-- A copy comes empty, and is told its tabs. -/
theorem heard_duplicated {i n : ℕ} {dupName : String} {dupTabs : List DuplicatedTab}
    (h : Changed (s.layout.workspaces.insertIdx (i + 1)
        { id := w.newV4 n
          name := dupName
          tabs := dupTabs.map fun dt => .ofLeaf dt.tabId dt.paneId
          activeTab := 0
          color := none })
      (if i + 1 ≤ s.layout.activeWorkspace then s.layout.activeWorkspace + 1
        else s.layout.activeWorkspace)
      (.workspaceCreated (i + 1) (w.newV4 n) dupName :: dupTabs.flatMap fun dt =>
        [.paneCreated dt.paneId, .tabCreated (i + 1) dt.tabId dt.paneId]) s t) : Heard s t := by
  have hns : (dupTabs.flatMap fun dt => [SessionEvent.paneCreated dt.paneId,
      .tabCreated (i + 1) dt.tabId dt.paneId]).filterMap handleSubscribeLayout =
        dupTabs.map fun dt => LayoutNotification.tabCreated (i + 1) dt.tabId dt.paneId := by
    clear h
    induction dupTabs with
    | nil => rfl
    | cons dt dupTabs ih =>
      rw [List.flatMap_cons, List.filterMap_append, ih]
      rfl
  refine h.heard (.workspaceCreated (i + 1) (w.newV4 n) dupName ::
    dupTabs.map fun dt => .tabCreated (i + 1) dt.tabId dt.paneId) ?_ ?_
  · rw [← hns]
    rfl
  · rw [List.foldl_cons, foldl_tabCreated]
    have hins : (s.layout.workspaces.insertIdx (i + 1) (emptyWorkspace (w.newV4 n) dupName)).modify
        (i + 1) (fun ws => dupTabs.foldl (fun ws dt => showTab dt.tabId dt.paneId ws) ws) =
          s.layout.workspaces.insertIdx (i + 1)
            { id := w.newV4 n
              name := dupName
              tabs := dupTabs.map fun dt => .ofLeaf dt.tabId dt.paneId
              activeTab := 0
              color := none } := by
      rw [modify_insertIdx_self, foldl_showTab dupTabs rfl]
      rfl
    simp only [SessionLayout.onNotification, SessionLayout.modifyAt, hins]

/-- New ratios are not seen. -/
theorem heard_ratios {updates : List (PaneId × F32)}
    (h : Changed (s.layout.workspaces.map fun ws => { ws with tabs := ws.tabs.map fun tab =>
        { tab with paneTree := updateRatios updates tab.paneTree } })
      s.layout.activeWorkspace [] s t) : Heard s t := by
  have htree (tree : PaneTreeLayout) :
      (updateRatios updates tree).relabel SplitLabel.bare = tree.relabel SplitLabel.bare := by
    unfold updateRatios
    clear h
    induction updates generalizing tree with
    | nil => rfl
    | cons u updates ih => rw [List.foldl_cons, ih, bare_updateRatioForPane]
  refine h.heard [] rfl ?_
  simp only [List.foldl_nil, SessionLayout.bare, List.map_map]
  refine congrArg (fun wss => SessionLayout.mk wss _) (List.map_congr_left fun ws _ => ?_)
  simp only [Function.comp_apply, SessionWorkspace.bare, List.map_map]
  refine congrArg (fun tabs => { ws with tabs := tabs }) (List.map_congr_left fun tab _ => ?_)
  simp only [Function.comp_apply, SessionTab.bare, htree]

/-- Every edit is told in full. -/
theorem Edit.heard (hs : Identified w s)
    (hactive : s.layout.activeWorkspace < s.layout.workspaces.length) (h : Edit w s t) :
    Heard s t := by
  cases h with
  | quiet es output changed =>
    refine changed.heard_silent (List.filterMap_eq_nil_iff.mpr fun e he => ?_)
    obtain ⟨p, bytes, rfl⟩ := output e he
    rfl
  | split i ws j tab p q direction ratio hws htab hp changed => exact heard_split hs hws htab changed
  | tabMoved i ws j k tab hws htab hk changed => exact heard_tabMoved hs hws htab changed
  | workspaceMade name changed =>
    refine changed.heard
      [.workspaceCreated s.layout.workspaces.length (w.newV4 s.minted) name] rfl ?_
    simp only [List.foldl_cons, List.foldl_nil, SessionLayout.onNotification,
      List.insertIdx_length_self, if_neg (Nat.not_le.mpr hactive)]
  | workspaceDeleted i ws hws hlen changed =>
    refine changed.heard [.workspaceDeleted i ws.id] ?_ rfl
    rw [List.filterMap_append, filterMap_map_paneClosed]
    rfl
  | duplicated i n dupName dupTabs hi hn changed => exact heard_duplicated changed
  | swapped i j u v hi hj changed => exact changed.heard [.workspacesReordered i j u v] rfl rfl
  | renamed i id name changed => exact changed.heard [.workspaceRenamed i id name] rfl rfl
  | colored i id color changed => exact changed.heard [.workspaceColorChanged i id color] rfl rfl
  | ratios updates changed => exact heard_ratios changed

end Edits

/-! ### Runs -/

section Calls

variable {w : World} {s t : SessionManager}

/-- A new tab is told in full unless it is the first of a workspace with an active index
of its own. -/
theorem heard_createTab_iff (i : ℕ) (cwd : Option PathBuf) (size : PtySize)
    (command : Option (List String)) (p : PaneId) (ht : t.layout = s.layout)
    (hsent : t.eventTx.sent = s.eventTx.sent) (hspawned : t.spawned = s.spawned) :
    Heard s (t.createTabWithPaneId w i cwd size command p).1 ↔
      ((∃ bridge, PtyBridge.spawn w s.spawned size cwd command none true = .ok bridge) →
        ∀ ws, s.layout.workspaces[i]? = some ws → ws.tabs = [] → ws.activeTab = 0) := by
  have hu : Unchanged s t := .of_eq ht hsent
  rcases @changed_createTabWithPaneId w t i cwd size command p with ⟨h, hrefused⟩ | ⟨-, hspawn, h⟩
  · rw [Unchanged, ht] at h
    refine iff_of_true ((h.after hu).heard_silent rfl) ?_
    rintro ⟨bridge, hb⟩ ws hws
    rw [hspawned, ht] at hrefused
    rw [List.getElem?_eq_none (hrefused bridge hb)] at hws
    cases hws
  · rw [ht] at h
    rw [hspawned] at hspawn
    rw [(h.after hu).addTab_heard_iff]
    exact ⟨fun hzero _ => hzero, fun hzero => hzero hspawn⟩

/-- Closing a pane is told in full exactly if no tab goes with it. -/
theorem Outcome.heard_closePane_iff {p : PaneId} (h : Outcome w s t (.op (.closePane p))) :
    Heard s t ↔ s.dropped (.op (.closePane p)) = none := by
  cases h with
  | unchanged call hd h => exact iff_of_true (h.heard_silent rfl) hd
  | edit call hc h => exact absurd hc id
  | tabMade call i tabId q hcall changed => cases hcall
  | paneClosed p hp hd changed panes => exact iff_of_true (changed.heard_silent rfl) hd
  | leafClosed p i ws hws hleaf hd h =>
    refine iff_of_false (h.not_heard_leafClosed hws hleaf) fun hnone => ?_
    rw [hd] at hnone
    cases hnone

/-- No tab goes with a pane exactly if no tab consists of it. -/
theorem dropped_closePane_eq_none_iff (p : PaneId) :
    s.dropped (.op (.closePane p)) = none ↔
      (p ∈ s.panes → ∀ ws ∈ s.layout.workspaces, ∀ tab ∈ ws.tabs, tab.paneTree ≠ .leaf p) := by
  by_cases hp : p ∈ s.panes
  · rw [dropped, if_pos hp, Option.map_eq_none_iff, List.findIdx?_eq_none_iff]
    simp [hp]
  · rw [dropped, if_neg hp]
    simp [hp]

/-- A call is told in full exactly if it makes none of the changes that are not told. -/
theorem heard_invoke_iff (hw : Function.Injective w.newV4) (hs : Reached w s) (call : Call) :
    Heard s (s.invoke w call) ↔ Announced w s call := by
  have hid := hs.identified hw
  have hedit (c : Call) (hc : Edits c) : Heard s (s.invoke w c) :=
    (edit_invoke hc).heard hid (hs.active_lt hw)
  match call with
  | .createTabWithPaneId i cwd size command p =>
    exact heard_createTab_iff i cwd size command p rfl rfl rfl
  | .splitPaneWithRatioAndPaneId p direction ratio size cwd q =>
    exact iff_of_true (hedit _ trivial) trivial
  | .op op =>
    have hout := outcome_invoke (w := w) hid (.op op)
    cases op with
    | createTab i cwd size command => exact heard_createTab_iff i cwd size command _ rfl rfl rfl
    | createPane size cwd command shell login =>
      cases h : PtyBridge.spawn w s.spawned size cwd command shell login with
      | error e => exact iff_of_true ((createPane_refused h).heard_silent rfl) ⟨e, h⟩
      | ok bridge =>
        obtain ⟨ws, hws⟩ : ∃ ws, s.layout.workspaces[0]? = some ws :=
          ⟨_, List.getElem?_eq_getElem (Nat.zero_lt_of_lt (hs.active_lt hw))⟩
        refine iff_of_false ((changed_createPane h).not_heard_addTab hws) ?_
        rintro ⟨e, he⟩
        rw [h] at he
        cases he
    | closePane p => exact hout.heard_closePane_iff.trans (dropped_closePane_eq_none_iff p)
    | closeTab tabId =>
      refine iff_of_true ?_ trivial
      cases hout with
      | unchanged call hd h => exact h.heard_silent rfl
      | edit call hc h => exact absurd hc id
      | tabMade call i tabId p hcall changed => cases hcall
      | tabClosed i ws tab qs hws htab hd h => exact h.heard_tabClosed
    | setActiveTab i j =>
      refine iff_of_true ?_ trivial
      rcases @changed_setActiveTab s i j with h | h
      · exact h.heard_silent rfl
      · exact h.heard [.activeTabChanged i j] rfl rfl
    | setActiveWorkspace i =>
      refine iff_of_true ?_ trivial
      rcases @changed_setActiveWorkspace_of s i with h | ⟨-, h⟩
      · exact h.heard_silent rfl
      · exact h.heard [.activeWorkspaceChanged i] rfl rfl
    | setActivePane i tabId p =>
      refine iff_of_true ?_ trivial
      rcases @changed_setActivePane s i tabId p with h | ⟨ws, tab, -, -, -, h⟩
      · exact h.heard_silent rfl
      · exact h.heard [.activePaneChanged i tabId p] rfl rfl
    | _ => exact iff_of_true (hedit _ trivial) trivial

end Calls

/-- In every state any calls lead to, and for every run of calls from there: the copy that
a subscriber builds from what it is sent shows the layout in every state of the run,
up to split ratios and titles, exactly if every call is announced. -/
theorem follows_along_iff (w : World) (hw : Function.Injective w.newV4) (s : SessionManager)
    (hs : Reached w s) (calls : List Call) :
    Along (invoke w)
        (fun t => t.layout.bare =
          ((s.layoutStream t).foldl SessionLayout.onNotification s.layout).bare) s calls ↔
      Meets (invoke w) (Announced w) s calls := by
  simp only [← replica_eq]
  refine replica_along_iff (I := Reached w) (fun t call ht => ?_) (fun t call ht => ?_)
    (fun t call ht => heard_invoke_iff hw ht call) hs
  · exact (outcome_invoke (ht.identified hw) call).sent_grows
  · exact ht.leads (.single t call)

/-- A bare pane: its tab is not told. -/
theorem not_follows_createPane :
    Reached .counting (fresh .counting .empty 1024 10) ∧
      ¬Along (invoke .counting)
        (fun t => t.layout.bare = (((fresh .counting .empty 1024 10).layoutStream t).foldl
          SessionLayout.onNotification (fresh .counting .empty 1024 10).layout).bare)
        (fresh .counting .empty 1024 10) [.op (.createPane .default none none none true)] := by
  refine ⟨⟨_, _, _, [], rfl⟩, fun h => ?_⟩
  have hcount := congrArg (fun l => l.workspaces.map (·.tabs.length)) h.last
  exact absurd hcount (by decide)

/-- A tab is made, split and focused, and the new pane is closed. -/
theorem follows_splitClosed :
    Along (invoke .counting)
      (fun t => t.layout.bare = (((fresh .counting .empty 1024 10).layoutStream t).foldl
        SessionLayout.onNotification (fresh .counting .empty 1024 10).layout).bare)
      (fresh .counting .empty 1024 10)
      [.op (.createTab 0 none .default none), .op (.splitPane ⟨⟨1⟩⟩ "horizontal" .default none),
        .op (.setActivePane 0 ⟨2⟩ (some ⟨⟨3⟩⟩)), .op (.closePane ⟨⟨3⟩⟩)] := by
  refine (follows_along_iff .counting World.counting_injective _ ⟨_, _, _, [], rfl⟩ _).mpr
    ⟨fun _ ws hws _ => ?_, trivial, trivial, fun _ ws hws tab htab htree => ?_, trivial⟩
  · obtain rfl := Option.some.inj hws
    rfl
  · obtain rfl := List.mem_singleton.mp hws
    obtain rfl := List.mem_singleton.mp htab
    exact absurd htree (by decide)

end SessionManager

end Forgetty
