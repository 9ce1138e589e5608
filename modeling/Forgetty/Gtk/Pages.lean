import Forgetty.Daemon.RestoredIds
import Forgetty.Gtk.Rebuild
import Forgetty.Session.WorkspaceCalls

/-! The pages of a window and the tabs of its daemon. A page is made by the action
that made the tab or by the event that tells of it, and only the tab map of a view
keeps the second from repeating the first. So every action has to enter its tab into
the map, and an event has to find the workspace of its tab at the index it carries. -/

namespace Forgetty

open Lib SessionManager

/-! ### The tabs of a layout -/

theorem SessionLayout.mem_tabs {l : SessionLayout} {i : ℕ} {ws : SessionWorkspace}
    {tab : SessionTab} (hi : l.workspaces[i]? = some ws) (ht : tab ∈ ws.tabs) : tab ∈ l.tabs :=
  List.mem_flatMap.mpr ⟨ws, List.mem_of_getElem? hi, ht⟩

namespace SessionManager

variable {w : World} {s t : SessionManager} {new : List SessionTab}

/-- Tabs that were added share no id and no pane with those from before. -/
theorem new_tabs_apart (ht : Tracked w t) (hi : Identified w t)
    (hp : t.layout.tabs.Perm (s.layout.tabs ++ new)) {tab : SessionTab} (hnew : tab ∈ new) :
    tab.id ∉ s.layout.tabs.map (·.id) ∧ ∀ p ∈ tab.paneTree.leaves, p ∉ s.layout.leaves := by
  constructor
  · have hd := hi.tabIds_nodup
    rw [(hp.map _).nodup_iff, List.map_append, List.nodup_append] at hd
    intro hmem
    exact hd.2.2 _ hmem _ (List.mem_map_of_mem hnew) rfl
  · intro p hleaf hmem
    have hd := ht.leaves_nodup
    rw [SessionLayout.leaves_eq, (hp.flatMap_right _).nodup_iff, List.flatMap_append,
      List.nodup_append, ← SessionLayout.leaves_eq] at hd
    exact hd.2.2 p hmem p (List.mem_flatMap.mpr ⟨tab, hnew, hleaf⟩) rfl

end SessionManager

/-! ### Views -/

/-- Exactly one page shows the panes of the tab, and the map takes it for the tab. -/
structure ShowsTab (view : WorkspaceView) (tab : SessionTab) : Prop where
  page : (some tab.id, tab.paneTree.leaves) ∈ view.shown
  once : (view.shown.map (·.2)).count tab.paneTree.leaves = 1

/-- The tab has no page yet, and an event that tells of it is on the way. -/
structure Awaited (es : List SessionEvent) (view : WorkspaceView) (tab : SessionTab) : Prop where
  told : ∃ i p, .tabCreated i tab.id p ∈ es ∧ tab.paneTree = .leaf p
  unmapped : tab.id ∉ view.tabIdMap.map (·.2)
  hidden : tab.paneTree.leaves ∉ view.shown.map (·.2)

/-- Every tab of the workspace has its page or will get it. -/
def Settles (es : List SessionEvent) (view : WorkspaceView) (ws : SessionWorkspace) : Prop :=
  ∀ tab ∈ ws.tabs, ShowsTab view tab ∨ Awaited es view tab

/-- What the pages show and what the map names is in the layout. -/
structure Backed (l : SessionLayout) (view : WorkspaceView) : Prop where
  panes : ∀ x ∈ view.shown, x.2 ⊆ l.leaves
  ids : view.tabIdMap.map (·.2) ⊆ l.tabs.map (·.id)

/-- A page more, with its entry in the map. -/
structure Gains (tabId : Uuid) (panes : List PaneId) (view view' : WorkspaceView) : Prop where
  shown : view'.shown = view.shown ++ [(some tabId, panes)]
  map : view'.tabIdMap.map (·.2) = view.tabIdMap.map (·.2) ++ [tabId]

section Views

variable {view view' : WorkspaceView} {tab : SessionTab} {tabId : Uuid} {panes : List PaneId}
  {es es' : List SessionEvent} {l l' : SessionLayout} {k : ℕ}

theorem gains_add (h : view.Keyed k) :
    Gains tabId panes view ((view.append k panes).insertTabId k tabId) where
  shown := h.shown_add
  map := by
    rw [@WorkspaceView.tabIdMap_insertTabId (view.append k panes) k tabId h.tabIdMap,
      List.map_append]
    rfl

theorem Gains.select (h : Gains tabId panes view view') (k : ℕ) :
    Gains tabId panes view (view'.setSelectedPage k) := ⟨h.shown, h.map⟩

theorem ShowsTab.mapped (h : ShowsTab view tab) : tab.id ∈ view.tabIdMap.map (·.2) := by
  obtain ⟨page, -, heq⟩ := List.mem_map.mp h.page
  obtain ⟨x, hx, hid⟩ := Option.map_eq_some_iff.mp (congrArg Prod.fst heq)
  exact List.mem_map.mpr ⟨x, List.mem_of_find?_eq_some hx, hid⟩

theorem ShowsTab.gain (h : ShowsTab view tab) (hg : Gains tabId panes view view')
    (hne : panes ≠ tab.paneTree.leaves) : ShowsTab view' tab where
  page := by
    rw [hg.shown]
    exact List.mem_append_left _ h.page
  once := by
    rw [hg.shown, List.map_append, List.count_append, h.once, List.map_singleton,
      List.count_singleton, if_neg (by simpa using hne)]

theorem Awaited.gain (h : Awaited es view tab) (hg : Gains tabId panes view view')
    (hne : panes ≠ tab.paneTree.leaves) (hid : tabId ≠ tab.id) : Awaited es view' tab where
  told := h.told
  unmapped := by
    rw [hg.map, List.mem_append, not_or]
    exact ⟨h.unmapped, fun hmem => hid (List.mem_singleton.mp hmem).symm⟩
  hidden := by
    rw [hg.shown, List.map_append, List.mem_append, not_or]
    exact ⟨h.hidden, fun hmem => hne (List.mem_singleton.mp hmem).symm⟩

/-- The page of a tab that had none. -/
theorem showsTab_of_gains (hg : Gains tab.id tab.paneTree.leaves view view')
    (hhidden : tab.paneTree.leaves ∉ view.shown.map (·.2)) : ShowsTab view' tab where
  page := by
    rw [hg.shown]
    exact List.mem_append_right _ (List.mem_singleton.mpr rfl)
  once := by
    rw [hg.shown, List.map_append, List.count_append, List.count_eq_zero_of_not_mem hhidden]
    simp

theorem Awaited.mono (h : Awaited es view tab) (hes : es ⊆ es') : Awaited es' view tab where
  told := by
    obtain ⟨i, p, hmem, htree⟩ := h.told
    exact ⟨i, p, hes hmem, htree⟩
  unmapped := h.unmapped
  hidden := h.hidden

theorem Settles.mono {ws : SessionWorkspace} (h : Settles es view ws) (hes : es ⊆ es') :
    Settles es' view ws := fun tab ht => (h tab ht).imp_right fun ha => ha.mono hes

theorem Backed.mono (h : Backed l view) (hl : l.tabs ⊆ l'.tabs) : Backed l' view where
  panes x hx p hp := by
    have hmem := h.panes x hx hp
    rw [SessionLayout.leaves_eq] at hmem ⊢
    obtain ⟨tab, ht, hp⟩ := List.mem_flatMap.mp hmem
    exact List.mem_flatMap.mpr ⟨tab, hl ht, hp⟩
  ids := fun _ hx => List.map_subset _ hl (h.ids hx)

theorem Backed.gain (h : Backed l view) (hg : Gains tabId panes view view')
    (hpanes : panes ⊆ l.leaves) (hid : tabId ∈ l.tabs.map (·.id)) : Backed l view' where
  panes x hx := by
    rw [hg.shown] at hx
    rcases List.mem_append.mp hx with hx | hx
    · exact h.panes x hx
    · rw [List.mem_singleton.mp hx]
      exact hpanes
  ids := by
    intro u hu
    rw [hg.map] at hu
    rcases List.mem_append.mp hu with hu | hu
    · exact h.ids hu
    · rwa [List.mem_singleton.mp hu]

/-- A tab that shares nothing with the layout is not in its views. -/
theorem Backed.not_shown (h : Backed l view) (hid : tab.id ∉ l.tabs.map (·.id))
    (hpanes : ∀ p ∈ tab.paneTree.leaves, p ∉ l.leaves) :
    tab.id ∉ view.tabIdMap.map (·.2) ∧ tab.paneTree.leaves ∉ view.shown.map (·.2) := by
  refine ⟨fun hmem => hid (h.ids hmem), fun hmem => ?_⟩
  obtain ⟨x, hx, heq⟩ := List.mem_map.mp hmem
  obtain ⟨p, hp⟩ := List.exists_mem_of_ne_nil _ (LeafTree.leaves_ne_nil tab.paneTree)
  refine hpanes p hp (h.panes x hx ?_)
  rwa [heq]

end Views

/-! ### Runs -/

namespace Attached

/-- Every tab of the daemon is shown by exactly one page of the view at the index of its
workspace, under its id. -/
def OnePagePerTab (a : Attached) : Prop :=
  ∀ (i : ℕ) ws, a.sm.layout.workspaces[i]? = some ws →
    ∃ view, a.gtk.workspaces[i]? = some view ∧ ∀ tab ∈ ws.tabs, ShowsTab view tab

/-- Once nothing is on the way. -/
def PagesSettle (a : Attached) : Prop := a.inFlight = [] → OnePagePerTab a

/-- The steps considered: what makes tabs, and events handled. -/
def MakesTabs : Action → Prop
  | .newTab .. | .duplicateTab .. | .newWorkspace _ | .duplicateWorkspace _ => True
  | .autoSeed _ | .drain => True
  | _ => False

/-- No tab is duplicated, and an event of a new tab finds the workspace of the tab at its
index, or the tab has its page there already. -/
def Routed (a : Attached) : Action → Prop
  | .duplicateTab .. => False
  | .drain => ∀ i tabId p es, a.inFlight = .tabCreated i tabId p :: es →
      ∀ (k : ℕ) ws, a.sm.layout.workspaces[k]? = some ws → tabId ∈ ws.tabs.map (·.id) →
        k = i ∨ ∃ view, a.gtk.workspaces[k]? = some view ∧ tabId ∈ view.tabIdMap.map (·.2)
  | _ => True

end Attached

/-- The events that calls which make something send. -/
def SessionEvent.Creates : SessionEvent → Prop
  | .tabCreated .. | .paneCreated _ | .workspaceCreated .. | .activeWorkspaceChanged _ => True
  | _ => False

namespace Attached

/-- What holds between the actions. -/
structure Paging (w : World) (a : Attached) : Prop where
  next : a.next ≤ a.sm.eventTx.sent.length
  tracked : Tracked w a.sm
  identified : Identified w a.sm
  keyed : ∀ view ∈ a.gtk.workspaces, view.Keyed a.gtk.nextPage
  backed : ∀ view ∈ a.gtk.workspaces, Backed a.sm.layout view
  settles : List.Forall₂ (Settles a.inFlight) a.gtk.workspaces a.sm.layout.workspaces
  kinds : ∀ e ∈ a.inFlight, e.Creates
  told : ∀ i tabId p, .tabCreated i tabId p ∈ a.inFlight →
    ∃ tab ∈ a.sm.layout.tabs, tab.id = tabId ∧ tab.paneTree = .leaf p

/-- The daemon carried something out that made the tabs `new`. -/
structure Made (w : World) (new : List SessionTab) (es : List SessionEvent) (a b : Attached) :
    Prop where
  next : b.next = a.next
  sent : b.sm.eventTx.sent = a.sm.eventTx.sent ++ es
  tracked : Tracked w b.sm
  identified : Identified w b.sm
  tabs : b.sm.layout.tabs.Perm (a.sm.layout.tabs ++ new)
  kinds : ∀ e ∈ es, e.Creates
  told : ∀ i tabId p, .tabCreated i tabId p ∈ es →
    ∃ tab ∈ new, tab.id = tabId ∧ tab.paneTree = .leaf p

section Rules

variable {w : World} {a b : Attached} {new : List SessionTab} {es : List SessionEvent}

theorem Made.subset (hm : Made w new es a b) : a.sm.layout.tabs ⊆ b.sm.layout.tabs :=
  fun _ ht => hm.tabs.symm.subset (List.mem_append_left _ ht)

theorem Made.mem (hm : Made w new es a b) {tab : SessionTab} (ht : tab ∈ new) :
    tab ∈ b.sm.layout.tabs := hm.tabs.symm.subset (List.mem_append_right _ ht)

theorem Paging.inFlight (h : Paging w a) (hm : Made w new es a b) :
    b.inFlight = a.inFlight ++ es := inFlight_append h.next hm.next hm.sent

/-- The views may change in any way that keeps what is said of them. -/
theorem Paging.made (h : Paging w a) (hm : Made w new es a b)
    (hkeyed : ∀ view ∈ b.gtk.workspaces, view.Keyed b.gtk.nextPage)
    (hbacked : ∀ view ∈ b.gtk.workspaces, Backed b.sm.layout view)
    (hsettles : List.Forall₂ (Settles b.inFlight) b.gtk.workspaces b.sm.layout.workspaces) :
    Paging w b where
  next := next_le_append h.next hm.next hm.sent
  tracked := hm.tracked
  identified := hm.identified
  keyed := hkeyed
  backed := hbacked
  settles := hsettles
  kinds e he := by
    rw [h.inFlight hm] at he
    exact (List.mem_append.mp he).elim (h.kinds e) (hm.kinds e)
  told i tabId p hmem := by
    rw [h.inFlight hm] at hmem
    rcases List.mem_append.mp hmem with hmem | hmem
    · obtain ⟨tab, ht, hid, htree⟩ := h.told i tabId p hmem
      exact ⟨tab, hm.subset ht, hid, htree⟩
    · obtain ⟨tab, ht, hid, htree⟩ := hm.told i tabId p hmem
      exact ⟨tab, hm.mem ht, hid, htree⟩

/-- What the old views show is still behind them, and their tabs settle as before. -/
theorem Paging.old (h : Paging w a) (hm : Made w new es a b) :
    (∀ view ∈ a.gtk.workspaces, Backed b.sm.layout view) ∧
      List.Forall₂ (Settles b.inFlight) a.gtk.workspaces a.sm.layout.workspaces := by
  refine ⟨fun view hv => (h.backed view hv).mono hm.subset, ?_⟩
  refine h.settles.imp fun view ws hs => hs.mono ?_
  rw [h.inFlight hm]
  exact List.subset_append_left _ _

/-- No old view shows a new tab. -/
theorem Paging.not_shown (h : Paging w a) (hm : Made w new es a b) {tab : SessionTab}
    (ht : tab ∈ new) {view : WorkspaceView} (hv : view ∈ a.gtk.workspaces) :
    tab.id ∉ view.tabIdMap.map (·.2) ∧ tab.paneTree.leaves ∉ view.shown.map (·.2) := by
  obtain ⟨hid, hpanes⟩ := new_tabs_apart hm.tracked hm.identified hm.tabs ht
  exact (h.backed view hv).not_shown hid hpanes

/-- Nothing was made. -/
theorem Paging.unchanged (h : Paging w a) (hm : Made w [] es a b)
    (hwss : b.sm.layout.workspaces = a.sm.layout.workspaces) (hgtk : b.gtk = a.gtk) : Paging w b := by
  obtain ⟨hbacked, hsettles⟩ := h.old hm
  refine h.made hm ?_ ?_ ?_
  · rw [hgtk]
    exact h.keyed
  · rw [hgtk]
    exact hbacked
  · rw [hgtk, hwss]
    exact hsettles

/-- A page more in one view keeps what is said of every view. -/
theorem gained {views : List WorkspaceView} {l : SessionLayout} {f : WorkspaceView → WorkspaceView}
    {k : ℕ} {tabId : Uuid} {panes : List PaneId}
    (hf : ∀ view, view.Keyed k → Gains tabId panes view (f view) ∧ (f view).Keyed (k + 1))
    (hkeyed : ∀ view ∈ views, view.Keyed k) (hbacked : ∀ view ∈ views, Backed l view)
    (hpanes : panes ⊆ l.leaves) (hid : tabId ∈ l.tabs.map (·.id)) (idx : ℕ) :
    ∀ view ∈ views.modify idx f, view.Keyed (k + 1) ∧ Backed l view := by
  refine forall_mem_modify (fun view hv => ⟨(hkeyed view hv).mono (Nat.le_succ k), hbacked view hv⟩)
    fun view hi => ?_
  have hv := List.mem_of_getElem? hi
  obtain ⟨hg, hk⟩ := hf view (hkeyed view hv)
  exact ⟨hk, (hbacked view hv).gain hg hpanes hid⟩

/-- Both ways a page of a tab is appended: selected or not. -/
theorem gains_page (k : ℕ) (tabId : Uuid) (p : PaneId) (view : WorkspaceView) (h : view.Keyed k) :
    Gains tabId [p] view ((view.append k [p]).insertTabId k tabId) ∧
      ((view.append k [p]).insertTabId k tabId).Keyed (k + 1) := ⟨gains_add h, h.add⟩

theorem gains_selected (k : ℕ) (tabId : Uuid) (p : PaneId) (view : WorkspaceView)
    (h : view.Keyed k) :
    Gains tabId [p] view (((view.append k [p]).insertTabId k tabId).setSelectedPage k) ∧
      (((view.append k [p]).insertTabId k tabId).setSelectedPage k).Keyed (k + 1) := by
  obtain ⟨hg, hk⟩ := gains_page k tabId p view h
  exact ⟨hg.select k, hk.pages, hk.tabIdMap⟩

theorem tabs_modify {wss : List SessionWorkspace} {f : SessionWorkspace → SessionWorkspace} {i : ℕ}
    {tab : SessionTab} (hi : i < wss.length) (hf : ∀ ws, (f ws).tabs = ws.tabs ++ [tab]) :
    ((wss.modify i f).flatMap (·.tabs)).Perm (wss.flatMap (·.tabs) ++ [tab]) := by
  obtain ⟨pre, post, hs, -, hmod, -⟩ := exists_split (List.getElem?_eq_getElem hi)
  rw [hmod]
  conv_rhs => rw [hs]
  exact flatMap_perm_of_gain (by rw [hf])

end Rules

section Steps

variable {w : World} {term : Terminals} {a b : Attached}

/-- One tab made in a workspace, with the two events that tell of it. -/
theorem made_tab {sm : SessionManager} (gtk : WorkspaceManagerInner) {idx : ℕ} {p : PaneId}
    {tabId : Uuid} {f : SessionWorkspace → SessionWorkspace}
    (hf : ∀ ws, (f ws).tabs = ws.tabs ++ [.ofLeaf tabId p])
    (hi : idx < a.sm.layout.workspaces.length) {active : ℕ}
    (hc : Changed (a.sm.layout.workspaces.modify idx f) active
      [.paneCreated p, .tabCreated idx tabId p] a.sm sm) (ht : Tracked w sm)
    (hid : Identified w sm) :
    Made w [.ofLeaf tabId p] [.paneCreated p, .tabCreated idx tabId p] a
      { a with sm := sm, gtk := gtk } where
  next := rfl
  sent := hc.sent
  tracked := ht
  identified := hid
  tabs := by
    rw [SessionLayout.tabs, hc.workspaces]
    exact tabs_modify hi hf
  kinds e he := by
    simp only [List.mem_cons, List.not_mem_nil, or_false] at he
    rcases he with rfl | rfl <;> trivial
  told i tabId' q hmem := by
    simp only [List.mem_cons, List.not_mem_nil, or_false, reduceCtorEq, false_or] at hmem
    obtain ⟨-, rfl, rfl⟩ := SessionEvent.tabCreated.inj hmem
    exact ⟨_, List.mem_singleton.mpr rfl, rfl, rfl⟩

/-- Nothing made and nothing sent. -/
theorem made_nothing {sm : SessionManager} (gtk : WorkspaceManagerInner)
    (hu : Unchanged a.sm sm) (ht : Tracked w sm) (hid : Identified w sm) :
    Made w [] [] a { a with sm := sm, gtk := gtk } where
  next := rfl
  sent := hu.sent
  tracked := ht
  identified := hid
  tabs := by
    rw [SessionLayout.tabs, hu.workspaces, List.append_nil]
    exact List.Perm.refl _
  kinds := nofun
  told := nofun

/-- A tab that is made and shown at once. -/
theorem Paging.shown (h : Paging w a) {sm : SessionManager} {gtk : WorkspaceManagerInner} {idx : ℕ}
    {p : PaneId} {tabId : Uuid} (hi : idx < a.sm.layout.workspaces.length) {active : ℕ}
    (hc : Changed (a.sm.layout.workspaces.modify idx (addTab tabId p)) active
      [.paneCreated p, .tabCreated idx tabId p] a.sm sm) (ht : Tracked w sm)
    (hid : Identified w sm) {f : WorkspaceView → WorkspaceView}
    (hf : ∀ view, view.Keyed a.gtk.nextPage →
      Gains tabId [p] view (f view) ∧ (f view).Keyed (a.gtk.nextPage + 1))
    (hviews : gtk.workspaces = a.gtk.workspaces.modify idx f)
    (hnext : gtk.nextPage = a.gtk.nextPage + 1) : Paging w { a with sm := sm, gtk := gtk } := by
  have hm := made_tab gtk (fun _ => rfl) hi hc ht hid
  obtain ⟨hbacked, hsettles⟩ := h.old hm
  have hnew : SessionTab.ofLeaf tabId p ∈ [SessionTab.ofLeaf tabId p] := List.mem_singleton.mpr rfl
  have hmem := hm.mem hnew
  obtain ⟨hid', hpanes⟩ := new_tabs_apart hm.tracked hm.identified hm.tabs hnew
  have hleaf : [p] ⊆ sm.layout.leaves := by
    intro q hq
    rw [SessionLayout.leaves_eq]
    exact List.mem_flatMap.mpr ⟨_, hmem, hq⟩
  have hgained := gained hf h.keyed hbacked hleaf (List.mem_map_of_mem hmem) idx
  refine h.made hm (fun view hv => ?_) (fun view hv => ?_) ?_
  · dsimp only at hv ⊢
    rw [hviews] at hv
    rw [hnext]
    exact (hgained view hv).1
  · dsimp only at hv ⊢
    rw [hviews] at hv
    exact (hgained view hv).2
  · dsimp only at hsettles ⊢
    rw [hviews, hc.workspaces]
    refine forall₂_modify hsettles idx fun view ws hview hws hs tab htab => ?_
    have hv := List.mem_of_getElem? hview
    obtain ⟨hg, -⟩ := hf view (h.keyed view hv)
    rcases List.mem_append.mp htab with htab | htab
    · have hold := SessionLayout.mem_tabs hws htab
      have hne : [p] ≠ tab.paneTree.leaves := by
        intro heq
        refine hpanes p (List.mem_singleton.mpr rfl) ?_
        rw [SessionLayout.leaves_eq]
        refine List.mem_flatMap.mpr ⟨tab, hold, ?_⟩
        rw [← heq]
        exact List.mem_singleton.mpr rfl
      have hne' : tabId ≠ tab.id := fun heq => hid' (List.mem_map.mpr ⟨tab, hold, heq.symm⟩)
      exact (hs tab htab).imp (fun hs => hs.gain hg hne) (fun ha => ha.gain hg hne hne')
    · rw [List.mem_singleton.mp htab]
      exact Or.inl (showsTab_of_gains hg (h.not_shown hm hnew hv).2)

theorem Paging.addNewTab (hw : Function.Injective w.newV4) (hterm : ∀ p, term.Shows p)
    (h : Paging w a) (idx : ℕ) (cwd : Option PathBuf) (command : Option (List String)) :
    Paging w (a.addNewTab w term idx cwd command true) := by
  have hc := @changed_createTab w a.sm idx cwd .default (command.filter (· ≠ []))
  have ht : Tracked w (a.sm.createTab w idx cwd .default (command.filter (· ≠ []))).1 :=
    h.tracked.apply hw (.createTab idx cwd .default (command.filter (· ≠ [])))
  have hid := (@inherits_createTab w idx cwd .default (command.filter (· ≠ [])) a.sm).identified hw
    h.identified
  unfold Attached.addNewTab
  generalize a.sm.createTab w idx cwd .default (command.filter (· ≠ [])) = rpc at hc ht hid ⊢
  obtain ⟨sm, r⟩ := rpc
  rcases hc with ⟨e, rfl, hu⟩ | ⟨p, tabId, rfl, hi, hc⟩
  · rw [call_of_error rfl]
    exact h.unchanged (made_nothing _ hu ht hid) hu.workspaces rfl
  · rw [call_of_ok rfl, showNewTab, if_pos (hterm p)]
    exact h.shown hi hc ht hid (gains_selected a.gtk.nextPage tabId p)
      (List.modify_modify_eq _ _ _ _) rfl

/-- The event of a tab the daemon starts is awaited. -/
theorem Paging.autoSeed (hw : Function.Injective w.newV4) (h : Paging w a) (idx : ℕ) :
    Paging w (a.autoSeed w idx) := by
  have hc := @changed_autoSeedDefaultTab w a.sm idx .default
  obtain ⟨new, he, hmint⟩ := effect_autoSeedDefaultTab w idx .default a.sm
  have ht := h.tracked.effect hw he hmint
  have hid := (@inherits_autoSeedDefaultTab w idx .default a.sm).identified hw h.identified
  unfold Attached.autoSeed
  generalize a.sm.autoSeedDefaultTab w idx .default = rpc at hc ht hid ⊢
  obtain ⟨sm, r⟩ := rpc
  rcases hc with ⟨e, rfl, hu⟩ | ⟨p, tabId, rfl, hi, hc⟩
  · exact h.unchanged (made_nothing a.gtk hu ht hid) hu.workspaces rfl
  · have hc' := hc.trans_unchanged (unchanged_spawnDrainTask (w := w) p sm)
    have ht' := ht.effect hw (effect_spawnDrainTask w p sm) (.nil w _ _)
    have hid' := (@inherits_spawnDrainTask w p sm).identified hw hid
    have hm := made_tab a.gtk (fun _ => rfl) hi hc' ht' hid'
    obtain ⟨hbacked, hsettles⟩ := h.old hm
    have hnew : SessionTab.ofLeaf tabId p ∈ [SessionTab.ofLeaf tabId p] :=
      List.mem_singleton.mpr rfl
    refine h.made hm h.keyed hbacked ?_
    dsimp only at hsettles ⊢
    rw [hc'.workspaces, ← List.modify_id idx a.gtk.workspaces]
    refine forall₂_modify hsettles idx fun view ws hview hws hs tab htab => ?_
    rcases List.mem_append.mp htab with htab | htab
    · exact hs tab htab
    · rw [List.mem_singleton.mp htab]
      obtain ⟨hunmapped, hhidden⟩ := h.not_shown hm hnew (List.mem_of_getElem? hview)
      refine Or.inr ⟨⟨idx, p, ?_, rfl⟩, hunmapped, hhidden⟩
      rw [h.inFlight hm]
      exact List.mem_append_right _ (List.mem_cons_of_mem _ (List.mem_singleton.mpr rfl))

/-- The pages of a view that is built for new tabs. -/
theorem buildPages_map (hterm : ∀ p, term.Shows p) (tabs : List (Uuid × List PaneId)) {k : ℕ}
    {view : WorkspaceView} (h : view.Keyed k) :
    (buildPages term tabs k view).1.tabIdMap.map (·.2) =
      view.tabIdMap.map (·.2) ++ tabs.map (·.1) := by
  induction tabs generalizing k view with
  | nil => exact (List.append_nil _).symm
  | cons t tabs ih =>
    obtain ⟨hg, hk⟩ : Gains t.1 t.2 view ((view.append k t.2).insertTabId k t.1) ∧
        ((view.append k t.2).insertTabId k t.1).Keyed (k + 1) := ⟨gains_add h, h.add⟩
    rw [buildPages, if_pos fun p _ => hterm p, ih hk, hg.map, List.append_assoc]
    rfl

/-- A view of tabs that were made together, each of them with one pane. -/
theorem backed_made {l : SessionLayout} {made : List DuplicatedTab} {view : WorkspaceView}
    (hshown : view.shown = made.map fun dt => (some dt.tabId, [dt.paneId]))
    (hmap : view.tabIdMap.map (·.2) = made.map (·.tabId))
    (htabs : ∀ dt ∈ made, .ofLeaf dt.tabId dt.paneId ∈ l.tabs) : Backed l view where
  panes x hx := by
    rw [hshown] at hx
    obtain ⟨dt, hdt, rfl⟩ := List.mem_map.mp hx
    rw [SessionLayout.leaves_eq]
    intro p hp
    exact List.mem_flatMap.mpr ⟨_, htabs dt hdt, hp⟩
  ids u hu := by
    rw [hmap] at hu
    obtain ⟨dt, hdt, rfl⟩ := List.mem_map.mp hu
    exact List.mem_map.mpr ⟨_, htabs dt hdt, rfl⟩

/-- A workspace that is made with its tabs, and the view made for it at the same place. -/
theorem Paging.inserted (h : Paging w a) {sm : SessionManager} {gtk : WorkspaceManagerInner} {k : ℕ}
    {ws : SessionWorkspace} (made : List DuplicatedTab) (hk : k ≤ a.sm.layout.workspaces.length)
    (htabs : ws.tabs = made.map fun dt => .ofLeaf dt.tabId dt.paneId) {active : ℕ}
    {es : List SessionEvent}
    (hc : Changed (a.sm.layout.workspaces.insertIdx k ws) active es a.sm sm) (ht : Tracked w sm)
    (hid : Identified w sm) (hes : ∀ e ∈ es, e.Creates)
    (htold : ∀ i tabId p, .tabCreated i tabId p ∈ es → ⟨tabId, p⟩ ∈ made) {view : WorkspaceView}
    (hshown : view.shown = made.map fun dt => (some dt.tabId, [dt.paneId]))
    (hmap : view.tabIdMap.map (·.2) = made.map (·.tabId)) (hkeyed : view.Keyed gtk.nextPage)
    (hnext : a.gtk.nextPage ≤ gtk.nextPage)
    (hviews : gtk.workspaces = a.gtk.workspaces.insertIdx k view) :
    Paging w { a with sm := sm, gtk := gtk } := by
  have hlen := h.settles.length_eq
  have htabs' : sm.layout.tabs.Perm (a.sm.layout.tabs ++ ws.tabs) := by
    rw [SessionLayout.tabs, hc.workspaces]
    refine ((List.perm_insertIdx ws _ hk).flatMap_right _).trans ?_
    rw [List.flatMap_cons]
    exact List.perm_append_comm
  have hm : Made w ws.tabs es a { a with sm := sm, gtk := gtk } := by
    refine ⟨rfl, hc.sent, ht, hid, htabs', hes, fun i tabId p hmem => ?_⟩
    rw [htabs]
    exact ⟨_, List.mem_map_of_mem (htold i tabId p hmem), rfl, rfl⟩
  have hviewmem : ∀ v ∈ gtk.workspaces, v = view ∨ v ∈ a.gtk.workspaces := by
    intro v hv
    rw [hviews] at hv
    exact (List.mem_insertIdx (by omega)).mp hv
  have hpanes : (made.map (·.paneId)).Nodup := by
    have hd := ht.leaves_nodup
    rw [SessionLayout.leaves_eq, (htabs'.flatMap_right _).nodup_iff, List.flatMap_append,
      List.nodup_append, htabs, List.flatMap_map] at hd
    rw [List.map_eq_flatMap]
    exact hd.2.1
  obtain ⟨hbacked, hsettles⟩ := h.old hm
  refine h.made hm (fun v hv => ?_) (fun v hv => ?_) ?_
  · rcases hviewmem v hv with rfl | hv
    · exact hkeyed
    · exact (h.keyed v hv).mono hnext
  · rcases hviewmem v hv with rfl | hv
    · refine backed_made hshown hmap fun dt hdt => hm.mem ?_
      rw [htabs]
      exact List.mem_map_of_mem hdt
    · exact hbacked v hv
  · dsimp only at hsettles ⊢
    rw [hviews, hc.workspaces]
    refine forall₂_insertIdx hsettles (fun tab htab => ?_) k
    rw [htabs] at htab
    obtain ⟨dt, hdt, rfl⟩ := List.mem_map.mp htab
    refine Or.inl ⟨?_, ?_⟩
    · rw [hshown]
      exact List.mem_map_of_mem hdt
    · have hsingle : view.shown.map (·.2) = (made.map (·.paneId)).map fun p => [p] := by
        rw [hshown, List.map_map, List.map_map]
        rfl
      rw [hsingle]
      refine List.count_eq_one_of_mem (hpanes.map fun p q => List.head_eq_of_cons_eq) ?_
      exact List.mem_map_of_mem (List.mem_map_of_mem hdt)

/-- Both calls of the handler keep what every call keeps. -/
theorem tracked_createWorkspaceRpc (hw : Function.Injective w.newV4) (name : String)
    {s : SessionManager} (ht : Tracked w s) (hid : Identified w s) :
    Tracked w (createWorkspaceRpc w name s).1 ∧ Identified w (createWorkspaceRpc w name s).1 := by
  have ht' : Tracked w (s.createWorkspace w name).1 := ht.apply hw (.createWorkspace name)
  have hid' := (@inherits_createWorkspace w name s).identified hw hid
  unfold createWorkspaceRpc
  dsimp only
  generalize (s.createWorkspace w name).2.2 = i
  generalize (s.createWorkspace w name).1 = t at ht' hid' ⊢
  have ht'' : Tracked w (t.createTab w i none .default none).1 :=
    ht'.apply hw (.createTab i none .default none)
  have hid'' := (@inherits_createTab w i none .default none t).identified hw hid'
  generalize t.createTab w i none .default none = made at ht'' hid'' ⊢
  obtain ⟨u, r⟩ := made
  cases r <;> exact ⟨ht'', hid''⟩

/-- The second call only fails when the spawn fails. -/
theorem createWorkspaceRpc_ok (hspawn : w.SpawnsSucceed) (name : String) (s : SessionManager)
    (e : ForgettyError) : (createWorkspaceRpc w name s).2 ≠ .error e := by
  unfold createWorkspaceRpc createTab createTabWithPaneId
  dsimp only
  rw [if_neg]
  · generalize (s.createWorkspace w name).1.mint.spawned = n
    obtain ⟨bridge, hbridge⟩ := PtyBridge.spawn_ok hspawn n .default none none none true
    rw [hbridge]
    exact nofun
  · show ¬(s.layout.workspaces ++ [_]).length ≤ (s.layout.workspaces ++ [_]).length - 1
    rw [List.length_append, List.length_singleton]
    omega

theorem Paging.newWorkspace (hw : Function.Injective w.newV4) (hspawn : w.SpawnsSucceed)
    (hterm : ∀ p, term.Shows p) (h : Paging w a) (name : String) :
    Paging w (a.createAndSwitchToNewWorkspace w term name) := by
  have hc := changed_createWorkspaceRpc w name a.sm
  have hok := createWorkspaceRpc_ok hspawn name a.sm
  obtain ⟨ht, hid⟩ := tracked_createWorkspaceRpc hw name h.tracked h.identified
  unfold createAndSwitchToNewWorkspace
  generalize createWorkspaceRpc w name a.sm = rpc at hc hok ht hid ⊢
  obtain ⟨sm, r⟩ := rpc
  rcases hc with ⟨e, rfl, -⟩ | ⟨p, tabId, rfl, hc⟩
  · exact absurd rfl (hok e)
  · rw [call_of_ok rfl]
    dsimp only
    rw [if_pos (hterm p).1]
    have hkeyed := WorkspaceView.keyed_new a.gtk.nextPage (w.newV4 a.sm.minted) name
    obtain ⟨hk, hshown⟩ := @buildPages_shown term [(tabId, [p])] (fun t _ q _ => hterm q) _ _ hkeyed
    have hmap := buildPages_map hterm [(tabId, [p])] hkeyed
    have hrest := @buildPages_rest term [(tabId, [p])] a.gtk.nextPage
      (.new (w.newV4 a.sm.minted) name)
    rw [← List.insertIdx_length_self] at hc
    have hlen := h.settles.length_eq
    refine h.inserted [⟨tabId, p⟩] le_rfl rfl hc ht hid (fun e he => ?_)
      (fun i tabId' q hmem => ?_) hshown hmap hk hrest.2.2.2 ?_
    · simp only [List.mem_cons, List.not_mem_nil, or_false] at he
      rcases he with rfl | rfl | rfl <;> trivial
    · simp only [List.mem_cons, List.not_mem_nil, or_false, reduceCtorEq, false_or] at hmem
      obtain ⟨-, rfl, rfl⟩ := SessionEvent.tabCreated.inj hmem
      exact List.mem_singleton.mpr rfl
    · rw [← hlen, List.insertIdx_length_self]

theorem Paging.duplicateWorkspace (hw : Function.Injective w.newV4) (hterm : ∀ p, term.Shows p)
    (h : Paging w a) (idx : ℕ) : Paging w (a.duplicateWorkspace w term idx) := by
  unfold Attached.duplicateWorkspace
  split
  · exact h
  · rename_i source hsource
    obtain ⟨hidx, -⟩ := List.getElem?_eq_some_iff.mp hsource
    have hlen := h.settles.length_eq
    rw [hlen] at hidx
    have hdup := @changed_duplicateWorkspace w a.sm idx .default _ (List.getElem?_eq_getElem hidx)
    have ht : Tracked w (a.sm.duplicateWorkspace w idx none .default).1 :=
      h.tracked.apply hw (.duplicateWorkspace idx none .default)
    have hid := (@inherits_duplicateWorkspace w idx none .default a.sm).identified hw h.identified
    dsimp only
    generalize a.sm.duplicateWorkspace w idx none .default = rpc at hdup ht hid ⊢
    obtain ⟨sm, r⟩ := rpc
    rcases hdup with ⟨e, rfl, hu⟩ | ⟨id, insertAt, made, rfl, hd⟩
    · exact h.unchanged (made_nothing a.gtk hu ht hid) hu.workspaces rfl
    · have hclamped : min insertAt a.gtk.workspaces.length = idx + 1 := by
        rw [hd.insertAt]
        omega
      dsimp only
      rw [hclamped]
      obtain ⟨active, es, hes, -, hchanged⟩ := changed_setActiveWorkspace (idx + 1) sm
      have ht' : Tracked w (sm.setActiveWorkspace (idx + 1)).1 :=
        ht.apply hw (.setActiveWorkspace (idx + 1))
      have hid' := (@inherits_setActiveWorkspace w (idx + 1) sm).identified hw hid
      have hc := hd.changed.trans hchanged
      rw [hd.changed.workspaces] at hc
      have hkeyed := WorkspaceView.keyed_new a.gtk.nextPage id s!"{source.name} (copy)"
      obtain ⟨hk, hshown⟩ := @buildPages_shown term (made.map fun dt => (dt.tabId, [dt.paneId]))
        (fun t _ q _ => hterm q) _ _ hkeyed
      have hmap := buildPages_map hterm (made.map fun dt => (dt.tabId, [dt.paneId])) hkeyed
      have hrest := @buildPages_rest term (made.map fun dt => (dt.tabId, [dt.paneId]))
        a.gtk.nextPage (.new id s!"{source.name} (copy)")
      rw [List.map_map] at hshown hmap
      generalize buildPages term (made.map fun dt => (dt.tabId, [dt.paneId])) a.gtk.nextPage
        (.new id s!"{source.name} (copy)") = built at hshown hmap hk hrest ⊢
      have hview : ({ built.1 with selected := built.1.pages.head?.map (·.key) } :
          WorkspaceView).shown = made.map fun dt => (some dt.tabId, [dt.paneId]) := hshown
      refine h.inserted made hidx rfl hc ht' hid' (fun e he => ?_) (fun i tabId p hmem => ?_) hview
        hmap ⟨hk.pages, hk.tabIdMap⟩ hrest.2.2.2 rfl
      · rcases List.mem_append.mp he with he | he
        · rcases mem_duplicated_sent he with rfl | ⟨dt, -, rfl | rfl⟩ <;> trivial
        · rw [hes e he]
          trivial
      · rcases List.mem_append.mp hmem with hmem | hmem
        · rcases mem_duplicated_sent hmem with heq | ⟨dt, hdt, heq | heq⟩
          · cases heq
          · cases heq
          · obtain ⟨-, rfl, rfl⟩ := SessionEvent.tabCreated.inj heq
            exact hdt
        · exact nomatch hes _ hmem

/-- An event that is handled is not awaited any more. -/
theorem settles_tail {e : SessionEvent} {view : WorkspaceView} {ws : SessionWorkspace}
    (h : Settles (e :: es) view ws)
    (hmapped : ∀ i tabId p, e = .tabCreated i tabId p → tabId ∈ ws.tabs.map (·.id) →
      tabId ∈ view.tabIdMap.map (·.2)) : Settles es view ws := by
  intro tab htab
  refine (h tab htab).imp_right fun ha => ⟨?_, ha.unmapped, ha.hidden⟩
  obtain ⟨i, p, hmem, htree⟩ := ha.told
  rcases List.mem_cons.mp hmem with heq | hmem
  · exact absurd (hmapped i tab.id p heq.symm (List.mem_map_of_mem htab)) ha.unmapped
  · exact ⟨i, p, hmem, htree⟩

/-- The next event is handled; the views may change in any way that keeps what is said of them. -/
theorem Paging.handled (h : Paging w a) {e : SessionEvent} (hin : a.inFlight = e :: es)
    {gtk : WorkspaceManagerInner} (hgtk : a.gtk.handleLayoutEvent term e = gtk)
    (hviews : ∀ view ∈ gtk.workspaces, view.Keyed gtk.nextPage ∧ Backed a.sm.layout view)
    (hsettles : List.Forall₂ (Settles es) gtk.workspaces a.sm.layout.workspaces) :
    Paging w (a.drain term) := by
  have hrest : (a.drain term).inFlight = es := by rw [inFlight_drain, hin, List.tail_cons]
  have hsub : (a.drain term).inFlight ⊆ a.inFlight := by
    rw [hrest, hin]
    exact List.subset_cons_self e es
  have hgtk' : (a.drain term).gtk = gtk := by rw [drain_of_cons hin, ← hgtk]
  refine ⟨next_drain_le h.next, ?_, ?_, ?_, ?_, ?_, fun e he => h.kinds e (hsub he), ?_⟩
  · rw [sm_drain]
    exact h.tracked
  · rw [sm_drain]
    exact h.identified
  · rw [hgtk']
    exact fun view hv => (hviews view hv).1
  · rw [hgtk', sm_drain]
    exact fun view hv => (hviews view hv).2
  · rw [hgtk', sm_drain, hrest]
    exact hsettles
  · intro i tabId p hmem
    rw [sm_drain]
    exact h.told i tabId p (hsub hmem)

/-- A page of a tab that is awaited, in the view where it is missing. -/
theorem settles_gain (h : Paging w a) {i : ℕ} {tab : SessionTab} {p : PaneId}
    (hin : a.inFlight = .tabCreated i tab.id p :: es) (htab : tab ∈ a.sm.layout.tabs)
    (htree : tab.paneTree = .leaf p) {view view' : WorkspaceView} {ws : SessionWorkspace}
    (hg : Gains tab.id [p] view view') (hunmapped : tab.id ∉ view.tabIdMap.map (·.2))
    (hws : ∀ t ∈ ws.tabs, t ∈ a.sm.layout.tabs) (hs : Settles a.inFlight view ws) :
    Settles es view' ws := by
  have hleaves : tab.paneTree.leaves = [p] := by rw [htree]; rfl
  intro t ht
  by_cases hid : t.id = tab.id
  · obtain rfl := List.inj_on_of_nodup_map h.identified.tabIds_nodup (hws t ht) htab hid
    have hawaited : Awaited a.inFlight view t :=
      (hs t ht).resolve_left fun hshows => hunmapped hshows.mapped
    rw [← hleaves] at hg
    exact Or.inl (showsTab_of_gains hg hawaited.hidden)
  · have hne : [p] ≠ t.paneTree.leaves := by
      intro heq
      have hd := h.tracked.leaves_nodup
      rw [SessionLayout.leaves_eq] at hd
      have hp : p ∈ t.paneTree.leaves := by
        rw [← heq]
        exact List.mem_singleton.mpr rfl
      have hp' : p ∈ tab.paneTree.leaves := by
        rw [hleaves]
        exact List.mem_singleton.mpr rfl
      exact hid (congrArg SessionTab.id (eq_of_mem_flatMap hd (hws t ht) htab hp hp'))
    refine (hs t ht).imp (fun hs => hs.gain hg hne) fun ha => ?_
    obtain ⟨⟨j, q, hmem, hq⟩, hunmapped', hhidden⟩ := ha.gain hg hne (Ne.symm hid)
    rw [hin] at hmem
    rcases List.mem_cons.mp hmem with heq | hmem
    · obtain ⟨-, hid', -⟩ := SessionEvent.tabCreated.inj heq
      exact absurd hid' hid
    · exact ⟨⟨j, q, hmem, hq⟩, hunmapped', hhidden⟩

/-- An event that leaves the views alone, and tells of no tab that is missing. -/
theorem Paging.passed (h : Paging w a) {e : SessionEvent} (hin : a.inFlight = e :: es)
    (hgtk : a.gtk.handleLayoutEvent term e = a.gtk)
    (hmapped : ∀ i tabId p, e = .tabCreated i tabId p → ∀ (k : ℕ) view ws,
      a.gtk.workspaces[k]? = some view → a.sm.layout.workspaces[k]? = some ws →
      tabId ∈ ws.tabs.map (·.id) → tabId ∈ view.tabIdMap.map (·.2)) : Paging w (a.drain term) := by
  refine h.handled hin hgtk (fun view hv => ⟨h.keyed view hv, h.backed view hv⟩) ?_
  obtain ⟨hlen, hall⟩ := forall₂_iff_getElem?.mp h.settles
  rw [hin] at hall
  refine forall₂_iff_getElem?.mpr ⟨hlen, fun k view ws hview hws => ?_⟩
  exact settles_tail (hall k view ws hview hws) fun i tabId p heq =>
    hmapped i tabId p heq k view ws hview hws

/-- A tab without a page gets one at the end of its view. -/
theorem onTabCreated_gains {g : WorkspaceManagerInner} {i : ℕ} {tabId : Uuid} {p : PaneId}
    (hshow : term.Shows p) {view : WorkspaceView} (hview : g.workspaces[i]? = some view)
    (hunmapped : tabId ∉ view.tabIdMap.map (·.2)) :
    ∃ f : WorkspaceView → WorkspaceView,
      (∀ view, view.Keyed g.nextPage →
        Gains tabId [p] view (f view) ∧ (f view).Keyed (g.nextPage + 1)) ∧
      (g.onTabCreated term i tabId p).workspaces = g.workspaces.modify i f ∧
      (g.onTabCreated term i tabId p).nextPage = g.nextPage + 1 := by
  rw [WorkspaceManagerInner.onTabCreated, hview]
  dsimp only
  rw [if_neg hunmapped, if_pos hshow]
  split_ifs
  · exact ⟨_, gains_selected g.nextPage tabId p, List.modify_modify_eq _ _ _ _, rfl⟩
  · exact ⟨_, gains_page g.nextPage tabId p, rfl, rfl⟩

/-- The event of a new tab finds the view of its workspace, or a tab that has its page. -/
theorem Paging.tabCreated (hterm : ∀ p, term.Shows p) (h : Paging w a) {i : ℕ} {tabId : Uuid}
    {p : PaneId} (hin : a.inFlight = .tabCreated i tabId p :: es) (hr : Routed a .drain) :
    Paging w (a.drain term) := by
  have hroute := hr i tabId p es hin
  -- every other view has the page already, if the tab is in its workspace
  have helsewhere : ∀ (k : ℕ) view ws, k ≠ i → a.gtk.workspaces[k]? = some view →
      a.sm.layout.workspaces[k]? = some ws → tabId ∈ ws.tabs.map (·.id) →
      tabId ∈ view.tabIdMap.map (·.2) := by
    intro k view ws hk hview hws htab
    obtain ⟨view', hview', hmapped⟩ := (hroute k ws hws htab).resolve_left hk
    rw [hview] at hview'
    obtain rfl := Option.some.inj hview'
    exact hmapped
  have hevent : a.gtk.handleLayoutEvent term (.tabCreated i tabId p) =
      a.gtk.onTabCreated term i tabId p := rfl
  cases hview : a.gtk.workspaces[i]? with
  | none =>
    rw [WorkspaceManagerInner.onTabCreated, hview] at hevent
    refine h.passed hin hevent fun j u q heq k view ws hk hws => ?_
    obtain ⟨rfl, rfl, -⟩ := SessionEvent.tabCreated.inj heq
    refine helsewhere k view ws ?_ hk hws
    rintro rfl
    exact nomatch hview.symm.trans hk
  | some view =>
    by_cases hmapped : tabId ∈ view.tabIdMap.map (·.2)
    · rw [WorkspaceManagerInner.onTabCreated, hview] at hevent
      dsimp only at hevent
      rw [if_pos hmapped] at hevent
      refine h.passed hin hevent fun j u q heq k view' ws hk hws htab => ?_
      obtain ⟨rfl, rfl, -⟩ := SessionEvent.tabCreated.inj heq
      by_cases hki : k = i
      · rw [hki, hview] at hk
        exact Option.some.inj hk ▸ hmapped
      · exact helsewhere k view' ws hki hk hws htab
    · obtain ⟨tab, htab, rfl, htree⟩ := h.told i tabId p (by rw [hin]; exact List.mem_cons_self)
      obtain ⟨f, hf, hviews, hnext⟩ := onTabCreated_gains (hterm p) hview hmapped
      have hleaf : [p] ⊆ a.sm.layout.leaves := by
        intro q hq
        rw [SessionLayout.leaves_eq]
        refine List.mem_flatMap.mpr ⟨tab, htab, ?_⟩
        rwa [htree]
      have hgained := gained hf h.keyed h.backed hleaf (List.mem_map_of_mem htab) i
      refine h.handled hin rfl ?_ ?_
      · rw [hevent, hviews, hnext]
        exact hgained
      · obtain ⟨hlen, hall⟩ := forall₂_iff_getElem?.mp h.settles
        rw [hevent, hviews, forall₂_iff_getElem?]
        refine ⟨by rw [List.length_modify, hlen], fun k view' ws hk hws => ?_⟩
        rw [List.getElem?_modify] at hk
        obtain ⟨old, hold, rfl⟩ := Option.map_eq_some_iff.mp hk
        have hs := hall k old ws hold hws
        split_ifs with hik
        · subst hik
          rw [hview] at hold
          obtain rfl := Option.some.inj hold
          obtain ⟨hg, -⟩ := hf view (h.keyed view (List.mem_of_getElem? hview))
          exact settles_gain h hin htab htree hg hmapped (fun t ht => SessionLayout.mem_tabs hws ht) hs
        · rw [hin] at hs
          refine settles_tail hs fun j u q heq htab' => ?_
          obtain ⟨-, rfl, -⟩ := SessionEvent.tabCreated.inj heq
          exact helsewhere k old ws (Ne.symm hik) hold hws htab'

theorem Paging.drain (hterm : ∀ p, term.Shows p) (h : Paging w a) (hr : Routed a .drain) :
    Paging w (a.drain term) := by
  cases hin : a.inFlight with
  | nil =>
    rw [drain_of_nil hin]
    exact h
  | cons e es =>
    have hkind := h.kinds e (by rw [hin]; exact List.mem_cons_self)
    cases e with
    | tabCreated i tabId p => exact h.tabCreated hterm hin hr
    | paneCreated _ => exact h.passed hin rfl nofun
    | workspaceCreated _ _ _ => exact h.passed hin rfl nofun
    | activeWorkspaceChanged _ => exact h.passed hin rfl nofun
    | _ => exact hkind.elim

theorem Paging.step (hw : Function.Injective w.newV4) (hspawn : w.SpawnsSucceed)
    (hterm : ∀ p, term.Shows p) (h : Paging w a) {i : Action} (hi : MakesTabs i ∧ Routed a i) :
    Paging w (a.step w term i) := by
  obtain ⟨hi, hr⟩ := hi
  cases i with
  | newTab idx cwd command => exact h.addNewTab hw hterm idx cwd command
  | duplicateTab idx cwd command => exact hr.elim
  | newWorkspace name => exact h.newWorkspace hw hspawn hterm name
  | duplicateWorkspace idx => exact h.duplicateWorkspace hw hterm idx
  | autoSeed idx => exact h.autoSeed hw idx
  | drain => exact h.drain hterm hr
  | _ => exact hi.elim

/-- With nothing on the way, no tab is awaited. -/
theorem Paging.settled (h : Paging w a) : PagesSettle a := by
  intro hnil i ws hws
  obtain ⟨view, hview, hs⟩ := exists_of_forall₂ h.settles hws
  refine ⟨view, hview, fun tab htab => (hs tab htab).resolve_right fun ha => ?_⟩
  obtain ⟨j, p, hmem, -⟩ := ha.told
  rw [hnil] at hmem
  exact nomatch hmem

end Steps

/-- A window that has handled every event shows every tab on one page, and nothing else. -/
structure InOrder (a : Attached) : Prop where
  next : a.next = a.sm.eventTx.sent.length
  views : a.gtk.workspaces.length = a.sm.layout.workspaces.length
  pages : OnePagePerTab a
  keyed : ∀ view ∈ a.gtk.workspaces, view.Keyed a.gtk.nextPage
  backed : ∀ view ∈ a.gtk.workspaces, Backed a.sm.layout view

theorem InOrder.paging {w : World} {a : Attached} (h : InOrder a) (ht : Tracked w a.sm)
    (hid : Identified w a.sm) : Paging w a := by
  have hnil : a.inFlight = [] := inFlight_of_next_eq h.next
  refine ⟨h.next.le, ht, hid, h.keyed, h.backed, ?_, ?_, ?_⟩
  · refine forall₂_iff_getElem?.mpr ⟨h.views, fun k view ws hview hws tab htab => ?_⟩
    obtain ⟨view', hview', hall⟩ := h.pages k ws hws
    rw [hview] at hview'
    obtain rfl := Option.some.inj hview'
    exact Or.inl (hall tab htab)
  · rw [hnil]
    exact nofun
  · rw [hnil]
    exact nofun

/-- In every run in which no tab is duplicated and every event of a new tab finds the
workspace of the tab at its index, or a tab that has its page, every tab is shown by one
page whenever all events are handled. -/
theorem pagesSettle_along (w : World) (hw : Function.Injective w.newV4) (hspawn : w.SpawnsSucceed)
    (term : Terminals) (hterm : ∀ p, term.Shows p) (a : Attached) (is : List Action)
    (hsm : SessionState w a.sm) (ha : InOrder a) (hi : ∀ i ∈ is, MakesTabs i)
    (hr : Meets (step w term) Routed a is) : Along (step w term) PagesSettle a is := by
  have h0 := ha.paging (hsm.tracked_sound hw).1 (hsm.identified hw)
  exact along_of_invariant (fun _ _ h hg => h.step hw hspawn hterm hg) (fun _ h => h.settled) h0
    (meets_and.mpr ⟨meets_of_mem hi, hr⟩)

theorem inOrder_attach_twoTabs : InOrder (attach .all ⟨100⟩ twoTabs) where
  next := rfl
  views := by decide
  pages i ws hws := by
    rcases i with _ | _ | i
    · obtain rfl := Option.some.inj hws
      exact ⟨_, rfl, fun tab htab => by
        obtain rfl := List.mem_singleton.mp htab
        exact ⟨by decide, by decide⟩⟩
    · obtain rfl := Option.some.inj hws
      exact ⟨_, rfl, fun tab htab => by
        obtain rfl := List.mem_singleton.mp htab
        exact ⟨by decide, by decide⟩⟩
    · exact nomatch hws
  keyed := by
    intro view hv
    have hpages : ∀ view ∈ (attach .all ⟨100⟩ twoTabs).gtk.workspaces,
        (∀ page ∈ view.pages, page.key < (attach .all ⟨100⟩ twoTabs).gtk.nextPage) ∧
          ∀ x ∈ view.tabIdMap, x.1 < (attach .all ⟨100⟩ twoTabs).gtk.nextPage := by decide
    exact ⟨(hpages view hv).1, (hpages view hv).2⟩
  backed := by
    intro view hv
    have hshown : ∀ view ∈ (attach .all ⟨100⟩ twoTabs).gtk.workspaces,
        (∀ x ∈ view.shown, ∀ p ∈ x.2, p ∈ twoTabs.layout.leaves) ∧
          ∀ u ∈ view.tabIdMap.map (·.2), u ∈ twoTabs.layout.tabs.map (·.id) := by decide
    exact ⟨(hshown view hv).1, (hshown view hv).2⟩

/-- The tab of the first workspace is duplicated, and the events of that are handled: its
copy has two pages. -/
theorem not_pagesSettle_duplicatedTab :
    SessionState .counting twoTabs ∧ InOrder (attach .all ⟨100⟩ twoTabs) ∧
      ¬Along (step .counting .all) PagesSettle (attach .all ⟨100⟩ twoTabs)
        [.duplicateTab 0 none none, .drain, .drain] := by
  refine ⟨sessionState_twoTabs, inOrder_attach_twoTabs, fun h => ?_⟩
  obtain ⟨view, hview, hall⟩ := h.last (by decide) 0 _ rfl
  obtain rfl := Option.some.inj hview
  have hcopy := (hall (.ofLeaf ⟨7⟩ ⟨⟨6⟩⟩) (by decide)).once
  exact absurd hcopy (by decide)

/-- The daemon starts a tab, its events are handled, and the user makes a tab and two
workspaces. -/
theorem pagesSettle_seededFirst :
    Along (step .counting .all) PagesSettle (attach .all ⟨100⟩ twoTabs)
      [.autoSeed 1, .drain, .drain, .newTab 0 none none, .newWorkspace "third",
        .duplicateWorkspace 1] := by
  refine pagesSettle_along .counting World.counting_injective (fun _ _ _ _ _ => ⟨_, rfl⟩) .all
    (fun _ => ⟨rfl, rfl⟩) (attach .all ⟨100⟩ twoTabs) _ sessionState_twoTabs inOrder_attach_twoTabs
    (by simp [MakesTabs]) ⟨trivial, fun i tabId p es heq => ?_,
      fun i tabId p es heq k ws hws hmem => Or.inl ?_, trivial, trivial, trivial, trivial⟩
  · cases Option.some.inj (congrArg List.head? heq)
  · obtain ⟨rfl, rfl, -⟩ :=
      SessionEvent.tabCreated.inj (Option.some.inj (congrArg List.head? heq))
    rcases k with _ | _ | k
    · obtain rfl := Option.some.inj hws
      exact absurd hmem (by decide)
    · rfl
    · exact nomatch hws

end Attached

end Forgetty
