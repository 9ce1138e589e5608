import Forgetty.Gtk.Workspaces
import Forgetty.Daemon.Restored

/-! A new window builds its workspaces from the daemon's layout. The first workspace
goes into the view every window opens with, each other one into a view of its own,
and a workspace without tabs is passed over: the views behind it move up. -/

namespace Forgetty

open Lib SessionManager

namespace WorkspaceManagerInner

/-- A window opens with one view, under an id of its own. -/
def initial (id : Uuid) : WorkspaceManagerInner where
  workspaces := [.new id "Default"]
  activeIndex := 0
  pendingReorders := []
  pendingActivePane := []
  nextPage := 0
  grabbed := []

end WorkspaceManagerInner

/-- The saved focus of every tab that has one. -/
def populateTabActivePaneMap (map : PMap Uuid PaneId) (tabs : List SessionTab) :
    PMap Uuid PaneId :=
  tabs.foldl (fun map tab =>
    match tab.activePaneId with
    | some p => map.insert tab.id p
    | none => map) map

/-- The map of a view, cleared and filled with the saved focus of the tabs. -/
def WorkspaceView.withSavedFocus (tabs : List SessionTab) (view : WorkspaceView) : WorkspaceView :=
  { view with tabActivePane := populateTabActivePaneMap .empty tabs }

/-- What the pages of a workspace are built from. -/
def SessionWorkspace.tabPanes (ws : SessionWorkspace) : List (Uuid × List PaneId) :=
  ws.tabs.map fun tab => (tab.id, tab.paneTree.leaves)

/-- The page at an index, the last one at most. -/
def savedPage (activeTab : ℕ) (pages : List Page) : Option ℕ :=
  (pages[min activeTab (pages.length - 1)]?).map (·.key)

/-- The first workspace, built into the view that is there. The view takes over id,
name and colour only when a page came up. -/
def buildFirst (term : Terminals) (ws : SessionWorkspace) (mgr : WorkspaceManagerInner) :
    WorkspaceManagerInner :=
  if ws.tabs = [] then mgr
  else
    match mgr.workspaces with
    | [] => mgr
    | view :: views =>
      let built := buildPages term ws.tabPanes mgr.nextPage (view.withSavedFocus ws.tabs)
      let created := built.1.pages.drop view.pages.length
      let view :=
        if created = [] then built.1
        else
          { built.1 with
            selected := savedPage ws.activeTab created
            id := ws.id
            name := ws.name
            color := ws.color.bind hexToRgba }
      { mgr with workspaces := view :: views, nextPage := built.2 }

/-- A further workspace, appended as a view of its own when a page came up. -/
def buildNext (term : Terminals) (mgr : WorkspaceManagerInner) (ws : SessionWorkspace) :
    WorkspaceManagerInner :=
  if ws.tabs = [] then mgr
  else
    let built := buildPages term ws.tabPanes mgr.nextPage
      ((WorkspaceView.new ws.id ws.name).withSavedFocus ws.tabs)
    let view :=
      { built.1 with
        selected := savedPage ws.activeTab built.1.pages
        color := ws.color.bind hexToRgba }
    if built.1.pages = [] then mgr
    else { mgr with workspaces := mgr.workspaces ++ [view], nextPage := built.2 }

/-- Build the widgets of a layout. The flag tells whether a page came up. -/
def buildWidgetsFromLayout (term : Terminals) (layout : SessionLayout) (a : Attached) :
    Attached × Bool :=
  match layout.workspaces with
  | [] => (a, false)
  | first :: rest =>
    let active := if layout.activeWorkspace < layout.workspaces.length then layout.activeWorkspace else 0
    if ∀ ws ∈ layout.workspaces, ws.tabs = [] then (a, false)
    else
      let a := { a with gtk := rest.foldl (buildNext term) (buildFirst term first a.gtk) }
      let a := if 0 < active then a.switchWorkspace active else a
      (a, a.gtk.workspaces.any fun ws => !ws.pages.isEmpty)

/-- A window that opens on a daemon and has built its widgets. -/
def Attached.attach (term : Terminals) (id : Uuid) (sm : SessionManager) : Attached :=
  (buildWidgetsFromLayout term sm.layout
    { sm := sm, gtk := .initial id, next := sm.eventTx.sent.length }).1

/-! ### Alignment -/

/-- A view shows a workspace: its tabs in order, and the active one selected. -/
structure ShowsWorkspace (view : WorkspaceView) (ws : SessionWorkspace) : Prop where
  id : view.id = ws.id
  pages : view.shown = ws.tabPanes.map fun t => (some t.1, t.2)
  selected : view.selected = (view.pages[ws.activeTab]?).map (·.key)

/-- The views show the workspaces index by index, the active one included. -/
structure ShowsLayout (mgr : WorkspaceManagerInner) (layout : SessionLayout) : Prop where
  workspaces : List.Forall₂ ShowsWorkspace mgr.workspaces layout.workspaces
  active : mgr.activeIndex = layout.activeWorkspace

/-- Every workspace has a tab; the first may lack one if the window's own id is its. -/
def AllHaveTabs (id : Uuid) (layout : SessionLayout) : Prop :=
  ∀ i ws, layout.workspaces[i]? = some ws → ws.tabs = [] → i = 0 ∧ ws.id = id

section Build

variable {term : Terminals} {mgr : WorkspaceManagerInner} {ws : SessionWorkspace}

theorem tabPanes_ne_nil (h : ws.tabs ≠ []) : ws.tabPanes ≠ [] := by
  simpa [SessionWorkspace.tabPanes] using h

theorem length_shown (view : WorkspaceView) : view.shown.length = view.pages.length :=
  List.length_map _

/-- The page of the active tab, when there are as many pages as tabs. -/
theorem savedPage_eq {view : WorkspaceView} (hs : ws.Sound)
    (hp : view.shown = ws.tabPanes.map fun t => (some t.1, t.2)) (hne : ws.tabs ≠ []) :
    savedPage ws.activeTab view.pages = (view.pages[ws.activeTab]?).map (·.key) := by
  have hlen : view.pages.length = ws.tabs.length := by
    rw [← length_shown, hp, List.length_map, SessionWorkspace.tabPanes, List.length_map]
  have hact := hs.active
  have hpos := List.length_pos_iff.mpr hne
  rw [savedPage, Nat.min_eq_left (by omega)]

theorem shows_of_mem_tabPanes (hall : ∀ p ∈ ws.leaves, term.Shows p) :
    ∀ t ∈ ws.tabPanes, ∀ p ∈ t.2, term.Shows p := by
  intro t ht p hp
  obtain ⟨tab, htab, rfl⟩ := List.mem_map.mp ht
  exact hall p (List.mem_flatMap.mpr ⟨tab, htab, hp⟩)

/-- A view without pages takes the pages of a workspace that has tabs. -/
theorem buildPages_shows (hs : ws.Sound) (hall : ∀ p ∈ ws.leaves, term.Shows p)
    (hne : ws.tabs ≠ []) {view : WorkspaceView} (hpages : view.pages = [])
    (hmap : view.tabIdMap = []) (k : ℕ) :
    (buildPages term ws.tabPanes k view).1.pages ≠ [] ∧
      (buildPages term ws.tabPanes k view).1.shown = ws.tabPanes.map (fun t => (some t.1, t.2)) ∧
      savedPage ws.activeTab (buildPages term ws.tabPanes k view).1.pages =
        ((buildPages term ws.tabPanes k view).1.pages[ws.activeTab]?).map (·.key) := by
  have hk : view.Keyed k := ⟨by simp [hpages], by simp [hmap]⟩
  obtain ⟨-, hshown⟩ := buildPages_shown ws.tabPanes (shows_of_mem_tabPanes hall) hk
  rw [show view.shown = [] by rw [WorkspaceView.shown, hpages, List.map_nil],
    List.nil_append] at hshown
  refine ⟨fun hnil => ?_, hshown, savedPage_eq hs hshown hne⟩
  rw [WorkspaceView.shown, hnil, List.map_nil] at hshown
  exact tabPanes_ne_nil hne (List.map_eq_nil_iff.mp hshown.symm)

theorem buildNext_of_nil (h : ws.tabs = []) : buildNext term mgr ws = mgr := if_pos h

theorem buildNext_of_ne_nil (hs : ws.Sound) (hall : ∀ p ∈ ws.leaves, term.Shows p)
    (hne : ws.tabs ≠ []) (mgr : WorkspaceManagerInner) :
    (buildNext term mgr ws).activeIndex = mgr.activeIndex ∧
      ∃ view, (buildNext term mgr ws).workspaces = mgr.workspaces ++ [view] ∧
        ShowsWorkspace view ws := by
  obtain ⟨hpages, hshown, hsaved⟩ := @buildPages_shows term ws hs hall hne
    ((WorkspaceView.new ws.id ws.name).withSavedFocus ws.tabs) rfl rfl mgr.nextPage
  rw [buildNext, if_neg hne]
  dsimp only
  rw [if_neg hpages]
  exact ⟨rfl, _, rfl, (buildPages_rest _ _ _).1, hshown, hsaved⟩

/-- The workspaces that have tabs get their views, in their order. -/
theorem foldl_buildNext (rest : List SessionWorkspace) (hs : ∀ ws ∈ rest, ws.Sound)
    (hall : ∀ ws ∈ rest, ∀ p ∈ ws.leaves, term.Shows p) (mgr : WorkspaceManagerInner) :
    (rest.foldl (buildNext term) mgr).activeIndex = mgr.activeIndex ∧
      ∃ views, (rest.foldl (buildNext term) mgr).workspaces = mgr.workspaces ++ views ∧
        List.Forall₂ ShowsWorkspace views (rest.filter (·.tabs ≠ [])) := by
  induction rest generalizing mgr with
  | nil => exact ⟨rfl, [], (List.append_nil _).symm, .nil⟩
  | cons ws rest ih =>
    have hsr := fun v hv => hs v (List.mem_cons_of_mem ws hv)
    have hallr := fun v hv => hall v (List.mem_cons_of_mem ws hv)
    rw [List.foldl_cons]
    by_cases hnil : ws.tabs = []
    · rw [buildNext_of_nil hnil, List.filter_cons_of_neg (by simpa using hnil)]
      exact ih hsr hallr mgr
    · obtain ⟨hact, view, hview, hshow⟩ := buildNext_of_ne_nil (hs ws List.mem_cons_self)
        (hall ws List.mem_cons_self) hnil mgr
      obtain ⟨hact', views, hviews, hshows⟩ := ih hsr hallr (buildNext term mgr ws)
      refine ⟨hact'.trans hact, view :: views, ?_, ?_⟩
      · rw [hviews, hview, List.append_assoc, List.singleton_append]
      · rw [List.filter_cons_of_pos (by simpa using hnil)]
        exact .cons hshow hshows

/-- The first view shows the first workspace unless that has no tabs. -/
theorem buildFirst_initial (hs : ws.Sound) (hall : ∀ p ∈ ws.leaves, term.Shows p) (id : Uuid) :
    (buildFirst term ws (.initial id)).activeIndex = 0 ∧
      ∃ view, (buildFirst term ws (.initial id)).workspaces = [view] ∧
        (ShowsWorkspace view ws ↔ (ws.tabs = [] → ws.id = id)) := by
  by_cases hnil : ws.tabs = []
  · rw [buildFirst, if_pos hnil]
    refine ⟨rfl, .new id "Default", rfl, fun h _ => h.id.symm, fun h => ⟨(h hnil).symm, ?_, rfl⟩⟩
    rw [SessionWorkspace.tabPanes, hnil]
    rfl
  · obtain ⟨hpages, hshown, hsaved⟩ := @buildPages_shows term ws hs hall hnil
      ((WorkspaceView.new id "Default").withSavedFocus ws.tabs) rfl rfl 0
    have hcreated : (buildPages term ws.tabPanes 0
        ((WorkspaceView.new id "Default").withSavedFocus ws.tabs)).1.pages.drop
          (WorkspaceView.new id "Default").pages.length ≠ [] := hpages
    rw [buildFirst, if_neg hnil]
    dsimp only [WorkspaceManagerInner.initial]
    refine ⟨rfl, _, rfl, fun _ h => absurd h hnil, fun _ => ?_⟩
    rw [if_neg hcreated]
    exact ⟨rfl, hshown, hsaved⟩

end Build

section Attach

variable {term : Terminals} {sm : SessionManager} {first : SessionWorkspace}
  {rest : List SessionWorkspace} {id : Uuid}

/-- The views of a window that opens on a layout with a tab. -/
theorem attach_workspaces (hl : sm.layout.workspaces = first :: rest)
    (htabs : ∃ ws ∈ sm.layout.workspaces, ws.tabs ≠ []) :
    (Attached.attach term id sm).gtk.workspaces =
      (rest.foldl (buildNext term) (buildFirst term first (.initial id))).workspaces := by
  have hany : ¬∀ ws ∈ sm.layout.workspaces, ws.tabs = [] := by simpa using htabs
  rw [Attached.attach, buildWidgetsFromLayout]
  split
  · rename_i heq
    rw [hl] at heq
    cases heq
  · rename_i first' rest' heq
    obtain ⟨rfl, rfl⟩ := List.cons.inj (hl.symm.trans heq)
    rw [if_neg hany]
    dsimp only
    split_ifs <;> simp

/-- The active index, if the view it designates is there. -/
theorem attach_activeIndex (hl : sm.layout.workspaces = first :: rest)
    (htabs : ∃ ws ∈ sm.layout.workspaces, ws.tabs ≠ [])
    (hactive : sm.layout.activeWorkspace < sm.layout.workspaces.length)
    (hzero : (rest.foldl (buildNext term) (buildFirst term first (.initial id))).activeIndex = 0)
    (hlen : sm.layout.activeWorkspace < (Attached.attach term id sm).gtk.workspaces.length) :
    (Attached.attach term id sm).gtk.activeIndex = sm.layout.activeWorkspace := by
  have hany : ¬∀ ws ∈ sm.layout.workspaces, ws.tabs = [] := by simpa using htabs
  rw [attach_workspaces hl htabs] at hlen
  rw [Attached.attach, buildWidgetsFromLayout]
  split
  · rename_i heq
    rw [hl] at heq
    cases heq
  · rename_i first' rest' heq
    obtain ⟨rfl, rfl⟩ := List.cons.inj (hl.symm.trans heq)
    rw [if_neg hany]
    dsimp only
    rw [if_pos hactive]
    split_ifs with hpos
    · exact Attached.switchWorkspace_activeIndex hlen
    · exact hzero.trans (Nat.eq_zero_of_not_pos hpos).symm

end Attach

/-- A window that opens on a session shows its layout exactly if every workspace has a
tab. -/
theorem attach_shows_iff (w : World) (hw : Function.Injective w.newV4) (sm : SessionManager)
    (hsm : SessionState w sm) (htabs : ∃ ws ∈ sm.layout.workspaces, ws.tabs ≠ [])
    (term : Terminals) (hall : ∀ p ∈ sm.layout.leaves, term.Shows p) (id : Uuid) :
    ShowsLayout (Attached.attach term id sm).gtk sm.layout ↔ AllHaveTabs id sm.layout := by
  obtain ⟨-, hs⟩ := hsm.tracked_sound hw
  cases hl : sm.layout.workspaces with
  | nil =>
    obtain ⟨ws, hws, -⟩ := htabs
    rw [hl] at hws
    cases hws
  | cons first rest =>
    have hsound : ∀ ws ∈ first :: rest, ws.Sound := by
      rw [← hl]
      exact hs.workspaces
    have hshow : ∀ ws ∈ first :: rest, ∀ p ∈ ws.leaves, term.Shows p := by
      rw [← hl]
      exact fun ws hws p hp => hall p (List.mem_flatMap.mpr ⟨ws, hws, hp⟩)
    obtain ⟨hzero, view, hview, hfirst⟩ := buildFirst_initial (hsound first List.mem_cons_self)
      (hshow first List.mem_cons_self) id
    obtain ⟨hact, views, hviews, hrest⟩ := foldl_buildNext rest
      (fun ws hws => hsound ws (List.mem_cons_of_mem first hws))
      (fun ws hws => hshow ws (List.mem_cons_of_mem first hws))
      (buildFirst term first (.initial id))
    have hws : (Attached.attach term id sm).gtk.workspaces = view :: views := by
      rw [attach_workspaces hl htabs, hviews, hview]
      rfl
    constructor
    · intro h
      have hall₂ := h.workspaces
      rw [hws, hl] at hall₂
      obtain ⟨hv, hvs⟩ := List.forall₂_cons.mp hall₂
      -- as many views as workspaces behind the first, so none was passed over
      have hlen : (rest.filter (·.tabs ≠ [])).length = rest.length :=
        hrest.length_eq.symm.trans hvs.length_eq
      have hne := List.length_filter_eq_length_iff.mp hlen
      intro i ws hi hnil
      rw [hl] at hi
      cases i with
      | zero =>
        obtain rfl := Option.some.inj hi
        exact ⟨rfl, hfirst.mp hv hnil⟩
      | succ i => exact absurd hnil (by simpa using hne ws (List.mem_of_getElem? hi))
    · intro h
      have hne : ∀ ws ∈ rest, ws.tabs ≠ [] := by
        intro ws hws hnil
        obtain ⟨i, hi⟩ := List.mem_iff_getElem?.mp hws
        exact Nat.succ_ne_zero i (h (i + 1) ws (by rw [hl]; exact hi) hnil).1
      rw [List.filter_eq_self.mpr fun ws hws => decide_eq_true (hne ws hws)] at hrest
      have hv : ShowsWorkspace view first :=
        hfirst.mpr fun hnil => (h 0 first (by rw [hl]; rfl) hnil).2
      have hshows : List.Forall₂ ShowsWorkspace (Attached.attach term id sm).gtk.workspaces
          sm.layout.workspaces := by
        rw [hws, hl]
        exact .cons hv hrest
      refine ⟨hshows, attach_activeIndex hl htabs hs.active (hact.trans hzero) ?_⟩
      rw [hshows.length_eq]
      exact hs.active

/-- The only workspace loses its tab and moves between two that have one. -/
def emptyBetween : SessionManager :=
  ((SessionManager.new .counting .empty).setByteLogConfig 1024 10).runOps .counting
    [.createTab 0 none .default none, .closeTab ⟨2⟩, .createWorkspace "first",
      .createTab 1 none .default none, .moveWorkspace 0 1, .createWorkspace "last",
      .createTab 2 none .default none]

theorem sessionState_emptyBetween : SessionState .counting emptyBetween :=
  ⟨_, _, .empty .empty 1024 10, rfl⟩

theorem not_attach_shows_emptyBetween :
    SessionState .counting emptyBetween ∧ (∃ ws ∈ emptyBetween.layout.workspaces, ws.tabs ≠ []) ∧
      (∀ p ∈ emptyBetween.layout.leaves, Terminals.all.Shows p) ∧
      ¬ShowsLayout (Attached.attach .all ⟨100⟩ emptyBetween).gtk emptyBetween.layout := by
  refine ⟨sessionState_emptyBetween, by decide, by decide, fun h => ?_⟩
  have hlen := h.workspaces.length_eq
  revert hlen
  decide

/-- Two workspaces with a tab each. -/
def twoTabs : SessionManager :=
  ((SessionManager.new .counting .empty).setByteLogConfig 1024 10).runOps .counting
    [.createTab 0 none .default none, .createWorkspace "second", .createTab 1 none .default none]

theorem sessionState_twoTabs : SessionState .counting twoTabs := ⟨_, _, .empty .empty 1024 10, rfl⟩

theorem attach_shows_twoTabs :
    ShowsLayout (Attached.attach .all ⟨100⟩ twoTabs).gtk twoTabs.layout := by
  refine (attach_shows_iff .counting World.counting_injective twoTabs sessionState_twoTabs
    (by decide) .all (by decide) ⟨100⟩).mpr fun i ws hi hnil => ?_
  have hmem := List.mem_of_getElem? hi
  revert hnil
  have hall : ∀ ws ∈ twoTabs.layout.workspaces, ws.tabs ≠ [] := by decide
  exact fun hnil => absurd hnil (hall ws hmem)

end Forgetty
