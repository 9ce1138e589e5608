import Forgetty.Config.Schema
import Forgetty.Gtk.PaneTree
import Forgetty.Lib.Run
import Forgetty.Lib.Splice

/-! The settings that the panes of a window go by. A pane takes over the settings of the window
when it is made. A reload and a choice in the appearance sidebar are carried to the panes by looking
for the drawing area of each in the tree of the window, which has one tab view in it at a time. -/

namespace Forgetty.HotReload

open Lib
open ConfigFile (binary32)

/-! ### One pane -/

/-- `f32::EPSILON`. -/
def epsilon : BinaryFloat binary32 := .finite false 8388608 (-46) (by decide)

/-- The `f32` that `0.01` is read as. -/
def hundredth : BinaryFloat binary32 := .finite false 10737418 (-30) (by decide)

/-- What a pane keeps of the settings, and the size its font is zoomed to. -/
structure ConfiguredPane where
  config : ConfigFile.Config
  ansiPalette : ConfigFile.Palette 16
  fontSize : BinaryFloat binary32
  defaultFontSize : BinaryFloat binary32

/-- `create_terminal`. -/
def ConfiguredPane.create (config : ConfigFile.Config) : ConfiguredPane where
  config := config
  ansiPalette := config.theme.ansiColors
  fontSize := config.fontSize
  defaultFontSize := config.fontSize

def ConfiguredPane.fontChanged (newConfig : ConfigFile.Config) (p : ConfiguredPane) : Bool :=
  p.config.fontFamily ≠ newConfig.fontFamily ||
    epsilon.lt (p.config.fontSize.distance newConfig.fontSize)

/-- The zoom is given up where the font changes. -/
def ConfiguredPane.applyConfigChange (newConfig : ConfigFile.Config) (p : ConfiguredPane) :
    ConfiguredPane :=
  let config := { p.config with
    theme := newConfig.theme
    bellMode := newConfig.bellMode
    notificationMode := newConfig.notificationMode
    fontFamily := newConfig.fontFamily }
  if p.fontChanged newConfig then
    { config := { config with fontSize := newConfig.fontSize }
      ansiPalette := newConfig.theme.ansiColors
      fontSize := newConfig.fontSize
      defaultFontSize := newConfig.fontSize }
  else { p with config := config, ansiPalette := newConfig.theme.ansiColors }

/-- The pane is drawn and rings by the settings. -/
structure Shows (config : ConfigFile.Config) (p : ConfiguredPane) : Prop where
  theme : p.config.theme = config.theme
  ansiPalette : p.ansiPalette = config.theme.ansiColors
  bellMode : p.config.bellMode = config.bellMode
  notificationMode : p.config.notificationMode = config.notificationMode
  font : p.fontChanged config = false

variable {config newConfig : ConfigFile.Config} {p : ConfiguredPane}

theorem fontChanged_self (h : p.config.fontFamily = config.fontFamily)
    (hsize : p.config.fontSize = config.fontSize) : p.fontChanged config = false := by
  have hlt : epsilon.lt (config.fontSize.distance config.fontSize) = false :=
    BinaryFloat.lt_distance_self _ config.fontSize
  rw [ConfiguredPane.fontChanged, h, hsize, hlt]
  simp

theorem shows_create (config : ConfigFile.Config) : Shows config (.create config) where
  theme := rfl
  ansiPalette := rfl
  bellMode := rfl
  notificationMode := rfl
  font := fontChanged_self rfl rfl

/-- A pane that is told of the settings goes by them. -/
theorem shows_applyConfigChange (newConfig : ConfigFile.Config) (p : ConfiguredPane) :
    Shows newConfig (p.applyConfigChange newConfig) := by
  by_cases hchanged : p.fontChanged newConfig
  · rw [ConfiguredPane.applyConfigChange, if_pos hchanged]
    exact ⟨rfl, rfl, rfl, rfl, fontChanged_self rfl rfl⟩
  · rw [ConfiguredPane.applyConfigChange, if_neg hchanged]
    have hsize : ¬epsilon.lt (p.config.fontSize.distance newConfig.fontSize) := fun h =>
      hchanged (by rw [ConfiguredPane.fontChanged, h, Bool.or_true])
    exact ⟨rfl, rfl, rfl, rfl, by simpa [ConfiguredPane.fontChanged] using hsize⟩

/-! ### The window -/

/-- A workspace with the panes of its `tab_states`. The number is that of its tab view. -/
structure Workspace where
  tabView : ℕ
  panes : List (PaneName × ConfiguredPane)

/-- All panes of a workspace are told of the settings. -/
def Workspace.applyConfigChange (newConfig : ConfigFile.Config) (ws : Workspace) : Workspace :=
  { ws with panes := ws.panes.map fun p => (p.1, p.2.applyConfigChange newConfig) }

/-- The settings the window shares, its workspaces, the tab views in `main_area`, and how many there
have been. -/
structure Window where
  config : ConfigFile.Config
  workspaces : List Workspace
  activeIndex : ℕ
  mainArea : List ℕ
  tabViews : ℕ

/-- A choice in the appearance sidebar. -/
inductive Choice where
  | theme (themeName : String) (newTheme : ConfigFile.Theme)
  | fontFamily (newFamily : String)
  | fontSize (size : ℕ)

/-- Choosing what is chosen does nothing. -/
def Choice.updated (config : ConfigFile.Config) : Choice → Option ConfigFile.Config
  | .theme themeName newTheme =>
    if config.themeName = some themeName then none
    else some { config with theme := newTheme, themeName := some themeName }
  | .fontFamily newFamily =>
    if config.fontFamily = newFamily then none else some { config with fontFamily := newFamily }
  | .fontSize size =>
    let newSize := BinaryFloat.ofInt binary32 size
    if (config.fontSize.distance newSize).lt hundredth then none
    else some { config with fontSize := newSize }

inductive Event where
  | switchWorkspace (target : ℕ)
  | createAndSwitchToNewWorkspace (pane : PaneName)
  /-- A workspace of a session that is restored. -/
  | restoreWorkspace (panes : List PaneName)
  | deleteWorkspace (target : ℕ)
  /-- Another client deleted the workspace. -/
  | onWorkspaceDeleted (target : ℕ)
  /-- A new tab or split. -/
  | addPane (target : ℕ) (pane : PaneName)
  | closePane (target : ℕ) (pane : PaneName)
  | zoom (target : ℕ) (pane : PaneName) (size : BinaryFloat binary32)
  | appearance (choice : Choice)
  /-- A choice on a page of the settings, or a text saved in their editor. -/
  | settings (newConfig : ConfigFile.Config)
  /-- The file of the settings changed, or the menu's Reload was chosen. -/
  | reload (newConfig : ConfigFile.Config)

namespace Window

/-- A window with its first workspace. -/
def start (config : ConfigFile.Config) : Window where
  config := config
  workspaces := [⟨0, []⟩]
  activeIndex := 0
  mainArea := [0]
  tabViews := 1

def newPanes (panes : List PaneName) (w : Window) : List (PaneName × ConfiguredPane) :=
  panes.map fun pane => (pane, .create w.config)

def views (w : Window) : List ℕ := w.workspaces.map (·.tabView)

def tabViewAt (i : ℕ) (w : Window) : Option ℕ := w.views[i]?

/-- The tab view of the active workspace makes room for another. -/
def swapTabView (target : ℕ) (w : Window) : Window :=
  { w with
    activeIndex := target
    mainArea := (w.tabViewAt target).toList ++
      w.mainArea.filter fun v => w.tabViewAt w.activeIndex ≠ some v }

def modifyPanes (target : ℕ)
    (f : List (PaneName × ConfiguredPane) → List (PaneName × ConfiguredPane)) (w : Window) :
    Window :=
  { w with workspaces := w.workspaces.modify target fun ws => { ws with panes := f ws.panes } }

def append (panes : List PaneName) (w : Window) : Window :=
  { w with
    workspaces := w.workspaces ++ [⟨w.tabViews, w.newPanes panes⟩]
    tabViews := w.tabViews + 1 }

/-- The index of the active workspace when another one is gone. -/
def activeAfter (target : ℕ) (w : Window) : ℕ :=
  if target < w.activeIndex then w.activeIndex - 1
  else min w.activeIndex (w.workspaces.length - 2)

/-- `do_delete_workspace_at_index`. The last workspace stays. -/
def deleteWorkspace (target : ℕ) (w : Window) : Window :=
  if w.workspaces.length ≤ 1 then w
  else match w.tabViewAt target with
    | none => w
    | some old =>
      let active := w.activeAfter target
      let workspaces := w.workspaces.eraseIdx target
      let mainArea := w.mainArea.filter (· ≠ old)
      let w := { w with workspaces := workspaces, activeIndex := active }
      { w with mainArea := ((w.tabViewAt active).filter (· ∉ mainArea)).toList ++ mainArea }

/-- The handler of the event has no `main_area`. -/
def onWorkspaceDeleted (target : ℕ) (w : Window) : Window :=
  if target < w.workspaces.length then
    { w with
      workspaces := w.workspaces.eraseIdx target
      activeIndex := w.activeAfter target }
  else w

/-- The panes of the workspaces that are reached are told of the settings. -/
def applyToPanes (reached : Workspace → Bool) (newConfig : ConfigFile.Config) (w : Window) :
    Window :=
  { w with
    config := newConfig
    workspaces := w.workspaces.map fun ws =>
      if reached ws then ws.applyConfigChange newConfig else ws }

/-- The drawing areas of the workspace are in the tree of the window. -/
def shown (w : Window) (ws : Workspace) : Bool := ws.tabView ∈ w.mainArea

/-- The sidebar has the `tab_states` of the first workspace. -/
def inSidebar (w : Window) (ws : Workspace) : Bool := ws.tabView = 0 && w.shown ws

def step (w : Window) : Event → Window
  | .switchWorkspace target =>
    if target < w.workspaces.length ∧ target ≠ w.activeIndex then w.swapTabView target else w
  | .createAndSwitchToNewWorkspace pane => (w.append [pane]).swapTabView w.workspaces.length
  | .restoreWorkspace panes => w.append panes
  | .deleteWorkspace target => w.deleteWorkspace target
  | .onWorkspaceDeleted target => w.onWorkspaceDeleted target
  | .addPane target pane => w.modifyPanes target (· ++ w.newPanes [pane])
  | .closePane target pane => w.modifyPanes target (·.filter (·.1 ≠ pane))
  | .zoom target pane size => w.modifyPanes target (·.map fun p =>
      if p.1 = pane then (p.1, { p.2 with fontSize := size }) else p)
  | .appearance choice => match choice.updated w.config with
    | some newConfig => w.applyToPanes w.inSidebar newConfig
    | none => w
  | .settings newConfig => { w with config := newConfig }
  | .reload newConfig => w.applyToPanes w.shown newConfig

/-! ### Which panes are reached -/

/-- Every pane of every workspace goes by the settings of the window. -/
def Current (w : Window) : Prop := ∀ ws ∈ w.workspaces, ∀ p ∈ ws.panes, Shows w.config p.2

/-- Only the active workspace is shown. -/
def OnlyActiveShown (w : Window) : Prop :=
  ∀ i ws, w.workspaces[i]? = some ws → w.shown ws = true → i = w.activeIndex

def ActiveShown (w : Window) : Prop := ∃ v, w.tabViewAt w.activeIndex = some v ∧ v ∈ w.mainArea

/-- A reload tells the panes of the active workspace, where it is shown, and nobody else. -/
def ReachesActive (w : Window) : Event → Prop
  | .reload newConfig => ∀ i ws, w.workspaces[i]? = some ws →
      (i = w.activeIndex ∧ w.ActiveShown →
        (w.step (.reload newConfig)).workspaces[i]? = some (ws.applyConfigChange newConfig)) ∧
      (¬(i = w.activeIndex ∧ w.ActiveShown) →
        (w.step (.reload newConfig)).workspaces[i]? = some ws)
  | _ => True

/-- No other client deletes the active workspace. -/
def SparesActive (w : Window) : Event → Prop
  | .onWorkspaceDeleted target => target ≠ w.activeIndex
  | _ => True

/-- All panes but those of the workspaces told go by the settings. -/
def OthersShow (w : Window) (told : ℕ → Workspace → Prop) (newConfig : ConfigFile.Config) : Prop :=
  ∀ i ws, w.workspaces[i]? = some ws → ¬told i ws → ∀ p ∈ ws.panes, Shows newConfig p.2

/-- New settings change nothing for the panes that are not told of them. A reload tells those of the
active workspace, a choice in the sidebar the same while the first one is active, and a choice on
the pages of the settings none. -/
def Guard (w : Window) : Event → Prop
  | .appearance choice => ∀ newConfig ∈ choice.updated w.config,
      w.OthersShow (fun i ws => i = w.activeIndex ∧ w.ActiveShown ∧ ws.tabView = 0) newConfig
  | .settings newConfig => w.OthersShow (fun _ _ => False) newConfig
  | .reload newConfig => w.OthersShow (fun i _ => i = w.activeIndex ∧ w.ActiveShown) newConfig
  | _ => True

/-- No two workspaces have one tab view, and of those in the window none is to come. Of the
workspaces at most the active one is shown. -/
structure Inv (w : Window) : Prop where
  nodup : w.views.Nodup
  views_lt : ∀ v ∈ w.views, v < w.tabViews
  area_lt : ∀ v ∈ w.mainArea, v < w.tabViews
  active : ∀ v ∈ w.views, v ∈ w.mainArea → w.tabViewAt w.activeIndex = some v

variable {w : Window}

theorem current_applyToPanes {reached : Workspace → Bool} :
    (w.applyToPanes reached newConfig).Current ↔
      ∀ ws ∈ w.workspaces, reached ws = false → ∀ p ∈ ws.panes, Shows newConfig p.2 := by
  rw [Current, applyToPanes]
  simp only [List.forall_mem_map]
  refine forall₂_congr fun ws _ => ?_
  cases hreached : reached ws with
  | true =>
    refine iff_of_true (fun p hp => ?_) fun hfalse => Bool.noConfusion hfalse
    obtain ⟨p', -, rfl⟩ := List.mem_map.mp hp
    exact shows_applyConfigChange newConfig p'.2
  | false => simp

theorem current_modifyPanes {target : ℕ}
    {f : List (PaneName × ConfiguredPane) → List (PaneName × ConfiguredPane)} (h : w.Current)
    (hf : ∀ panes, (∀ p ∈ panes, Shows w.config p.2) → ∀ p ∈ f panes, Shows w.config p.2) :
    (w.modifyPanes target f).Current :=
  forall_mem_modify h fun ws hws => hf ws.panes (h ws (List.mem_of_getElem? hws))

theorem shows_newPanes {panes : List PaneName} : ∀ p ∈ w.newPanes panes, Shows w.config p.2 := by
  intro p hp
  obtain ⟨pane, -, rfl⟩ := List.mem_map.mp hp
  exact shows_create w.config

theorem current_append {panes : List PaneName} (h : w.Current) : (w.append panes).Current := by
  intro ws hws
  rcases List.mem_append.mp hws with hws | hws
  · exact h ws hws
  · rw [List.mem_singleton.mp hws]
    exact shows_newPanes

theorem current_of_mem {w' : Window} (h : w.Current) (hconfig : w'.config = w.config)
    (hmem : ∀ ws ∈ w'.workspaces, ws ∈ w.workspaces) : w'.Current := by
  intro ws hws
  rw [hconfig]
  exact h ws (hmem ws hws)

/-! ### Which workspace is shown -/

theorem views_modifyPanes {target : ℕ}
    {f : List (PaneName × ConfiguredPane) → List (PaneName × ConfiguredPane)} :
    (w.modifyPanes target f).views = w.views :=
  map_modify_of_eq (g := Workspace.tabView) (f := fun ws => { ws with panes := f ws.panes })
    (fun _ => rfl) w.workspaces target

theorem views_applyToPanes {reached : Workspace → Bool} :
    (w.applyToPanes reached newConfig).views = w.views := by
  rw [views, applyToPanes, List.map_map]
  refine List.map_congr_left fun ws _ => ?_
  dsimp only [Function.comp_apply]
  split_ifs <;> rfl

theorem views_append {panes : List PaneName} : (w.append panes).views = w.views ++ [w.tabViews] :=
  List.map_append

/-- What leaves the tab views alone keeps the invariant. -/
theorem Inv.of_same {w' : Window} (h : Inv w) (hviews : w'.views = w.views)
    (hactive : w'.activeIndex = w.activeIndex) (harea : w'.mainArea = w.mainArea)
    (hnext : w'.tabViews = w.tabViews) : Inv w' := by
  obtain ⟨h1, h2, h3, h4⟩ := h
  constructor
  · rwa [hviews]
  · rwa [hviews, hnext]
  · rwa [harea, hnext]
  · rwa [tabViewAt, hviews, hactive, harea]

theorem Inv.swapTabView (h : Inv w) (target : ℕ) : Inv (w.swapTabView target) where
  nodup := h.nodup
  views_lt := h.views_lt
  area_lt v hv := by
    rcases List.mem_append.mp hv with hv | hv
    · exact h.views_lt v (List.mem_of_getElem? (Option.mem_toList.mp hv))
    · exact h.area_lt v (List.mem_of_mem_filter hv)
  active v hviews hv := by
    rcases List.mem_append.mp hv with hv | hv
    · exact Option.mem_toList.mp hv
    · obtain ⟨harea, hne⟩ := List.mem_filter.mp hv
      exact absurd (h.active v hviews harea) (of_decide_eq_true hne)

theorem Inv.append (h : Inv w) (panes : List PaneName) : Inv (w.append panes) where
  nodup := by
    rw [views_append, List.nodup_append]
    refine ⟨h.nodup, List.nodup_singleton _, fun v hv v' hv' => ?_⟩
    rw [List.mem_singleton.mp hv']
    exact (h.views_lt v hv).ne
  views_lt v hv := by
    rw [views_append] at hv
    rcases List.mem_append.mp hv with hv | hv
    · exact Nat.lt_succ_of_lt (h.views_lt v hv)
    · exact Nat.lt_succ_of_le (List.mem_singleton.mp hv).le
  area_lt v hv := Nat.lt_succ_of_lt (h.area_lt v hv)
  active v hviews hv := by
    rw [views_append] at hviews
    rcases List.mem_append.mp hviews with hviews | hnew
    · have hactive : w.views[w.activeIndex]? = some v := h.active v hviews hv
      rw [tabViewAt, views_append]
      exact List.getElem?_append_left (List.getElem?_eq_some_iff.mp hactive).1 ▸ hactive
    · exact absurd (h.area_lt v hv) (List.mem_singleton.mp hnew ▸ lt_irrefl _)

/-- Where the active workspace is when another one is gone. -/
theorem getElem?_activeAfter {target v : ℕ} (htarget : target < w.workspaces.length)
    (hne : w.activeIndex ≠ target) (hv : w.views[w.activeIndex]? = some v) :
    (w.views.eraseIdx target)[w.activeAfter target]? = some v := by
  have hlt : w.activeIndex < w.workspaces.length := by
    simpa [views] using (List.getElem?_eq_some_iff.mp hv).1
  rw [activeAfter, List.getElem?_eraseIdx]
  split_ifs with hafter hbefore hbefore
  · omega
  · rw [Nat.sub_add_cancel (by omega)]
    exact hv
  · rw [min_eq_left (by omega)]
    exact hv
  · omega

theorem Inv.not_mem_eraseIdx (h : Inv w) {i v : ℕ} (hi : w.views[i]? = some v) :
    v ∉ w.views.eraseIdx i := by
  intro hmem
  obtain ⟨j, hj, hv⟩ := List.mem_eraseIdx_iff_getElem?.mp hmem
  have hlt : j < w.views.length := (List.getElem?_eq_some_iff.mp hv).1
  exact hj ((List.getElem?_inj hlt h.nodup).mp (hv.trans hi.symm))

/-- A workspace goes, and nothing but the tab view of the then active one comes into the window. -/
theorem Inv.eraseIdx {w' : Window} (h : Inv w) {target : ℕ} (htarget : target < w.workspaces.length)
    (hworkspaces : w'.workspaces = w.workspaces.eraseIdx target)
    (hindex : w'.activeIndex = w.activeAfter target) (hnext : w'.tabViews = w.tabViews)
    (harea : ∀ v ∈ w'.mainArea, v ∈ w.mainArea ∨ w'.tabViewAt w'.activeIndex = some v) :
    Inv w' := by
  have hviews : w'.views = w.views.eraseIdx target := by
    rw [views, views, hworkspaces, List.eraseIdx_map]
  have hlt : ∀ v ∈ w'.views, v < w'.tabViews := by
    rw [hviews, hnext]
    exact fun v hv => h.views_lt v (List.mem_of_mem_eraseIdx hv)
  constructor
  · rw [hviews]
    exact h.nodup.eraseIdx target
  · exact hlt
  · intro v hv
    rcases harea v hv with hv | hv
    · rw [hnext]
      exact h.area_lt v hv
    · exact hlt v (List.mem_of_getElem? hv)
  · intro v hv hin
    rcases harea v hin with hin | hactive
    · rw [hviews] at hv
      have hactive : w.views[w.activeIndex]? = some v :=
        h.active v (List.mem_of_mem_eraseIdx hv) hin
      have hne : w.activeIndex ≠ target := by
        rintro rfl
        exact h.not_mem_eraseIdx hactive hv
      rw [tabViewAt, hviews, hindex]
      exact getElem?_activeAfter htarget hne hactive
    · exact hactive

theorem Inv.deleteWorkspace (h : Inv w) (target : ℕ) : Inv (w.deleteWorkspace target) := by
  rw [Window.deleteWorkspace]
  split_ifs
  · exact h
  · split
    next => exact h
    next old hold =>
      have htarget : target < w.workspaces.length := by
        simpa [views] using (List.getElem?_eq_some_iff.mp hold).1
      refine h.eraseIdx htarget rfl rfl rfl fun v hv => ?_
      rcases List.mem_append.mp hv with hv | hv
      · exact Or.inr (Option.filter_eq_some_iff.mp (Option.mem_toList.mp hv)).1
      · exact Or.inl (List.mem_of_mem_filter hv)

theorem Inv.onWorkspaceDeleted (h : Inv w) (target : ℕ) : Inv (w.onWorkspaceDeleted target) := by
  rw [Window.onWorkspaceDeleted]
  split_ifs with htarget
  · exact h.eraseIdx htarget rfl rfl rfl fun v hv => Or.inl hv
  · exact h

theorem Inv.applyToPanes {reached : Workspace → Bool} (h : Inv w) :
    Inv (w.applyToPanes reached newConfig) :=
  h.of_same views_applyToPanes rfl rfl rfl

theorem Inv.step (h : Inv w) (e : Event) : Inv (w.step e) := by
  cases e with
  | switchWorkspace target =>
    rw [Window.step]
    split_ifs
    · exact h.swapTabView target
    · exact h
  | createAndSwitchToNewWorkspace pane => exact (h.append [pane]).swapTabView _
  | restoreWorkspace panes => exact h.append panes
  | deleteWorkspace target => exact h.deleteWorkspace target
  | onWorkspaceDeleted target => exact h.onWorkspaceDeleted target
  | addPane target pane => exact h.of_same views_modifyPanes rfl rfl rfl
  | closePane target pane => exact h.of_same views_modifyPanes rfl rfl rfl
  | zoom target pane size => exact h.of_same views_modifyPanes rfl rfl rfl
  | appearance choice =>
    rw [Window.step]
    split
    · exact h.applyToPanes
    · exact h
  | settings newConfig => exact h.of_same rfl rfl rfl rfl
  | reload newConfig => exact h.applyToPanes

theorem inv_start (config : ConfigFile.Config) : Inv (start config) where
  nodup := List.nodup_singleton 0
  views_lt v hv := by
    rw [List.mem_singleton.mp hv]
    exact Nat.one_pos
  area_lt v hv := by
    rw [List.mem_singleton.mp hv]
    exact Nat.one_pos
  active v hv _ := by
    rw [List.mem_singleton.mp hv]
    rfl

theorem Inv.onlyActiveShown (h : Inv w) : w.OnlyActiveShown := by
  intro i ws hws hshown
  have hi : w.views[i]? = some ws.tabView := by rw [views, List.getElem?_map, hws]; rfl
  have hactive : w.views[w.activeIndex]? = some ws.tabView :=
    h.active ws.tabView (List.mem_of_getElem? hi) (of_decide_eq_true hshown)
  have hlt : i < w.views.length := (List.getElem?_eq_some_iff.mp hi).1
  exact (List.getElem?_inj hlt h.nodup).mp (hi.trans hactive.symm)

/-- The workspaces a reload reaches. -/
theorem Inv.shown_iff (h : Inv w) {i : ℕ} {ws : Workspace} (hws : w.workspaces[i]? = some ws) :
    w.shown ws = true ↔ i = w.activeIndex ∧ w.ActiveShown := by
  have hview : w.tabViewAt i = some ws.tabView := by
    rw [tabViewAt, views, List.getElem?_map, hws]; rfl
  constructor
  · intro hshown
    obtain rfl := h.onlyActiveShown i ws hws hshown
    exact ⟨rfl, ws.tabView, hview, of_decide_eq_true hshown⟩
  · rintro ⟨rfl, v, hv, hin⟩
    obtain rfl : ws.tabView = v := Option.some.inj (hview.symm.trans hv)
    exact decide_eq_true hin

theorem Inv.reachesActive (h : Inv w) (e : Event) : w.ReachesActive e := by
  cases e with
  | reload newConfig =>
    intro i ws hws
    have hget : (w.step (.reload newConfig)).workspaces[i]? =
        some (if w.shown ws then ws.applyConfigChange newConfig else ws) := by
      rw [Window.step, Window.applyToPanes, List.getElem?_map, hws, Option.map_some]
    refine ⟨fun hactive => ?_, fun hother => ?_⟩
    · rw [hget, if_pos ((h.shown_iff hws).mpr hactive)]
    · rw [hget, if_neg fun hshown => hother ((h.shown_iff hws).mp hshown)]
  | _ => trivial

theorem Inv.inSidebar_iff (h : Inv w) {i : ℕ} {ws : Workspace} (hws : w.workspaces[i]? = some ws) :
    w.inSidebar ws = true ↔ i = w.activeIndex ∧ w.ActiveShown ∧ ws.tabView = 0 := by
  rw [inSidebar, Bool.and_eq_true, h.shown_iff hws, decide_eq_true_iff]
  tauto

theorem activeShown_swapTabView {target : ℕ} (h : target < w.workspaces.length) :
    (w.swapTabView target).ActiveShown := by
  have hlt : target < w.views.length := by rwa [views, List.length_map]
  refine ⟨w.views[target], List.getElem?_eq_getElem hlt, List.mem_append_left _ ?_⟩
  exact Option.mem_toList.mpr (List.getElem?_eq_getElem hlt)

theorem activeShown_deleteWorkspace (h : w.ActiveShown) (target : ℕ) :
    (w.deleteWorkspace target).ActiveShown := by
  rw [deleteWorkspace]
  split_ifs with hlast
  · exact h
  · split
    next => exact h
    next old hold =>
      -- the index of the workspace that is active then is one of those left
      obtain ⟨v, hv, -⟩ := h
      have hviews : ∀ l : List Workspace, (l.map (·.tabView)).length = l.length := fun l =>
        List.length_map _
      have hactive : w.activeIndex < w.workspaces.length :=
        hviews w.workspaces ▸ (List.getElem?_eq_some_iff.mp hv).1
      have htarget : target < w.workspaces.length :=
        hviews w.workspaces ▸ (List.getElem?_eq_some_iff.mp hold).1
      have hlt : w.activeAfter target <
          ((w.workspaces.eraseIdx target).map (·.tabView)).length := by
        rw [hviews, List.length_eraseIdx_of_lt htarget, activeAfter]
        split_ifs <;> omega
      have hnew := List.getElem?_eq_getElem hlt
      refine ⟨_, hnew, ?_⟩
      rw [List.mem_append, Option.mem_toList, Option.filter_eq_some_iff]
      by_cases hin : ((w.workspaces.eraseIdx target).map (·.tabView))[w.activeAfter target] ∈
          w.mainArea.filter (· ≠ old)
      · exact Or.inr hin
      · exact Or.inl ⟨hnew, decide_eq_true hin⟩

/-- While nobody else deletes it, the active workspace is shown. -/
theorem ActiveShown.step {e : Event} (h : w.ActiveShown) (he : w.SparesActive e) :
    (w.step e).ActiveShown := by
  obtain ⟨v, hv, hin⟩ := h
  have hlt : w.activeIndex < w.workspaces.length := by
    simpa [views] using (List.getElem?_eq_some_iff.mp hv).1
  cases e with
  | switchWorkspace target =>
    rw [Window.step]
    split_ifs with htarget
    · exact activeShown_swapTabView htarget.1
    · exact ⟨v, hv, hin⟩
  | createAndSwitchToNewWorkspace pane =>
    exact activeShown_swapTabView (by simp [Window.append])
  | restoreWorkspace panes =>
    refine ⟨v, ?_, hin⟩
    have hview : w.views[w.activeIndex]? = some v := hv
    change (w.append panes).views[w.activeIndex]? = some v
    rw [views_append, List.getElem?_append_left (List.getElem?_eq_some_iff.mp hview).1, hview]
  | deleteWorkspace target => exact activeShown_deleteWorkspace ⟨v, hv, hin⟩ target
  | onWorkspaceDeleted target =>
    rw [Window.step, Window.onWorkspaceDeleted]
    split_ifs with htarget
    · refine ⟨v, ?_, hin⟩
      have herased := getElem?_activeAfter htarget (Ne.symm he) hv
      rw [views, List.eraseIdx_map] at herased
      exact herased
    · exact ⟨v, hv, hin⟩
  | addPane target pane => exact ⟨v, by rwa [Window.step, tabViewAt, views_modifyPanes], hin⟩
  | closePane target pane => exact ⟨v, by rwa [Window.step, tabViewAt, views_modifyPanes], hin⟩
  | zoom target pane size => exact ⟨v, by rwa [Window.step, tabViewAt, views_modifyPanes], hin⟩
  | appearance choice =>
    rw [Window.step]
    split
    · exact ⟨v, by rwa [tabViewAt, views_applyToPanes], hin⟩
    · exact ⟨v, hv, hin⟩
  | settings newConfig => exact ⟨v, hv, hin⟩
  | reload newConfig => exact ⟨v, by rwa [Window.step, tabViewAt, views_applyToPanes], hin⟩

theorem activeShown_start (config : ConfigFile.Config) : (start config).ActiveShown :=
  ⟨0, rfl, List.mem_singleton_self 0⟩

/-! ### Who goes by new settings -/

/-- Settings that some workspaces are told of. -/
theorem current_applyToPanes_iff {reached : Workspace → Bool} {told : ℕ → Workspace → Prop}
    (h : ∀ {i ws}, w.workspaces[i]? = some ws → (reached ws = true ↔ told i ws)) :
    (w.applyToPanes reached newConfig).Current ↔ w.OthersShow told newConfig := by
  rw [current_applyToPanes]
  constructor
  · intro hshows i ws hws htold
    have hnot : reached ws = false := Bool.eq_false_iff.mpr fun hr => htold ((h hws).mp hr)
    exact hshows ws (List.mem_of_getElem? hws) hnot
  · intro hshows ws hmem hreached
    obtain ⟨i, hws⟩ := List.mem_iff_getElem?.mp hmem
    exact hshows i ws hws fun htold => by simp [(h hws).mpr htold] at hreached

/-- Settings that nobody is told of. -/
theorem current_settings_iff :
    { w with config := newConfig }.Current ↔ w.OthersShow (fun _ _ => False) newConfig := by
  constructor
  · exact fun hshows i ws hws _ => hshows ws (List.mem_of_getElem? hws)
  · intro hshows ws hmem
    obtain ⟨i, hws⟩ := List.mem_iff_getElem?.mp hmem
    exact hshows i ws hws not_false

/-- What a step needs for all panes to go by the settings behind it. -/
theorem current_step_iff (hw : Inv w) (h : w.Current) (e : Event) :
    (w.step e).Current ↔ Guard w e := by
  cases e with
  | switchWorkspace target =>
    refine iff_of_true ?_ trivial
    rw [step]
    split_ifs <;> exact h
  | createAndSwitchToNewWorkspace pane => exact iff_of_true (current_append (w := w) h) trivial
  | restoreWorkspace panes => exact iff_of_true (current_append h) trivial
  | deleteWorkspace target =>
    refine iff_of_true ?_ trivial
    rw [step, deleteWorkspace]
    split_ifs
    · exact h
    · split
      next => exact h
      next => exact current_of_mem h rfl fun ws => List.mem_of_mem_eraseIdx
  | onWorkspaceDeleted target =>
    refine iff_of_true ?_ trivial
    rw [step, onWorkspaceDeleted]
    split_ifs
    · exact current_of_mem h rfl fun ws => List.mem_of_mem_eraseIdx
    · exact h
  | addPane target pane =>
    refine iff_of_true (current_modifyPanes h fun panes hpanes p hp => ?_) trivial
    rcases List.mem_append.mp hp with hp | hp
    · exact hpanes p hp
    · exact shows_newPanes p hp
  | closePane target pane =>
    refine iff_of_true (current_modifyPanes h fun panes hpanes p hp => ?_) trivial
    exact hpanes p (List.mem_of_mem_filter hp)
  | zoom target pane size =>
    refine iff_of_true (current_modifyPanes h fun panes hpanes p hp => ?_) trivial
    obtain ⟨p', hp', rfl⟩ := List.mem_map.mp hp
    have hshows := hpanes p' hp'
    split_ifs
    · exact ⟨hshows.theme, hshows.ansiPalette, hshows.bellMode, hshows.notificationMode,
        hshows.font⟩
    · exact hshows
  | appearance choice =>
    rw [step]
    cases hupdated : choice.updated w.config with
    | none => exact iff_of_true h fun newConfig hnew => by simp [hupdated] at hnew
    | some newConfig =>
      refine (current_applyToPanes_iff hw.inSidebar_iff).trans ?_
      simp [Guard, hupdated]
  | settings newConfig => exact current_settings_iff
  | reload newConfig => exact current_applyToPanes_iff hw.shown_iff

/-! ### Every run -/

theorem current_start (config : ConfigFile.Config) : (start config).Current := by
  intro ws hws
  rw [List.mem_singleton.mp hws]
  exact fun p hp => absurd hp List.not_mem_nil

/-- In every run a reload tells the panes of the active workspace and nobody else; only the active
workspace is ever shown, and it is unless another client deleted the one before it. All panes go by
the settings of the window exactly if new settings change nothing for those that are not told of
them: at a reload the panes of the workspaces that are not active, at a choice in the appearance
sidebar all panes but those of the first workspace while it is active, and on a page of the settings
all of them. -/
theorem current_along_iff (config : ConfigFile.Config) (es : List Event) :
    Meets step ReachesActive (start config) es ∧
      Along step OnlyActiveShown (start config) es ∧
      (Meets step SparesActive (start config) es → Along step ActiveShown (start config) es) ∧
      (Along step Current (start config) es ↔ Meets step Guard (start config) es) := by
  refine ⟨?_, ?_, fun hspares => ?_, ?_⟩
  · exact meets_of_invariant (fun _ e h _ => h.step e) (fun _ e h _ => h.reachesActive e)
      (inv_start config) (meets_of_mem fun _ _ => trivial)
  · have hinv : Along step Inv (start config) es :=
      along_of_step (inv_start config) fun _ e h => h.step e
    exact along_iff.mpr fun n => (along_iff.mp hinv n).onlyActiveShown
  · exact along_of_invariant (I := ActiveShown) (fun _ _ h he => h.step he) (fun _ h => h)
      (activeShown_start config) hspares
  · exact along_iff_meets (fun _ e h _ _ => h.step e) (fun _ e hw h => current_step_iff hw h e)
      (inv_start config) (current_start config)

/-- Another client deletes the first workspace while the second one is shown. -/
theorem current_along_iff_deletedMeanwhile :
    Along step ActiveShown (start ConfigFile.unbound) [.addPane 0 0,
      .createAndSwitchToNewWorkspace 1, .onWorkspaceDeleted 0, .reload ConfigFile.unbound] :=
  (current_along_iff ConfigFile.unbound _).2.2.1 ⟨trivial, trivial, Nat.zero_ne_one, trivial, trivial⟩

/-- A theme that is reloaded while the second workspace is shown does not reach the first. -/
theorem not_current_secondShown {newTheme : ConfigFile.Theme} (h : config.theme ≠ newTheme) :
    ¬(run step (start config) [.addPane 0 0, .createAndSwitchToNewWorkspace 1,
      .reload { config with theme := newTheme }]).Current := by
  intro hcurrent
  have hshows := hcurrent ⟨0, [(0, .create config)]⟩ List.mem_cons_self
    (0, .create config) List.mem_cons_self
  exact h hshows.theme

end Window

end Forgetty.HotReload
