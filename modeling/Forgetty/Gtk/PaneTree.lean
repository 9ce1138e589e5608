import Forgetty.Daemon.Restored
import Forgetty.Gtk.Client
import Forgetty.Socket.ClosePane

/-! The panes of one tab in a window: nested paned widgets that the window edits on
its own after each call to the daemon. The two trees stay the same through splits
to the right and down. A split to the left or up puts the new pane first in the
window and second in the daemon, and the daemon prunes no leaf of a split. -/

namespace Forgetty

open Lib SessionManager

/-! ### Widgets -/

inductive Orientation where
  | horizontal
  | vertical
  deriving DecidableEq, Repr

def Orientation.direction : Orientation → String
  | horizontal => "horizontal"
  | vertical => "vertical"

/-- A paned widget without its children: the sizes are what the toolkit allocated. -/
structure Paned where
  orientation : Orientation
  width : ℤ
  height : ℤ
  position : ℤ
  deriving DecidableEq, Repr

/-- The number in the name of a drawing area. -/
abbrev PaneName := ℕ

/-- Paned widgets with drawing areas. The boxes around a drawing area are part of
the leaf: the functions that look for drawing areas go through boxes. -/
abbrev PaneWidget := LeafTree Paned PaneName

def Paned.new (orientation : Orientation) : Paned :=
  { orientation := orientation, width := 0, height := 0, position := 0 }

/-- Put `u` in the slot of a drawing area: the only content of the page, or the
start or else the end of the paned it is in. -/
def replaceChild (name : PaneName) (u : PaneWidget) : PaneWidget → PaneWidget
  | .leaf n => if n = name then u else .leaf n
  | .node p start stop =>
    if start = .leaf name then .node p u stop
    else if stop = .leaf name then .node p start u
    else .node p (replaceChild name u start) (replaceChild name u stop)

/-- Put the sibling of a drawing area in the slot of the paned around both. -/
def promoteSibling (name : PaneName) : PaneWidget → PaneWidget
  | .leaf n => .leaf n
  | .node p start stop =>
    if start = .leaf name then stop
    else if stop = .leaf name then start
    else .node p (promoteSibling name start) (promoteSibling name stop)

theorem replaceChild_eq_subst {name : PaneName} {u t : PaneWidget} (hd : t.leaves.Nodup) :
    replaceChild name u t = t.subst name u := by
  induction t with
  | leaf n => rfl
  | node p start stop hs ht =>
    rw [LeafTree.leaves_node, List.nodup_append] at hd
    obtain ⟨hds, hdt, hdis⟩ := hd
    rw [replaceChild, LeafTree.subst_node]
    split_ifs with h1 h2
    · subst h1
      have : name ∉ stop.leaves := fun h => hdis name (by simp) name h rfl
      rw [LeafTree.subst_leaf_self, LeafTree.subst_of_not_mem this]
    · subst h2
      have : name ∉ start.leaves := fun h => hdis name h name (by simp) rfl
      rw [LeafTree.subst_leaf_self, LeafTree.subst_of_not_mem this]
    · rw [hs hds, ht hdt]

theorem promoteSibling_of_not_mem {name : PaneName} {t : PaneWidget} (h : name ∉ t.leaves) :
    promoteSibling name t = t := by
  induction t with
  | leaf n => rfl
  | node p start stop hs ht =>
    simp only [LeafTree.leaves_node, List.mem_append, not_or] at h
    have h1 : start ≠ .leaf name := by rintro rfl; simp at h
    have h2 : stop ≠ .leaf name := by rintro rfl; simp at h
    rw [promoteSibling, if_neg h1, if_neg h2, hs h.1, ht h.2]

/-- A drawing area that is not alone is gone from the leaves. -/
theorem length_promoteSibling {name : PaneName} {t : PaneWidget} (h : name ∈ t.leaves)
    (hne : t ≠ .leaf name) : (promoteSibling name t).leaves.length < t.leaves.length := by
  induction t with
  | leaf n =>
    obtain rfl : name = n := by simpa using h
    exact absurd rfl hne
  | node p start stop hs ht =>
    have hpos := start.leaves_length_pos
    have hpos' := stop.leaves_length_pos
    rw [promoteSibling, LeafTree.leaves_node, List.length_append]
    split_ifs with h1 h2
    · omega
    · omega
    · rw [LeafTree.leaves_node, List.length_append]
      have hs' : (promoteSibling name start).leaves.length ≤ start.leaves.length := by
        by_cases hm : name ∈ start.leaves
        · exact (hs hm h1).le
        · rw [promoteSibling_of_not_mem hm]
      have ht' : (promoteSibling name stop).leaves.length ≤ stop.leaves.length := by
        by_cases hm : name ∈ stop.leaves
        · exact (ht hm h2).le
        · rw [promoteSibling_of_not_mem hm]
      rcases List.mem_append.mp h with hm | hm
      · have := hs hm h1
        omega
      · have := ht hm h2
        omega

/-! ### One tab -/

/-- The daemon and the page of one tab: its content until the page is closed, and
which pane of the daemon each drawing area shows. -/
structure TabPage where
  sm : SessionManager
  content : Option PaneWidget
  tabStates : PMap PaneName PaneId
  nextPaneId : ℕ

/-- Splits right and down put the new pane behind the old one, splits left and up
put it `before`. -/
inductive PaneAction where
  | split (focused : PaneName) (orientation : Orientation) (before : Bool)
  | close (name : PaneName)
  deriving DecidableEq, Repr

/-- The paned of a split. `before` puts the new drawing area in the start slot. -/
def newPaned (orientation : Orientation) (before : Bool) (focused newDa : PaneName) : PaneWidget :=
  if before then .node (.new orientation) (.leaf newDa) (.leaf focused)
  else .node (.new orientation) (.leaf focused) (.leaf newDa)

namespace TabPage

def splitPane (w : World) (term : Terminals) (focused : PaneName) (orientation : Orientation)
    (before : Bool) (v : TabPage) : TabPage :=
  match v.content.filter (focused ∈ ·.leaves), v.tabStates.get focused with
  | some root, some parent =>
    match DaemonClient.splitPane w parent orientation.direction v.sm with
    | (sm, none) => { v with sm := sm }
    | (sm, some newPane) =>
      if term.Shows newPane then
        { sm := sm
          content := some (replaceChild focused
            (newPaned orientation before focused v.nextPaneId) root)
          tabStates := v.tabStates.insert v.nextPaneId newPane
          nextPaneId := v.nextPaneId + 1 }
      else { v with sm := sm }
  | _, _ => v

/-- The last pane is closed with its tab and page. -/
def closePaneByName (w : World) (name : PaneName) (v : TabPage) : TabPage :=
  match v.content.filter (name ∈ ·.leaves), v.tabStates.get name with
  | some root, some pane =>
    if root.leaves.length ≤ 1 then
      { v with
        sm := DaemonClient.closeTabByPaneId w pane v.sm
        content := none
        tabStates := v.tabStates.erase name }
    else
      { v with
        sm := DaemonClient.closePane w pane v.sm
        content := some (promoteSibling name root)
        tabStates := v.tabStates.erase name }
  | _, _ => v

def step (w : World) (term : Terminals) (v : TabPage) : PaneAction → TabPage
  | .split focused orientation before => v.splitPane w term focused orientation before
  | .close name => v.closePaneByName w name

end TabPage

/-! ### What both trees say -/

/-- The nesting of the paned widgets: orientations at the nodes, panes at the leaves. -/
def gtkNesting (states : PMap PaneName PaneId) (t : PaneWidget) :
    LeafTree String (Option PaneId) := (t.relabel (·.orientation.direction)).map states.get

/-- The nesting of the splits. -/
def daemonNesting (t : PaneTreeLayout) : LeafTree String (Option PaneId) :=
  (t.relabel (·.direction)).map some

/-- The tree of the tab with index `j` in the workspace with index `i`. -/
def SessionLayout.treeAt (i j : ℕ) (l : SessionLayout) : Option PaneTreeLayout :=
  ((l.workspaces[i]?).bind (·.tabs[j]?)).map (·.paneTree)

namespace TabPage

/-- The page shows the tree the daemon has for the tab. -/
def Refines (i j : ℕ) (v : TabPage) : Prop :=
  v.content.map (gtkNesting v.tabStates) = (v.sm.layout.treeAt i j).map daemonNesting

/-- The action is on a pane of the page, and does not close the last one. -/
def Permitted (v : TabPage) (a : PaneAction) : Prop :=
  ∃ root, v.content = some root ∧
    match a with
    | .split focused _ _ => focused ∈ root.leaves
    | .close name => name ∈ root.leaves ∧ root ≠ .leaf name

/-- Split to the right or down. -/
def Behind : PaneAction → Prop
  | .split _ _ before => before = false
  | .close _ => False

/-- No name shown is handed out again, and the panes shown are live. -/
structure Wired (v : TabPage) : Prop where
  names_lt : ∀ root, v.content = some root → ∀ n ∈ root.leaves, n < v.nextPaneId
  live : ∀ root, v.content = some root → ∀ n ∈ root.leaves, ∀ p, v.tabStates.get n = some p →
    p ∈ v.sm.panes

end TabPage

/-! ### What the daemon does -/

section Daemon

variable {w : World} {s : SessionManager} {p : PaneId}

/-- A split of a live pane puts a fresh pane behind it in its tree. -/
theorem splitPane_of_live (hw : w.SpawnsSucceed) (hs : Tracked w s) (hp : p ∈ s.panes)
    (orientation : Orientation) :
    let r := DaemonClient.splitPane w p orientation.direction s
    r.2 = some ⟨w.newV4 s.minted⟩ ∧
      r.1.layout.workspaces = substLeaf p
        (.node ⟨orientation.direction, 1 / 2⟩ (.leaf p) (.leaf ⟨w.newV4 s.minted⟩))
        s.layout.workspaces ∧
      ∀ q, q ∈ r.1.panes ↔ q = ⟨w.newV4 s.minted⟩ ∨ q ∈ s.panes := by
  obtain ⟨info, hinfo⟩ : ∃ info, s.paneInfo p = some info := by
    obtain ⟨pane, hpane⟩ := PMap.exists_get hp
    exact ⟨_, by rw [paneInfo, hpane, Option.map_some]⟩
  obtain ⟨bridge, hbridge⟩ :=
    PtyBridge.spawn_ok hw s.mint.spawned .default (some info.cwd) none none true
  obtain ⟨tabId, hrep⟩ := replaceLeafInLayout_eq (⟨w.newV4 s.minted⟩ : PaneId)
    orientation.direction (1 / 2) hs.leaves_nodup (hs.live_leaf p hp)
  have hdir : orientation.direction = "horizontal" ∨ orientation.direction = "vertical" := by
    cases orientation
    · exact Or.inl rfl
    · exact Or.inr rfl
  simp only [DaemonClient.splitPane, hinfo, if_pos hdir, SessionManager.splitPane, if_pos hp,
    splitAt, hbridge, registerPane_layout, countSpawn_layout, mint_layout, hrep]
  refine ⟨rfl, ?_, fun q => ?_⟩
  · simp
  · simp [PaneState.spawned]

theorem tracked_splitPane (hw : Function.Injective w.newV4) (hs : Tracked w s) (p : PaneId)
    (direction : String) : Tracked w (DaemonClient.splitPane w p direction s).1 := by
  unfold DaemonClient.splitPane
  split
  · exact hs
  · rename_i info _
    split_ifs
    · exact hs.apply hw (.splitPane p direction .default (some info.cwd))
    · exact hs

theorem treeAt_substLeaf {i j : ℕ} {l l' : SessionLayout} {t u : PaneTreeLayout}
    (hl : l'.workspaces = substLeaf p u l.workspaces) (h : l.treeAt i j = some t) :
    l'.treeAt i j = some (t.subst p u) := by
  simp only [SessionLayout.treeAt, Option.map_eq_some_iff, Option.bind_eq_some_iff] at h
  obtain ⟨tab, ⟨ws, hws, htab⟩, rfl⟩ := h
  simp [SessionLayout.treeAt, hl, substLeaf, hws, SessionWorkspace.subst, htab, SessionTab.subst]

theorem exists_of_treeAt {i j : ℕ} {l : SessionLayout} {t : PaneTreeLayout}
    (h : l.treeAt i j = some t) :
    ∃ ws ∈ l.workspaces, ∃ tab ∈ ws.tabs, tab.paneTree = t := by
  simp only [SessionLayout.treeAt, Option.map_eq_some_iff, Option.bind_eq_some_iff] at h
  obtain ⟨tab, ⟨ws, hws, htab⟩, rfl⟩ := h
  exact ⟨ws, List.mem_of_getElem? hws, tab, List.mem_of_getElem? htab, rfl⟩

/-- The panes of one tab are distinct. -/
theorem nodup_of_mem_tabs {l : SessionLayout} (hd : l.leaves.Nodup) {ws : SessionWorkspace}
    (hws : ws ∈ l.workspaces) {tab : SessionTab} (ht : tab ∈ ws.tabs) :
    tab.paneTree.leaves.Nodup :=
  (List.nodup_flatMap.mp ((List.nodup_flatMap.mp hd).1 ws hws)).1 tab ht

/-- Closing one of several panes leaves the layout alone. -/
theorem closePane_layout (hs : Tracked w s) (hp : SplitLeaf p s) :
    (DaemonClient.closePane w p s).layout = s.layout := by
  unfold DaemonClient.closePane
  split_ifs with h
  · have hlive : p ∈ s.panes := by simpa [paneInfo, PMap.mem_def] using h
    rw [closePaneRpc_of_splitLeaf hs hp hlive]
    rfl
  · rfl

end Daemon

/-! ### One action -/

section Nesting

variable {states : PMap PaneName PaneId} {root : PaneWidget} {t : PaneTreeLayout}

theorem leaves_of_nesting (h : gtkNesting states root = daemonNesting t) :
    root.leaves.map states.get = t.leaves.map some := by
  have := congrArg LeafTree.leaves h
  simpa [gtkNesting, daemonNesting] using this

/-- The names shown are distinct as the panes are. -/
theorem nodup_of_nesting (h : gtkNesting states root = daemonNesting t) (hd : t.leaves.Nodup) :
    (root.leaves.map states.get).Nodup := by
  rw [leaves_of_nesting h]
  exact hd.map fun _ _ => Option.some.inj

theorem exists_pane_of_nesting (h : gtkNesting states root = daemonNesting t) {n : PaneName}
    (hn : n ∈ root.leaves) : ∃ p ∈ t.leaves, states.get n = some p := by
  have hmem : states.get n ∈ t.leaves.map some :=
    leaves_of_nesting h ▸ List.mem_map_of_mem hn
  obtain ⟨p, hp, heq⟩ := List.mem_map.mp hmem
  exact ⟨p, hp, heq.symm⟩

/-- A tree put in the place of a drawing area, seen from the daemon's tree. -/
theorem gtkNesting_subst (h : gtkNesting states root = daemonNesting t) (hd : t.leaves.Nodup)
    {focused n : PaneName} {parent newPane : PaneId} (hf : focused ∈ root.leaves)
    (hp : states.get focused = some parent) (hn : n ∉ root.leaves) (u : PaneWidget) :
    gtkNesting (states.insert n newPane) (root.subst focused u) =
      (daemonNesting t).subst (some parent) (gtkNesting (states.insert n newPane) u) := by
  have hinj := List.inj_on_of_nodup_map (nodup_of_nesting h hd)
  rw [← h, gtkNesting, gtkNesting, gtkNesting, LeafTree.relabel_subst, ← hp]
  apply LeafTree.map_subst
  · intro x hx _
    rw [LeafTree.leaves_relabel] at hx
    exact PMap.get_insert_of_ne fun hxn => hn (hxn ▸ hx)
  · intro x hx hxf
    rw [LeafTree.leaves_relabel] at hx
    exact hinj hx hf hxf

theorem daemonNesting_subst (p : PaneId) (u : PaneTreeLayout) :
    daemonNesting (t.subst p u) = (daemonNesting t).subst (some p) (daemonNesting u) := by
  rw [daemonNesting, daemonNesting, daemonNesting, LeafTree.relabel_subst]
  exact LeafTree.map_subst _ _ (fun _ _ _ => rfl) fun _ _ => Option.some.inj

end Nesting

namespace TabPage

section Steps

variable {w : World} {term : Terminals} {v : TabPage} {i j : ℕ}

/-- The daemon's tree for a page with content. -/
theorem Refines.exists_tree (hr : v.Refines i j) {root : PaneWidget}
    (hroot : v.content = some root) :
    ∃ t, v.sm.layout.treeAt i j = some t ∧ gtkNesting v.tabStates root = daemonNesting t := by
  rw [Refines, hroot, Option.map_some, eq_comm, Option.map_eq_some_iff] at hr
  obtain ⟨t, ht, heq⟩ := hr
  exact ⟨t, ht, heq.symm⟩

/-- What a split of a live pane leads to. -/
theorem splitPane_eq (hw : w.SpawnsSucceed) (hterm : ∀ p, term.Shows p) (hs : Tracked w v.sm)
    (hv : v.Wired) {root : PaneWidget} (hroot : v.content = some root) (hd : root.leaves.Nodup)
    {focused : PaneName} (hf : focused ∈ root.leaves) {parent : PaneId} (hget : v.tabStates.get focused = some parent)
    (orientation : Orientation) (before : Bool) :
    v.splitPane w term focused orientation before =
      { sm := (DaemonClient.splitPane w parent orientation.direction v.sm).1
        content := some (root.subst focused (newPaned orientation before focused v.nextPaneId))
        tabStates := v.tabStates.insert v.nextPaneId ⟨w.newV4 v.sm.minted⟩
        nextPaneId := v.nextPaneId + 1 } := by
  have hlive := hv.live root hroot focused hf parent hget
  have hnew := (splitPane_of_live hw hs hlive orientation).1
  have hfilter : v.content.filter (focused ∈ ·.leaves) = some root := by
    rw [hroot, Option.filter_some, if_pos (by simpa using hf)]
  unfold TabPage.splitPane
  simp only [hfilter, hget]
  rcases hcall : DaemonClient.splitPane w parent orientation.direction v.sm with ⟨sm, new⟩
  rw [hcall] at hnew
  dsimp only at hnew
  subst hnew
  simp only [if_pos (hterm _), replaceChild_eq_subst hd]

theorem tracked_split (hw : Function.Injective w.newV4) (hs : Tracked w v.sm) (focused : PaneName)
    (orientation : Orientation) (before : Bool) :
    Tracked w (v.splitPane w term focused orientation before).sm := by
  unfold TabPage.splitPane
  split
  · rename_i root parent _ _
    have h := tracked_splitPane hw hs parent orientation.direction
    rcases hcall : DaemonClient.splitPane w parent orientation.direction v.sm with ⟨sm, _ | newPane⟩
    · rw [hcall] at h
      exact h
    · rw [hcall] at h
      dsimp only
      split_ifs <;> exact h
  · exact hs

/-- A split keeps the trees the same exactly if the new pane is behind the old one. -/
theorem split_spec (hw : w.SpawnsSucceed) (hterm : ∀ p, term.Shows p) (hs : Tracked w v.sm)
    (hv : v.Wired) (hr : v.Refines i j) {focused : PaneName} (orientation : Orientation)
    (before : Bool) (ha : v.Permitted (.split focused orientation before)) :
    (v.splitPane w term focused orientation before).Wired ∧
      ((v.splitPane w term focused orientation before).Refines i j ↔ before = false) := by
  obtain ⟨root, hroot, hf : focused ∈ root.leaves⟩ := ha
  obtain ⟨t, htree, hnest⟩ := hr.exists_tree hroot
  obtain ⟨parent, hparent, hget⟩ := exists_pane_of_nesting hnest hf
  obtain ⟨ws, hws, tab, htab, rfl⟩ := exists_of_treeAt htree
  have hd := nodup_of_mem_tabs hs.leaves_nodup hws htab
  have hlive := hv.live root hroot focused hf parent hget
  obtain ⟨-, hlayout, hpanes⟩ := splitPane_of_live hw hs hlive orientation
  have hnotin : v.nextPaneId ∉ root.leaves := fun h =>
    lt_irrefl _ (hv.names_lt root hroot _ h)
  have hfn : focused ≠ v.nextPaneId := fun h => hnotin (h ▸ hf)
  have hne : (⟨w.newV4 v.sm.minted⟩ : PaneId) ≠ parent := fun h =>
    hs.fresh _ le_rfl (h ▸ hs.live_leaf parent hlive)
  have hu : ∀ x ∈ (newPaned orientation before focused v.nextPaneId).leaves,
      x = focused ∨ x = v.nextPaneId := by
    intro x hx
    rw [newPaned] at hx
    split_ifs at hx <;> simp at hx <;> tauto
  have hnamed : ∀ x ∈ (root.subst focused
      (newPaned orientation before focused v.nextPaneId)).leaves,
      x ∈ root.leaves ∨ x = v.nextPaneId := by
    intro x hx
    rw [LeafTree.leaves_subst, LeafTree.mem_fill] at hx
    rcases hx with ⟨hx, -⟩ | ⟨-, hx⟩
    · exact Or.inl hx
    · refine (hu x hx).imp_left ?_
      rintro rfl
      exact hf
  rw [splitPane_eq hw hterm hs hv hroot (nodup_of_nesting hnest hd).of_map hf hget]
  refine ⟨⟨?_, ?_⟩, ?_⟩
  · rintro _ ⟨⟩ n hn
    rcases hnamed n hn with h | rfl
    · exact (hv.names_lt root hroot n h).trans (Nat.lt_succ_self _)
    · exact Nat.lt_succ_self _
  · rintro _ ⟨⟩ n hn p hp
    rw [hpanes]
    dsimp only at hp
    rw [PMap.get_insert] at hp
    split_ifs at hp with hnn
    · exact Or.inl (Option.some.inj hp).symm
    · exact Or.inr (hv.live root hroot n ((hnamed n hn).resolve_right hnn) p hp)
  · simp only [Refines, Option.map_some, treeAt_substLeaf hlayout htree, Option.some.injEq,
      gtkNesting_subst hnest hd hf hget hnotin, daemonNesting_subst]
    have hmem : some parent ∈ (daemonNesting tab.paneTree).leaves := by
      simpa [daemonNesting] using hparent
    constructor
    · intro heq
      have := LeafTree.subst_injective hmem heq
      cases before with
      | false => rfl
      | true => simp [newPaned, gtkNesting, daemonNesting, LeafTree.relabel, LeafTree.map, hne] at this
    · rintro rfl
      simp [newPaned, gtkNesting, daemonNesting, LeafTree.relabel, LeafTree.map, hget,
        PMap.get_insert_of_ne hfn, Paned.new]

/-- Closing one of several panes takes a leaf out of the window's tree only. -/
theorem not_refines_close (hs : Tracked w v.sm) (hr : v.Refines i j) {name : PaneName}
    (ha : v.Permitted (.close name)) : ¬(v.closePaneByName w name).Refines i j := by
  obtain ⟨root, hroot, hn : name ∈ root.leaves, hne : root ≠ .leaf name⟩ := ha
  obtain ⟨t, htree, hnest⟩ := hr.exists_tree hroot
  obtain ⟨p, hp, hget⟩ := exists_pane_of_nesting hnest hn
  obtain ⟨ws, hws, tab, htab, rfl⟩ := exists_of_treeAt htree
  have hlength : root.leaves.length = tab.paneTree.leaves.length := by
    simpa using congrArg List.length (leaves_of_nesting hnest)
  have h2 : 2 ≤ root.leaves.length := by
    by_contra hlt
    have hleaf := LeafTree.eq_leaf_of_length (t := root) (by omega)
    rw [hleaf, LeafTree.leaves_leaf, List.mem_singleton] at hn
    exact hne (hn ▸ hleaf)
  have hlayout := closePane_layout hs (splitLeaf_of_two hws htab (hlength ▸ h2) hp)
  have hfilter : v.content.filter (name ∈ ·.leaves) = some root := by
    rw [hroot, Option.filter_some, if_pos (by simpa using hn)]
  unfold closePaneByName
  simp only [hfilter, hget, if_neg (show ¬root.leaves.length ≤ 1 by omega), Refines, hlayout,
    htree, Option.map_some, Option.some.injEq]
  intro heq
  have hlen := congrArg (fun u => u.leaves.length) heq
  have hlt := length_promoteSibling hn hne
  simp only [gtkNesting, daemonNesting, LeafTree.leaves_map, LeafTree.leaves_relabel,
    List.length_map] at hlen
  omega

end Steps

/-- Along every run of splits and closes of a tab, starting with the same tree on
both sides, the window shows the tree the daemon has exactly if every action is a
split to the right or down. -/
theorem refines_along_iff (w : World) (hw : Function.Injective w.newV4) (hspawn : w.SpawnsSucceed)
    (term : Terminals) (hterm : ∀ p, term.Shows p) (i j : ℕ) (v : TabPage)
    (hsm : SessionState w v.sm) (hv : v.Wired) (hr : v.Refines i j) (actions : List PaneAction)
    (hperm : Meets (step w term) Permitted v actions) :
    Along (step w term) (Refines i j) v actions ↔ ∀ a ∈ actions, Behind a := by
  rw [← @meets_iff_forall_mem _ _ (step w term) Behind v actions]
  refine along_iff_meets_of (I := fun v => Tracked w v.sm ∧ v.Wired) ?_ ?_
    ⟨(hsm.tracked_sound hw).1, hv⟩ hr hperm
  · rintro u (⟨focused, orientation, before⟩ | name) ⟨hs, hu⟩ hr ha hb
    · exact ⟨tracked_split hw hs focused orientation before,
        (split_spec hspawn hterm hs hu hr orientation before ha).1⟩
    · exact hb.elim
  · rintro u (⟨focused, orientation, before⟩ | name) ⟨hs, hu⟩ hr ha
    · exact (split_spec hspawn hterm hs hu hr orientation before ha).2
    · exact iff_of_false (not_refines_close hs hr ha) id

/-- A tab with one pane, just created, and its page. -/
def freshTab : TabPage where
  sm := ((SessionManager.new .counting .empty).apply .counting
    (.createTab 0 none .default none))
  content := some (.leaf 0)
  tabStates := PMap.empty.insert 0 ⟨⟨1⟩⟩
  nextPaneId := 1

theorem freshTab_session : SessionState .counting freshTab.sm :=
  .of_new _ _ [.createTab 0 none .default none]

theorem freshTab_wired : freshTab.Wired where
  names_lt := by
    rintro _ ⟨⟩ n hn
    simpa [freshTab] using hn
  live := by
    rintro _ ⟨⟩ n hn p hp
    obtain rfl : n = 0 := by simpa using hn
    obtain rfl : p = ⟨⟨1⟩⟩ := by simpa [freshTab, eq_comm] using hp
    decide

theorem freshTab_refines : freshTab.Refines 0 0 := rfl

/-- Split right, then split the new pane down. -/
def twoSplits : List PaneAction := [.split 0 .horizontal false, .split 1 .vertical false]

theorem refines_along_twoSplits :
    Along (step .counting .all) (Refines 0 0) freshTab twoSplits := by
  refine (refines_along_iff .counting World.counting_injective World.counting_spawnsSucceed .all
    Terminals.shows_all 0 0 freshTab freshTab_session freshTab_wired freshTab_refines twoSplits
    ⟨⟨_, rfl, by decide⟩, ⟨_, rfl, by decide⟩, trivial⟩).mpr ?_
  simp [twoSplits, Behind]

/-- After a split to the left the window has the new pane first, the daemon second. -/
theorem not_refines_splitLeft :
    freshTab.Refines 0 0 ∧ freshTab.Permitted (.split 0 .horizontal true) ∧
      ¬(freshTab.step .counting .all (.split 0 .horizontal true)).Refines 0 0 := by
  have hperm : freshTab.Permitted (.split 0 .horizontal true) := ⟨_, rfl, by decide⟩
  have hs := (freshTab_session.tracked_sound World.counting_injective).1
  refine ⟨freshTab_refines, hperm, fun h => ?_⟩
  have := (split_spec World.counting_spawnsSucceed Terminals.shows_all hs freshTab_wired freshTab_refines
    .horizontal true hperm).2.mp h
  contradiction

end TabPage

end Forgetty
