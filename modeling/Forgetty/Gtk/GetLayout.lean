import Forgetty.Lib.Splice
import Forgetty.Session.Layout
import Forgetty.Socket.JsonText

/-! The layout on its way to the client. The daemon serialises it by the derived code, and the
client reads the text by its own code, field by field and node by node. -/

namespace Forgetty

open Lib

/-! ### The daemon's side -/

namespace Json

def ofOption {α : Type*} (f : α → Json) : Option α → Json
  | none => .null
  | some a => f a

def ofUuid (u : Uuid) : Json := .str (toString u)

/-- Every variant of a tree is an object around the object of its fields. -/
def ofPaneTree : PaneTreeLayout → Json
  | .leaf p => .obj [("Leaf", .obj [("pane_id", ofUuid p.uuid)])]
  | .node label first second => .obj [("Split", .obj [
      ("direction", .str label.direction),
      ("first", ofPaneTree first),
      ("ratio", .float label.ratio),
      ("second", ofPaneTree second)])]

def ofTab (tab : SessionTab) : Json := .obj [
  ("active_pane_id", ofOption (fun p => ofUuid p.uuid) tab.activePaneId),
  ("id", ofUuid tab.id),
  ("pane_tree", ofPaneTree tab.paneTree),
  ("title", .str tab.title)]

def ofWorkspace (ws : SessionWorkspace) : Json := .obj [
  ("active_tab", .posInt ws.activeTab),
  ("color", ofOption .str ws.color),
  ("id", ofUuid ws.id),
  ("name", .str ws.name),
  ("tabs", .arr (ws.tabs.map ofTab))]

def ofLayout (layout : SessionLayout) : Json := .obj [
  ("active_workspace", .posInt layout.activeWorkspace),
  ("workspaces", .arr (layout.workspaces.map ofWorkspace))]

def ofInt (n : ℤ) : Json := if 0 ≤ n then .posInt n.toNat else .negInt n.natAbs

def ofError (e : RpcError) : Json := .obj [("code", ofInt e.code), ("message", .str e.message)]

/-- A result and an error are left out where there is none. -/
def ofResponse (r : Response) : Json := .obj (
  (r.error.map fun e => ("error", ofError e)).toList ++
  [("id", ofOption id r.id), ("jsonrpc", .str "2.0")] ++
  (r.result.map fun v => ("result", v)).toList)

end Json

/-- Serialising a layout does not fail. -/
def handleGetLayout (req : Request) (layout : SessionLayout) : Response :=
  .success req.id (.ofLayout layout)

def getLayoutRequest : Request where
  method := "get_layout"
  params := .obj []
  id := some (.posInt 1)

/-- The answer to the client's request. -/
def layoutAnswer (layout : SessionLayout) : Json :=
  .ofResponse (handleGetLayout getLayoutRequest layout)

/-! ### The client's side -/

/-- The pane tree of the client has the shape of the daemon's. -/
abbrev PaneTreeNode := LeafTree SplitLabel PaneId

structure TabInfo where
  tabId : Uuid
  title : String
  paneTree : PaneTreeNode
  activePaneId : Option Uuid
  deriving DecidableEq, Repr

structure WorkspaceInfo where
  id : Uuid
  name : String
  activeTab : ℕ
  tabs : List TabInfo
  color : Option String
  deriving DecidableEq, Repr

structure LayoutInfo where
  activeWorkspace : ℕ
  workspaces : List WorkspaceInfo
  deriving DecidableEq, Repr

structure DaemonError where
  message : String
  deriving DecidableEq, Repr

namespace DaemonClient

def okOr {α : Type*} (message : String) : Option α → Except DaemonError α
  | none => .error ⟨message⟩
  | some a => .ok a

section

variable {σ : Type} (lib : JsonText σ) (uuidError : String → String)

/-- What becomes of the line with the response. -/
def readResponse (line : σ) : Except DaemonError Json :=
  match lib.parse line with
  | .error e => .error ⟨s!"parse response: {e}"⟩
  | .ok response =>
    match response.get "error" with
    | some err => .error ⟨s!"RPC error: {lib.display err}"⟩
    | none => .ok ((response.get "result").getD .null)

def parseUuid (what s : String) : Except DaemonError Uuid :=
  okOr s!"{what}: {uuidError s}" (Uuid.parseStr s)

def parsePaneTree (v : Json) : Except DaemonError PaneTreeNode :=
  match v.get "Leaf" with
  | some leaf => do
    let paneIdStr ← okOr "parse_pane_tree: Leaf missing pane_id" ((leaf.get "pane_id").bind Json.asStr)
    let uuid ← parseUuid uuidError "parse_pane_tree: invalid pane_id UUID" paneIdStr
    return .leaf ⟨uuid⟩
  | none =>
    match _hsplit : v.get "Split" with
    | some split =>
      let direction := ((split.get "direction").bind Json.asStr).getD "horizontal"
      let ratio := lib.toF32 (((split.get "ratio").bind Json.asF64).getD (1 / 2))
      match _hfirst : split.get "first" with
      | none => .error ⟨"parse_pane_tree: Split missing first"⟩
      | some firstVal =>
        match _hsecond : split.get "second" with
        | none => .error ⟨"parse_pane_tree: Split missing second"⟩
        | some secondVal => do
          let first ← parsePaneTree firstVal
          let second ← parsePaneTree secondVal
          return .node { direction := direction, ratio := ratio } first second
    | none => .error ⟨s!"parse_pane_tree: unrecognized shape: {lib.display v}"⟩
termination_by v.nesting
decreasing_by
  · exact (Json.nesting_get _hfirst).trans (Json.nesting_get _hsplit)
  · exact (Json.nesting_get _hsecond).trans (Json.nesting_get _hsplit)

/-- An active pane that is no UUID is as good as none. -/
def parseTab (tab : Json) : Except DaemonError TabInfo := do
  let tabIdStr ← okOr "get_layout: tab missing id" ((tab.get "id").bind Json.asStr)
  let tabId ← parseUuid uuidError "get_layout: invalid tab id UUID" tabIdStr
  let title := ((tab.get "title").bind Json.asStr).getD ""
  let paneTreeVal ← okOr "get_layout: tab missing pane_tree" (tab.get "pane_tree")
  let paneTree ← parsePaneTree lib uuidError paneTreeVal
  let activePaneId := ((tab.get "active_pane_id").bind Json.asStr).bind Uuid.parseStr
  return { tabId := tabId, title := title, paneTree := paneTree, activePaneId := activePaneId }

def parseWorkspace (ws : Json) : Except DaemonError WorkspaceInfo := do
  let idStr ← okOr "get_layout: workspace missing id" ((ws.get "id").bind Json.asStr)
  let id ← parseUuid uuidError "get_layout: invalid workspace id UUID" idStr
  let name := ((ws.get "name").bind Json.asStr).getD ""
  let activeTab := ((ws.get "active_tab").bind Json.asU64).getD 0
  let color := (ws.get "color").bind Json.asStr
  let tabsArray ← okOr "get_layout: workspace missing tabs" ((ws.get "tabs").bind Json.asArr)
  let tabs ← tabsArray.mapM (parseTab lib uuidError)
  return { id := id, name := name, activeTab := activeTab, tabs := tabs, color := color }

/-- `get_layout`, from the line with the response on. -/
def getLayout (line : σ) : Except DaemonError LayoutInfo := do
  let result ← readResponse lib line
  let activeWorkspace := ((result.get "active_workspace").bind Json.asU64).getD 0
  let wsArray ← okOr "get_layout: missing workspaces" ((result.get "workspaces").bind Json.asArr)
  let workspaces ← wsArray.mapM (parseWorkspace lib uuidError)
  return { activeWorkspace := activeWorkspace, workspaces := workspaces }

end

/-! ### What is read -/

section

variable {σ : Type} {lib : JsonText σ} {uuidError : String → String}

open Json

theorem parseUuid_toString (what : String) {u : Uuid} (h : u.bits < 2 ^ 128) :
    parseUuid uuidError what (toString u) = .ok u := by
  rw [parseUuid, Uuid.parseStr_toString h]
  rfl

theorem parsePaneTree_leaf {v leaf : Json} (h : v.get "Leaf" = some leaf) {u : Uuid}
    (hu : (leaf.get "pane_id").bind asStr = some (toString u)) (hbits : u.bits < 2 ^ 128) :
    parsePaneTree lib uuidError v = .ok (.leaf ⟨u⟩) := by
  rw [parsePaneTree, h]
  simp only [hu, okOr, bind, Except.bind, parseUuid_toString _ hbits]
  rfl

theorem parsePaneTree_split {v split firstVal secondVal : Json} (hleaf : v.get "Leaf" = none)
    (hsplit : v.get "Split" = some split) (hfirst : split.get "first" = some firstVal)
    (hsecond : split.get "second" = some secondVal) {first second : PaneTreeNode}
    (h₁ : parsePaneTree lib uuidError firstVal = .ok first)
    (h₂ : parsePaneTree lib uuidError secondVal = .ok second) :
    parsePaneTree lib uuidError v = .ok (.node
      { direction := ((split.get "direction").bind asStr).getD "horizontal"
        ratio := lib.toF32 (((split.get "ratio").bind asF64).getD (1 / 2)) } first second) := by
  rw [parsePaneTree, hleaf]
  dsimp only
  split
  · next split' hs =>
    obtain rfl := Option.some.inj (hs.symm.trans hsplit)
    split
    · next hf => rw [hfirst] at hf; cases hf
    · next v₁ hf =>
      obtain rfl := Option.some.inj (hf.symm.trans hfirst)
      split
      · next hf => rw [hsecond] at hf; cases hf
      · next v₂ hf =>
        obtain rfl := Option.some.inj (hf.symm.trans hsecond)
        rw [h₁, h₂]
        rfl
  · next hs => rw [hsplit] at hs; cases hs

theorem parsePaneTree_ofPaneTree {t : PaneTreeLayout} (h : ∀ p ∈ t.leaves, p.uuid.bits < 2 ^ 128) :
    parsePaneTree lib uuidError ((ofPaneTree t).mapFloats lib.reread) = .ok t := by
  induction t with
  | leaf p => exact parsePaneTree_leaf rfl rfl (h p (List.mem_singleton_self p))
  | node label first second ih₁ ih₂ =>
    have h₁ := ih₁ fun p hp => h p (List.mem_append_left _ hp)
    have h₂ := ih₂ fun p hp => h p (List.mem_append_right _ hp)
    rw [parsePaneTree_split rfl rfl rfl rfl h₁ h₂]
    have hratio := lib.toF32_reread label.ratio
    exact congrArg (fun ratio => Except.ok (LeafTree.node { label with ratio := ratio } first second))
      hratio

/-- Numbers are as large as the types of the source have them. -/
structure Sized (layout : SessionLayout) : Prop where
  activeWorkspace : layout.activeWorkspace < 2 ^ 64
  activeTab : ∀ ws ∈ layout.workspaces, ws.activeTab < 2 ^ 64
  id : ∀ ws ∈ layout.workspaces, ws.id.bits < 2 ^ 128
  tabId : ∀ ws ∈ layout.workspaces, ∀ tab ∈ ws.tabs, tab.id.bits < 2 ^ 128
  paneId : ∀ ws ∈ layout.workspaces, ∀ tab ∈ ws.tabs, ∀ p ∈ tab.paneTree.leaves,
    p.uuid.bits < 2 ^ 128
  activePaneId : ∀ ws ∈ layout.workspaces, ∀ tab ∈ ws.tabs, ∀ p ∈ tab.activePaneId,
    p.uuid.bits < 2 ^ 128

def tabInfo (tab : SessionTab) : TabInfo where
  tabId := tab.id
  title := tab.title
  paneTree := tab.paneTree
  activePaneId := tab.activePaneId.map (·.uuid)

def workspaceInfo (ws : SessionWorkspace) : WorkspaceInfo where
  id := ws.id
  name := ws.name
  activeTab := ws.activeTab
  tabs := ws.tabs.map tabInfo
  color := ws.color

def layoutInfo (layout : SessionLayout) : LayoutInfo where
  activeWorkspace := layout.activeWorkspace
  workspaces := layout.workspaces.map workspaceInfo

theorem parseTab_ofTab {tab : SessionTab} (hid : tab.id.bits < 2 ^ 128)
    (hpane : ∀ p ∈ tab.paneTree.leaves, p.uuid.bits < 2 ^ 128)
    (hactive : ∀ p ∈ tab.activePaneId, p.uuid.bits < 2 ^ 128) :
    parseTab lib uuidError ((ofTab tab).mapFloats lib.reread) = .ok (tabInfo tab) := by
  set v := (ofTab tab).mapFloats lib.reread with hv
  have hidStr : (v.get "id").bind asStr = some (toString tab.id) := rfl
  have htitle : (v.get "title").bind asStr = some tab.title := rfl
  have htreeVal : v.get "pane_tree" = some ((ofPaneTree tab.paneTree).mapFloats lib.reread) := rfl
  have hactiveId : ((v.get "active_pane_id").bind asStr).bind Uuid.parseStr =
      tab.activePaneId.map (·.uuid) := by
    have hstr : (v.get "active_pane_id").bind asStr =
        tab.activePaneId.map fun p => toString p.uuid := by
      have hval : v.get "active_pane_id" =
          some ((ofOption (fun p => ofUuid p.uuid) tab.activePaneId).mapFloats lib.reread) := rfl
      rw [hval]
      cases tab.activePaneId <;> rfl
    rw [hstr]
    cases ha : tab.activePaneId with
    | none => rfl
    | some p =>
      rw [Option.map_some, Option.bind_some, Uuid.parseStr_toString (hactive p ha), Option.map_some]
  simp only [parseTab, hidStr, htitle, htreeVal, hactiveId, okOr, bind, Except.bind,
    parseUuid_toString _ hid, parsePaneTree_ofPaneTree hpane]
  rfl

theorem parseWorkspace_ofWorkspace {ws : SessionWorkspace} (hid : ws.id.bits < 2 ^ 128)
    (htabs : ∀ tab ∈ ws.tabs, parseTab lib uuidError ((ofTab tab).mapFloats lib.reread) =
      .ok (tabInfo tab)) :
    parseWorkspace lib uuidError ((ofWorkspace ws).mapFloats lib.reread) = .ok (workspaceInfo ws) := by
  set v := (ofWorkspace ws).mapFloats lib.reread with hv
  have hidStr : (v.get "id").bind asStr = some (toString ws.id) := rfl
  have hname : (v.get "name").bind asStr = some ws.name := rfl
  have hactive : (v.get "active_tab").bind asU64 = some ws.activeTab := rfl
  have hcolor : (v.get "color").bind asStr = ws.color := by
    have hval : v.get "color" = some ((ofOption .str ws.color).mapFloats lib.reread) := rfl
    rw [hval]
    cases ws.color <;> rfl
  have harr : (v.get "tabs").bind asArr =
      some ((ws.tabs.map ofTab).map (mapFloats lib.reread)) := by
    rw [← mapFloatsElems_eq]
    rfl
  have hparsed : ((ws.tabs.map ofTab).map (mapFloats lib.reread)).mapM (parseTab lib uuidError) =
      .ok (ws.tabs.map tabInfo) := by
    rw [List.map_map, List.mapM_map]
    exact mapM_eq_pure htabs
  simp only [parseWorkspace, hidStr, hname, hactive, hcolor, harr, hparsed, okOr, bind, Except.bind,
    parseUuid_toString _ hid]
  rfl

/-! ### The text in between -/

theorem regular_ofPaneTree (t : PaneTreeLayout) : (ofPaneTree t).Regular := by
  induction t with
  | leaf p =>
    have hleaf : (obj [("pane_id", ofUuid p.uuid)]).Regular :=
      ⟨List.pairwise_singleton _ _, trivial, trivial⟩
    exact ⟨List.pairwise_singleton _ _, hleaf, trivial⟩
  | node label first second ih₁ ih₂ =>
    have hkeys : ["direction", "first", "ratio", "second"].Pairwise (· < ·) := by decide
    refine ⟨List.pairwise_singleton _ _, ⟨hkeys, ?_⟩, trivial⟩
    exact ⟨trivial, ih₁, trivial, ih₂, trivial⟩

theorem regular_ofOption_str {α : Type} (f : α → String) (o : Option α) :
    (ofOption (fun a => .str (f a)) o).Regular := by
  cases o <;> trivial

theorem regular_ofTab (tab : SessionTab) : (ofTab tab).Regular := by
  have hkeys : ["active_pane_id", "id", "pane_tree", "title"].Pairwise (· < ·) := by decide
  have hactive := regular_ofOption_str (fun p : PaneId => toString p.uuid) tab.activePaneId
  exact ⟨hkeys, hactive, trivial, regular_ofPaneTree tab.paneTree, trivial, trivial⟩

theorem regular_ofWorkspace {ws : SessionWorkspace} (h : ws.activeTab < 2 ^ 64) :
    (ofWorkspace ws).Regular := by
  have hkeys : ["active_tab", "color", "id", "name", "tabs"].Pairwise (· < ·) := by decide
  have hcolor := regular_ofOption_str (fun color => color) ws.color
  have htabs : RegularElems (ws.tabs.map ofTab) := by
    rw [regularElems_iff, List.forall_mem_map]
    exact fun tab _ => regular_ofTab tab
  exact ⟨hkeys, h, hcolor, trivial, trivial, htabs, trivial⟩

theorem regular_layoutAnswer {layout : SessionLayout} (h : Sized layout) :
    (layoutAnswer layout).Regular := by
  have hkeys : ["id", "jsonrpc", "result"].Pairwise (· < ·) := by decide
  have hlayout : ["active_workspace", "workspaces"].Pairwise (· < ·) := by decide
  have hid : (1 : ℕ) < 2 ^ 64 := by decide
  have hws : RegularElems (layout.workspaces.map ofWorkspace) := by
    rw [regularElems_iff, List.forall_mem_map]
    exact fun ws hws => regular_ofWorkspace (h.activeTab ws hws)
  exact ⟨hkeys, hid, trivial, ⟨hlayout, h.activeWorkspace, hws, trivial⟩, trivial⟩

/-- A tree is two deep at its leaf and two more for every split. -/
theorem nesting_ofPaneTree (t : PaneTreeLayout) : (ofPaneTree t).nesting = 2 * t.height + 2 := by
  induction t with
  | leaf p => rfl
  | node label first second ih₁ ih₂ =>
    simp only [ofPaneTree, nesting, nestingFields, ih₁, ih₂, LeafTree.height]
    omega

theorem nesting_ofOption_str {α : Type} (f : α → String) (o : Option α) :
    (ofOption (fun a => .str (f a)) o).nesting = 0 := by
  cases o <;> rfl

theorem nesting_ofTab (tab : SessionTab) : (ofTab tab).nesting = 2 * tab.paneTree.height + 3 := by
  have hactive := nesting_ofOption_str (fun p : PaneId => toString p.uuid) tab.activePaneId
  simp only [ofTab, ofUuid, nesting, nestingFields, hactive, nesting_ofPaneTree]
  omega

theorem nesting_ofWorkspace (ws : SessionWorkspace) :
    (ofWorkspace ws).nesting = nestingElems (ws.tabs.map ofTab) + 2 := by
  have hcolor : (ofOption .str ws.color).nesting = 0 := nesting_ofOption_str (fun c => c) ws.color
  simp only [ofWorkspace, ofUuid, nesting, nestingFields, hcolor]
  omega

/-- The parser accepts the answer if no tree has more than 59 splits inside one another. -/
theorem nesting_layoutAnswer_le (layout : SessionLayout) :
    (layoutAnswer layout).nesting ≤ recursionLimit ↔
      ∀ ws ∈ layout.workspaces, ∀ tab ∈ ws.tabs, tab.paneTree.height ≤ 59 := by
  have hanswer : (layoutAnswer layout).nesting =
      nestingElems (layout.workspaces.map ofWorkspace) + 3 := by
    simp only [layoutAnswer, handleGetLayout, Response.success, ofResponse, ofLayout, nesting,
      nestingFields, getLayoutRequest, ofOption, Option.map_none, Option.map_some, Option.toList_none,
      Option.toList_some, List.nil_append, List.cons_append, id]
    omega
  have htab : ∀ tab : SessionTab, (ofTab tab).nesting ≤ 122 ↔ tab.paneTree.height ≤ 59 := by
    intro tab
    rw [nesting_ofTab]
    omega
  have hws : ∀ ws : SessionWorkspace, (ofWorkspace ws).nesting ≤ 124 ↔
      ∀ tab ∈ ws.tabs, tab.paneTree.height ≤ 59 := by
    intro ws
    rw [nesting_ofWorkspace, show 124 = 122 + 2 from rfl, Nat.add_le_add_iff_right, nestingElems_le,
      List.forall_mem_map]
    exact forall₂_congr fun tab _ => htab tab
  rw [hanswer, recursionLimit, show 127 = 124 + 3 from rfl, Nat.add_le_add_iff_right,
    nestingElems_le, List.forall_mem_map]
  exact forall₂_congr fun ws _ => hws ws

theorem readResponse_layoutAnswer {layout : SessionLayout} (h : Sized layout)
    (hn : (layoutAnswer layout).nesting ≤ recursionLimit) :
    readResponse lib (lib.render (layoutAnswer layout)) =
      .ok ((ofLayout layout).mapFloats lib.reread) := by
  rw [readResponse, lib.parse_render _ (regular_layoutAnswer h) hn]
  rfl

theorem getLayout_of_nesting_le {layout : SessionLayout} (h : Sized layout)
    (hn : (layoutAnswer layout).nesting ≤ recursionLimit) :
    getLayout lib uuidError (lib.render (layoutAnswer layout)) = .ok (layoutInfo layout) := by
  have hread : readResponse lib (lib.render (layoutAnswer layout)) = _ :=
    readResponse_layoutAnswer h hn
  set v := (ofLayout layout).mapFloats lib.reread with hv
  have hactive : (v.get "active_workspace").bind asU64 = some layout.activeWorkspace := rfl
  have harr : (v.get "workspaces").bind asArr =
      some ((layout.workspaces.map ofWorkspace).map (mapFloats lib.reread)) := by
    rw [← mapFloatsElems_eq]
    rfl
  have hparsed : ((layout.workspaces.map ofWorkspace).map (mapFloats lib.reread)).mapM
      (parseWorkspace lib uuidError) = .ok (layout.workspaces.map workspaceInfo) := by
    rw [List.map_map, List.mapM_map]
    refine mapM_eq_pure fun ws hws => parseWorkspace_ofWorkspace (h.id ws hws) fun tab ht => ?_
    exact parseTab_ofTab (h.tabId ws hws tab ht) (h.paneId ws hws tab ht) (h.activePaneId ws hws tab ht)
  simp only [getLayout, hread, hactive, harr, hparsed, okOr, bind, Except.bind]
  rfl

theorem getLayout_of_deep {layout : SessionLayout}
    (hn : recursionLimit < (layoutAnswer layout).nesting) :
    ∃ e, getLayout lib uuidError (lib.render (layoutAnswer layout)) = .error e := by
  obtain ⟨e, he⟩ := lib.parse_render_deep _ hn
  refine ⟨⟨s!"parse response: {e}"⟩, ?_⟩
  simp only [getLayout, readResponse, he, bind, Except.bind]

/-- The client reads the daemon's layout exactly if no pane tree has more than 59 splits inside
one another. -/
theorem getLayout_iff {layout : SessionLayout} (h : Sized layout) :
    getLayout lib uuidError (lib.render (layoutAnswer layout)) = .ok (layoutInfo layout) ↔
      ∀ ws ∈ layout.workspaces, ∀ tab ∈ ws.tabs, tab.paneTree.height ≤ 59 := by
  rw [← nesting_layoutAnswer_le]
  constructor
  · intro hok
    by_contra hn
    have hfails : ∃ e, getLayout lib uuidError (lib.render (layoutAnswer layout)) = .error e :=
      getLayout_of_deep (Nat.not_le.mp hn)
    obtain ⟨e, he⟩ := hfails
    rw [hok] at he
    cases he
  · exact getLayout_of_nesting_le h

end

/-- One tab with its first pane split again and again. -/
def splitTree : ℕ → PaneTreeLayout
  | 0 => .leaf ⟨⟨0⟩⟩
  | n + 1 => .node { direction := "horizontal", ratio := 1 / 2 } (splitTree n) (.leaf ⟨⟨n + 1⟩⟩)

theorem height_splitTree (n : ℕ) : (splitTree n).height = n := by
  induction n with
  | zero => rfl
  | succ n ih => rw [splitTree, LeafTree.height, ih, LeafTree.height, Nat.max_zero, Nat.add_comm]

def splitLayout (n : ℕ) : SessionLayout where
  workspaces := [{ id := ⟨7⟩, name := "Default", activeTab := 0, color := some "#3584e4", tabs := [
    { id := ⟨8⟩, title := "", paneTree := splitTree n, activePaneId := some ⟨⟨0⟩⟩ }] }]
  activeWorkspace := 0

theorem height_splitLayout_le (n : ℕ) :
    (∀ ws ∈ (splitLayout n).workspaces, ∀ tab ∈ ws.tabs, tab.paneTree.height ≤ 59) ↔ n ≤ 59 := by
  simp [splitLayout, height_splitTree]

theorem bits_splitTree {n : ℕ} {p : PaneId} (h : p ∈ (splitTree n).leaves) : p.uuid.bits ≤ n := by
  induction n with
  | zero =>
    rw [List.mem_singleton.mp h]
  | succ n ih =>
    rcases List.mem_append.mp h with h | h
    · exact (ih h).trans (Nat.le_succ n)
    · rw [List.mem_singleton.mp h]

theorem sized_splitLayout {n : ℕ} (h : n < 2 ^ 128) : Sized (splitLayout n) where
  activeWorkspace := by simp [splitLayout]
  activeTab := by simp [splitLayout]
  id := by simp [splitLayout]
  tabId := by simp [splitLayout]
  paneId := by
    simp only [splitLayout, List.forall_mem_singleton]
    exact fun p hp => Nat.lt_of_le_of_lt (bits_splitTree hp) h
  activePaneId := by simp [splitLayout]

theorem getLayout_three : getLayout .values id (layoutAnswer (splitLayout 3)) =
    .ok (layoutInfo (splitLayout 3)) :=
  (getLayout_iff (sized_splitLayout (by decide))).mpr ((height_splitLayout_le 3).mpr (by decide))

/-- With sixty splits inside one another the parser gives up. -/
theorem not_getLayout_sixty : ¬ ∀ (σ : Type) (lib : JsonText σ) uuidError layout, Sized layout →
    getLayout lib uuidError (lib.render (layoutAnswer layout)) = .ok (layoutInfo layout) := by
  intro h
  have hok := h Json .values id (splitLayout 60) (sized_splitLayout (by decide))
  have hheight := mt (height_splitLayout_le 60).mp (by decide)
  have hdeep := Nat.not_le.mp (mt (nesting_layoutAnswer_le (splitLayout 60)).mp hheight)
  obtain ⟨e, he⟩ := getLayout_of_deep hdeep
  rw [he] at hok
  cases hok

end DaemonClient

end Forgetty
