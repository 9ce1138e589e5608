import Forgetty.Daemon.SavedTree
import Forgetty.Session.Substitution
import Forgetty.Lib.Survivors

/-! What a cold start builds, read off the saved state and the spawns that fail. The
plan goes through the saved state in the order of the restore, counting UUIDs and
spawns; a tab whose root spawn fails is left out, and a split whose spawn fails
leaves the pane it was to split. Then what the single calls of the restore do. -/

namespace Forgetty

open Lib

/-! ### The plan -/

/-- The UUIDs taken and the spawns tried so far. -/
structure Counters where
  minted : ℕ
  spawned : ℕ
  deriving DecidableEq, Repr

def Counters.mint (c : Counters) : Counters := { c with minted := c.minted + 1 }

def Counters.spawn (c : Counters) : Counters := { c with spawned := c.spawned + 1 }

/-- What a restore makes of a saved workspace: for every saved tab the tab restored
from it, the default tab of a workspace saved empty, and whether a default tab could
be spawned after the saved ones. -/
structure WorkspacePlan where
  tabs : List (Option SessionTab)
  seed : Option SessionTab
  fallback : Bool

/-- The tabs that are there in the end. -/
def WorkspacePlan.live (plan : WorkspacePlan) : List SessionTab :=
  plan.tabs.reduceOption ++ plan.seed.toList

section Plan

variable (w : World) (isDir : PathBuf → Bool) (size : PtySize)

/-- Whether the `n`-th spawn brings a shell up. -/
def shellSpawns (n : ℕ) (cwd : Option PathBuf) : Bool :=
  (PtyBridge.spawn w n size cwd none none true).isOk

/-- The saved pane id, or a new one. -/
def planPaneId (saved : Option Uuid) (c : Counters) : Counters × PaneId :=
  match saved with
  | some pid => (c, ⟨pid⟩)
  | none => (c.mint, ⟨w.newV4 c.minted⟩)

def planTree : PaneTreeState → PaneId → Counters → Counters × PaneTreeLayout
  | .leaf _, anchorId, c => (c, .leaf anchorId)
  | .node label first second, anchorId, c =>
    let taken := planPaneId w (firstLeafPaneId second) c
    if shellSpawns w size taken.1.spawned (effectiveCwd isDir (firstLeafCwd second)) then
      let inFirst := planTree first anchorId taken.1.spawn
      let inSecond := planTree second taken.2 inFirst.1
      (inSecond.1, .node label inFirst.2 inSecond.2)
    else (taken.1.spawn, .leaf anchorId)

/-- The root pane of a tab with the id of the tab, or nothing when the spawn fails. -/
def planRoot (saved : Option Uuid) (cwd : Option PathBuf) (c : Counters) :
    Counters × Option (PaneId × Uuid) :=
  let taken := planPaneId w saved c
  if shellSpawns w size taken.1.spawned cwd then
    (taken.1.spawn.mint, some (taken.2, w.newV4 taken.1.minted))
  else (taken.1.spawn, none)

def planTab (tab : TabState) (c : Counters) : Counters × Option SessionTab :=
  let root := planRoot w size (firstLeafPaneId tab.paneTree)
    (effectiveCwd isDir (firstLeafCwd tab.paneTree)) c
  match root.2 with
  | none => (root.1, none)
  | some (paneId, tabId) =>
    let tree := planTree w isDir size tab.paneTree paneId root.1
    (tree.1, some { id := tabId, title := "", paneTree := tree.2, activePaneId := none })

def planTabs : List TabState → Counters → Counters × List (Option SessionTab)
  | [], c => (c, [])
  | tab :: tabs, c =>
    let first := planTab w isDir size tab c
    let rest := planTabs tabs first.1
    (rest.1, first.2 :: rest.2)

def planWorkspace (ws : Workspace) (c : Counters) : Counters × WorkspacePlan :=
  let tabs := planTabs w isDir size ws.tabs c
  let fallback := shellSpawns w size tabs.1.spawned none
  if ws.tabs.isEmpty then
    let root := planRoot w size none none tabs.1
    (root.1,
      { tabs := tabs.2, seed := root.2.map fun r => .ofLeaf r.2 r.1, fallback := fallback })
  else (tabs.1, { tabs := tabs.2, seed := none, fallback := fallback })

def planWorkspaces : List Workspace → Counters → Counters × List WorkspacePlan
  | [], c => (c, [])
  | ws :: rest, c =>
    let first := planWorkspace w isDir size ws c
    let others := planWorkspaces rest first.1
    (others.1, first.2 :: others.2)

/-- The plan for a whole saved state: every workspace has taken its UUID before. -/
def restorePlan (state : WorkspaceState) : List WorkspacePlan :=
  (planWorkspaces w isDir .default state.workspaces ⟨state.workspaces.length, 0⟩).2

end Plan

/-- The panes of a planned workspace. -/
def WorkspacePlan.leaves (plan : WorkspacePlan) : List PaneId :=
  plan.live.flatMap fun t => t.paneTree.leaves

/-- The panes of the whole plan. -/
def plannedPanes (w : World) (isDir : PathBuf → Bool) (state : WorkspaceState) : List PaneId :=
  (restorePlan w isDir state).flatMap WorkspacePlan.leaves

/-- The panes of the tabs that are restored. -/
def plannedLeaves (tabs : List (Option SessionTab)) : List PaneId :=
  tabs.reduceOption.flatMap fun t => t.paneTree.leaves

theorem plannedLeaves_cons (tab : Option SessionTab) (tabs : List (Option SessionTab)) :
    plannedLeaves (tab :: tabs) = plannedLeaves [tab] ++ plannedLeaves tabs := by
  cases tab <;> simp [plannedLeaves]

section Planned

variable {w : World} {isDir : PathBuf → Bool} {size : PtySize}

theorem shellSpawns_of_succeed (hw : w.SpawnsSucceed) (n : ℕ) (cwd : Option PathBuf) :
    shellSpawns w size n cwd = true := by
  obtain ⟨b, hb⟩ := PtyBridge.spawn_ok hw n size cwd none none true
  rw [shellSpawns, hb]
  rfl

theorem leftmost_planTree (t : PaneTreeState) (anchorId : PaneId) (c : Counters) :
    (planTree w isDir size t anchorId c).2.leftmost = anchorId := by
  induction t generalizing anchorId c with
  | leaf l => rfl
  | node label first second ih₁ ih₂ =>
    rw [planTree]
    dsimp only
    split_ifs
    · exact ih₁ anchorId _
    · rfl

theorem anchor_mem_planTree (t : PaneTreeState) (anchorId : PaneId) (c : Counters) :
    anchorId ∈ (planTree w isDir size t anchorId c).2.leaves := by
  have h := LeafTree.leftmost_mem (planTree w isDir size t anchorId c).2
  rwa [leftmost_planTree] at h

theorem length_planTabs (tabs : List TabState) (c : Counters) :
    (planTabs w isDir size tabs c).2.length = tabs.length := by
  induction tabs generalizing c with
  | nil => rfl
  | cons tab tabs ih => simp [planTabs, ih]

/-- The tab at a place is planned from the saved tab there. -/
theorem planTabs_getElem? (tabs : List TabState) (c : Counters) {j : ℕ} {tab : TabState}
    (h : tabs[j]? = some tab) :
    ∃ c', (planTabs w isDir size tabs c).2[j]? = some (planTab w isDir size tab c').2 := by
  induction tabs generalizing c j with
  | nil => exact nomatch h
  | cons first tabs ih =>
    cases j with
    | zero =>
      obtain rfl := Option.some.inj h
      exact ⟨c, rfl⟩
    | succ j => exact ih _ h

/-- A tab that came up was planned from the saved tab at its place. -/
theorem planTabs_made (tabs : List TabState) (c : Counters) {j : ℕ} {t : SessionTab}
    (h : (planTabs w isDir size tabs c).2[j]? = some (some t)) :
    ∃ tab c', tabs[j]? = some tab ∧ (planTab w isDir size tab c').2 = some t := by
  obtain ⟨hj, -⟩ := List.getElem?_eq_some_iff.mp h
  rw [length_planTabs] at hj
  have htab := List.getElem?_eq_getElem hj
  obtain ⟨c', hplan⟩ := planTabs_getElem? (w := w) tabs c htab
  exact ⟨_, c', htab, Option.some.inj (hplan.symm.trans h)⟩

theorem planWorkspace_tabs (ws : Workspace) (c : Counters) :
    (planWorkspace w isDir size ws c).2.tabs = (planTabs w isDir size ws.tabs c).2 := by
  rw [planWorkspace]
  dsimp only
  split_ifs <;> rfl

/-- The workspace at a place is planned from the saved workspace there. -/
theorem planWorkspaces_getElem? (saved : List Workspace) (c : Counters) {i : ℕ} {ws : Workspace}
    (h : saved[i]? = some ws) :
    ∃ c', (planWorkspaces w isDir size saved c).2[i]? = some (planWorkspace w isDir size ws c').2 := by
  induction saved generalizing c i with
  | nil => exact nomatch h
  | cons first saved ih =>
    cases i with
    | zero =>
      obtain rfl := Option.some.inj h
      exact ⟨c, rfl⟩
    | succ i => exact ih _ h

theorem plain_planTab {tab : TabState} {c : Counters} {t : SessionTab}
    (h : (planTab w isDir size tab c).2 = some t) : t.title = "" ∧ t.activePaneId = none := by
  rw [planTab] at h
  dsimp only at h
  split at h
  · exact nomatch h
  · obtain rfl := Option.some.inj h
    exact ⟨rfl, rfl⟩

end Planned

/-! ### The calls of the restore -/

namespace SessionManager

def counters (sm : SessionManager) : Counters := ⟨sm.minted, sm.spawned⟩

def cwdOf (sm : SessionManager) (p : PaneId) : Option PathBuf := (sm.panes.get p).map (·.cwd)

/-- Every pane that came was put at the end of the order and brought one leaf. -/
def Ordered (s t : SessionManager) : Prop :=
  ∃ added, t.paneOrder = s.paneOrder ++ added ∧ (∀ p ∈ added, p ∈ t.panes) ∧
    (∀ p ∈ t.panes, p ∈ s.panes ∨ p ∈ added) ∧
    t.layout.leaves.length = s.layout.leaves.length + added.length

/-- The restore went from `s` to `t`: the layout and the counters are as said, the
panes `ps` came, and nothing else changed. -/
structure Grew (wss : List SessionWorkspace) (c : Counters) (ps : List PaneId)
    (s t : SessionManager) : Prop where
  workspaces : t.layout.workspaces = wss
  active : t.layout.activeWorkspace = s.layout.activeWorkspace
  counters : t.counters = c
  pinned : t.pinned = s.pinned
  panes : ∀ q, q ∈ t.panes ↔ q ∈ ps ∨ q ∈ s.panes
  cwd : ∀ q, q ∉ ps → t.cwdOf q = s.cwdOf q
  order : Ordered s t

/-- A call that leaves the registry alone. -/
theorem Grew.of_same {wss : List SessionWorkspace} {c : Counters} {s t : SessionManager}
    (hw : t.layout.workspaces = wss) (ha : t.layout.activeWorkspace = s.layout.activeWorkspace)
    (hc : t.counters = c) (hpin : t.pinned = s.pinned) (hp : t.panes = s.panes)
    (ho : t.paneOrder = s.paneOrder) (hl : t.layout.leaves.length = s.layout.leaves.length) :
    Grew wss c [] s t where
  workspaces := hw
  active := ha
  counters := hc
  pinned := hpin
  panes q := by simp [hp]
  cwd q _ := by rw [cwdOf, cwdOf, hp]
  order := ⟨[], by rw [ho, List.append_nil], nofun, fun p h => Or.inl (hp ▸ h), hl⟩

theorem Grew.refl (s : SessionManager) : Grew s.layout.workspaces s.counters [] s s :=
  .of_same rfl rfl rfl rfl rfl rfl rfl

theorem Grew.trans {wss wss' : List SessionWorkspace} {c c' : Counters} {ps qs : List PaneId}
    {s t u : SessionManager} (h : Grew wss c ps s t) (h' : Grew wss' c' qs t u) :
    Grew wss' c' (ps ++ qs) s u where
  workspaces := h'.workspaces
  active := h'.active.trans h.active
  counters := h'.counters
  pinned := h'.pinned.trans h.pinned
  panes q := by
    rw [h'.panes, h.panes, List.mem_append]
    tauto
  cwd q hq := by
    rw [List.mem_append, not_or] at hq
    exact (h'.cwd q hq.2).trans (h.cwd q hq.1)
  order := by
    obtain ⟨as, ho, hin, hout, hlen⟩ := h.order
    obtain ⟨bs, ho', hin', hout', hlen'⟩ := h'.order
    refine ⟨as ++ bs, ?_, fun p hp => ?_, fun p hp => ?_, ?_⟩
    · rw [ho', ho, List.append_assoc]
    · rcases List.mem_append.mp hp with hp | hp
      · exact (h'.panes p).mpr (Or.inr (hin p hp))
      · exact hin' p hp
    · rw [List.mem_append]
      rcases hout' p hp with hp | hp
      · rcases hout p hp with hp | hp
        · exact Or.inl hp
        · exact Or.inr (Or.inl hp)
      · exact Or.inr (Or.inr hp)
    · rw [hlen', hlen, List.length_append]
      omega

/-- Panes that are there may be counted among those that came. -/
theorem Grew.mono {wss : List SessionWorkspace} {c : Counters} {ps qs : List PaneId}
    {s t : SessionManager} (h : Grew wss c ps s t) (hsub : ∀ q ∈ ps, q ∈ qs)
    (hqs : ∀ q ∈ qs, q ∈ t.panes) : Grew wss c qs s t :=
  { h with
    panes := fun q => ⟨fun hq => ((h.panes q).mp hq).imp_left (hsub q),
      fun hq => hq.elim (hqs q) fun hs => (h.panes q).mpr (Or.inr hs)⟩
    cwd := fun q hq => h.cwd q fun hp => hq (hsub q hp) }

section Fields

variable (w : World) (p q : PaneId) (s : SessionManager)

@[simp] theorem createByteLogFor_spawned : (s.createByteLogFor w p).spawned = s.spawned := by
  unfold createByteLogFor; split <;> rfl

@[simp] theorem createByteLogFor_pinned : (s.createByteLogFor w p).pinned = s.pinned := by
  unfold createByteLogFor; split <;> rfl

@[simp] theorem spawnDrainTask_spawned : (s.spawnDrainTask w p).spawned = s.spawned := by
  unfold spawnDrainTask takePaneOutputRx
  split <;> simp [setPane]

@[simp] theorem spawnDrainTask_pinned : (s.spawnDrainTask w p).pinned = s.pinned := by
  unfold spawnDrainTask takePaneOutputRx
  split <;> simp [setPane]

@[simp] theorem spawnDrainTask_cwdOf : (s.spawnDrainTask w p).cwdOf q = s.cwdOf q := by
  unfold spawnDrainTask takePaneOutputRx cwdOf
  split
  · rw [createByteLogFor_panes]
  · rename_i pane hget
    rw [createByteLogFor_panes] at hget
    rw [setPane_panes, PMap.get_insert, createByteLogFor_panes]
    split_ifs with hq
    · rw [hq, hget]
      rfl
    · rfl

end Fields

/-- The pane id a restore takes for a saved one. -/
def takePaneId (w : World) (saved : Option Uuid) (s : SessionManager) : SessionManager × PaneId :=
  match saved with
  | some pid => (s, ⟨pid⟩)
  | none => (s.mint, ⟨w.newV4 s.minted⟩)

theorem takePaneId_snd (w : World) (saved : Option Uuid) (s : SessionManager) :
    (s.takePaneId w saved).2 = (planPaneId w saved s.counters).2 := by
  cases saved <;> rfl

theorem grew_takePaneId (w : World) (saved : Option Uuid) (s : SessionManager) :
    Grew s.layout.workspaces (planPaneId w saved s.counters).1 [] s (s.takePaneId w saved).1 := by
  cases saved with
  | none => exact .of_same rfl rfl rfl rfl rfl rfl rfl
  | some pid => exact .refl s

theorem grew_countSpawn (s : SessionManager) :
    Grew s.layout.workspaces s.counters.spawn [] s s.countSpawn :=
  .of_same rfl rfl rfl rfl rfl rfl rfl

section Calls

variable {w : World} {size : PtySize} {cwd : Option PathBuf} {s : SessionManager} {p q : PaneId}

theorem spawn_of_shellSpawns {n : ℕ} (h : shellSpawns w size n cwd = true) :
    ∃ b, PtyBridge.spawn w n size cwd none none true = .ok b := by
  unfold shellSpawns at h
  cases hs : PtyBridge.spawn w n size cwd none none true with
  | error e => rw [hs] at h; exact nomatch h
  | ok b => exact ⟨b, rfl⟩

theorem spawn_of_not_shellSpawns {n : ℕ} (h : ¬shellSpawns w size n cwd = true) :
    ∃ e, PtyBridge.spawn w n size cwd none none true = .error e := by
  unfold shellSpawns at h
  cases hs : PtyBridge.spawn w n size cwd none none true with
  | error e => exact ⟨e, rfl⟩
  | ok b => rw [hs] at h; exact absurd rfl h

/-- A registered pane with its drain task. -/
theorem grew_registered {wss : List SessionWorkspace} {c : Counters} {b : PtyBridge}
    {t : SessionManager} (hw : t.layout.workspaces = wss)
    (ha : t.layout.activeWorkspace = s.layout.activeWorkspace) (hc : t.counters = c)
    (hpin : t.pinned = s.pinned)
    (hpanes : t.panes = s.panes.insert q (.spawned q b (cwd.getD w.homeDirFallback) size))
    (ho : t.paneOrder = s.paneOrder ++ [q])
    (hl : t.layout.leaves.length = s.layout.leaves.length + 1) :
    Grew wss c [q] s (t.spawnDrainTask w q) where
  workspaces := by rw [spawnDrainTask_layout, hw]
  active := by rw [spawnDrainTask_layout, ha]
  counters := by rw [← hc]; simp [SessionManager.counters]
  pinned := by rw [spawnDrainTask_pinned, hpin]
  panes x := by rw [spawnDrainTask_mem_panes, hpanes, PMap.mem_insert, List.mem_singleton]
  cwd x hx := by
    rw [List.mem_singleton] at hx
    rw [spawnDrainTask_cwdOf, cwdOf, hpanes, PMap.get_insert_of_ne hx, cwdOf]
  order := by
    refine ⟨[q], by rw [spawnDrainTask_paneOrder, ho], fun p hp => ?_, fun p hp => ?_, ?_⟩
    · rw [spawnDrainTask_mem_panes, hpanes, PMap.mem_insert]
      exact Or.inl (List.mem_singleton.mp hp)
    · rw [spawnDrainTask_mem_panes, hpanes, PMap.mem_insert] at hp
      exact hp.symm.imp_right fun h => List.mem_singleton.mpr h
    · rw [spawnDrainTask_layout, hl]
      rfl

theorem split_failed (direction : String) (ratio : F32) (hp : p ∈ s.panes)
    (h : ¬shellSpawns w size s.spawned cwd = true) :
    ∃ e, s.splitPaneWithRatioAndPaneId w p direction ratio size cwd q = (s.countSpawn, .error e) := by
  obtain ⟨e, he⟩ := spawn_of_not_shellSpawns h
  exact ⟨_, by simp only [splitPaneWithRatioAndPaneId, if_pos hp, splitAt, he]; rfl⟩

/-- A live leaf is split if a shell comes up. -/
theorem split_live (q : PaneId) (direction : String) (ratio : F32) (hp : p ∈ s.panes)
    (hleaf : p ∈ s.layout.leaves) (h : shellSpawns w size s.spawned cwd = true) :
    ∃ b wss tabId, replaceLeafInLayout p q direction ratio s.layout.workspaces = (wss, some tabId) ∧
      s.splitPaneWithRatioAndPaneId w p direction ratio size cwd q =
        (((((s.countSpawn.registerPane
          (.spawned q b (cwd.getD w.homeDirFallback) size)).setWorkspaces wss).send
            (.paneCreated q)).send (.paneSplit tabId p q direction)).spawnDrainTask w q, .ok q) := by
  obtain ⟨b, hb⟩ := spawn_of_shellSpawns h
  cases hr : replaceLeafInLayout p q direction ratio s.layout.workspaces with
  | mk wss found =>
    have hr' : replaceLeafInLayout p q direction ratio (s.countSpawn.registerPane
        (.spawned q b (cwd.getD w.homeDirFallback) size)).layout.workspaces = _ := hr
    cases found with
    | none => exact absurd hleaf (replaceLeafInLayout_none (congrArg Prod.snd hr))
    | some tabId =>
      refine ⟨b, wss, tabId, rfl, ?_⟩
      simp only [splitPaneWithRatioAndPaneId, if_pos hp, splitAt, hb, hr']

theorem split_ok (direction : String) (ratio : F32) (hp : p ∈ s.panes)
    (hd : s.layout.leaves.Nodup) (hleaf : p ∈ s.layout.leaves)
    (h : shellSpawns w size s.spawned cwd = true) :
    ∃ t, s.splitPaneWithRatioAndPaneId w p direction ratio size cwd q = (t, .ok q) ∧
      Grew (substLeaf p (.node ⟨direction, ratio⟩ (.leaf p) (.leaf q)) s.layout.workspaces)
        s.counters.spawn [q] s t := by
  obtain ⟨b, wss, tabId, hr, heq⟩ := split_live q direction ratio hp hleaf h
  obtain ⟨tabId', hr'⟩ := replaceLeafInLayout_eq q direction ratio hd hleaf
  obtain ⟨rfl, -⟩ := Prod.mk.inj (hr.symm.trans hr')
  refine ⟨_, heq, grew_registered rfl rfl rfl rfl rfl rfl ?_⟩
  have hleaves := replaceLeafInLayout_leaves (congrArg Prod.snd hr)
  rw [hr] at hleaves
  exact hleaves.length_eq.trans (by rw [List.length_append]; rfl)

theorem createTab_failed {i : ℕ} (hi : i < s.layout.workspaces.length)
    (h : ¬shellSpawns w size s.spawned cwd = true) :
    ∃ e, s.createTabWithPaneId w i cwd size none q = (s.countSpawn, .error e) := by
  obtain ⟨e, he⟩ := spawn_of_not_shellSpawns h
  exact ⟨_, by simp only [createTabWithPaneId, if_neg (not_le.mpr hi), he]; rfl⟩

theorem createTab_ok {i : ℕ} (hi : i < s.layout.workspaces.length)
    (h : shellSpawns w size s.spawned cwd = true) :
    ∃ t, s.createTabWithPaneId w i cwd size none q = (t, .ok (q, w.newV4 s.minted)) ∧
      Grew (s.layout.workspaces.modify i fun ws =>
          { ws with tabs := ws.tabs ++ [.ofLeaf (w.newV4 s.minted) q] })
        s.counters.spawn.mint [q] s t := by
  obtain ⟨b, hb⟩ := spawn_of_shellSpawns h
  refine ⟨_, by simp only [createTabWithPaneId, if_neg (not_le.mpr hi), hb]; rfl, ?_⟩
  refine grew_registered rfl rfl rfl rfl rfl rfl ?_
  have hleaves := @leaves_modify _ _ _ (fun ws =>
      { ws with tabs := ws.tabs ++ [.ofLeaf (w.newV4 s.minted) q] }) [q]
    (List.getElem?_eq_getElem hi) (by rw [leaves_pushTab])
  exact hleaves.length_eq.trans (by rw [List.length_append]; rfl)

end Calls

end SessionManager

end Forgetty
