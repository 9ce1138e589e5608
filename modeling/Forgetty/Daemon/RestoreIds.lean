import Forgetty.Daemon.RestorePlan

/-! The ids a restore gives out: the pane ids of the file, each where it was, and
new UUIDs for the tabs and for the panes that were saved without an id. -/

namespace Forgetty

open Lib

/-- The pane ids in a saved tree. -/
def savedPaneIds (t : PaneTreeState) : List Uuid := t.leaves.filterMap (·.paneId)

def Workspace.savedPaneIds (ws : Workspace) : List Uuid :=
  ws.tabs.flatMap fun tab => Forgetty.savedPaneIds tab.paneTree

def WorkspaceState.savedPaneIds (state : WorkspaceState) : List Uuid :=
  state.workspaces.flatMap Workspace.savedPaneIds

/-- Distinct ids, each one of `ids` or handed out between the two counts. -/
structure Issued (w : World) (ids : List Uuid) (m m' : ℕ) (us : List Uuid) : Prop where
  le : m ≤ m'
  nodup : us.Nodup
  source : ∀ u ∈ us, u ∈ ids ∨ ∃ n, m ≤ n ∧ n < m' ∧ u = w.newV4 n

/-- A list of saved ids: distinct, and none of them will be handed out again. -/
structure Usable (w : World) (ids : List Uuid) : Prop where
  nodup : ids.Nodup
  fresh : ∀ n, w.newV4 n ∉ ids

section Issued

variable {w : World} {isDir : PathBuf → Bool} {size : PtySize} {m m' m'' : ℕ}
  {ids ids' us us' : List Uuid}

theorem Usable.nil (w : World) : Usable w [] := ⟨List.nodup_nil, fun _ => List.not_mem_nil⟩

theorem Usable.left (h : Usable w (ids ++ ids')) : Usable w ids :=
  ⟨(List.nodup_append.mp h.nodup).1, fun n hn => h.fresh n (List.mem_append_left _ hn)⟩

theorem Usable.right (h : Usable w (ids ++ ids')) : Usable w ids' :=
  ⟨(List.nodup_append.mp h.nodup).2.1, fun n hn => h.fresh n (List.mem_append_right _ hn)⟩

theorem Usable.perm (h : Usable w ids) (hp : ids.Perm ids') : Usable w ids' :=
  ⟨hp.nodup_iff.mp h.nodup, fun n hn => h.fresh n (hp.mem_iff.mpr hn)⟩

theorem Issued.nil (ids : List Uuid) (h : m ≤ m') : Issued w ids m m' [] :=
  ⟨h, List.nodup_nil, nofun⟩

theorem Issued.mono (h : Issued w ids m m' us) (hsub : ∀ u ∈ ids, u ∈ ids')
    (hle : m' ≤ m'') : Issued w ids' m m'' us where
  le := h.le.trans hle
  nodup := h.nodup
  source u hu := (h.source u hu).imp (hsub u) fun ⟨n, hn, hn', heq⟩ => ⟨n, hn, hn'.trans_le hle, heq⟩

theorem Issued.perm (h : Issued w ids m m' us) (hp : us.Perm us') : Issued w ids m m' us' where
  le := h.le
  nodup := hp.nodup_iff.mp h.nodup
  source u hu := h.source u (hp.mem_iff.mpr hu)

theorem Issued.append (hw : Function.Injective w.newV4) (hids : Usable w (ids ++ ids'))
    (h : Issued w ids m m' us) (h' : Issued w ids' m' m'' us') :
    Issued w (ids ++ ids') m m'' (us ++ us') where
  le := h.le.trans h'.le
  nodup := by
    rw [List.nodup_append]
    refine ⟨h.nodup, h'.nodup, fun u hu v hv huv => ?_⟩
    subst huv
    rcases h.source u hu with hs | ⟨n, -, hn, heq⟩ <;>
      rcases h'.source u hv with hs' | ⟨k, hk, -, heq'⟩
    · exact (List.nodup_append.mp hids.nodup).2.2 u hs u hs' rfl
    · exact hids.left.fresh k (heq' ▸ hs)
    · exact hids.right.fresh n (heq ▸ hs')
    · have hnk : n = k := hw (heq.symm.trans heq')
      omega
  source u hu := by
    have hle := h.le
    have hle' := h'.le
    rcases List.mem_append.mp hu with hu | hu
    · rcases h.source u hu with hs | ⟨n, hn, hn', rfl⟩
      · exact Or.inl (List.mem_append_left _ hs)
      · exact Or.inr ⟨n, hn, by omega, rfl⟩
    · rcases h'.source u hu with hs | ⟨n, hn, hn', rfl⟩
      · exact Or.inl (List.mem_append_right _ hs)
      · exact Or.inr ⟨n, by omega, hn', rfl⟩

/-! ### Panes -/

theorem issued_planPaneId (saved : Option Uuid) (c : Counters) :
    Issued w saved.toList c.minted (planPaneId w saved c).1.minted [(planPaneId w saved c).2.uuid] := by
  cases saved with
  | none =>
    exact ⟨Nat.le_succ _, List.nodup_singleton _, fun u hu =>
      Or.inr ⟨c.minted, le_rfl, Nat.lt_succ_self _, List.mem_singleton.mp hu⟩⟩
  | some pid =>
    exact ⟨le_rfl, List.nodup_singleton _, fun u hu => Or.inl hu⟩

theorem savedPaneIds_eq (t : PaneTreeState) :
    savedPaneIds t = (firstLeafPaneId t).toList ++ t.leaves.tail.filterMap (·.paneId) := by
  obtain ⟨rest, hrest⟩ := List.head?_eq_some_iff.mp t.head?_leaves
  rw [savedPaneIds, hrest, firstLeafPaneId_eq]
  cases h : t.leftmost.paneId <;> simp [h]

theorem tail_leaves_node {ν α : Type*} (label : ν) (first second : LeafTree ν α) :
    (LeafTree.node label first second).leaves.tail = first.leaves.tail ++ second.leaves := by
  rw [LeafTree.leaves_node, List.tail_append_of_ne_nil first.leaves_ne_nil]

theorem leaves_planTree (t : PaneTreeState) (anchorId : PaneId) (c : Counters) :
    (planTree w isDir size t anchorId c).2.leaves =
      anchorId :: (planTree w isDir size t anchorId c).2.leaves.tail := by
  have h := LeafTree.head?_leaves (planTree w isDir size t anchorId c).2
  rw [leftmost_planTree] at h
  obtain ⟨rest, hrest⟩ := List.head?_eq_some_iff.mp h
  rw [hrest]
  rfl

/-- The panes of a rebuilt tree, its anchor aside. -/
theorem issued_planTree (hw : Function.Injective w.newV4) (t : PaneTreeState) (anchorId : PaneId)
    (c : Counters) (hids : Usable w (t.leaves.tail.filterMap (·.paneId))) :
    Issued w (t.leaves.tail.filterMap (·.paneId)) c.minted (planTree w isDir size t anchorId c).1.minted
      ((planTree w isDir size t anchorId c).2.leaves.tail.map (·.uuid)) := by
  induction t generalizing anchorId c with
  | leaf l => exact .nil _ le_rfl
  | node label first second ih₁ ih₂ =>
    rw [tail_leaves_node, List.filterMap_append] at hids ⊢
    have hsecond : second.leaves.filterMap (·.paneId) = savedPaneIds second := rfl
    rw [hsecond, savedPaneIds_eq] at hids ⊢
    have h₀ := issued_planPaneId (w := w) (firstLeafPaneId second) c
    rw [planTree]
    dsimp only
    generalize planPaneId w (firstLeafPaneId second) c = taken at h₀ ⊢
    split_ifs with hspawn
    · have h₁ := ih₁ anchorId taken.1.spawn hids.left
      generalize planTree w isDir size first anchorId taken.1.spawn = l at h₁ ⊢
      have h₂ := ih₂ taken.2 l.1 hids.right.right
      have hr := @leaves_planTree w isDir size second taken.2 l.1
      generalize planTree w isDir size second taken.2 l.1 = r at h₂ hr ⊢
      rw [tail_leaves_node, hr]
      -- the id of the second pane is taken before the first subtree is rebuilt
      have hperm : (first.leaves.tail.filterMap (·.paneId) ++ ((firstLeafPaneId second).toList ++
          second.leaves.tail.filterMap (·.paneId))).Perm ((firstLeafPaneId second).toList ++
            (first.leaves.tail.filterMap (·.paneId) ++ second.leaves.tail.filterMap (·.paneId))) :=
        List.perm_append_comm_assoc _ _ _
      have hids' := hids.perm hperm
      have h := (h₀.mono (fun _ hu => hu) le_rfl).append hw hids' (h₁.append hw hids'.right h₂)
      refine (h.mono (fun u hu => hperm.mem_iff.mpr hu) le_rfl).perm ?_
      simpa using List.perm_middle.symm
    · exact .nil _ h₀.le

/-- The panes of a restored tab. -/
theorem issued_planTab (hw : Function.Injective w.newV4) (tab : TabState) (c : Counters)
    (hids : Usable w (savedPaneIds tab.paneTree)) :
    Issued w (savedPaneIds tab.paneTree) c.minted (planTab w isDir size tab c).1.minted
      ((plannedLeaves [(planTab w isDir size tab c).2]).map (·.uuid)) := by
  rw [savedPaneIds_eq] at hids ⊢
  have h₀ := issued_planPaneId (w := w) (firstLeafPaneId tab.paneTree) c
  rw [planTab, planRoot]
  generalize planPaneId w (firstLeafPaneId tab.paneTree) c = taken at h₀ ⊢
  dsimp only
  split_ifs with hspawn
  · have h₁ := @issued_planTree w isDir size hw tab.paneTree taken.2
      taken.1.spawn.mint hids.right
    have hr := @leaves_planTree w isDir size tab.paneTree taken.2
      taken.1.spawn.mint
    dsimp only [plannedLeaves]
    generalize planTree w isDir size tab.paneTree taken.2 taken.1.spawn.mint = r at h₁ hr ⊢
    have h := (h₀.mono (fun _ hu => hu) (Nat.le_succ _)).append hw hids h₁
    rw [List.reduceOption_cons_of_some, List.reduceOption_nil, List.flatMap_singleton, hr]
    simpa using h
  · exact .nil _ h₀.le

theorem issued_planTabs (hw : Function.Injective w.newV4) (tabs : List TabState) (c : Counters)
    (hids : Usable w (tabs.flatMap fun tab => savedPaneIds tab.paneTree)) :
    Issued w (tabs.flatMap fun tab => savedPaneIds tab.paneTree) c.minted
      (planTabs w isDir size tabs c).1.minted
      ((plannedLeaves (planTabs w isDir size tabs c).2).map (·.uuid)) := by
  induction tabs generalizing c with
  | nil => exact .nil _ le_rfl
  | cons tab tabs ih =>
    rw [List.flatMap_cons] at hids ⊢
    rw [planTabs]
    dsimp only
    rw [plannedLeaves_cons, List.map_append]
    exact (issued_planTab hw tab c hids.left).append hw hids (ih _ hids.right)

theorem issued_planWorkspace (hw : Function.Injective w.newV4) (ws : Workspace) (c : Counters)
    (hids : Usable w ws.savedPaneIds) :
    Issued w ws.savedPaneIds c.minted (planWorkspace w isDir size ws c).1.minted
      ((planWorkspace w isDir size ws c).2.leaves.map (·.uuid)) := by
  rw [planWorkspace]
  dsimp only
  split_ifs with hempty
  · rw [List.isEmpty_iff.mp hempty, planTabs, planRoot]
    have h₀ := issued_planPaneId (w := w) none c
    generalize planPaneId w none c = taken at h₀ ⊢
    dsimp only
    split_ifs with hspawn
    · have h : Issued w ws.savedPaneIds c.minted taken.1.spawn.mint.minted [taken.2.uuid] :=
        h₀.mono (fun u hu => absurd hu List.not_mem_nil) (Nat.le_succ taken.1.minted)
      simpa [WorkspacePlan.leaves, WorkspacePlan.live, SessionTab.ofLeaf] using h
    · exact .nil _ h₀.le
  · have h := @issued_planTabs w isDir size hw ws.tabs c hids
    simpa [WorkspacePlan.leaves, WorkspacePlan.live, plannedLeaves, Workspace.savedPaneIds] using h

theorem issued_planWorkspaces (hw : Function.Injective w.newV4) (saved : List Workspace)
    (c : Counters) (hids : Usable w (saved.flatMap Workspace.savedPaneIds)) :
    Issued w (saved.flatMap Workspace.savedPaneIds) c.minted (planWorkspaces w isDir size saved c).1.minted
      (((planWorkspaces w isDir size saved c).2.flatMap WorkspacePlan.leaves).map (·.uuid)) := by
  induction saved generalizing c with
  | nil => exact .nil _ le_rfl
  | cons ws rest ih =>
    rw [List.flatMap_cons] at hids ⊢
    rw [planWorkspaces]
    dsimp only
    rw [List.flatMap_cons, List.map_append]
    exact (issued_planWorkspace hw ws c hids.left).append hw hids (ih _ hids.right)

/-- When the saved ids are distinct and none of them is handed out again, the
planned panes are distinct. -/
theorem nodup_plannedPanes (hw : Function.Injective w.newV4) (isDir : PathBuf → Bool)
    {state : WorkspaceState} (hids : Usable w state.savedPaneIds) :
    (plannedPanes w isDir state).Nodup :=
  (issued_planWorkspaces hw state.workspaces _ hids).nodup.of_map _

/-! ### Tabs -/

theorem minted_planTree (t : PaneTreeState) (anchorId : PaneId) (c : Counters) :
    c.minted ≤ (planTree w isDir size t anchorId c).1.minted := by
  induction t generalizing anchorId c with
  | leaf l => exact le_rfl
  | node label first second ih₁ ih₂ =>
    rw [planTree]
    have h := (issued_planPaneId (w := w) (firstLeafPaneId second) c).le
    dsimp only
    split_ifs
    · exact (h.trans (ih₁ anchorId (planPaneId w (firstLeafPaneId second) c).1.spawn)).trans
        (ih₂ _ _)
    · exact h

theorem tabId_planRoot (saved : Option Uuid) (cwd : Option PathBuf) (c : Counters) :
    Issued w [] c.minted (planRoot w size saved cwd c).1.minted
      ((planRoot w size saved cwd c).2.map (·.2)).toList := by
  have h := (issued_planPaneId (w := w) saved c).le
  rw [planRoot]
  split_ifs
  · refine ⟨h.trans (Nat.le_succ _), by simp, fun u hu => ?_⟩
    have hu' : u = w.newV4 (planPaneId w saved c).1.minted := by simpa using hu
    exact Or.inr ⟨_, h, Nat.lt_succ_self _, hu'⟩
  · exact .nil _ h

theorem tabId_planTab (tab : TabState) (c : Counters) :
    Issued w [] c.minted (planTab w isDir size tab c).1.minted
      ([(planTab w isDir size tab c).2].reduceOption.map (·.id)) := by
  have h := @tabId_planRoot w size (firstLeafPaneId tab.paneTree)
    (effectiveCwd isDir (firstLeafCwd tab.paneTree)) c
  rw [planTab]
  generalize planRoot w size (firstLeafPaneId tab.paneTree)
    (effectiveCwd isDir (firstLeafCwd tab.paneTree)) c = root at h ⊢
  obtain ⟨c₁, _ | r⟩ := root
  · exact .nil _ h.le
  · exact h.mono (fun _ hu => hu) (minted_planTree tab.paneTree r.1 c₁)

theorem tabIds_planTabs (hw : Function.Injective w.newV4) (tabs : List TabState) (c : Counters) :
    Issued w [] c.minted (planTabs w isDir size tabs c).1.minted
      ((planTabs w isDir size tabs c).2.reduceOption.map (·.id)) := by
  induction tabs generalizing c with
  | nil => exact .nil _ le_rfl
  | cons tab tabs ih =>
    rw [planTabs]
    dsimp only
    rw [reduceOption_cons, List.map_append]
    exact (tabId_planTab tab c).append hw (.nil w) (ih _)

theorem tabIds_planWorkspace (hw : Function.Injective w.newV4) (ws : Workspace) (c : Counters) :
    Issued w [] c.minted (planWorkspace w isDir size ws c).1.minted
      ((planWorkspace w isDir size ws c).2.live.map (·.id)) := by
  have h := @tabIds_planTabs w isDir size hw ws.tabs c
  rw [planWorkspace]
  dsimp only
  split_ifs with hempty
  · have hroot := @tabId_planRoot w size none none (planTabs w isDir size ws.tabs c).1
    rw [WorkspacePlan.live, List.map_append]
    refine h.append hw (.nil w) ?_
    cases hr : (planRoot w size none none (planTabs w isDir size ws.tabs c).1).2 <;>
      simpa [hr, SessionTab.ofLeaf] using hroot
  · simpa [WorkspacePlan.live] using h

theorem tabIds_planWorkspaces (hw : Function.Injective w.newV4) (saved : List Workspace)
    (c : Counters) :
    Issued w [] c.minted (planWorkspaces w isDir size saved c).1.minted
      ((planWorkspaces w isDir size saved c).2.flatMap fun plan => plan.live.map (·.id)) := by
  induction saved generalizing c with
  | nil => exact .nil _ le_rfl
  | cons ws rest ih =>
    rw [planWorkspaces]
    dsimp only
    rw [List.flatMap_cons]
    exact (tabIds_planWorkspace hw ws c).append hw (.nil w) (ih _)

end Issued

end Forgetty
