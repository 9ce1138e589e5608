import Forgetty.Daemon.RestoreRun

/-! The last pass of the restore sets the focus of the tabs, saved and live tabs
paired by position. -/

namespace Forgetty

open Lib

/-- The pane at the place where the focused pane is in the saved tree. -/
def focusOf (saved : TabState) (live : SessionTab) : Option PaneId :=
  saved.activePaneId.bind fun u => livePaneIdForSaved u saved.paneTree live.paneTree

def focusTab (saved : TabState) (live : SessionTab) : SessionTab :=
  { live with activePaneId := (focusOf saved live).or live.activePaneId }

def focusTabs : List TabState → List SessionTab → List SessionTab
  | saved :: savedTabs, live :: liveTabs => focusTab saved live :: focusTabs savedTabs liveTabs
  | [], liveTabs => liveTabs
  | _ :: _, [] => []

def focusWorkspaces : List Workspace → List SessionWorkspace → List SessionWorkspace
  | saved :: rest, live :: lives =>
    { live with tabs := focusTabs saved.tabs live.tabs } :: focusWorkspaces rest lives
  | [], lives => lives
  | _ :: _, [] => []

/-- The pane found is a leaf of the live tree. -/
theorem livePaneIdForSaved_mem {u : Uuid} {t : PaneTreeState} {l : PaneTreeLayout} {p : PaneId}
    (h : livePaneIdForSaved u t l = some p) : p ∈ l.leaves := by
  induction t generalizing l with
  | leaf saved =>
    cases l with
    | leaf q =>
      rw [livePaneIdForSaved] at h
      split_ifs at h
      rw [LeafTree.leaves_leaf, List.mem_singleton]
      exact (Option.some.inj h).symm
    | node label a b => cases h
  | node label sa sb iha ihb =>
    cases l with
    | leaf q => cases h
    | node label' la lb =>
      rw [livePaneIdForSaved, Option.or_eq_some_iff] at h
      rw [LeafTree.leaves_node, List.mem_append]
      rcases h with h | ⟨-, h⟩
      · exact Or.inl (iha h)
      · exact Or.inr (ihb h)

theorem focusOf_mem {saved : TabState} {live : SessionTab} {p : PaneId}
    (h : focusOf saved live = some p) : p ∈ live.paneTree.leaves := by
  obtain ⟨u, -, hu⟩ := Option.bind_eq_some_iff.mp h
  exact livePaneIdForSaved_mem hu

section Pass

open SessionManager

variable {s : SessionManager}

/-- One call writes the focus of the tab with the id. -/
theorem grew_setFocus (pre post : List SessionWorkspace) (ws : SessionWorkspace)
    (done rest : List SessionTab) (tab : SessionTab) {p : PaneId}
    (hs : s.layout.workspaces = pre ++ { ws with tabs := done ++ tab :: rest } :: post)
    (hid : tab.id ∉ done.map (·.id)) (hp : p ∈ tab.paneTree.leaves) :
    Grew (pre ++ { ws with tabs := done ++ { tab with activePaneId := some p } :: rest } :: post)
      s.counters [] s (setFocus s (pre.length, tab.id, p)) := by
  have hget : s.layout.workspaces[pre.length]? = some { ws with tabs := done ++ tab :: rest } := by
    simp [hs]
  have hne : ∀ t ∈ done, t.id ≠ tab.id := fun t ht heq => hid (List.mem_map.mpr ⟨t, ht, heq⟩)
  have hfind : (done ++ tab :: rest).find? (·.id = tab.id) = some tab := by
    rw [List.find?_append, List.find?_eq_none.mpr (by simpa using hne)]
    simp
  have hidx : (done ++ tab :: rest).findIdx (·.id = tab.id) = done.length := by
    have hdone : done.findIdx (·.id = tab.id) = done.length :=
      List.findIdx_eq_length_of_false (by simpa using hne)
    rw [List.findIdx_append, hdone, if_neg (lt_irrefl _), List.findIdx_cons]
    simp
  have hleaf : (some p).filter (fun pid => !paneTreeContainsLeaf pid tab.paneTree) = none := by
    simp [hp]
  simp only [setFocus, setActivePane, hget, hfind, hleaf]
  split_ifs with hsame
  · rw [← hsame, ← hs]
    exact .refl s
  · refine .of_same ?_ rfl rfl rfl rfl rfl
      (congrArg List.length (leaves_modifyWorkspace _ (leaves_writeActivePane tab.id (some p))))
    rw [send_layout, modifyWorkspace_workspaces, hs, modify_append_cons]
    simp only [writeActivePane, hidx, modify_append_cons]

/-- The focus of the tabs of one workspace. -/
theorem grew_focusTabs (pre post : List SessionWorkspace) (ws : SessionWorkspace)
    (savedTabs : List TabState) (done lives : List SessionTab)
    (hs : s.layout.workspaces = pre ++ { ws with tabs := done ++ lives } :: post)
    (hid : ((done ++ lives).map (·.id)).Nodup) :
    Grew (pre ++ { ws with tabs := done ++ focusTabs savedTabs lives } :: post) s.counters [] s
      ((focusTargets pre.length savedTabs lives).foldl setFocus s) := by
  induction savedTabs generalizing done lives s with
  | nil =>
    have h := Grew.refl s
    rwa [hs] at h
  | cons saved savedTabs ih =>
    cases lives with
    | nil =>
      have h := Grew.refl s
      rwa [hs] at h
    | cons live lives =>
      have hstep : Grew (pre ++ { ws with tabs := done ++ focusTab saved live :: lives } :: post)
          s.counters [] s (((focusOf saved live).map fun p => (pre.length, live.id, p)).toList.foldl
            setFocus s) := by
        cases hf : focusOf saved live with
        | none =>
          have hsame : focusTab saved live = live := by simp [focusTab, hf]
          have h := Grew.refl s
          rwa [hs, ← hsame] at h
        | some p =>
          have hnot : live.id ∉ done.map (·.id) := by
            rw [List.map_append, List.nodup_append] at hid
            exact fun h => hid.2.2 _ h _ (by simp) rfl
          have h := grew_setFocus pre post ws done lives live hs hnot (focusOf_mem hf)
          simpa [focusTab, hf] using h
      have htargets : focusTargets pre.length (saved :: savedTabs) (live :: lives) =
          ((focusOf saved live).map fun p => (pre.length, live.id, p)).toList ++
            focusTargets pre.length savedTabs lives := by
        rw [focusTargets, focusOf]
        cases saved.activePaneId <;> rfl
      rw [htargets, List.foldl_append]
      generalize List.foldl setFocus s _ = t at hstep ⊢
      have h := ih (s := t) (done ++ [focusTab saved live]) lives
        (by rw [hstep.workspaces, List.append_assoc, List.singleton_append])
        (by simpa [focusTab] using hid)
      rw [List.append_assoc, List.singleton_append, hstep.counters] at h
      exact hstep.trans h

/-- The focus of the tabs of all workspaces. -/
theorem grew_focusWorkspaces (saved : List Workspace) (pre lives : List SessionWorkspace)
    (hs : s.layout.workspaces = pre ++ lives)
    (hid : ∀ ws ∈ lives, (ws.tabs.map (·.id)).Nodup) :
    Grew (pre ++ focusWorkspaces saved lives) s.counters [] s
      ((restoreTargets pre.length saved lives).foldl setFocus s) := by
  induction saved generalizing pre lives s with
  | nil =>
    have h := Grew.refl s
    rwa [hs] at h
  | cons ws saved ih =>
    cases lives with
    | nil =>
      have h := Grew.refl s
      rwa [hs] at h
    | cons live lives =>
      have h₁ := grew_focusTabs pre lives live ws.tabs [] live.tabs hs (hid live (by simp))
      rw [List.nil_append] at h₁
      rw [restoreTargets, List.foldl_append]
      generalize List.foldl setFocus s _ = t at h₁ ⊢
      have h₂ := ih (s := t) (pre ++ [{ live with tabs := focusTabs ws.tabs live.tabs }]) lives
        (by rw [h₁.workspaces, List.append_assoc, List.singleton_append])
        fun v hv => hid v (List.mem_cons_of_mem _ hv)
      rw [List.length_append, List.length_singleton, List.append_assoc, List.singleton_append,
        h₁.counters] at h₂
      exact h₁.trans h₂

end Pass

/-! ### The live tabs -/

/-- The live workspace: the restored tabs with their focus. -/
def WorkspacePlan.focused (plan : WorkspacePlan) (id : Uuid) (saved : Workspace) :
    SessionWorkspace :=
  { plan.restored id saved with tabs := focusTabs saved.tabs plan.live }

section Live

variable {w : World}

theorem focusTabs_getElem? (savedTabs : List TabState) (lives : List SessionTab) (k : ℕ) :
    (focusTabs savedTabs lives)[k]? = lives[k]?.map fun l =>
      match savedTabs[k]? with
      | some tab => focusTab tab l
      | none => l := by
  induction savedTabs generalizing lives k with
  | nil =>
    rw [focusTabs]
    cases lives[k]? <;> rfl
  | cons tab savedTabs ih =>
    cases lives with
    | nil => rfl
    | cons l lives =>
      cases k with
      | zero => rfl
      | succ k => exact ih lives k

theorem focusTabs_map {β : Type} (g : SessionTab → β)
    (hg : ∀ (tab : SessionTab) p, g { tab with activePaneId := p } = g tab)
    (savedTabs : List TabState) (lives : List SessionTab) :
    (focusTabs savedTabs lives).map g = lives.map g := by
  induction savedTabs generalizing lives with
  | nil => rfl
  | cons tab savedTabs ih =>
    cases lives with
    | nil => rfl
    | cons l lives =>
      rw [focusTabs, List.map_cons, List.map_cons, ih]
      exact congrArg (· :: _) (hg l _)

theorem length_focusTabs (savedTabs : List TabState) (lives : List SessionTab) :
    (focusTabs savedTabs lives).length = lives.length := by
  have h := congrArg List.length (focusTabs_map SessionTab.id (fun _ _ => rfl) savedTabs lives)
  rwa [List.length_map, List.length_map] at h

/-- The live workspace at a place. -/
theorem getElem?_focusWorkspaces (saved : List Workspace) (plans : List WorkspacePlan) (k : ℕ)
    {i : ℕ} {ws : Workspace} {plan : WorkspacePlan} (hi : saved[i]? = some ws)
    (hp : plans[i]? = some plan) :
    (focusWorkspaces saved (restoredFrom w k saved plans))[i]? =
      some (plan.focused (w.newV4 (k + i)) ws) := by
  induction saved generalizing plans i k with
  | nil => simp at hi
  | cons v rest ih =>
    cases plans with
    | nil => simp at hp
    | cons q plans =>
      cases i with
      | zero =>
        obtain rfl := Option.some.inj hi
        obtain rfl := Option.some.inj hp
        rfl
      | succ i =>
        rw [restoredFrom, focusWorkspaces, List.getElem?_cons_succ, ih plans (k + 1) hi hp]
        congr 3
        omega

end Live

end Forgetty
