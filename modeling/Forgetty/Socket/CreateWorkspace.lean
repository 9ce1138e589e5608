import Forgetty.Daemon.Serving
import Forgetty.Socket.Handlers

/-! Creating a workspace over the socket, among other clients. The handler makes the
workspace, releases the lock, and makes the tab at the index the workspace had. In between
the workspace may be moved or deleted, and when no tab can be made the workspace stays. -/

namespace Forgetty

open Lib SessionManager

/-- The daemon between the two calls of the handler, after the turns of the others. -/
def betweenCalls (w : World) (name : String) (others : List (Turn Op)) (m : Shared Process Todo) :
    Shared Process Todo :=
  run (lockSections w).turn ⟨{ m.state with sm := (m.state.sm.createWorkspace w name).1 }, m.pending⟩
    others

/-- The request with the turns of the others between its two calls, up to where the second
one releases the lock. -/
def createWorkspaceAmong (w : World) (name : String) (others : List (Turn Op))
    (m : Shared Process Todo) : SessionManager × Except ForgettyError (Uuid × ℕ × PaneId × Uuid) :=
  let made := m.state.sm.createWorkspace w name
  let sm := (betweenCalls w name others m).state.sm
  match sm.mint.createTabLocked w made.2.2 none .default none ⟨w.newV4 sm.minted⟩ with
  | (sm, .ok (paneId, tabId)) => (sm, .ok (made.2.1, made.2.2, paneId, tabId))
  | (sm, .error e) => (sm, .error e)

/-- The tab and the pane answered are in the workspace answered; after an error the workspace
that was made is not in the layout. -/
def AnswersTruly (made : Uuid) :
    SessionManager × Except ForgettyError (Uuid × ℕ × PaneId × Uuid) → Prop
  | (sm, .ok (id, _, paneId, tabId)) =>
    ∃ ws ∈ sm.layout.workspaces, ws.id = id ∧
      ∃ tab ∈ ws.tabs, tab.id = tabId ∧ paneId ∈ tab.paneTree.leaves
  | (sm, .error _) => ∀ ws ∈ sm.layout.workspaces, ws.id ≠ made

instance (made : Uuid) : DecidablePred (AnswersTruly made)
  | (sm, .ok (id, _, paneId, tabId)) =>
    inferInstanceAs (Decidable (∃ ws ∈ sm.layout.workspaces, ws.id = id ∧
      ∃ tab ∈ ws.tabs, tab.id = tabId ∧ paneId ∈ tab.paneTree.leaves))
  | (sm, .error _) => inferInstanceAs (Decidable (∀ ws ∈ sm.layout.workspaces, ws.id ≠ made))

/-- The request creates the workspace with its tab, or not at all. -/
def CreatedWhole (w : World) (name : String) (others : List (Turn Op)) (m : Shared Process Todo) :
    Prop :=
  AnswersTruly (m.state.sm.createWorkspace w name).2.1 (createWorkspaceAmong w name others m)

instance (w : World) (name : String) (others : List (Turn Op)) (m : Shared Process Todo) :
    Decidable (CreatedWhole w name others m) :=
  inferInstanceAs (Decidable (AnswersTruly _ _))

/-- What the second call finds: the workspace at its index and a spawn that succeeds, or no
tab can be made and the workspace is gone. -/
def TabFits (w : World) (id : Uuid) (idx : ℕ) (sm : SessionManager) : Prop :=
  match sm.layout.workspaces[idx]?, PtyBridge.spawn w sm.spawned .default none none none true with
  | some ws, .ok _ => ws.id = id
  | _, _ => ∀ ws ∈ sm.layout.workspaces, ws.id ≠ id

section Handler

variable {w : World} {name : String} {others : List (Turn Op)} {m : Shared Process Todo}
  {sm : SessionManager}

theorem createTabWithPaneId_answer (i : ℕ) (cwd : Option PathBuf) (size : PtySize)
    (command : Option (List String)) (p : PaneId) (sm : SessionManager) :
    (sm.createTabWithPaneId w i cwd size command p).2 =
      (sm.createTabLocked w i cwd size command p).2 := by
  unfold createTabWithPaneId createTabLocked
  split_ifs
  · rfl
  · generalize PtyBridge.spawn w _ size cwd command none true = r
    cases r <;> rfl

/-- Without others the answer and the layout are those of the request as a whole. -/
theorem createWorkspaceAmong_nil (w : World) (name : String) (m : Shared Process Todo) :
    (createWorkspaceAmong w name [] m).2 = (createWorkspaceRpc w name m.state.sm).2 ∧
      (createWorkspaceAmong w name [] m).1.layout =
        (createWorkspaceRpc w name m.state.sm).1.layout := by
  have hgap : (betweenCalls w name [] m).state.sm = (m.state.sm.createWorkspace w name).1 := rfl
  unfold createWorkspaceAmong createWorkspaceRpc
  dsimp only
  rw [hgap]
  generalize m.state.sm.createWorkspace w name = made
  have hlayout := congrArg SessionManager.layout (createTabWithPaneId_eq (w := w) (s := made.1.mint)
    made.2.2 none .default none ⟨w.newV4 made.1.minted⟩)
  have hanswer := createTabWithPaneId_answer (w := w) made.2.2 none .default none
    ⟨w.newV4 made.1.minted⟩ made.1.mint
  rw [spawnDrainTasks_layout] at hlayout
  rw [createTab]
  generalize made.1.mint.createTabWithPaneId w made.2.2 none .default none _ = whole
    at hlayout hanswer ⊢
  generalize made.1.mint.createTabLocked w made.2.2 none .default none _ = locked
    at hlayout hanswer ⊢
  obtain ⟨t, r⟩ := whole
  obtain ⟨u, r'⟩ := locked
  obtain rfl : r = r' := hanswer
  cases r with
  | error e => exact ⟨rfl, hlayout.symm⟩
  | ok made => exact ⟨rfl, hlayout.symm⟩

/-- A tab with an id that is new is found in the workspace it was pushed into, and nowhere
else. -/
theorem pushed_iff (hids : Identified w sm) {i n : ℕ} {ws : SessionWorkspace} (p : PaneId)
    (hn : sm.minted ≤ n) (hws : sm.layout.workspaces[i]? = some ws) (id : Uuid) :
    (∃ ws' ∈ sm.layout.workspaces.modify i (fun ws =>
        { ws with tabs := ws.tabs ++ [.ofLeaf (w.newV4 n) p] }), ws'.id = id ∧
      ∃ tab ∈ ws'.tabs, tab.id = w.newV4 n ∧ p ∈ tab.paneTree.leaves) ↔ ws.id = id := by
  constructor
  · rintro ⟨ws', hws', rfl, tab, htab, hid, -⟩
    rcases mem_modify hws' with ⟨a, ha, rfl⟩ | ⟨k, -, hk⟩
    · rw [Option.some.inj (hws.symm.trans ha)]
    · refine absurd ?_ (hids.fresh n hn)
      refine List.mem_flatMap.mpr ⟨ws', List.mem_of_getElem? hk, List.mem_cons_of_mem _ ?_⟩
      exact List.mem_map.mpr ⟨tab, htab, hid⟩
  · rintro rfl
    refine ⟨{ ws with tabs := ws.tabs ++ [.ofLeaf (w.newV4 n) p] }, ?_, rfl, .ofLeaf (w.newV4 n) p,
      List.mem_append_right _ (List.mem_singleton_self _), rfl, List.mem_singleton_self p⟩
    refine List.mem_of_getElem? (i := i) ?_
    rw [List.getElem?_modify, hws]
    simp

end Handler

/-- However the turns of other clients come between the two calls of the request: what it
answers is true exactly if the second call finds the workspace at its index and can spawn, or
can make no tab and the workspace is gone already. -/
theorem createdWhole_iff (w : World) (hw : Function.Injective w.newV4) (m : Shared Process Todo)
    (hm : Serving w m) (name : String) (others : List (Turn Op)) :
    CreatedWhole w name others m ↔
      TabFits w (m.state.sm.createWorkspace w name).2.1 (m.state.sm.createWorkspace w name).2.2
        (betweenCalls w name others m).state.sm := by
  have hids : Identified w (betweenCalls w name others m).state.sm :=
    (inherits_turns _ others).identified hw
      ((inherits_createWorkspace name m.state.sm).identified hw (hm.identified hw))
  unfold CreatedWhole createWorkspaceAmong TabFits createTabLocked
  generalize (betweenCalls w name others m).state.sm = sm at hids ⊢
  dsimp only
  rw [mint_layout]
  have hspawned : sm.mint.spawned = sm.spawned := rfl
  rw [hspawned]
  generalize m.state.sm.createWorkspace w name = made
  obtain ⟨-, id, i⟩ := made
  dsimp only
  split_ifs with hi
  · rw [List.getElem?_eq_none hi]
    exact Iff.rfl
  · have hws := List.getElem?_eq_getElem (Nat.not_le.mp hi)
    rw [hws]
    generalize PtyBridge.spawn w sm.spawned .default none none none true = r
    cases r with
    | error e => exact Iff.rfl
    | ok bridge =>
      exact pushed_iff hids ⟨w.newV4 sm.minted⟩ (Nat.le_succ _) hws id

/-- Surroundings where no child can be spawned. -/
def World.spawnless : World :=
  { World.counting with ptySpawn := fun _ _ _ _ _ => .error "fork failed" }

/-- Another client swaps the new workspace with the first one, and the tab is made there; or
the spawn fails, and the new workspace stays without a tab. -/
theorem not_createdWhole :
    Serving .counting ⟨Process.started (emptyStart .counting), []⟩ ∧
      ¬CreatedWhole .counting "other" [.start (.moveWorkspace 1 0)]
        ⟨Process.started (emptyStart .counting), []⟩ ∧
      Serving .spawnless ⟨Process.started (emptyStart .spawnless), []⟩ ∧
      ¬CreatedWhole .spawnless "other" [] ⟨Process.started (emptyStart .spawnless), []⟩ := by
  exact ⟨⟨_, [], started_emptyStart .counting, rfl⟩, by decide,
    ⟨_, [], started_emptyStart .spawnless, rfl⟩, by decide⟩

/-- Another client makes a workspace meanwhile, which comes behind. -/
theorem createdWhole_behind :
    CreatedWhole .counting "other" [.start (.createWorkspace "more")]
      ⟨Process.started (emptyStart .counting), []⟩ := by
  exact (createdWhole_iff .counting World.counting_injective _
    ⟨_, [], started_emptyStart .counting, rfl⟩ "other" _).mpr (Eq.refl (⟨1⟩ : Uuid))

end Forgetty
