import Forgetty.Session.Arranged
import Forgetty.Session.LockSections
import Forgetty.Session.Subscribe

/-! What is heard of panes: their output and their closing. A call is silent about panes
except for a chunk of output, and for closings. A live pane that is closed, with its tab or
without, leaves the registry and that is told; a workspace that is deleted tells it of all its
leaves, whether their panes are live or not. -/

namespace Forgetty

open Lib

namespace SessionManager

def heard (s : SessionManager) : List (Word PaneId) := s.eventTx.sent.filterMap SessionEvent.word

section Silence

variable {w : World} {s : SessionManager}

theorem heard_send (e : SessionEvent) : (s.send e).heard = s.heard ++ e.word.toList := by
  rw [heard, send, Broadcast.send_sent, List.filterMap_append]
  cases h : e.word <;> simp [h, heard]

theorem heard_send_of_none {e : SessionEvent} (h : e.word = none) : (s.send e).heard = s.heard := by
  rw [heard_send, h]
  simp

theorem heard_sendAll {es : List SessionEvent} (h : ∀ e ∈ es, e.word = none) :
    (s.sendAll es).heard = s.heard := by
  rw [heard, sendAll, Broadcast.sendAll_sent, List.filterMap_append,
    List.filterMap_eq_nil_iff.mpr h, List.append_nil]
  rfl

theorem heard_createByteLogFor (p : PaneId) : (s.createByteLogFor w p).heard = s.heard := by
  unfold createByteLogFor
  split <;> rfl

theorem heard_takePaneOutputRx (p : PaneId) : (s.takePaneOutputRx p).1.heard = s.heard := by
  unfold takePaneOutputRx
  split <;> rfl

theorem heard_spawnDrainTask (p : PaneId) : (s.spawnDrainTask w p).heard = s.heard := by
  rw [spawnDrainTask, heard_takePaneOutputRx, heard_createByteLogFor]

theorem heard_spawnDrainTasks (ps : List PaneId) : (spawnDrainTasks w ps s).heard = s.heard :=
  spawnDrainTasks_same (fun _ p => heard_spawnDrainTask p) ps s

theorem heard_createPane (size : PtySize) (cwd : Option PathBuf) (command : Option (List String))
    (shell : Option String) (loginShell : Bool) :
    (s.createPane w size cwd command shell loginShell).1.heard = s.heard := by
  unfold createPane
  dsimp only
  split
  · rfl
  · rw [heard_spawnDrainTask, heard_send_of_none rfl]
    rfl

theorem heard_createTabWithPaneId (i : ℕ) (cwd : Option PathBuf) (size : PtySize)
    (command : Option (List String)) (p : PaneId) :
    (s.createTabWithPaneId w i cwd size command p).1.heard = s.heard := by
  unfold createTabWithPaneId
  split_ifs
  · rfl
  · split
    · rfl
    · rw [heard_spawnDrainTask, heard_send_of_none rfl, heard_send_of_none rfl]
      rfl

theorem heard_splitAt (caller : String) (p : PaneId) (direction : String) (ratio : F32)
    (size : PtySize) (cwd : Option PathBuf) (q : PaneId) :
    (s.splitAt w caller p direction ratio size cwd q).1.heard = s.heard := by
  unfold splitAt
  split
  · rfl
  · dsimp only
    split
    · rfl
    · rw [heard_spawnDrainTask, heard_send_of_none rfl, heard_send_of_none rfl]
      rfl

theorem heard_splitPaneWithRatioAndPaneId (p : PaneId) (direction : String) (ratio : F32)
    (size : PtySize) (cwd : Option PathBuf) (q : PaneId) :
    (s.splitPaneWithRatioAndPaneId w p direction ratio size cwd q).1.heard = s.heard := by
  unfold splitPaneWithRatioAndPaneId
  split_ifs
  · exact heard_splitAt _ p direction ratio size cwd q
  · rfl

theorem heard_splitPane (p : PaneId) (direction : String) (size : PtySize)
    (cwd : Option PathBuf) : (s.splitPane w p direction size cwd).1.heard = s.heard := by
  unfold splitPane
  split_ifs
  · rw [heard_splitAt]
    rfl
  · rfl

theorem heard_autoSeedDefaultTab (i : ℕ) (size : PtySize) :
    (s.autoSeedDefaultTab w i size).1.heard = s.heard := by
  unfold autoSeedDefaultTab
  split_ifs
  · rfl
  · split
    · rfl
    · dsimp only
      rw [heard_send_of_none rfl, heard_send_of_none rfl]
      rfl

theorem heard_healEmptied (emptied : Option ℕ) : (s.healEmptied w emptied).heard = s.heard := by
  unfold healEmptied
  cases emptied with
  | none => rfl
  | some i =>
    have h := @heard_autoSeedDefaultTab w s i .default
    dsimp only
    split_ifs
    · generalize autoSeedDefaultTab w i .default s = seeded at h ⊢
      obtain ⟨t, r⟩ := seeded
      cases r with
      | error e => exact h
      | ok place => rw [heard_spawnDrainTask, h]
    · rfl

theorem heard_of_arranged {t : SessionManager} (h : Arranged s t) : t.heard = s.heard := by
  obtain ⟨es, htx, hes⟩ := h.events
  have hsent : (s.sendAll es).heard = s.heard := heard_sendAll hes
  rw [← hsent, heard, htx]
  rfl

/-! ### Duplicating -/

theorem heard_duplicateSpawn (size : PtySize) (total : ℕ) (cwds : List (Option PathBuf))
    (acc : List (PaneId × PtyBridge × PathBuf)) :
    (duplicateSpawn w size total cwds acc s).1.heard = s.heard := by
  induction cwds generalizing acc s with
  | nil => rfl
  | cons cwd cwds ih =>
    rw [duplicateSpawn]
    dsimp only
    split
    · rw [ih]
      rfl
    · rfl

theorem heard_duplicateTabs (size : PtySize) (spawned : List (PaneId × PtyBridge × PathBuf)) :
    (duplicateTabs w size spawned s).1.heard = s.heard := by
  induction spawned generalizing s with
  | nil => rfl
  | cons x spawned ih =>
    rw [duplicateTabs]
    exact ih

theorem heard_duplicateCommit (size : PtySize) (dupName : String) (insertAt : ℕ)
    (spawned : List (PaneId × PtyBridge × PathBuf)) :
    (s.duplicateCommit w size dupName insertAt spawned).1.heard = s.heard := by
  unfold duplicateCommit
  dsimp only
  rw [heard_sendAll, heard_send_of_none rfl]
  · exact heard_duplicateTabs size spawned
  · intro e he
    obtain ⟨dt, -, he⟩ := List.mem_flatMap.mp he
    simp only [List.mem_cons, List.not_mem_nil, or_false] at he
    rcases he with rfl | rfl <;> rfl

end Silence

/-! ### Output and closings -/

section Closings

variable {w : World} {s : SessionManager}

theorem heard_processPaneBytes (procCwd : ℕ → Option PathBuf) (alive : Bool) {p : PaneId}
    (bytes : Bytes) (hp : p ∈ s.panes) :
    (s.processPaneBytes procCwd alive p bytes).1.heard = s.heard ++ [.said p] := by
  obtain ⟨pane, hpane⟩ := PMap.exists_get hp
  rw [processPaneBytes, hpane]
  dsimp only
  rw [heard_send]
  split <;> rfl

theorem heard_closePane {p : PaneId} (hp : p ∈ s.panes) :
    (s.closePane w p).1.heard = s.heard ++ [.ended p] := by
  rw [closePane, if_pos hp]
  dsimp only
  rw [heard_healEmptied, heard_send]
  rfl

/-- The live panes of a tab are closed. -/
theorem heard_foldl_closeTabPane {ps : List PaneId} (hd : ps.Nodup) :
    (ps.foldl closeTabPane s).heard = s.heard ++ (ps.filter (· ∈ s.panes)).map .ended := by
  induction ps generalizing s with
  | nil => simp
  | cons p ps ih =>
    obtain ⟨hp, hd⟩ := List.nodup_cons.mp hd
    have hrest : ps.filter (· ∈ (closeTabPane s p).panes) = ps.filter (· ∈ s.panes) := by
      refine List.filter_congr fun q hq => ?_
      have hne : q ≠ p := fun heq => hp (heq ▸ hq)
      simp [unregisters_closeTabPane.panes, PMap.mem_erase, hne]
    rw [List.foldl_cons, ih hd, hrest]
    unfold closeTabPane
    split_ifs with hlive
    · rw [heard_send, List.filter_cons_of_pos (by simpa using hlive), List.map_cons,
        List.append_assoc]
      rfl
    · rw [List.filter_cons_of_neg (by simpa using hlive)]
      rfl

theorem heard_closeTab {tabId : Uuid} {i j : ℕ} (hfind : s.findTab tabId = some (i, j))
    {ws : SessionWorkspace} {tab : SessionTab} (hws : s.layout.workspaces[i]? = some ws)
    (htab : ws.tabs[j]? = some tab) (hd : tab.paneTree.leaves.Nodup) :
    (s.closeTab w tabId).1.heard =
      s.heard ++ (tab.paneTree.leaves.filter (· ∈ s.panes)).map .ended := by
  rw [closeTab, hfind]
  simp only [hws, Option.bind_some, htab, Option.map_some, Option.getD_some, collectPaneIds_eq,
    List.nil_append]
  rw [heard_healEmptied, heard_send_of_none rfl, heard_foldl_closeTabPane hd]
  rfl

/-- All panes of a deleted workspace are told to be closed. -/
theorem heard_foldl_deletePane (ps : List PaneId) :
    (ps.foldl deletePane s).heard = s.heard ++ ps.map .ended := by
  induction ps generalizing s with
  | nil => simp
  | cons p ps ih =>
    rw [List.foldl_cons, ih, deletePane, heard_send, List.map_cons, List.append_assoc]
    rfl

theorem heard_deleteWorkspace {i : ℕ} {ws : SessionWorkspace}
    (hws : s.layout.workspaces[i]? = some ws) (hlen : ¬s.layout.workspaces.length ≤ 1) :
    (s.deleteWorkspace i).1.heard = s.heard ++ ws.leaves.map .ended := by
  rw [deleteWorkspace, hws]
  dsimp only
  rw [if_neg hlen, heard_send_of_none rfl, foldl_collectPaneIds, List.nil_append]
  exact heard_foldl_deletePane _

end Closings

/-! ### Calls -/

/-- The panes `new` come, and a live pane leaves exactly if its closing is told. What is told
is final in itself and about leaves of the layout. -/
structure Passes (new : List PaneId) (es : List (Word PaneId)) (s t : SessionManager) : Prop where
  heard : t.heard = s.heard ++ es
  final : Final es
  known : ∀ e ∈ es, e.key ∈ s.layout.leaves
  panes : ∀ p, p ∈ t.panes ↔ (p ∈ s.panes ∧ .ended p ∉ es) ∨ p ∈ new
  leaves : ∀ p ∈ t.layout.leaves, p ∈ s.layout.leaves ∨ p ∈ new
  minted : s.minted ≤ t.minted

/-- A call that deletes a workspace finds its panes live. -/
def EndsLive (s : SessionManager) : Op → Prop
  | .deleteWorkspace i => ∀ p ∈ s.ended (.op (.deleteWorkspace i)), p ∈ s.panes
  | _ => True

section Calls

variable {w : World} {s t : SessionManager} {gone new : List PaneId}

/-- What leaves the registry is told. -/
theorem Effect.passes (he : Effect gone new s t) {es : List (Word PaneId)}
    (hheard : t.heard = s.heard ++ es) (hfinal : Final es)
    (hknown : ∀ e ∈ es, e.key ∈ s.layout.leaves)
    (hgone : ∀ p ∈ s.panes, .ended p ∈ es ↔ p ∈ gone) : Passes new es s t where
  heard := hheard
  final := hfinal
  known := hknown
  panes p := by
    rw [he.keys]
    refine or_congr_left (and_congr_right fun hp => ?_)
    rw [hgone p hp]
  leaves p hp := by
    rw [he.leaves.mem_iff, List.mem_append, List.mem_filter] at hp
    exact hp.imp_left And.left
  minted := he.minted

theorem Effect.passes_silent (he : Effect [] new s t) (hheard : t.heard = s.heard) :
    Passes new [] s t :=
  he.passes (by simpa using hheard) final_nil (by simp) (by simp)

/-- Panes that leave and are told to be closed, the live ones or all of them. -/
theorem Effect.passes_ended (he : Effect gone new s t) {ps : List PaneId}
    (hheard : t.heard = s.heard ++ ps.map .ended) (hd : ps.Nodup)
    (hleaf : ∀ p ∈ ps, p ∈ s.layout.leaves) (hgone : ∀ p ∈ s.panes, p ∈ ps ↔ p ∈ gone) :
    Passes new (ps.map .ended) s t := by
  refine he.passes hheard (final_map_ended.mpr hd) (fun e hmem => ?_) fun p hp => ?_
  · obtain ⟨p, hp, rfl⟩ := List.mem_map.mp hmem
    exact hleaf p hp
  · rw [mem_map_ended]
    exact hgone p hp

theorem passes_refl (s : SessionManager) : Passes [] [] s s := (Effect.refl s).passes_silent rfl

/-- The drain tasks that a call spawns tell nothing. -/
theorem Passes.of_drained {es : List (Word PaneId)} {ps : List PaneId}
    (h : Passes new es s (spawnDrainTasks w ps t)) : Passes new es s t where
  heard := by
    rw [← heard_spawnDrainTasks ps]
    exact h.heard
  final := h.final
  known := h.known
  panes p := by
    rw [← h.panes, spawnDrainTasks_mem_panes]
  leaves p hp := by
    have hleaf := h.leaves p
    rw [spawnDrainTasks_layout] at hleaf
    exact hleaf hp
  minted := by
    have hm := h.minted
    rwa [spawnDrainTasks_minted] at hm

/-- The calls that put nothing out and close nothing. -/
def Hushed : Op → Prop
  | .closePane _ | .closeTab _ | .deleteWorkspace _ | .duplicateWorkspace .. | .processPaneBytes .. =>
    False
  | _ => True

theorem heard_apply_of_hushed {op : Op} (h : Hushed op) : (s.apply w op).heard = s.heard := by
  cases op with
  | createPane size cwd command shell loginShell =>
    exact heard_createPane size cwd command shell loginShell
  | createTab i cwd size command => exact @heard_createTabWithPaneId w s.mint i cwd size command _
  | splitPane p direction size cwd => exact heard_splitPane p direction size cwd
  | splitPaneWithRatio p direction ratio size cwd =>
    exact @heard_splitPaneWithRatioAndPaneId w s.mint p direction ratio size cwd _
  | _ => first | exact heard_of_arranged (arranged_apply trivial) | exact absurd h id

theorem passes_closePane (h : Tracked w s) (p : PaneId) :
    ∃ new es, Passes new es s (s.closePane w p).1 ∧ Minted w new s (s.closePane w p).1 ∧
      ∀ e ∈ es, e.key ∈ s.panes := by
  by_cases hp : p ∈ s.panes
  · have hleaf := h.live_leaf p hp
    have hheard : (s.closePane w p).1.heard = s.heard ++ [p].map .ended := heard_closePane hp
    by_cases hsplit : SplitLeaf p s
    · -- the leaf stays in the tree of its tab
      rw [closePane_of_splitLeaf w h.leaves_nodup hp hsplit] at hheard ⊢
      refine ⟨[], [.ended p], ⟨hheard, final_singleton _, by simpa using hleaf, fun q => ?_,
        fun q hq => Or.inl hq, le_rfl⟩, .nil w s _, by simpa using hp⟩
      rw [send_panes, unregister_panes, PMap.mem_erase]
      simp [and_comm]
    · obtain ⟨new, he, hm⟩ := effect_closePane_of_live w h.leaves_nodup hleaf h.workspaces hp hsplit
      refine ⟨new, _, he.passes_ended hheard (List.nodup_singleton p) ?_ (by simp), hm, ?_⟩
      · simpa using hleaf
      · simpa using hp
  · rw [closePane, if_neg hp]
    exact ⟨[], [], passes_refl s, .nil w s s, by simp⟩

theorem passes_closeTab (h : Tracked w s) (tabId : Uuid) :
    ∃ new es, Passes new es s (s.closeTab w tabId).1 ∧ Minted w new s (s.closeTab w tabId).1 ∧
      ∀ e ∈ es, e.key ∈ s.panes := by
  cases hfind : s.findTab tabId with
  | none =>
    rw [closeTab, hfind]
    exact ⟨[], [], passes_refl s, .nil w s s, by simp⟩
  | some place =>
    obtain ⟨i, j⟩ := place
    obtain ⟨ws, tab, hws, htab, -⟩ := findTab_spec hfind
    obtain ⟨new, he, hm⟩ := effect_closeTab_of_found w h.leaves_nodup hfind hws htab
    have hmem := List.mem_of_getElem? hws
    have hd : ws.leaves.Nodup := (List.nodup_flatMap.mp h.leaves_nodup).1 ws hmem
    have hd := (List.nodup_flatMap.mp hd).1 tab (List.mem_of_getElem? htab)
    refine ⟨new, _, he.passes_ended (heard_closeTab hfind hws htab hd) (hd.filter _) ?_ ?_, hm, ?_⟩
    · intro p hp
      have hleaf : p ∈ ws.leaves := List.mem_flatMap.mpr
        ⟨tab, List.mem_of_getElem? htab, List.mem_of_mem_filter hp⟩
      exact List.mem_flatMap.mpr ⟨ws, hmem, hleaf⟩
    · intro p hp
      simp [List.mem_filter, hp]
    · intro e he
      obtain ⟨p, hp, rfl⟩ := List.mem_map.mp he
      simpa using (List.mem_filter.mp hp).2

/-- All leaves of a deleted workspace are told to be closed. -/
theorem passes_deleteWorkspace (h : Tracked w s) (i : ℕ) :
    Passes [] ((s.ended (.op (.deleteWorkspace i))).map .ended) s (s.deleteWorkspace i).1 := by
  by_cases hlen : s.layout.workspaces.length ≤ 1
  · have hrefused : (s.deleteWorkspace i).1 = s := by
      unfold deleteWorkspace
      split
      · rfl
      · rw [if_pos hlen]
    rw [hrefused, ended, if_neg (by omega)]
    exact passes_refl s
  · cases hws : s.layout.workspaces[i]? with
    | none =>
      rw [deleteWorkspace, hws, ended, if_pos (by omega), hws]
      exact passes_refl s
    | some ws =>
      rw [ended, if_pos (by omega), hws]
      have hmem := List.mem_of_getElem? hws
      exact (effect_deleteWorkspace_of_get h.leaves_nodup hws hlen).passes_ended
        (heard_deleteWorkspace hws hlen) ((List.nodup_flatMap.mp h.leaves_nodup).1 ws hmem)
        (fun p hp => List.mem_flatMap.mpr ⟨ws, hmem, hp⟩) fun p _ => Iff.rfl

theorem passes_processPaneBytes (h : Tracked w s) (procCwd : ℕ → Option PathBuf) (alive : Bool)
    (p : PaneId) (bytes : Bytes) :
    ∃ es, Passes [] es s (s.processPaneBytes procCwd alive p bytes).1 ∧ ∀ e ∈ es, e.key ∈ s.panes := by
  have he := effect_processPaneBytes procCwd alive p bytes s
  by_cases hp : p ∈ s.panes
  · refine ⟨[.said p], he.passes (heard_processPaneBytes procCwd alive bytes hp)
      (final_singleton _) ?_ (by simp), by simpa using hp⟩
    simpa using h.live_leaf p hp
  · rw [processPaneBytes_of_gone hp]
    exact ⟨[], passes_refl s, by simp⟩

/-- What a call tells is about live panes, unless it deletes a workspace. -/
theorem passes_apply (hw : Function.Injective w.newV4) (h : Tracked w s) {op : Op}
    (hdup : ∀ i name size, op ≠ .duplicateWorkspace i name size) :
    ∃ new es, Passes new es s (s.apply w op) ∧ Minted w new s (s.apply w op) ∧
      ((∀ e ∈ es, e.key ∈ s.panes) ↔ EndsLive s op) := by
  by_cases hhushed : Hushed op
  · obtain ⟨new, he, hm⟩ : ∃ new, Effect [] new s (s.apply w op) ∧ Minted w new s (s.apply w op) := by
      refine effect_of_not_closing hw h ?_ ?_ ?_ <;> (rintro _ rfl; exact hhushed)
    refine ⟨new, [], he.passes_silent (heard_apply_of_hushed hhushed), hm, ?_⟩
    have hlive : EndsLive s op := by
      cases op <;> trivial
    simp [hlive]
  · cases op with
    | closePane p =>
      obtain ⟨new, es, hp, hm, hlive⟩ := passes_closePane h p
      exact ⟨new, es, hp, hm, iff_of_true hlive trivial⟩
    | closeTab tabId =>
      obtain ⟨new, es, hp, hm, hlive⟩ := passes_closeTab h tabId
      exact ⟨new, es, hp, hm, iff_of_true hlive trivial⟩
    | deleteWorkspace i =>
      refine ⟨[], _, passes_deleteWorkspace h i, .nil w s _, ?_⟩
      simp [EndsLive]
    | processPaneBytes procCwd alive p bytes =>
      obtain ⟨es, hp, hlive⟩ := passes_processPaneBytes h procCwd alive p bytes
      exact ⟨[], es, hp, .nil w s _, iff_of_true hlive trivial⟩
    | duplicateWorkspace i name size => exact absurd rfl (hdup i name size)
    | _ => exact absurd trivial hhushed

end Calls

end SessionManager

end Forgetty
