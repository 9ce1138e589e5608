import Forgetty.Session.Ids
import Forgetty.Socket.Handlers
import Forgetty.Lib.Swap

/-! What the calls on workspaces do, each in one statement: the new list, the new
active index, and the events that are sent. -/

namespace Forgetty

open Lib

/-- What a workspace is known by. -/
def SessionWorkspace.heading (ws : SessionWorkspace) : Uuid × String × Option String :=
  (ws.id, ws.name, ws.color)

/-- The events that only tell of tabs and panes that come and go. -/
def SessionEvent.OfTabs : SessionEvent → Prop
  | .paneCreated _ | .paneClosed _ | .tabCreated .. | .tabClosed .. => True
  | _ => False

namespace SessionManager

/-- The workspaces and the active index after, and what was sent in between. -/
structure Changed (workspaces : List SessionWorkspace) (active : ℕ) (es : List SessionEvent)
    (s t : SessionManager) : Prop where
  workspaces : t.layout.workspaces = workspaces
  active : t.layout.activeWorkspace = active
  sent : t.eventTx.sent = s.eventTx.sent ++ es

/-- Nothing of the layout changed and nothing was sent. -/
abbrev Unchanged (s t : SessionManager) : Prop :=
  Changed s.layout.workspaces s.layout.activeWorkspace [] s t

section Rules

variable {s t u : SessionManager} {wss wss' : List SessionWorkspace} {i i' : ℕ}
  {es es' : List SessionEvent}

theorem Unchanged.of_eq (hl : t.layout = s.layout) (hs : t.eventTx.sent = s.eventTx.sent) :
    Unchanged s t :=
  ⟨congrArg SessionLayout.workspaces hl, congrArg SessionLayout.activeWorkspace hl, by
    rw [hs, List.append_nil]⟩

theorem Unchanged.refl (s : SessionManager) : Unchanged s s := .of_eq rfl rfl

theorem Changed.trans (h : Changed wss i es s t) (h' : Changed wss' i' es' t u) :
    Changed wss' i' (es ++ es') s u :=
  ⟨h'.workspaces, h'.active, by rw [h'.sent, h.sent, List.append_assoc]⟩

theorem Changed.trans_unchanged (h : Changed wss i es s t) (h' : Unchanged t u) :
    Changed wss i es s u :=
  ⟨h'.workspaces.trans h.workspaces, h'.active.trans h.active, by
    rw [h'.sent, h.sent, List.append_nil]⟩

theorem Unchanged.trans_changed (h : Unchanged s t) (h' : Changed wss i es t u) :
    Changed wss i es s u := h.trans h'

end Rules

section Spawns

variable {w : World} {s : SessionManager}

theorem unchanged_spawnDrainTask (p : PaneId) (s : SessionManager) :
    Unchanged s (s.spawnDrainTask w p) := by
  refine .of_eq (spawnDrainTask_layout w p s) ?_
  unfold spawnDrainTask takePaneOutputRx createByteLogFor
  dsimp only
  split <;> split <;> rfl

theorem unchanged_foldl_spawnDrainTask (dupTabs : List DuplicatedTab) (s : SessionManager) :
    Unchanged s (dupTabs.foldl (fun sm dt => sm.spawnDrainTask w dt.paneId) s) := by
  induction dupTabs generalizing s with
  | nil => exact .refl s
  | cons dt dupTabs ih => exact (unchanged_spawnDrainTask dt.paneId s).trans_unchanged (ih _)

end Spawns

/-! ### Calls on one workspace -/

section Calls

variable {s : SessionManager} {i j : ℕ} {ws : SessionWorkspace}

/-- The workspaces stay; an index out of bounds is refused. -/
theorem changed_setActiveWorkspace (i : ℕ) (s : SessionManager) :
    ∃ active es, (∀ e ∈ es, e = .activeWorkspaceChanged i) ∧
      (i < s.layout.workspaces.length → active = i) ∧
      Changed s.layout.workspaces active es s (s.setActiveWorkspace i).1 := by
  unfold setActiveWorkspace
  split_ifs with hi hactive
  · exact ⟨_, [], nofun, fun h => absurd h (Nat.not_lt.mpr hi), Unchanged.refl s⟩
  · exact ⟨_, [], nofun, fun _ => hactive, Unchanged.refl s⟩
  · exact ⟨i, [.activeWorkspaceChanged i], fun e he => List.mem_singleton.mp he, fun _ => rfl, rfl,
      rfl, rfl⟩

/-- A new name is stored and told; the name a workspace has already is not. -/
theorem changed_renameWorkspace (name : String) (hi : s.layout.workspaces[i]? = some ws) :
    (s.renameWorkspace i name).2 = .ok () ∧
      Changed (s.layout.workspaces.modify i fun ws => { ws with name := name })
        s.layout.activeWorkspace
        (if ws.name = name then [] else [.workspaceRenamed i ws.id name]) s
        (s.renameWorkspace i name).1 := by
  rw [renameWorkspace, hi]
  dsimp only
  split_ifs with hname
  · refine ⟨rfl, ?_, rfl, (List.append_nil _).symm⟩
    obtain ⟨pre, post, hs, -, hmod, -⟩ := exists_split hi
    rw [hmod, hs, ← hname]
  · exact ⟨rfl, rfl, rfl, rfl⟩

theorem changed_setWorkspaceColor (color : Option String) (hi : s.layout.workspaces[i]? = some ws) :
    (s.setWorkspaceColor i color).2 = .ok () ∧
      Changed (s.layout.workspaces.modify i fun ws => { ws with color := color })
        s.layout.activeWorkspace
        (if ws.color = color then [] else [.workspaceColorChanged i ws.id color]) s
        (s.setWorkspaceColor i color).1 := by
  rw [setWorkspaceColor, hi]
  dsimp only
  split_ifs with hcolor
  · refine ⟨rfl, ?_, rfl, (List.append_nil _).symm⟩
    obtain ⟨pre, post, hs, -, hmod, -⟩ := exists_split hi
    rw [hmod, hs, ← hcolor]
  · exact ⟨rfl, rfl, rfl, rfl⟩

/-- Two different workspaces exchange their places. -/
theorem moveWorkspace_of_ne {fromWs toWs : SessionWorkspace}
    (hi : s.layout.workspaces[i]? = some fromWs) (hj : s.layout.workspaces[j]? = some toWs)
    (hne : i ≠ j) :
    s.moveWorkspace i j =
      (((s.setWorkspaces (swapIdx s.layout.workspaces i j)).setActive
        (follow i j s.layout.activeWorkspace)).send
          (.workspacesReordered i j fromWs.id toWs.id), .ok ()) := by
  rw [moveWorkspace, swapIdx_of_some hi hj]
  simp only [hi, hj]
  exact if_neg hne

/-- Otherwise nothing happens. -/
theorem moveWorkspace_eq_self
    (h : ¬(i < s.layout.workspaces.length ∧ j < s.layout.workspaces.length ∧ i ≠ j)) :
    (s.moveWorkspace i j).1 = s := by
  rw [moveWorkspace]
  dsimp only
  split
  · rfl
  · rfl
  · rename_i fromWs toWs hi hj
    obtain ⟨hi, -⟩ := List.getElem?_eq_some_iff.mp hi
    obtain ⟨hj, -⟩ := List.getElem?_eq_some_iff.mp hj
    rw [if_pos (not_not.mp fun hne => h ⟨hi, hj, hne⟩)]

/-- In either case the workspaces are the exchanged ones. -/
theorem changed_moveWorkspace (i j : ℕ) (s : SessionManager) :
    ∃ active es, (∀ e ∈ es, ∃ u v, e = .workspacesReordered i j u v) ∧
      Changed (swapIdx s.layout.workspaces i j) active es s (s.moveWorkspace i j).1 := by
  by_cases h : i < s.layout.workspaces.length ∧ j < s.layout.workspaces.length ∧ i ≠ j
  · obtain ⟨hi, hj, hne⟩ := h
    rw [moveWorkspace_of_ne (List.getElem?_eq_getElem hi) (List.getElem?_eq_getElem hj) hne]
    exact ⟨_, [_], fun e he => ⟨_, _, List.mem_singleton.mp he⟩, rfl, rfl, rfl⟩
  · have hsame : swapIdx s.layout.workspaces i j = s.layout.workspaces := by
      by_cases hij : i = j
      · rw [hij, swapIdx_self]
      · exact swapIdx_of_not_lt fun h' => h ⟨h'.1, h'.2, hij⟩
    rw [moveWorkspace_eq_self h, hsame]
    exact ⟨_, [], nofun, Unchanged.refl s⟩

theorem foldl_deletePane_sent (ps : List PaneId) (s : SessionManager) :
    (ps.foldl deletePane s).eventTx.sent = s.eventTx.sent ++ ps.map .paneClosed := by
  induction ps generalizing s with
  | nil => exact (List.append_nil _).symm
  | cons p ps ih =>
    rw [List.foldl_cons, ih, List.map_cons]
    exact List.append_assoc _ _ _

/-- The last workspace stays. -/
theorem deleteWorkspace_refused
    (h : s.layout.workspaces.length ≤ i ∨ s.layout.workspaces.length ≤ 1) :
    ∃ e, s.deleteWorkspace i = (s, .error e) := by
  unfold deleteWorkspace
  split
  · exact ⟨_, rfl⟩
  · rename_i ws hws
    obtain ⟨hi, -⟩ := List.getElem?_eq_some_iff.mp hws
    rw [if_pos (h.resolve_left (Nat.not_le.mpr hi))]
    exact ⟨_, rfl⟩

/-- The workspace goes with its panes; the active index follows its workspace. -/
theorem changed_deleteWorkspace (hi : s.layout.workspaces[i]? = some ws)
    (hlen : 1 < s.layout.workspaces.length) :
    (s.deleteWorkspace i).2 = .ok () ∧
      Changed (s.layout.workspaces.eraseIdx i)
        (if i < s.layout.activeWorkspace then s.layout.activeWorkspace - 1
        else if s.layout.workspaces.length - 1 ≤ s.layout.activeWorkspace then
          s.layout.workspaces.length - 2
        else s.layout.activeWorkspace)
        (ws.leaves.map .paneClosed ++ [.workspaceDeleted i ws.id]) s (s.deleteWorkspace i).1 := by
  obtain ⟨hlt, -⟩ := List.getElem?_eq_some_iff.mp hi
  have hu := unregisters_deletePane
  have hlength := List.length_eraseIdx_of_lt hlt
  rw [deleteWorkspace, hi]
  dsimp only
  rw [if_neg (Nat.not_le.mpr hlen)]
  refine ⟨rfl, ?_, ?_, ?_⟩
  · simp only [send_layout, setActive_workspaces, setWorkspaces_workspaces, hu.foldl_layout]
  · simp only [send_layout, setActive_activeWorkspace, setWorkspaces_workspaces,
      setWorkspaces_activeWorkspace, hu.foldl_layout, hlength]
    split_ifs <;> omega
  · rw [foldl_collectPaneIds, List.nil_append, ← List.append_assoc]
    exact congrArg (· ++ _) (foldl_deletePane_sent ws.leaves s)

end Calls

/-! ### Calls that make tabs -/

section Tabs

variable {w : World} {s : SessionManager} {i : ℕ}

/-- A new tab comes last in its workspace. -/
def addTab (tabId : Uuid) (p : PaneId) (ws : SessionWorkspace) : SessionWorkspace :=
  { ws with tabs := ws.tabs ++ [.ofLeaf tabId p] }

/-- Either a tab was made and told, or nothing changed. -/
theorem changed_createTab (cwd : Option PathBuf) (size : PtySize) (command : Option (List String)) :
    (∃ e, (s.createTab w i cwd size command).2 = .error e ∧
        Unchanged s (s.createTab w i cwd size command).1) ∨
      ∃ p tabId, (s.createTab w i cwd size command).2 = .ok (p, tabId) ∧
        i < s.layout.workspaces.length ∧
        Changed (s.layout.workspaces.modify i (addTab tabId p)) s.layout.activeWorkspace
          [.paneCreated p, .tabCreated i tabId p] s (s.createTab w i cwd size command).1 := by
  unfold createTab createTabWithPaneId
  split_ifs with hi
  · exact Or.inl ⟨_, rfl, rfl, rfl, (List.append_nil _).symm⟩
  · split
    · exact Or.inl ⟨_, rfl, rfl, rfl, (List.append_nil _).symm⟩
    · refine Or.inr ⟨_, _, rfl, Nat.not_le.mp hi, ?_⟩
      refine .trans_unchanged ?_ (unchanged_spawnDrainTask _ _)
      exact ⟨rfl, rfl, List.append_assoc _ _ _⟩

theorem changed_autoSeedDefaultTab (size : PtySize) :
    (∃ e, (s.autoSeedDefaultTab w i size).2 = .error e ∧
        Unchanged s (s.autoSeedDefaultTab w i size).1) ∨
      ∃ p tabId, (s.autoSeedDefaultTab w i size).2 = .ok (p, tabId) ∧
        i < s.layout.workspaces.length ∧
        Changed (s.layout.workspaces.modify i fun ws =>
            { addTab tabId p ws with activeTab := 0 }) s.layout.activeWorkspace
          [.paneCreated p, .tabCreated i tabId p] s (s.autoSeedDefaultTab w i size).1 := by
  unfold autoSeedDefaultTab
  split_ifs with hi
  · exact Or.inl ⟨_, rfl, rfl, rfl, (List.append_nil _).symm⟩
  · split
    · exact Or.inl ⟨_, rfl, rfl, rfl, (List.append_nil _).symm⟩
    · refine Or.inr ⟨_, _, rfl, Nat.not_le.mp hi, ?_, rfl, List.append_assoc _ _ _⟩
      exact List.modify_modify_eq _ _ _ _

/-- What a duplication that is accepted leaves: a copy behind its source, under an id
of its own and with a tab for every tab of the source. -/
structure Duplicated (w : World) (i : ℕ) (source : SessionWorkspace) (id : Uuid) (insertAt : ℕ)
    (dupTabs : List DuplicatedTab) (s t : SessionManager) : Prop where
  minted : ∃ n, s.minted ≤ n ∧ id = w.newV4 n
  insertAt : insertAt = i + 1
  length : dupTabs.length = source.tabs.length
  changed : Changed
    (s.layout.workspaces.insertIdx (i + 1)
      { id := id
        name := s!"{source.name} (copy)"
        tabs := dupTabs.map fun dt => .ofLeaf dt.tabId dt.paneId
        activeTab := 0
        color := none })
    (if i + 1 ≤ s.layout.activeWorkspace then s.layout.activeWorkspace + 1
      else s.layout.activeWorkspace)
    (.workspaceCreated (i + 1) id s!"{source.name} (copy)" :: dupTabs.flatMap fun dt =>
      [.paneCreated dt.paneId, .tabCreated (i + 1) dt.tabId dt.paneId]) s t

/-- A duplication tells of the copy, and of a pane and a tab for each of its tabs. -/
theorem mem_duplicated_sent {id : Uuid} {name : String} {dupTabs : List DuplicatedTab}
    {e : SessionEvent} (h : e ∈ SessionEvent.workspaceCreated i id name :: dupTabs.flatMap fun dt =>
      [SessionEvent.paneCreated dt.paneId, .tabCreated i dt.tabId dt.paneId]) :
    e = .workspaceCreated i id name ∨
      ∃ dt ∈ dupTabs, e = .paneCreated dt.paneId ∨ e = .tabCreated i dt.tabId dt.paneId := by
  rcases List.mem_cons.mp h with h | h
  · exact Or.inl h
  · obtain ⟨dt, hdt, he⟩ := List.mem_flatMap.mp h
    simp only [List.mem_cons, List.not_mem_nil, or_false] at he
    exact Or.inr ⟨dt, hdt, he⟩

theorem duplicateSpawn_unchanged (size : PtySize) (total : ℕ) (cwds : List (Option PathBuf))
    (spawned : List (PaneId × PtyBridge × PathBuf)) (s : SessionManager) :
    Unchanged s (duplicateSpawn w size total cwds spawned s).1 ∧
      ∀ out, (duplicateSpawn w size total cwds spawned s).2 = .ok out →
        out.length = spawned.length + cwds.length := by
  induction cwds generalizing spawned s with
  | nil =>
    refine ⟨.refl s, fun out hout => ?_⟩
    obtain rfl := Except.ok.inj hout
    rfl
  | cons cwd cwds ih =>
    rw [duplicateSpawn]
    dsimp only
    split
    · obtain ⟨hu, hlen⟩ := ih (spawned ++ [_]) s.mint.countSpawn
      have h : Unchanged s s.mint.countSpawn := .of_eq rfl rfl
      refine ⟨h.trans_unchanged hu, fun out hout => ?_⟩
      rw [hlen out hout, List.length_append, List.length_singleton, List.length_cons]
      omega
    · exact ⟨.of_eq rfl rfl, fun out hout => by cases hout⟩

theorem duplicateTabs_tabs (size : PtySize) (spawned : List (PaneId × PtyBridge × PathBuf))
    (s : SessionManager) :
    (duplicateTabs w size spawned s).2.1 =
        (duplicateTabs w size spawned s).2.2.map (fun dt => .ofLeaf dt.tabId dt.paneId) ∧
      (duplicateTabs w size spawned s).2.2.length = spawned.length ∧
      Unchanged s (duplicateTabs w size spawned s).1 := by
  induction spawned generalizing s with
  | nil => exact ⟨rfl, rfl, .refl s⟩
  | cons x spawned ih =>
    obtain ⟨p, bridge, cwd⟩ := x
    obtain ⟨htabs, hlen, hu⟩ := ih (s.registerPane (.spawned p bridge cwd size)).mint
    rw [duplicateTabs]
    dsimp only
    have h : Unchanged s (s.registerPane (.spawned p bridge cwd size)).mint := .of_eq rfl rfl
    refine ⟨?_, ?_, h.trans_unchanged hu⟩
    · rw [htabs, List.map_cons]
    · rw [List.length_cons, List.length_cons, hlen]

/-- The copy is inserted, at the end at the latest, and the active workspace is shifted. -/
theorem changed_duplicateCommit (size : PtySize) (dupName : String) (insertAt : ℕ)
    (spawned : List (PaneId × PtyBridge × PathBuf)) (s : SessionManager) :
    ∃ dupTabs, (s.duplicateCommit w size dupName insertAt spawned).2 =
        (w.newV4 s.minted, min insertAt s.layout.workspaces.length, dupTabs) ∧
      dupTabs.length = spawned.length ∧
      Changed
        (s.layout.workspaces.insertIdx (min insertAt s.layout.workspaces.length)
          { id := w.newV4 s.minted
            name := dupName
            tabs := dupTabs.map fun dt => .ofLeaf dt.tabId dt.paneId
            activeTab := 0
            color := none })
        (if min insertAt s.layout.workspaces.length ≤ s.layout.activeWorkspace then
            s.layout.activeWorkspace + 1
          else s.layout.activeWorkspace)
        (.workspaceCreated (min insertAt s.layout.workspaces.length) (w.newV4 s.minted) dupName ::
          dupTabs.flatMap fun dt => [.paneCreated dt.paneId,
            .tabCreated (min insertAt s.layout.workspaces.length) dt.tabId dt.paneId])
        s (s.duplicateCommit w size dupName insertAt spawned).1 := by
  obtain ⟨htabs, hdup, hu⟩ := @duplicateTabs_tabs w size spawned s.mint
  refine ⟨_, rfl, hdup, ?_⟩
  rw [duplicateCommit]
  dsimp only
  rw [htabs, mint_layout]
  refine ⟨?_, ?_, ?_⟩
  · rw [sendAll_layout, send_layout, setActive_workspaces, setWorkspaces_workspaces, hu.workspaces,
      mint_layout]
  · rw [sendAll_layout, send_layout, setActive_activeWorkspace, setWorkspaces_activeWorkspace,
      hu.active, mint_layout]
  · have hsent : (duplicateTabs w size spawned s.mint).1.eventTx.sent = s.eventTx.sent :=
      hu.sent.trans (List.append_nil _)
    show (duplicateTabs w size spawned s.mint).1.eventTx.sent ++ [_] ++ _ = _
    rw [hsent, List.append_assoc, List.singleton_append]

theorem changed_duplicateWorkspace (size : PtySize) {source : SessionWorkspace}
    (hi : s.layout.workspaces[i]? = some source) :
    (∃ e, (s.duplicateWorkspace w i none size).2 = .error e ∧
        Unchanged s (s.duplicateWorkspace w i none size).1) ∨
      ∃ id insertAt dupTabs, (s.duplicateWorkspace w i none size).2 = .ok (id, insertAt, dupTabs) ∧
        Duplicated w i source id insertAt dupTabs s (s.duplicateWorkspace w i none size).1 := by
  obtain ⟨hlt, -⟩ := List.getElem?_eq_some_iff.mp hi
  unfold duplicateWorkspace
  rw [duplicateSnapshot, hi]
  dsimp only [Option.getD_none]
  generalize hc : source.tabs.map _ = cwds
  have hlen : cwds.length = source.tabs.length := by rw [← hc, List.length_map]
  obtain ⟨hspawn, hout⟩ := @duplicateSpawn_unchanged w size cwds.length cwds [] s
  have hminted := (@inherits_duplicateSpawn w size cwds.length cwds [] s).minted
  split
  · rename_i t e heq
    rw [heq] at hspawn
    exact Or.inl ⟨e, rfl, hspawn⟩
  · rename_i t spawned heq
    rw [heq] at hspawn hout hminted
    obtain ⟨dupTabs, hanswer, hdup, hcommit⟩ :=
      @changed_duplicateCommit w size s!"{source.name} (copy)" (i + 1) spawned t
    have hat : min (i + 1) t.layout.workspaces.length = i + 1 := by
      rw [hspawn.workspaces]
      omega
    rw [hat, hspawn.workspaces, hspawn.active] at hcommit
    rw [hat] at hanswer
    refine Or.inr ⟨_, _, _, congrArg Except.ok hanswer, ⟨t.minted, hminted, rfl⟩, rfl, ?_, ?_⟩
    · exact hdup.trans ((hout _ rfl).trans (by rw [List.length_nil, Nat.zero_add, hlen]))
    · exact (hspawn.trans_changed hcommit).trans_unchanged (unchanged_foldl_spawnDrainTask _ _)

/-- A workspace without tabs. -/
def emptyWorkspace (id : Uuid) (name : String) : SessionWorkspace where
  id := id
  name := name
  tabs := []
  activeTab := 0
  color := none

/-- The new workspace comes last. It stays without a tab when the second call fails. -/
theorem changed_createWorkspaceRpc (w : World) (name : String) (s : SessionManager) :
    (∃ e, (createWorkspaceRpc w name s).2 = .error e ∧
        Changed (s.layout.workspaces ++ [emptyWorkspace (w.newV4 s.minted) name])
          s.layout.activeWorkspace
          [.workspaceCreated s.layout.workspaces.length (w.newV4 s.minted) name] s
          (createWorkspaceRpc w name s).1) ∨
      ∃ p tabId, (createWorkspaceRpc w name s).2 =
          .ok (w.newV4 s.minted, s.layout.workspaces.length, p, tabId) ∧
        Changed (s.layout.workspaces ++ [addTab tabId p (emptyWorkspace (w.newV4 s.minted) name)])
          s.layout.activeWorkspace
          [.workspaceCreated s.layout.workspaces.length (w.newV4 s.minted) name, .paneCreated p,
            .tabCreated s.layout.workspaces.length tabId p] s
          (createWorkspaceRpc w name s).1 := by
  have hidx : (s.createWorkspace w name).2.2 = s.layout.workspaces.length := by
    show (s.layout.workspaces ++ [_]).length - 1 = _
    rw [List.length_append, List.length_singleton, Nat.add_sub_cancel]
  have hmade : Changed (s.layout.workspaces ++ [emptyWorkspace (w.newV4 s.minted) name])
      s.layout.activeWorkspace
      [.workspaceCreated s.layout.workspaces.length (w.newV4 s.minted) name] s
      (s.createWorkspace w name).1 := by
    refine ⟨rfl, rfl, ?_⟩
    rw [← hidx]
    rfl
  have hid : (s.createWorkspace w name).2.1 = w.newV4 s.minted := rfl
  unfold createWorkspaceRpc
  dsimp only
  rw [hidx, hid]
  generalize (s.createWorkspace w name).1 = t at hmade ⊢
  have htab := @changed_createTab w t s.layout.workspaces.length none .default none
  generalize t.createTab w s.layout.workspaces.length none .default none = made at htab ⊢
  obtain ⟨u, r⟩ := made
  rcases htab with ⟨e, rfl, hu⟩ | ⟨p, tabId, rfl, -, hu⟩
  · exact Or.inl ⟨e, rfl, hmade.trans_unchanged hu⟩
  · refine Or.inr ⟨p, tabId, rfl, ?_⟩
    have hmod : t.layout.workspaces.modify s.layout.workspaces.length (addTab tabId p) =
        s.layout.workspaces ++ [addTab tabId p (emptyWorkspace (w.newV4 s.minted) name)] := by
      rw [hmade.workspaces, modify_append_cons]
    rw [hmod, hmade.active] at hu
    exact hmade.trans hu

end Tabs

/-! ### Calls that close tabs -/

/-- Only tabs and panes are touched: every workspace stays where it is, under its
name and with its colour. -/
structure TabsOnly (s t : SessionManager) : Prop where
  headings : t.layout.workspaces.map (·.heading) = s.layout.workspaces.map (·.heading)
  sent : ∃ es, t.eventTx.sent = s.eventTx.sent ++ es ∧ ∀ e ∈ es, e.OfTabs

section Closing

variable {w : World} {s t u : SessionManager}

theorem Changed.tabsOnly {wss : List SessionWorkspace} {i : ℕ} {es : List SessionEvent}
    (h : Changed wss i es s t)
    (hwss : wss.map (·.heading) = s.layout.workspaces.map (·.heading))
    (hes : ∀ e ∈ es, e.OfTabs) : TabsOnly s t :=
  ⟨by rw [h.workspaces, hwss], es, h.sent, hes⟩

theorem TabsOnly.refl (s : SessionManager) : TabsOnly s s := (Unchanged.refl s).tabsOnly rfl nofun

theorem TabsOnly.trans (h : TabsOnly s t) (h' : TabsOnly t u) : TabsOnly s u where
  headings := h'.headings.trans h.headings
  sent := by
    obtain ⟨es, hes, hall⟩ := h.sent
    obtain ⟨es', hes', hall'⟩ := h'.sent
    refine ⟨es ++ es', ?_, fun e he => ?_⟩
    · rw [hes', hes, List.append_assoc]
    · exact (List.mem_append.mp he).elim (hall e) (hall' e)

theorem TabsOnly.length (h : TabsOnly s t) :
    t.layout.workspaces.length = s.layout.workspaces.length := by
  have hlen := congrArg List.length h.headings
  rwa [List.length_map, List.length_map] at hlen

theorem TabsOnly.send (h : TabsOnly s t) {e : SessionEvent} (he : e.OfTabs) :
    TabsOnly s (t.send e) := by
  refine h.trans ⟨rfl, [e], rfl, fun e' he' => ?_⟩
  rwa [List.mem_singleton.mp he']

theorem tabsOnly_healEmptied (emptied : Option ℕ) (s : SessionManager) :
    TabsOnly s (s.healEmptied w emptied) := by
  unfold healEmptied
  split
  · exact .refl s
  · rename_i i
    split_ifs
    · have h := @changed_autoSeedDefaultTab w s i .default
      generalize s.autoSeedDefaultTab w i .default = made at h ⊢
      obtain ⟨t, r⟩ := made
      rcases h with ⟨e, rfl, hu⟩ | ⟨p, tabId, rfl, -, hc⟩
      · exact hu.tabsOnly rfl nofun
      · refine (hc.trans_unchanged (unchanged_spawnDrainTask p t)).tabsOnly ?_ ?_
        · apply map_modify_of_eq
          exact fun _ => rfl
        · simp [SessionEvent.OfTabs]
    · exact .refl s

theorem tabsOnly_closeTabPane (p : PaneId) (s : SessionManager) : TabsOnly s (closeTabPane s p) := by
  have h : TabsOnly s (s.unregister p) := ⟨rfl, [], (List.append_nil _).symm, nofun⟩
  unfold closeTabPane
  split_ifs
  · exact h.send trivial
  · exact h

theorem tabsOnly_foldl_closeTabPane (ps : List PaneId) (s : SessionManager) :
    TabsOnly s (ps.foldl closeTabPane s) := by
  induction ps generalizing s with
  | nil => exact .refl s
  | cons p ps ih => exact (tabsOnly_closeTabPane p s).trans (ih _)

theorem heading_clampActiveTab (ws : SessionWorkspace) : (clampActiveTab ws).heading = ws.heading := by
  unfold clampActiveTab
  split_ifs <;> rfl

theorem tabsOnly_closeTab (tabId : Uuid) (s : SessionManager) :
    TabsOnly s (s.closeTab w tabId).1 := by
  unfold closeTab
  split
  · exact .refl s
  · rename_i i j _
    refine .trans ?_ (tabsOnly_healEmptied _ _)
    refine TabsOnly.send (.trans ?_ (tabsOnly_foldl_closeTabPane _ _)) trivial
    refine ⟨?_, [], (List.append_nil _).symm, nofun⟩
    apply map_modify_of_eq
    exact fun ws => heading_clampActiveTab { ws with tabs := ws.tabs.eraseIdx j }

theorem headings_dropLeafTabs (p : PaneId) (wss : List SessionWorkspace) :
    (dropLeafTabs p wss).1.map (·.heading) = wss.map (·.heading) := by
  cases hr : (dropLeafTabs p wss).2 with
  | none => rw [dropLeafTabs, (visit_none quiet_dropLeafTabsOf hr).1]
  | some b =>
    obtain ⟨pre, ws, post, hs, -, hout, -⟩ := visit_some quiet_dropLeafTabsOf hr
    have hws : (dropLeafTabsOf p pre.length ws).1.heading = ws.heading := by
      unfold dropLeafTabsOf
      dsimp only
      split_ifs
      · exact heading_clampActiveTab _
      · exact heading_clampActiveTab _
      · rfl
    rw [dropLeafTabs, hout, hs, List.map_append, List.map_cons, hws, List.map_append, List.map_cons]

theorem tabsOnly_closePane (p : PaneId) (s : SessionManager) :
    TabsOnly s (s.closePane w p).1 := by
  unfold closePane
  split_ifs
  · refine .trans ?_ (tabsOnly_healEmptied _ _)
    refine TabsOnly.send ?_ trivial
    exact ⟨headings_dropLeafTabs p s.layout.workspaces, [], (List.append_nil _).symm, nofun⟩
  · exact .refl s

/-- Closing a tab leaves its workspace where it is. -/
theorem tabsOnly_closeTabByPaneRpc (req : Request) (p : PaneId) (s : SessionManager) :
    TabsOnly s (closeTabByPaneRpc w req p s).1 := by
  unfold closeTabByPaneRpc
  split
  · exact tabsOnly_closeTab _ s
  · exact tabsOnly_closePane p s

end Closing

end SessionManager

end Forgetty
