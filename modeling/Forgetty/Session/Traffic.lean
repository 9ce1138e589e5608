import Forgetty.Session.Arranged
import Forgetty.Session.Coherence
import Forgetty.Session.Subscribe

/-! What a call broadcasts, seen from one pane. Only a chunk of the pane's own output
carries bytes for it, its log changes with such a chunk or goes away, and once its
closing is broadcast it is out of the registry for good. -/

namespace Forgetty

open Lib

namespace SessionManager

/-- Between the states nothing was put out for the pane. It may have been closed. -/
structure Silent (p : PaneId) (s t : SessionManager) : Prop where
  capacity : t.eventTx.capacity = s.eventTx.capacity
  events : ∃ es, t.eventTx.sent = s.eventTx.sent ++ es ∧ outputOf p es = [] ∧
    (.paneClosed p ∈ es → p ∉ t.panes)
  log : t.byteLogs.get p = s.byteLogs.get p ∨ t.byteLogs.get p = none
  panes : p ∈ t.panes → p ∈ s.panes
  minted : s.minted ≤ t.minted

/-- The pane is not one that is still to be made. -/
def Old (w : World) (p : PaneId) (s : SessionManager) : Prop :=
  ∀ n, s.minted ≤ n → p ≠ ⟨w.newV4 n⟩

theorem Tracked.old {w : World} {s : SessionManager} (h : Tracked w s) {p : PaneId}
    (hp : p ∈ s.layout.leaves) : Old w p s := fun n hn heq => h.fresh n hn (heq ▸ hp)

section Rules

variable {w : World} {p : PaneId} {s t u : SessionManager}

theorem Old.mono (h : Old w p s) (hst : s.minted ≤ t.minted) : Old w p t :=
  fun n hn => h n (hst.trans hn)

theorem Silent.old (h : Silent p s t) (hs : Old w p s) : Old w p t := hs.mono h.minted

theorem Silent.trans (h : Silent p s t) (h' : Silent p t u) : Silent p s u where
  capacity := h'.capacity.trans h.capacity
  events := by
    obtain ⟨es, hes, hout, hclosed⟩ := h.events
    obtain ⟨es', hes', hout', hclosed'⟩ := h'.events
    refine ⟨es ++ es', by rw [hes', hes, List.append_assoc], by simp [hout, hout'], fun hmem => ?_⟩
    rcases List.mem_append.mp hmem with hm | hm
    · exact fun hp => hclosed hm (h'.panes hp)
    · exact hclosed' hm
  log := by
    rcases h'.log with hl | hl
    · rw [hl]
      exact h.log
    · exact Or.inr hl
  panes := h.panes ∘ h'.panes
  minted := h.minted.trans h'.minted

/-- Nothing the pane could notice. -/
theorem Silent.of_same (htx : t.eventTx = s.eventTx) (hlog : t.byteLogs.get p = s.byteLogs.get p)
    (hpanes : p ∈ t.panes → p ∈ s.panes) (hminted : s.minted ≤ t.minted) : Silent p s t where
  capacity := by rw [htx]
  events := ⟨[], by rw [htx, List.append_nil], rfl, fun h => absurd h List.not_mem_nil⟩
  log := Or.inl hlog
  panes := hpanes
  minted := hminted

theorem Silent.refl (p : PaneId) (s : SessionManager) : Silent p s s := .of_same rfl rfl id le_rfl

/-- Events without output. -/
theorem silent_sendAll {es : List SessionEvent}
    (hes : ∀ e ∈ es, e.outputOf p = [] ∧ e ≠ .paneClosed p) (s : SessionManager) :
    Silent p s (s.sendAll es) where
  capacity := rfl
  events := by
    refine ⟨es, rfl, ?_, fun hmem => absurd rfl (hes _ hmem).2⟩
    exact List.flatMap_eq_nil_iff.mpr fun e he => (hes e he).1
  log := Or.inl rfl
  panes := id
  minted := le_rfl

theorem Silent.send {e : SessionEvent} (h : Silent p s t)
    (he : e.outputOf p = [] ∧ e ≠ .paneClosed p) : Silent p s (t.send e) :=
  h.trans (@silent_sendAll p [e] (by simpa using he) t)

/-- The closing of a pane that left the registry before. -/
theorem silent_send_closed {q : PaneId} (hq : q ∉ s.panes) : Silent p s (s.send (.paneClosed q)) where
  capacity := rfl
  events := by
    refine ⟨[.paneClosed q], rfl, rfl, fun hmem => ?_⟩
    obtain rfl : p = q := by simpa using hmem
    exact hq
  log := Or.inl rfl
  panes := id
  minted := le_rfl

theorem silent_unregister (q : PaneId) (s : SessionManager) : Silent p s (s.unregister q) where
  capacity := rfl
  events := ⟨[], by simp [unregister], rfl, by simp⟩
  log := by
    by_cases hq : p = q
    · subst hq
      exact Or.inr (PMap.get_erase_self _ _)
    · exact Or.inl (PMap.get_erase_of_ne hq)
  panes h := (PMap.mem_erase.mp h).2
  minted := le_rfl

theorem silent_setPane {pane : PaneState} (q : PaneId) (hq : q ∈ s.panes) :
    Silent p s (s.setPane q pane) := by
  refine .of_same rfl rfl (fun h => ?_) le_rfl
  rcases PMap.mem_insert.mp h with rfl | h
  · exact hq
  · exact h

theorem silent_createByteLogFor {q : PaneId} (hp : p ≠ q) (s : SessionManager) :
    Silent p s (s.createByteLogFor w q) := by
  unfold createByteLogFor
  split
  · exact .of_same rfl rfl id le_rfl
  · exact .of_same rfl (PMap.get_insert_of_ne hp) id le_rfl

theorem silent_spawnDrainTask {q : PaneId} (hp : p ≠ q) (s : SessionManager) :
    Silent p s (s.spawnDrainTask w q) := by
  refine (silent_createByteLogFor (w := w) hp s).trans ?_
  unfold spawnDrainTask takePaneOutputRx
  split
  · exact .refl p _
  · exact silent_setPane q (PMap.mem_of_get (by assumption))

end Rules

/-! ### The operations -/

section Operations

variable {w : World} {p : PaneId} {s : SessionManager}

theorem silent_countSpawn (s : SessionManager) : Silent p s s.countSpawn :=
  .of_same rfl rfl id le_rfl

theorem silent_mint (s : SessionManager) : Silent p s s.mint :=
  .of_same rfl rfl id (Nat.le_succ _)

theorem silent_createPane (hp : Old w p s) (size : PtySize) (cwd : Option PathBuf)
    (command : Option (List String)) (shell : Option String) (loginShell : Bool) :
    Silent p s (s.createPane w size cwd command shell loginShell).1 := by
  have hne := hp s.minted le_rfl
  unfold createPane
  dsimp only
  split
  · exact .of_same rfl rfl id (Nat.le_succ _)
  · refine .trans ?_ (silent_spawnDrainTask hne _)
    refine .send ?_ (by simp [SessionEvent.outputOf])
    refine .of_same rfl rfl (fun h => ?_) (Nat.le_add_right s.minted 2)
    exact (PMap.mem_insert.mp h).resolve_left hne

theorem silent_createTabWithPaneId (i : ℕ) (cwd : Option PathBuf) (size : PtySize)
    (command : Option (List String)) {q : PaneId} (hp : p ≠ q) :
    Silent p s (s.createTabWithPaneId w i cwd size command q).1 := by
  unfold createTabWithPaneId
  split_ifs
  · exact .refl p s
  · split
    · exact silent_countSpawn s
    · refine .trans ?_ (silent_spawnDrainTask hp _)
      refine .send (.send ?_ ?_) (by simp [SessionEvent.outputOf])
      · refine .of_same rfl rfl (fun h => ?_) (Nat.le_succ s.minted)
        exact (PMap.mem_insert.mp h).resolve_left hp
      · simp [SessionEvent.outputOf]

theorem silent_createTab (hp : Old w p s) (i : ℕ) (cwd : Option PathBuf) (size : PtySize)
    (command : Option (List String)) : Silent p s (s.createTab w i cwd size command).1 :=
  (silent_mint s).trans (silent_createTabWithPaneId i cwd size command (hp s.minted le_rfl))

theorem silent_autoSeedDefaultTab (hp : Old w p s) (i : ℕ) (size : PtySize) :
    Silent p s (s.autoSeedDefaultTab w i size).1 := by
  have hne := hp s.minted le_rfl
  unfold autoSeedDefaultTab
  split_ifs
  · exact .refl p s
  · split
    · exact silent_countSpawn s
    · refine .send (.send (.of_same rfl rfl ?_ ?_) ?_) ?_
      · exact fun h => (PMap.mem_insert.mp h).resolve_left hne
      · exact Nat.le_add_right s.minted 2
      · simp [SessionEvent.outputOf]
      · simp [SessionEvent.outputOf]

theorem autoSeedDefaultTab_ok {i : ℕ} {size : PtySize} {t : SessionManager} {q : PaneId}
    {tabId : Uuid} (h : s.autoSeedDefaultTab w i size = (t, .ok (q, tabId))) :
    q = ⟨w.newV4 s.minted⟩ := by
  unfold autoSeedDefaultTab at h
  split_ifs at h
  · simp at h
  · split at h
    · simp at h
    · simp only [Prod.mk.injEq, Except.ok.injEq] at h
      exact h.2.1.symm

theorem silent_healEmptied (hp : Old w p s) (emptied : Option ℕ) :
    Silent p s (s.healEmptied w emptied) := by
  unfold healEmptied
  split
  · exact .refl p s
  · rename_i i
    have h := silent_autoSeedDefaultTab hp i .default
    split_ifs
    · split
      · rename_i heq
        rw [heq] at h
        have hq := autoSeedDefaultTab_ok heq
        exact h.trans (silent_spawnDrainTask (hq ▸ hp s.minted le_rfl) _)
      · rename_i heq
        rwa [heq] at h
    · exact .refl p s

/-- A pane that leaves the registry and whose closing is broadcast then. -/
theorem silent_closed {t : SessionManager} (q : PaneId) (ht : Silent p (s.unregister q) t)
    (hq : q ∉ t.panes) : Silent p s (t.send (.paneClosed q)) :=
  ((silent_unregister q s).trans ht).trans (silent_send_closed hq)

theorem not_mem_unregister (q : PaneId) (s : SessionManager) : q ∉ (s.unregister q).panes := by
  simp

theorem silent_closePane (hp : Old w p s) (q : PaneId) : Silent p s (s.closePane w q).1 := by
  unfold closePane
  split_ifs
  · have h : Silent p s (((s.unregister q).setWorkspaces
        (dropLeafTabs q (s.unregister q).layout.workspaces).1).send (.paneClosed q)) :=
      silent_closed q (.of_same rfl rfl id le_rfl) (not_mem_unregister q s)
    exact h.trans (silent_healEmptied (h.old hp) _)
  · exact .refl p s

theorem silent_foldl {f : SessionManager → PaneId → SessionManager}
    (hf : ∀ s q, Silent p s (f s q)) (qs : List PaneId) (s : SessionManager) :
    Silent p s (qs.foldl f s) := by
  induction qs generalizing s with
  | nil => exact .refl p s
  | cons q qs ih => exact (hf s q).trans (ih _)

theorem silent_closeTabPane (s : SessionManager) (q : PaneId) : Silent p s (closeTabPane s q) := by
  unfold closeTabPane
  split_ifs
  · exact silent_closed q (.refl p _) (not_mem_unregister q s)
  · exact silent_unregister q s

theorem silent_deletePane (s : SessionManager) (q : PaneId) : Silent p s (deletePane s q) :=
  silent_closed q (.of_same rfl rfl id le_rfl) (not_mem_unregister q s)

theorem silent_closeTab (hp : Old w p s) (tabId : Uuid) : Silent p s (s.closeTab w tabId).1 := by
  unfold closeTab
  split
  · exact .refl p s
  · dsimp only
    refine Silent.trans ?_ (silent_healEmptied ?_ _)
    · refine .send ?_ (by simp [SessionEvent.outputOf])
      refine .trans ?_ (silent_foldl silent_closeTabPane _ _)
      exact .of_same rfl rfl id le_rfl
    · refine hp.mono ?_
      rw [send_minted, unregisters_closeTabPane.foldl_minted]
      rfl

theorem silent_deleteWorkspace (i : ℕ) : Silent p s (s.deleteWorkspace i).1 := by
  unfold deleteWorkspace
  split
  · exact .refl p s
  · split_ifs
    · exact .refl p s
    · refine .send ?_ (by simp [SessionEvent.outputOf])
      exact (silent_foldl silent_deletePane _ s).trans (.of_same rfl rfl id le_rfl)

theorem silent_splitAt (caller : String) (q : PaneId) (direction : String) (ratio : F32)
    (size : PtySize) (cwd : Option PathBuf) {newPane : PaneId} (hp : p ≠ newPane) :
    Silent p s (s.splitAt w caller q direction ratio size cwd newPane).1 := by
  unfold splitAt
  split
  · exact silent_countSpawn s
  · dsimp only
    split
    · refine .of_same rfl rfl (fun h => ?_) le_rfl
      exact (PMap.mem_insert.mp (PMap.mem_erase.mp h).2).resolve_left hp
    · refine .trans ?_ (silent_spawnDrainTask hp _)
      refine .send (.send ?_ ?_) (by simp [SessionEvent.outputOf])
      · refine .of_same rfl rfl (fun h => ?_) le_rfl
        exact (PMap.mem_insert.mp h).resolve_left hp
      · simp [SessionEvent.outputOf]

theorem silent_duplicateSpawn (size : PtySize) (total : ℕ) (cwds : List (Option PathBuf))
    (spawned : List (PaneId × PtyBridge × PathBuf)) (s : SessionManager) :
    Silent p s (duplicateSpawn w size total cwds spawned s).1 := by
  induction cwds generalizing spawned s with
  | nil => exact .refl p s
  | cons cwd cwds ih =>
    rw [duplicateSpawn]
    dsimp only
    split
    · refine .trans ?_ (ih _ _)
      exact .of_same rfl rfl id (Nat.le_succ _)
    · exact .of_same rfl rfl id (Nat.le_succ _)

theorem silent_duplicateTabs (size : PtySize) (spawned : List (PaneId × PtyBridge × PathBuf))
    (hp : ∀ x ∈ spawned, p ≠ x.1) (s : SessionManager) :
    Silent p s (duplicateTabs w size spawned s).1 := by
  induction spawned generalizing s with
  | nil => exact .refl p s
  | cons x spawned ih =>
    obtain ⟨q, bridge, cwd⟩ := x
    refine .trans ?_ (ih (fun y hy => hp y (List.mem_cons_of_mem _ hy)) _)
    refine .of_same rfl rfl (fun h => ?_) (Nat.le_succ s.minted)
    exact (PMap.mem_insert.mp h).resolve_left (hp _ List.mem_cons_self)

theorem silent_duplicateCommit (size : PtySize) (name : String) (insertAt : ℕ)
    (spawned : List (PaneId × PtyBridge × PathBuf)) (hp : ∀ x ∈ spawned, p ≠ x.1)
    (s : SessionManager) : Silent p s (s.duplicateCommit w size name insertAt spawned).1 := by
  unfold duplicateCommit
  dsimp only
  refine .trans ?_ (silent_sendAll ?_ _)
  · refine .send ?_ (by simp [SessionEvent.outputOf])
    refine .trans (.trans (silent_mint s) (@silent_duplicateTabs w p size spawned hp _)) ?_
    exact .of_same rfl rfl id le_rfl
  · intro e he
    obtain ⟨dt, -, he⟩ := List.mem_flatMap.mp he
    simp only [List.mem_cons, List.not_mem_nil, or_false] at he
    rcases he with rfl | rfl <;> simp [SessionEvent.outputOf]

/-- The panes spawned for a copy are new. -/
theorem old_ne_spawned (hp : Old w p s) (size : PtySize) (total : ℕ)
    (cwds : List (Option PathBuf)) {spawned out : List (PaneId × PtyBridge × PathBuf)}
    (hspawned : ∀ x ∈ spawned, p ≠ x.1) {t : SessionManager}
    (h : duplicateSpawn w size total cwds spawned s = (t, .ok out)) : ∀ x ∈ out, p ≠ x.1 := by
  induction cwds generalizing spawned s with
  | nil =>
    simp only [duplicateSpawn, Prod.mk.injEq, Except.ok.injEq] at h
    exact h.2 ▸ hspawned
  | cons cwd cwds ih =>
    rw [duplicateSpawn] at h
    dsimp only at h
    split at h
    · refine ih (hp.mono ?_) (fun x hx => ?_) h
      · exact Nat.le_succ _
      · rcases List.mem_append.mp hx with hx | hx
        · exact hspawned x hx
        · rw [List.mem_singleton.mp hx]
          exact hp s.minted le_rfl
    · simp at h

/-- The tabs made for a copy show the panes that were spawned. -/
theorem duplicateTabs_panes (size : PtySize) (spawned : List (PaneId × PtyBridge × PathBuf))
    (s : SessionManager) :
    (duplicateTabs w size spawned s).2.2.map (·.paneId) = spawned.map (·.1) := by
  induction spawned generalizing s with
  | nil => rfl
  | cons x spawned ih => simp [duplicateTabs, ih]

theorem silent_foldl_spawnDrainTask (dupTabs : List DuplicatedTab)
    (hp : ∀ dt ∈ dupTabs, p ≠ dt.paneId) (s : SessionManager) :
    Silent p s (dupTabs.foldl (fun sm dt => sm.spawnDrainTask w dt.paneId) s) := by
  induction dupTabs generalizing s with
  | nil => exact .refl p s
  | cons dt dupTabs ih =>
    exact (silent_spawnDrainTask (hp dt List.mem_cons_self) s).trans
      (ih (fun d hd => hp d (List.mem_cons_of_mem dt hd)) _)

theorem silent_duplicateWorkspace (hp : Old w p s) (i : ℕ) (name : Option String)
    (size : PtySize) : Silent p s (s.duplicateWorkspace w i name size).1 := by
  unfold duplicateWorkspace
  split
  · exact .refl p s
  · rename_i dupName insertAt cwds _
    have h := @silent_duplicateSpawn w p size cwds.length cwds [] s
    split
    · rename_i heq
      rwa [heq] at h
    · rename_i spawned heq
      rw [heq] at h
      have hne := old_ne_spawned hp size cwds.length cwds (by simp) heq
      refine h.trans (.trans (@silent_duplicateCommit w p size dupName insertAt spawned hne _) ?_)
      refine silent_foldl_spawnDrainTask _ (fun dt hdt => ?_) _
      have hmem : dt.paneId ∈ spawned.map (·.1) := by
        rw [← duplicateTabs_panes (w := w) size spawned]
        exact List.mem_map_of_mem hdt
      obtain ⟨x, hx, heqx⟩ := List.mem_map.mp hmem
      exact heqx ▸ hne x hx

theorem silent_of_arranges {op : Op} (h : Arranges op) : Silent p s (s.apply w op) := by
  have he := effect_of_arranges (w := w) (s := s) h
  obtain ⟨hlogs, -, es, htx, hes⟩ := arranged_apply (w := w) (s := s) h
  have hsent := @silent_sendAll p es (fun e hmem => e.outputOf_of_word (hes e hmem) p) s
  refine hsent.trans (.of_same htx (by rw [hlogs]; rfl) (fun hp => ?_) he.minted)
  simpa using (he.keys p).mp hp

theorem silent_processPaneBytes (procCwd : ℕ → Option PathBuf) (alive : Bool) {q : PaneId}
    (bytes : Bytes) (hp : p ≠ q) :
    Silent p s (s.processPaneBytes procCwd alive q bytes).1 := by
  by_cases hq : q ∈ s.panes
  · obtain ⟨htx, hlogs, -⟩ := processPaneBytes_of_live procCwd alive bytes hq
    have heffect := effect_processPaneBytes procCwd alive q bytes s
    have hsend : Silent p s (s.send (.ptyOutput q bytes)) :=
      .send (.refl p s) (by simp [SessionEvent.outputOf, Ne.symm hp])
    refine hsend.trans (.of_same htx ?_ (fun h => ?_) heffect.minted)
    · rw [hlogs]
      simp only [if_neg hp, Option.map_id']
      rfl
    · simpa using (heffect.keys p).mp h
  · rw [processPaneBytes_of_gone hq]
    exact .refl p s

/-- A call that is not about output of the pane is silent. -/
theorem silent_apply (hp : Old w p s) (op : Op)
    (hop : ∀ procCwd alive bytes, op ≠ .processPaneBytes procCwd alive p bytes) :
    Silent p s (s.apply w op) := by
  cases op with
  | createPane size cwd command shell login => exact silent_createPane hp size cwd command shell login
  | createTab i cwd size command => exact silent_createTab hp i cwd size command
  | splitPane q direction size cwd =>
    show Silent p s (s.splitPane w q direction size cwd).1
    unfold splitPane
    split_ifs
    · exact (silent_mint s).trans (silent_splitAt _ q direction _ size cwd (hp s.minted le_rfl))
    · exact .refl p s
  | splitPaneWithRatio q direction ratio size cwd =>
    show Silent p s (s.splitPaneWithRatio w q direction ratio size cwd).1
    unfold splitPaneWithRatio splitPaneWithRatioAndPaneId
    refine (silent_mint s).trans ?_
    split_ifs
    · exact silent_splitAt _ q direction _ size cwd (hp s.minted le_rfl)
    · exact .refl p _
  | closePane q => exact silent_closePane hp q
  | closeTab tabId => exact silent_closeTab hp tabId
  | deleteWorkspace i => exact silent_deleteWorkspace i
  | duplicateWorkspace i name size => exact silent_duplicateWorkspace hp i name size
  | processPaneBytes procCwd alive q bytes =>
    exact silent_processPaneBytes procCwd alive bytes fun h => hop procCwd alive bytes (h ▸ rfl)
  | _ => exact silent_of_arranges trivial

/-- What one call broadcasts, seen from a pane: its log goes on to hold the stream,
only a live pane puts something out, and a closing is of a pane that is gone. -/
structure Traffic (p : PaneId) (es : List SessionEvent) (s t : SessionManager) : Prop where
  capacity : t.eventTx.capacity = s.eventTx.capacity
  sent : t.eventTx.sent = s.eventTx.sent ++ es
  log : ∀ stream, (∀ log, s.byteLogs.get p = some log → log.Holds stream) →
    ∀ log, t.byteLogs.get p = some log → log.Holds (stream ++ outputOf p es)
  closed : .paneClosed p ∈ es → p ∉ t.panes
  panes : p ∈ t.panes → p ∈ s.panes
  output : outputOf p es ≠ [] → p ∈ s.panes ∧ .paneClosed p ∉ es
  minted : s.minted ≤ t.minted

theorem Silent.traffic {t : SessionManager} (h : Silent p s t) : ∃ es, Traffic p es s t := by
  obtain ⟨es, hes, hout, hclosed⟩ := h.events
  refine ⟨es, h.capacity, hes, fun stream hs log hl => ?_, hclosed, h.panes,
    fun hne => absurd hout hne, h.minted⟩
  rw [hout, List.append_nil]
  rcases h.log with hsame | hnone
  · exact hs log (hsame ▸ hl)
  · rw [hnone] at hl
    simp at hl

theorem apply_traffic (hp : Old w p s) (op : Op) : ∃ es, Traffic p es s (s.apply w op) := by
  by_cases hop : ∃ procCwd alive bytes, op = .processPaneBytes procCwd alive p bytes
  · obtain ⟨procCwd, alive, bytes, rfl⟩ := hop
    show ∃ es, Traffic p es s (s.processPaneBytes procCwd alive p bytes).1
    by_cases hlive : p ∈ s.panes
    · obtain ⟨htx, hlogs, -⟩ := processPaneBytes_of_live procCwd alive bytes hlive
      refine ⟨[.ptyOutput p bytes], by rw [htx]; rfl, by rw [htx]; rfl, fun stream hs log hl => ?_,
        by simp, fun _ => hlive, fun _ => ⟨hlive, by simp⟩,
        (effect_processPaneBytes procCwd alive p bytes s).minted⟩
      rw [hlogs] at hl
      obtain ⟨log', hlog', rfl⟩ := Option.map_eq_some_iff.mp hl
      simpa [SessionEvent.outputOf] using (hs log' hlog').append bytes
    · rw [processPaneBytes_of_gone hlive]
      exact (Silent.refl p s).traffic
  · have hne : ∀ procCwd alive bytes, op ≠ .processPaneBytes procCwd alive p bytes :=
      fun procCwd alive bytes heq => hop ⟨procCwd, alive, bytes, heq⟩
    exact (silent_apply hp op hne).traffic

end Operations

/-! ### The life of a pane -/

/-- What holds of a pane that was live when `base` events had been sent: once its
closing was broadcast it is out of the registry and puts out nothing more. -/
structure PaneHistory (w : World) (p : PaneId) (base : ℕ) (s : SessionManager) : Prop where
  tracked : Tracked w s
  old : Old w p s
  base_le : base ≤ s.eventTx.sent.length
  closed : .paneClosed p ∈ s.eventTx.sent.drop base → p ∉ s.panes
  silent : ∀ k, base ≤ k → s.eventTx.sent[k]? = some (.paneClosed p) →
    outputOf p (s.eventTx.sent.drop k) = []

namespace PaneHistory

variable {w : World} {p : PaneId} {base : ℕ} {s : SessionManager}

theorem initial (htracked : Tracked w s) (hp : p ∈ s.panes) :
    PaneHistory w p s.eventTx.sent.length s := by
  refine ⟨htracked, htracked.old (htracked.live_leaf p hp), le_rfl, by simp, ?_⟩
  intro k hk hclosed
  have := (List.getElem?_eq_some_iff.mp hclosed).1
  omega

theorem apply (hw : Function.Injective w.newV4) (h : PaneHistory w p base s) (op : Op) :
    PaneHistory w p base (s.apply w op) := by
  obtain ⟨es, ht⟩ := apply_traffic h.old op
  have hbase := h.base_le
  refine ⟨h.tracked.apply hw op, h.old.mono ht.minted, ?_, ?_, ?_⟩
  · simp only [ht.sent, List.length_append]
    omega
  · rw [ht.sent, List.drop_append_of_le_length hbase]
    intro hmem
    rcases List.mem_append.mp hmem with hm | hm
    · exact fun hp => h.closed hm (ht.panes hp)
    · exact ht.closed hm
  · intro k hk hclosed
    simp only [ht.sent] at hclosed ⊢
    by_cases hlt : k < s.eventTx.sent.length
    · rw [List.getElem?_append_left hlt] at hclosed
      have hgone := h.closed (mem_drop_of_getElem? hclosed hk)
      have hout : outputOf p es = [] := by
        by_contra hne
        exact hgone (ht.output hne).1
      rw [List.drop_append_of_le_length hlt.le, outputOf_append, h.silent k hk hclosed, hout,
        List.append_nil]
    · rw [List.getElem?_append_right (by omega)] at hclosed
      have hout : outputOf p es = [] := by
        by_contra hne
        exact (ht.output hne).2 (List.mem_of_getElem? hclosed)
      have hdropEs := List.take_append_drop (k - s.eventTx.sent.length) es
      rw [← hdropEs, outputOf_append, List.append_eq_nil_iff] at hout
      rw [List.drop_append, List.drop_eq_nil_of_le (by omega), List.nil_append]
      exact hout.2

/-- Behind the closing nothing is put out. -/
theorem output_nil_of_closed (h : PaneHistory w p base s)
    (hc : .paneClosed p ∈ s.eventTx.sent.drop base) {op : Op} {es : List SessionEvent}
    (ht : Traffic p es s (s.apply w op)) : outputOf p es = [] := by
  by_contra hne
  exact h.closed hc (ht.output hne).1

end PaneHistory

/-- Every event is output of the pane, its closing, or neither. -/
theorem event_cases (p : PaneId) (e : SessionEvent) :
    (e.outputOf p = [] ∧ e ≠ .paneClosed p) ∨ (∃ data, data ≠ [] ∧ e = .ptyOutput p data) ∨
      e = .paneClosed p := by
  by_cases hc : e = .paneClosed p
  · exact Or.inr (Or.inr hc)
  · by_cases hout : e.outputOf p = []
    · exact Or.inl ⟨hout, hc⟩
    · refine Or.inr (Or.inl ?_)
      cases e with
      | ptyOutput q data =>
        simp only [SessionEvent.outputOf] at hout
        split_ifs at hout with hq
        · exact ⟨data, hout, by rw [hq]⟩
        · exact absurd rfl hout
      | _ => exact absurd rfl hout

/-- A number of chunks of a live pane, one after the other. -/
theorem foldl_processPaneBytes (procCwd : ℕ → Option PathBuf) (w : World) (p : PaneId)
    (bytes : Bytes) (n : ℕ) {s : SessionManager} (hp : p ∈ s.panes) :
    ((List.replicate n (Op.processPaneBytes procCwd true p bytes)).foldl (apply w) s).eventTx =
      s.eventTx.sendAll (List.replicate n (.ptyOutput p bytes)) := by
  induction n generalizing s with
  | zero => exact (Broadcast.sendAll_nil _).symm
  | succ n ih =>
    have heffect := effect_processPaneBytes procCwd true p bytes s
    have hlive : p ∈ (s.processPaneBytes procCwd true p bytes).1.panes :=
      (heffect.keys p).mpr (Or.inl ⟨hp, List.not_mem_nil⟩)
    have htx := (processPaneBytes_of_live procCwd true bytes hp).1
    rw [List.replicate_succ, List.foldl_cons, List.replicate_succ]
    refine (ih hlive).trans ?_
    rw [htx]
    simp [Broadcast.send, Broadcast.sendAll]

end SessionManager

end Forgetty
