import Forgetty.Session.LockSections
import Forgetty.Session.Traffic

/-! What the critical sections do to the registry and to the byte logs. A section that drops
a pane drops its log with it. One that registers a pane leaves the log to a later section. -/

namespace Forgetty

open Lib

namespace SessionManager

/-- The panes `gone` leave the registry, with their logs, and the panes `new` come. -/
structure Registers (gone new : List PaneId) (s t : SessionManager) : Prop where
  panes : ∀ p, p ∈ t.panes ↔ (p ∈ s.panes ∧ p ∉ gone) ∨ p ∈ new
  byteLogs : ∀ p, p ∈ t.byteLogs ↔ p ∈ s.byteLogs ∧ p ∉ gone
  minted : s.minted ≤ t.minted

section Rules

variable {w : World} {s t u : SessionManager} {gone new : List PaneId}

theorem Registers.of_same (hpanes : ∀ p, p ∈ t.panes ↔ p ∈ s.panes)
    (hlogs : ∀ p, p ∈ t.byteLogs ↔ p ∈ s.byteLogs) (hm : s.minted ≤ t.minted) :
    Registers [] [] s t := by
  refine ⟨fun p => ?_, fun p => ?_, hm⟩
  · simpa using hpanes p
  · simpa using hlogs p

theorem Registers.refl (s : SessionManager) : Registers [] [] s s :=
  .of_same (fun _ => Iff.rfl) (fun _ => Iff.rfl) le_rfl

/-- Panes that leave, then panes that come. -/
theorem Registers.then_new (h : Registers gone [] s t) (h' : Registers [] new t u) :
    Registers gone new s u where
  panes p := by
    rw [h'.panes, h.panes]
    simp
  byteLogs p := by
    rw [h'.byteLogs, h.byteLogs]
    simp
  minted := h.minted.trans h'.minted

theorem Registers.of_mint (h : Registers gone new s.mint t) : Registers gone new s t :=
  ⟨h.panes, h.byteLogs, (Nat.le_succ s.minted).trans h.minted⟩

/-- One pane is registered. -/
theorem Registers.of_new {p : PaneId} (hpanes : ∀ q, q ∈ t.panes ↔ q = p ∨ q ∈ s.panes)
    (hlogs : ∀ q, q ∈ t.byteLogs ↔ q ∈ s.byteLogs) (hm : s.minted ≤ t.minted) :
    Registers [] [p] s t := by
  refine ⟨fun q => ?_, fun q => ?_, hm⟩
  · rw [hpanes, or_comm]
    simp
  · simpa using hlogs q

/-- Panes are taken out one after the other. -/
theorem registers_foldl {f : SessionManager → PaneId → SessionManager}
    (hf : ∀ s p, Registers [p] [] s (f s p)) (ps : List PaneId) (s : SessionManager) :
    Registers ps [] s (ps.foldl f s) := by
  induction ps generalizing s with
  | nil => exact .refl s
  | cons p ps ih =>
    have h := hf s p
    have hrest := ih (f s p)
    refine ⟨fun q => ?_, fun q => ?_, h.minted.trans hrest.minted⟩
    · rw [List.foldl_cons, hrest.panes, h.panes]
      simp [and_assoc]
    · rw [List.foldl_cons, hrest.byteLogs, h.byteLogs]
      simp [and_assoc]

theorem registers_unregister (s : SessionManager) (p : PaneId) :
    Registers [p] [] s (s.unregister p) where
  panes q := by
    rw [unregister_panes, PMap.mem_erase, and_comm]
    simp
  byteLogs q := by
    rw [unregister, PMap.mem_erase, and_comm]
    simp
  minted := le_rfl

theorem registers_closeTabPane (s : SessionManager) (p : PaneId) :
    Registers [p] [] s (closeTabPane s p) := by
  have h := registers_unregister s p
  unfold closeTabPane
  split_ifs
  · exact ⟨h.panes, h.byteLogs, h.minted⟩
  · exact h

theorem registers_deletePane (s : SessionManager) (p : PaneId) :
    Registers [p] [] s (deletePane s p) := by
  have h := registers_unregister s p
  exact ⟨h.panes, h.byteLogs, h.minted⟩

theorem takePaneOutputRx_mem_panes (p q : PaneId) :
    q ∈ (s.takePaneOutputRx p).1.panes ↔ q ∈ s.panes := by
  unfold takePaneOutputRx
  split
  · exact Iff.rfl
  · exact mem_setPane (by assumption) q

theorem takePaneOutputRx_byteLogs (p : PaneId) :
    (s.takePaneOutputRx p).1.byteLogs = s.byteLogs := by
  unfold takePaneOutputRx
  split <;> rfl

theorem takePaneOutputRx_minted (p : PaneId) : (s.takePaneOutputRx p).1.minted = s.minted := by
  unfold takePaneOutputRx
  split <;> rfl

end Rules

/-! ### Calls that make panes -/

section Makes

variable {w : World} {s : SessionManager}

theorem registers_createPaneLocked (size : PtySize) (cwd : Option PathBuf)
    (command : Option (List String)) (shell : Option String) (loginShell : Bool) :
    Registers [] (s.createPaneLocked w size cwd command shell loginShell).2.toOption.toList s
        (s.createPaneLocked w size cwd command shell loginShell).1 ∧
      Minted w (s.createPaneLocked w size cwd command shell loginShell).2.toOption.toList s
        (s.createPaneLocked w size cwd command shell loginShell).1 := by
  unfold createPaneLocked
  dsimp only
  generalize PtyBridge.spawn w _ size cwd command shell loginShell = r
  cases r with
  | error e => exact ⟨.of_same (fun _ => Iff.rfl) (fun _ => Iff.rfl) (Nat.le_succ _), .nil w s _⟩
  | ok bridge =>
    have hm : s.minted < s.minted + 1 + 1 := by omega
    exact ⟨.of_new (fun _ => PMap.mem_insert) (fun _ => Iff.rfl) hm.le, .single le_rfl hm⟩

/-- The id of the pane is the caller's. -/
theorem registers_createTabLocked (i : ℕ) (cwd : Option PathBuf) (size : PtySize)
    (command : Option (List String)) (p : PaneId) :
    Registers [] ((s.createTabLocked w i cwd size command p).2.toOption.map (·.1)).toList s
        (s.createTabLocked w i cwd size command p).1 ∧
      ((s.createTabLocked w i cwd size command p).2.toOption.map (·.1)).toList ⊆ [p] := by
  unfold createTabLocked
  split_ifs
  · exact ⟨.refl s, List.nil_subset _⟩
  · generalize PtyBridge.spawn w _ size cwd command none true = r
    cases r with
    | error e => exact ⟨.of_same (fun _ => Iff.rfl) (fun _ => Iff.rfl) le_rfl, List.nil_subset _⟩
    | ok bridge =>
      exact ⟨.of_new (fun _ => PMap.mem_insert) (fun _ => Iff.rfl) (Nat.le_succ _),
        List.Subset.refl _⟩

/-- A pane whose tree is not found goes again. -/
theorem registers_splitLocked (caller : String) (p : PaneId) (direction : String) (ratio : F32)
    (size : PtySize) (cwd : Option PathBuf) {q : PaneId}
    (hq : p ∈ s.layout.leaves ∨ q ∉ s.panes) :
    Registers [] (s.splitLocked w caller p direction ratio size cwd q).2.toOption.toList s
        (s.splitLocked w caller p direction ratio size cwd q).1 ∧
      (s.splitLocked w caller p direction ratio size cwd q).2.toOption.toList ⊆ [q] := by
  unfold splitLocked
  generalize PtyBridge.spawn w _ size cwd none none true = r
  cases r with
  | error e => exact ⟨.of_same (fun _ => Iff.rfl) (fun _ => Iff.rfl) le_rfl, List.nil_subset _⟩
  | ok bridge =>
    dsimp only
    cases hreplaced : replaceLeafInLayout p q direction ratio s.layout.workspaces with
    | mk wss tabId =>
    have hreplaced : replaceLeafInLayout p q direction ratio (s.countSpawn.registerPane
        (.spawned q bridge (cwd.getD w.homeDirFallback) size)).layout.workspaces = (wss, tabId) :=
      hreplaced
    rw [hreplaced]
    cases tabId with
    | none =>
      rcases hq with hp | hq
      · exact absurd hp (replaceLeafInLayout_none (congrArg Prod.snd hreplaced))
      · refine ⟨.of_same (fun r => ?_) (fun _ => Iff.rfl) le_rfl, List.nil_subset _⟩
        simp only [PaneState.spawned, registerPane_panes, countSpawn_panes]
        rw [PMap.erase_insert hq]
    | some tabId =>
      exact ⟨.of_new (fun _ => PMap.mem_insert) (fun _ => Iff.rfl) le_rfl, List.Subset.refl _⟩

theorem registers_autoSeed (i : ℕ) (size : PtySize) :
    Registers [] ((s.autoSeedDefaultTab w i size).2.toOption.map (·.1)).toList s
        (s.autoSeedDefaultTab w i size).1 ∧
      Minted w ((s.autoSeedDefaultTab w i size).2.toOption.map (·.1)).toList s
        (s.autoSeedDefaultTab w i size).1 := by
  unfold autoSeedDefaultTab
  split_ifs
  · exact ⟨.refl s, .nil w s s⟩
  · generalize PtyBridge.spawn w _ size none none none true = r
    cases r with
    | error e => exact ⟨.of_same (fun _ => Iff.rfl) (fun _ => Iff.rfl) le_rfl, .nil w s _⟩
    | ok bridge =>
      have hm : s.minted < s.minted + 1 + 1 := by omega
      exact ⟨.of_new (fun _ => PMap.mem_insert) (fun _ => Iff.rfl) hm.le, .single le_rfl hm⟩

theorem registers_healLocked (emptied : Option ℕ) :
    Registers [] (s.healLocked w emptied).2.toList s (s.healLocked w emptied).1 ∧
      Minted w (s.healLocked w emptied).2.toList s (s.healLocked w emptied).1 := by
  unfold healLocked
  cases emptied with
  | none => exact ⟨.refl s, .nil w s s⟩
  | some i =>
    dsimp only
    split_ifs
    · have h := @registers_autoSeed w s i .default
      generalize autoSeedDefaultTab w i .default s = seeded at h ⊢
      obtain ⟨t, r⟩ := seeded
      cases r <;> exact h
    · exact ⟨.refl s, .nil w s s⟩

/-- At most the one pane, with a UUID that was still to be handed out. -/
theorem minted_of_subset {t : SessionManager} {new : Option PaneId} {n : ℕ}
    (h : new.toList ⊆ [⟨w.newV4 n⟩]) (hn : s.minted ≤ n) (hn' : n < t.minted) :
    Minted w new.toList s t := by
  cases new with
  | none => exact .nil w s t
  | some p =>
    obtain rfl := List.mem_singleton.mp (h (List.mem_singleton_self p))
    exact .single hn hn'

end Makes

/-! ### Calls that drop panes -/

section Drops

variable {w : World} {s : SessionManager}

theorem registers_closePaneLocked (p : PaneId) :
    ∃ gone ⊆ [p], Registers gone (s.closePaneLocked w p).2.toList s (s.closePaneLocked w p).1 ∧
      Minted w (s.closePaneLocked w p).2.toList s (s.closePaneLocked w p).1 := by
  unfold closePaneLocked
  split_ifs
  · have h := registers_unregister s p
    dsimp only
    generalize dropLeafTabs p (s.unregister p).layout.workspaces = dropped
    have ht : Registers [p] [] s (((s.unregister p).setWorkspaces dropped.1).send (.paneClosed p)) :=
      ⟨h.panes, h.byteLogs, h.minted⟩
    obtain ⟨hheal, hminted⟩ := @registers_healLocked w
      (((s.unregister p).setWorkspaces dropped.1).send (.paneClosed p)) (dropped.2.getD none)
    exact ⟨[p], List.Subset.refl _, ht.then_new hheal, hminted⟩
  · exact ⟨[], List.nil_subset _, .refl s, .nil w s s⟩

theorem registers_closeTabLocked (tabId : Uuid) :
    ∃ gone ⊆ s.ended (.op (.closeTab tabId)),
      Registers gone (s.closeTabLocked w tabId).2.toList s (s.closeTabLocked w tabId).1 ∧
        Minted w (s.closeTabLocked w tabId).2.toList s (s.closeTabLocked w tabId).1 := by
  unfold closeTabLocked
  cases hfind : s.findTab tabId with
  | none => exact ⟨[], List.nil_subset _, .refl s, .nil w s s⟩
  | some place =>
    obtain ⟨i, j⟩ := place
    obtain ⟨ws, tab, hws, htab, -⟩ := findTab_spec hfind
    simp only [ended, hfind, hws, Option.bind_some, htab, Option.map_some, Option.getD_some,
      collectPaneIds_eq, List.nil_append]
    have h := registers_foldl registers_closeTabPane tab.paneTree.leaves
      (s.modifyWorkspace i fun ws => clampActiveTab { ws with tabs := ws.tabs.eraseIdx j })
    generalize tab.paneTree.leaves.foldl closeTabPane _ = t at h
    obtain ⟨hheal, hminted⟩ := @registers_healLocked w (t.send (.tabClosed i tabId))
      (if ((t.send (.tabClosed i tabId)).layout.workspaces[i]?).any (·.tabs.isEmpty) then some i
        else none)
    have ht : Registers tab.paneTree.leaves [] s (t.send (.tabClosed i tabId)) :=
      ⟨h.panes, h.byteLogs, h.minted⟩
    exact ⟨_, List.Subset.refl _, ht.then_new hheal, hminted.mono ht.minted⟩

theorem registers_deleteWorkspace (i : ℕ) :
    ∃ gone ⊆ s.ended (.op (.deleteWorkspace i)), Registers gone [] s (s.deleteWorkspace i).1 := by
  unfold deleteWorkspace
  split
  · exact ⟨[], List.nil_subset _, .refl s⟩
  · rename_i ws hws
    split_ifs with hlen
    · exact ⟨[], List.nil_subset _, .refl s⟩
    · simp only [ended, if_pos (Nat.not_le.mp hlen), hws, Option.map_some, Option.getD_some,
        foldl_collectPaneIds, List.nil_append]
      have h := registers_foldl registers_deletePane ws.leaves s
      exact ⟨ws.leaves, List.Subset.refl _, h.panes, h.byteLogs, h.minted⟩

end Drops

/-! ### All calls -/

section All

variable {w : World} {s t : SessionManager}

theorem Effect.registers (h : Effect [] [] s t) (hlogs : ∀ p, p ∈ t.byteLogs ↔ p ∈ s.byteLogs) :
    Registers [] [] s t :=
  .of_same (fun p => by simpa using h.keys p) hlogs h.minted

theorem mem_byteLogs_processPaneBytes (procCwd : ℕ → Option PathBuf) (alive : Bool) (p : PaneId)
    (bytes : Bytes) (q : PaneId) :
    q ∈ (s.processPaneBytes procCwd alive p bytes).1.byteLogs ↔ q ∈ s.byteLogs := by
  by_cases hp : p ∈ s.panes
  · obtain ⟨-, hlogs, -⟩ := processPaneBytes_of_live procCwd alive bytes hp
    rw [PMap.mem_def, PMap.mem_def, hlogs, Option.isSome_map]
  · rw [processPaneBytes_of_gone hp]

/-- The calls that keep the registry as it is. -/
def KeepsPanes : Op → Prop
  | .createPane .. | .createTab .. | .splitPane .. | .splitPaneWithRatio .. | .closePane _
  | .closeTab _ | .deleteWorkspace _ | .duplicateWorkspace .. => False
  | _ => True

theorem registers_of_keepsPanes {op : Op} (h : KeepsPanes op) :
    Registers [] [] s (s.apply w op) := by
  by_cases harranges : Arranges op
  · refine (effect_of_arranges harranges).registers fun p => ?_
    rw [(arranged_apply harranges).byteLogs]
  · cases op with
    | processPaneBytes procCwd alive q bytes =>
      exact (effect_processPaneBytes procCwd alive q bytes s).registers
        (mem_byteLogs_processPaneBytes procCwd alive q bytes)
    | _ => first | exact absurd trivial harranges | exact absurd h id

/-- What a call does to the registry before it releases the lock: it drops panes that it
ends, and registers the panes it goes on to drain. -/
theorem registers_locked
    (hq : (∀ p ∈ s.panes, p ∈ s.layout.leaves) ∨ (⟨w.newV4 s.minted⟩ : PaneId) ∉ s.panes) {op : Op}
    (h : ∀ i name size, op ≠ .duplicateWorkspace i name size) :
    ∃ gone ⊆ s.ended (.op op), Registers gone (s.locked w op).2 s (s.locked w op).1 ∧
      Minted w (s.locked w op).2 s (s.locked w op).1 := by
  have hmint : s.minted < s.mint.minted := Nat.lt_succ_self _
  by_cases hkeeps : KeepsPanes op
  · have hlocked : s.locked w op = (s.apply w op, []) := by
      cases op <;> first | rfl | exact absurd hkeeps id
    rw [hlocked]
    exact ⟨[], List.nil_subset _, registers_of_keepsPanes hkeeps, .nil w s _⟩
  · cases op with
    | createPane size cwd command shell loginShell =>
      obtain ⟨hr, hm⟩ := registers_createPaneLocked (w := w) (s := s) size cwd command shell loginShell
      exact ⟨[], List.nil_subset _, hr, hm⟩
    | createTab i cwd size command =>
      obtain ⟨hr, hsub⟩ := registers_createTabLocked (w := w) (s := s.mint) i cwd size command
        ⟨w.newV4 s.minted⟩
      exact ⟨[], List.nil_subset _, hr.of_mint,
        minted_of_subset hsub le_rfl (hmint.trans_le hr.minted)⟩
    | splitPane p direction size cwd =>
      simp only [locked]
      split_ifs with hp
      · obtain ⟨hr, hsub⟩ := registers_splitLocked (w := w) (s := s.mint) "split_pane" p direction
          (1 / 2) size cwd (hq.imp_left fun h => h p hp)
        exact ⟨[], List.nil_subset _, hr.of_mint,
          minted_of_subset hsub le_rfl (hmint.trans_le hr.minted)⟩
      · exact ⟨[], List.nil_subset _, .refl s, .nil w s s⟩
    | splitPaneWithRatio p direction ratio size cwd =>
      simp only [locked]
      split_ifs with hp
      · obtain ⟨hr, hsub⟩ := registers_splitLocked (w := w) (s := s.mint) "split_pane_with_ratio" p
          direction ratio size cwd (hq.imp_left fun h => h p hp)
        exact ⟨[], List.nil_subset _, hr.of_mint,
          minted_of_subset hsub le_rfl (hmint.trans_le hr.minted)⟩
      · exact ⟨[], List.nil_subset _, (Registers.refl s.mint).of_mint, .nil w s _⟩
    | closePane p => exact registers_closePaneLocked p
    | closeTab tabId => exact registers_closeTabLocked tabId
    | deleteWorkspace i =>
      obtain ⟨gone, hgone, hr⟩ := registers_deleteWorkspace (s := s) i
      exact ⟨gone, hgone, hr, .nil w s _⟩
    | duplicateWorkspace i name size => exact absurd rfl (h i name size)
    | _ => exact absurd trivial hkeeps

/-! ### Duplicating -/

theorem byteLogs_duplicateSpawn (size : PtySize) (total : ℕ) (cwds : List (Option PathBuf))
    (acc : List (PaneId × PtyBridge × PathBuf)) :
    (duplicateSpawn w size total cwds acc s).1.byteLogs = s.byteLogs := by
  induction cwds generalizing acc s with
  | nil => rfl
  | cons cwd cwds ih =>
    rw [duplicateSpawn]
    dsimp only
    split
    · rw [ih]
      rfl
    · rfl

theorem duplicateTabs_byteLogs (size : PtySize)
    (spawned : List (PaneId × PtyBridge × PathBuf)) :
    (duplicateTabs w size spawned s).1.byteLogs = s.byteLogs := by
  induction spawned generalizing s with
  | nil => rfl
  | cons x spawned ih =>
    rw [duplicateTabs, ih]
    rfl

/-- Spawning changes nothing in the registry. -/
theorem registers_duplicateSpawn (hw : Function.Injective w.newV4) (size : PtySize) (total : ℕ)
    (cwds : List (Option PathBuf)) (acc : List (PaneId × PtyBridge × PathBuf)) :
    Registers [] [] s (duplicateSpawn w size total cwds acc s).1 ∧
      ∀ spawned, (duplicateSpawn w size total cwds acc s).2 = .ok spawned →
        ∃ made, spawned = acc ++ made ∧
          Minted w (made.map (·.1)) s (duplicateSpawn w size total cwds acc s).1 := by
  obtain ⟨he, hok⟩ := duplicateSpawn_spec hw size total cwds acc s
  exact ⟨he.registers fun p => by rw [byteLogs_duplicateSpawn], hok⟩

/-- The copy registers what was spawned. -/
theorem registers_duplicateCommit (size : PtySize) (dupName : String) (insertAt : ℕ)
    (spawned : List (PaneId × PtyBridge × PathBuf)) :
    Registers [] (spawned.map (·.1)) s (s.duplicateCommit w size dupName insertAt spawned).1 ∧
      (s.duplicateCommit w size dupName insertAt spawned).2.2.2.map (·.paneId) =
        spawned.map (·.1) := by
  have he := effect_duplicateCommit w size dupName insertAt spawned s
  refine ⟨⟨he.keys, fun p => ?_, he.minted⟩, duplicateTabs_panes size spawned s.mint⟩
  have hlogs : (s.duplicateCommit w size dupName insertAt spawned).1.byteLogs = s.byteLogs :=
    duplicateTabs_byteLogs size spawned
  rw [hlogs]
  simp

end All

end SessionManager

end Forgetty
