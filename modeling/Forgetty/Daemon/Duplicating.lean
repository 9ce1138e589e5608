import Forgetty.Daemon.Serving
import Forgetty.Session.Failures
import Forgetty.Session.WorkspaceCalls

/-! Duplicating a workspace among other clients. The position of the copy is read under the
first lock and used under the second one. Whatever the others do meanwhile, the copy is whole
and nothing else changes, but it follows its source only where that has stayed. -/

namespace Forgetty

open Lib SessionManager

/-- The spawns, with turns of the others before each, and the states every one of them was
taken in and led to. -/
def spawnAmong (w : World) (size : PtySize) (total : ℕ) (others : ℕ → List (Turn Op)) :
    List (Option PathBuf) → List (PaneId × PtyBridge × PathBuf) → Shared Process Todo →
      Shared Process Todo × List (SessionManager × SessionManager) ×
        Except ForgettyError (List (PaneId × PtyBridge × PathBuf))
  | [], spawned, m => (m, [], .ok spawned)
  | cwd :: cwds, spawned, m =>
    let m := run (lockSections w).turn m (others spawned.length)
    let sm := m.state.sm
    match duplicateSpawn w size total [cwd] spawned sm with
    | (t, .error e) => (⟨{ m.state with sm := t }, m.pending⟩, [(sm, t)], .error e)
    | (t, .ok spawned) =>
      let rest := spawnAmong w size total others cwds spawned ⟨{ m.state with sm := t }, m.pending⟩
      (rest.1, (sm, t) :: rest.2.1, rest.2.2)

/-- A duplication up to its second lock: the steps it took, and why it ended or what it goes
on to insert in which state. -/
inductive Duplication where
  | refused (e : ForgettyError)
  | failed (steps : List (SessionManager × SessionManager)) (e : ForgettyError)
  | ready (steps : List (SessionManager × SessionManager)) (before : SessionManager)
    (dupName : String) (insertAt : ℕ) (spawned : List (PaneId × PtyBridge × PathBuf))

/-- The others take turns before every spawn, and at last before the second lock. -/
def duplicateAmong (w : World) (sourceIdx : ℕ) (newName : Option String) (size : PtySize)
    (others : ℕ → List (Turn Op)) (last : List (Turn Op)) (m : Shared Process Todo) :
    Duplication :=
  match m.state.sm.duplicateSnapshot sourceIdx newName with
  | .error e => .refused e
  | .ok (dupName, insertAt, cwds) =>
    match spawnAmong w size cwds.length others cwds [] m with
    | (_, steps, .error e) => .failed steps e
    | (m, steps, .ok spawned) =>
      .ready steps (run (lockSections w).turn m last).state.sm dupName insertAt spawned

/-- What is answered. -/
def Duplication.answer (w : World) (size : PtySize) :
    Duplication → Except ForgettyError (Uuid × ℕ × List DuplicatedTab)
  | .refused e => .error e
  | .failed _ e => .error e
  | .ready _ before dupName insertAt spawned =>
    .ok (before.duplicateCommit w size dupName insertAt spawned).2

/-! ### What duplicating is for -/

/-- A new workspace is at the index, with a single leaf for every tab of the source; what was
there before is unchanged; the active workspace is the same one; and the source, if it is
still there, comes right before the new one. -/
structure CopyInserted (source : SessionWorkspace) (id : Uuid) (k : ℕ) (s t : SessionManager) :
    Prop where
  copy : ∃ ws, ws.id = id ∧ ws.tabs.length = source.tabs.length ∧
    (∀ tab ∈ ws.tabs, ∃ p, tab.paneTree = .leaf p) ∧ k ≤ s.layout.workspaces.length ∧
    t.layout.workspaces = s.layout.workspaces.insertIdx k ws
  panes : ∀ p pane, s.panes.get p = some pane → t.panes.get p = some pane
  active : (t.layout.workspaces[t.layout.activeWorkspace]?).map (·.id) =
    (s.layout.workspaces[s.layout.activeWorkspace]?).map (·.id)
  follows : ∀ j ws, s.layout.workspaces[j]? = some ws → ws.id = source.id → k = j + 1

/-- The copy is made whole, or no step of the duplication touched the session. -/
def Duplicates (w : World) (size : PtySize) (source : SessionWorkspace) : Duplication → Prop
  | .refused _ => True
  | .failed steps _ => ∀ step ∈ steps, Untouched step.1 step.2
  | .ready _ before dupName insertAt spawned =>
    let done := before.duplicateCommit w size dupName insertAt spawned
    CopyInserted source done.2.1 done.2.2.1 before done.1

/-- Where the second lock is taken the source is gone, or at the index it had, or last and
that index is past the end. -/
def SourceInPlace (source : SessionWorkspace) (sourceIdx : ℕ) : Duplication → Prop
  | .ready _ before _ _ _ =>
    ∀ j ws, before.layout.workspaces[j]? = some ws → ws.id = source.id →
      j = sourceIdx ∨ (before.layout.workspaces.length ≤ sourceIdx ∧
        j + 1 = before.layout.workspaces.length)
  | _ => True

section Phases

variable {w : World} {size : PtySize} {s t : SessionManager}

/-- The spawns come one after the other. -/
theorem duplicateSpawn_cons (total : ℕ) (cwd : Option PathBuf) (cwds : List (Option PathBuf))
    (acc : List (PaneId × PtyBridge × PathBuf)) (s : SessionManager) :
    duplicateSpawn w size total (cwd :: cwds) acc s =
      match duplicateSpawn w size total [cwd] acc s with
      | (t, .error e) => (t, .error e)
      | (t, .ok acc) => duplicateSpawn w size total cwds acc t := by
  simp only [duplicateSpawn]
  generalize PtyBridge.spawn w _ size cwd none none true = r
  cases r <;> rfl

theorem spawnAmong_alone (total : ℕ) (cwds : List (Option PathBuf))
    (acc : List (PaneId × PtyBridge × PathBuf)) (m : Shared Process Todo) :
    (spawnAmong w size total (fun _ => []) cwds acc m).1.state.sm =
        (duplicateSpawn w size total cwds acc m.state.sm).1 ∧
      (spawnAmong w size total (fun _ => []) cwds acc m).2.2 =
        (duplicateSpawn w size total cwds acc m.state.sm).2 := by
  induction cwds generalizing acc m with
  | nil => exact ⟨rfl, rfl⟩
  | cons cwd cwds ih =>
    rw [duplicateSpawn_cons, spawnAmong, run_nil]
    generalize duplicateSpawn w size total [cwd] acc m.state.sm = r
    obtain ⟨t, r⟩ := r
    cases r with
    | error e => exact ⟨rfl, rfl⟩
    | ok acc => exact ih acc _

/-- Without others the answer is that of the whole call. -/
theorem duplicateAmong_alone (w : World) (i : ℕ) (name : Option String) (size : PtySize)
    (m : Shared Process Todo) :
    (duplicateAmong w i name size (fun _ => []) [] m).answer w size =
      (m.state.sm.duplicateWorkspace w i name size).2 := by
  unfold duplicateAmong duplicateWorkspace
  cases m.state.sm.duplicateSnapshot i name with
  | error e => rfl
  | ok snapshot =>
    obtain ⟨dupName, insertAt, cwds⟩ := snapshot
    dsimp only
    obtain ⟨hstate, hout⟩ := @spawnAmong_alone w size cwds.length cwds [] m
    generalize spawnAmong w size cwds.length (fun _ => []) cwds [] m = among at hstate hout ⊢
    generalize duplicateSpawn w size cwds.length cwds [] m.state.sm = whole at hstate hout ⊢
    obtain ⟨m', steps, r⟩ := among
    obtain ⟨t, r'⟩ := whole
    obtain rfl : r = r' := hout
    obtain rfl : m'.state.sm = t := hstate
    cases r <;> rfl

/-- Every spawn leaves the session as it is, and what was spawned is new at the end. -/
theorem spawnAmong_spec (hw : Function.Injective w.newV4) (total : ℕ)
    (others : ℕ → List (Turn Op)) (dupName : String) (insertAt : ℕ)
    (cwds : List (Option PathBuf)) (acc : List (PaneId × PtyBridge × PathBuf))
    {m : Shared Process Todo}
    (h : Preparing w m.state.sm (m.pending ++ [.commit dupName insertAt size acc])) :
    let r := spawnAmong w size total others cwds acc m
    (∀ step ∈ r.2.1, Untouched step.1 step.2) ∧
      ∀ spawned, r.2.2 = .ok spawned →
        spawned.length = acc.length + cwds.length ∧
          Preparing w r.1.state.sm (r.1.pending ++ [.commit dupName insertAt size spawned]) := by
  induction cwds generalizing acc m with
  | nil =>
    refine ⟨fun step hstep => absurd hstep List.not_mem_nil, fun spawned hok => ?_⟩
    obtain rfl : acc = spawned := Except.ok.inj hok
    exact ⟨rfl, h⟩
  | cons cwd cwds ih =>
    have hturns := h.turns hw (others acc.length)
    rw [spawnAmong]
    generalize run (lockSections w).turn m (others acc.length) = m' at hturns ⊢
    have hstep := @untouched_duplicateSpawn w size total [cwd] acc m'.state.sm
    have hlen := (@duplicateSpawn_unchanged w size total [cwd] acc m'.state.sm).2
    have hnext (spawned : List (PaneId × PtyBridge × PathBuf))
        (hok : (duplicateSpawn w size total [cwd] acc m'.state.sm).2 = .ok spawned) :=
      (hturns.perm (List.perm_append_singleton _ _)).spawned hw hok
    generalize duplicateSpawn w size total [cwd] acc m'.state.sm = r at hstep hlen hnext ⊢
    obtain ⟨t, r⟩ := r
    cases r with
    | error e =>
      refine ⟨fun step hmem => ?_, fun spawned hok => nomatch hok⟩
      exact List.mem_singleton.mp hmem ▸ hstep
    | ok acc' =>
      have hrest := ih acc' (m := ⟨{ m'.state with sm := t }, m'.pending⟩)
        ((hnext acc' rfl).perm (List.perm_append_singleton _ _).symm)
      refine ⟨fun step hmem => ?_, fun spawned hok => ?_⟩
      · rcases List.mem_cons.mp hmem with rfl | hmem
        · exact hstep
        · exact hrest.1 step hmem
      · obtain ⟨hcount, hprepared⟩ := hrest.2 spawned hok
        have hone := hlen acc' rfl
        rw [List.length_singleton] at hone
        rw [hone] at hcount
        exact ⟨hcount.trans (by rw [List.length_cons]; omega), hprepared⟩

/-- The copy registers its own panes only. -/
theorem get_duplicateTabs (spawned : List (PaneId × PtyBridge × PathBuf)) {p : PaneId}
    (hp : p ∉ spawned.map (·.1)) (s : SessionManager) :
    (duplicateTabs w size spawned s).1.panes.get p = s.panes.get p := by
  induction spawned generalizing s with
  | nil => rfl
  | cons x spawned ih =>
    rw [List.map_cons, List.mem_cons, not_or] at hp
    rw [duplicateTabs]
    refine (ih hp.2 _).trans ?_
    rw [mint_panes, registerPane_panes]
    exact PMap.get_insert_of_ne hp.1

/-- Up to its place the copy is as it should be, whatever came before. -/
theorem copyInserted_iff {source : SessionWorkspace} {dupName : String} (insertAt : ℕ)
    {spawned : List (PaneId × PtyBridge × PathBuf)} {todo : List Todo}
    (h : Preparing w s (.commit dupName insertAt size spawned :: todo))
    (hlen : spawned.length = source.tabs.length) :
    CopyInserted source (s.duplicateCommit w size dupName insertAt spawned).2.1
        (s.duplicateCommit w size dupName insertAt spawned).2.2.1 s
        (s.duplicateCommit w size dupName insertAt spawned).1 ↔
      ∀ j ws, s.layout.workspaces[j]? = some ws → ws.id = source.id →
        min insertAt s.layout.workspaces.length = j + 1 := by
  obtain ⟨dupTabs, hanswer, hdup, hc⟩ :=
    @changed_duplicateCommit w size dupName insertAt spawned s
  have hpanes : (s.duplicateCommit w size dupName insertAt spawned).1.panes =
      (duplicateTabs w size spawned s.mint).1.panes := rfl
  rw [hanswer]
  dsimp only
  constructor
  · exact fun hcopy => hcopy.follows
  · intro hfollows
    refine ⟨⟨_, rfl, ?_, fun tab htab => ?_, Nat.min_le_right _ _, hc.workspaces⟩,
      fun p pane hp => ?_, ?_, hfollows⟩
    · rw [List.length_map, hdup, hlen]
    · obtain ⟨dt, -, rfl⟩ := List.mem_map.mp htab
      exact ⟨dt.paneId, rfl⟩
    · rw [hpanes, get_duplicateTabs spawned fun hmem => ?_]
      · exact hp
      · exact h.new p (List.mem_append_left _ hmem) (PMap.mem_of_get hp)
    · rw [hc.workspaces, hc.active, getElem?_insertIdx_shift]

end Phases

/-- However the turns of other clients come between the phases of a duplication: the copy is
made as it should be, or a spawn failed and the session was not touched, exactly if the
source, when it is still there, is where the copy is put behind it. -/
theorem duplicates_iff (w : World) (hw : Function.Injective w.newV4) (m : Shared Process Todo)
    (hm : Serving w m) (i : ℕ) (source : SessionWorkspace)
    (hsource : m.state.sm.layout.workspaces[i]? = some source) (name : Option String)
    (size : PtySize) (others : ℕ → List (Turn Op)) (last : List (Turn Op)) :
    Duplicates w size source (duplicateAmong w i name size others last m) ↔
      SourceInPlace source i (duplicateAmong w i name size others last m) := by
  unfold duplicateAmong
  rw [duplicateSnapshot, hsource]
  dsimp only
  generalize hcwds : source.tabs.map _ = cwds
  have hlen : cwds.length = source.tabs.length := by rw [← hcwds, List.length_map]
  generalize name.getD _ = dupName
  have hnone : Preparing w m.state.sm (m.pending ++ [.commit dupName (i + 1) size []]) :=
    (hm.preparing hw).congr (List.Perm.of_eq (by simp [Todo.prepared]))
  have hspec := spawnAmong_spec hw cwds.length others dupName (i + 1) cwds [] hnone
  generalize spawnAmong w size cwds.length others cwds [] m = r at hspec ⊢
  obtain ⟨m', steps, r⟩ := r
  cases r with
  | error e => exact iff_of_true hspec.1 trivial
  | ok spawned =>
    obtain ⟨hcount, hprepared⟩ := hspec.2 spawned rfl
    have hbefore := (hprepared.turns hw last).perm (List.perm_append_singleton _ _)
    rw [List.length_nil, Nat.zero_add, hlen] at hcount
    refine (copyInserted_iff (i + 1) hbefore hcount).trans ?_
    refine forall₂_congr fun j ws => forall₂_congr fun hws _ => ?_
    obtain ⟨hj, -⟩ := List.getElem?_eq_some_iff.mp hws
    dsimp only at hj ⊢
    omega

/-- Two workspaces, the first one with a tab. -/
def besideOther : Shared Process Todo :=
  run (lockSections .counting).turn ⟨Process.started (emptyStart .counting), []⟩
    [.start (.createTab 0 none .default none), .resume 0, .resume 0,
      .start (.createWorkspace "other")]

theorem serving_besideOther : Serving .counting besideOther :=
  ⟨_, _, started_emptyStart .counting, rfl⟩

/-- The workspace that is duplicated. -/
def firstWorkspace : SessionWorkspace :=
  { id := ⟨0⟩, name := "Default", tabs := [.ofLeaf ⟨2⟩ ⟨⟨1⟩⟩], activeTab := 0, color := none }

/-- Another client moves the source down meanwhile: the copy comes before it. -/
theorem not_duplicates_moved :
    Serving .counting besideOther ∧
      besideOther.state.sm.layout.workspaces[0]? = some firstWorkspace ∧
      ¬Duplicates .counting .default firstWorkspace (duplicateAmong .counting 0 none .default
        (fun _ => []) [.start (.moveWorkspace 0 1)] besideOther) := by
  refine ⟨serving_besideOther, by decide, fun h => ?_⟩
  have hk := CopyInserted.follows h 1 firstWorkspace (by decide) rfl
  exact absurd hk (by decide)

/-- Another client deletes the workspace behind the source before the spawn, and a third one
makes one before the commit. -/
theorem duplicates_behind :
    Duplicates .counting .default firstWorkspace (duplicateAmong .counting 0 none .default
      (fun _ => [.start (.deleteWorkspace 1)]) [.start (.createWorkspace "third")]
        besideOther) := by
  refine (duplicates_iff .counting World.counting_injective besideOther serving_besideOther 0
    firstWorkspace (by decide) none .default _ _).mpr ?_
  intro j ws hws hid
  have hfirst : ∀ x ∈ [firstWorkspace, emptyWorkspace ⟨5⟩ "third"].zipIdx,
      x.1.id = firstWorkspace.id → x.2 = 0 := by decide
  exact Or.inl (hfirst (ws, j) (List.mem_zipIdx_iff_getElem?.mpr hws) hid)

end Forgetty
