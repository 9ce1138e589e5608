import Forgetty.Daemon.Restore
import Mathlib.Data.List.Dedup

/-! The prune of orphan logs at the start of a daemon: it deletes the log files of all
panes but its own and those in the session files of `sessions/` and `trash/`. Running
daemons keep their sessions in `active/`, which it does not read. So the logs that are
safe are those of its own panes and of panes that are also in one of the two other
buckets. -/

namespace Forgetty

open Lib FileStore

/-- The entries of the logs directory. Other names are skipped. -/
inductive LogPath where
  | log (paneId : Uuid)
  /-- Left behind by a rotation that crashed. -/
  | logTmp (paneId : Uuid)
  deriving DecidableEq, Repr

def LogPath.paneId : LogPath → Uuid
  | log paneId | logTmp paneId => paneId

abbrev Logs := FileStore LogPath UInt8

/-- The panes named in a saved session, by its tabs and in their trees. -/
def WorkspaceState.collectPaneIds (state : WorkspaceState) : List Uuid :=
  state.workspaces.flatMap fun ws => ws.tabs.flatMap fun tab =>
    tab.paneId.toList ++ tab.paneTree.leaves.filterMap (·.paneId)

section Code

variable {α : Type} (os : Os Uuid) (codec : SessionCodec α)

/-- The names of a bucket, none when the directory cannot be read. -/
def listBucket (path : Uuid → FilePath) (d : Disk α) : Disk α × List Uuid :=
  let entries := d.readDir os path
  (entries.1, entries.2.toOption.getD [])

def listSessions (d : Disk α) : Disk α × List Uuid := listBucket os sessionPathFor d

def listTrashedSessions (d : Disk α) : Disk α × List Uuid := listBucket os trashPathFor d

/-- A file that cannot be read or parsed is skipped. -/
def collectFrom (path : Uuid → FilePath) : List Uuid → Disk α → Disk α × List Uuid
  | [], d => (d, [])
  | sessionId :: rest, d =>
    let loaded := loadFromPath os codec (path sessionId) d
    let ids := match loaded.2 with
      | .ok (some state) => state.collectPaneIds
      | _ => []
    let others := collectFrom path rest loaded.1
    (others.1, ids ++ others.2)

def allPersistedPaneIds (d : Disk α) : Disk α × List Uuid :=
  let sessions := listSessions os d
  let saved := collectFrom os codec sessionPathFor sessions.2 sessions.1
  let trashed := listTrashedSessions os saved.1
  let closed := collectFrom os codec trashPathFor trashed.2 trashed.1
  (closed.1, (saved.2 ++ closed.2).dedup)

/-- A file that cannot be deleted is skipped. -/
def pruneOrphanLogs (os : Os LogPath) (livePaneIds : List Uuid) (logs : Logs) : Logs :=
  let entries := logs.readDir os id
  (entries.2.toOption.getD []).foldl
    (fun logs entry =>
      if entry.paneId ∈ livePaneIds then logs else (logs.remove os entry).1)
    entries.1

/-- What a daemon does with the logs once it restored its session in `sm`. The list is
sorted besides, which does not matter. -/
def startUpPrune (osLogs : Os LogPath) (sm : SessionManager) (d : Disk α) (logs : Logs) : Logs :=
  let inMemory := sm.listPanes.map (·.uuid)
  let persisted := allPersistedPaneIds os codec d
  pruneOrphanLogs osLogs (inMemory ++ persisted.2).dedup logs

/-- The pane occurs in the session file. -/
def InFile (d : Disk α) (paneId : Uuid) (path : FilePath) : Prop :=
  ∃ c state, d.files.get path = some c ∧ codec.decode c = some state ∧
    paneId ∈ state.collectPaneIds

end Code

/-- The data directory while some daemons are running. -/
structure RunningDaemons (α : Type) where
  disk : Disk α
  logs : Logs
  daemons : List SessionManager

namespace RunningDaemons

section Claims

variable {α : Type} (codec : SessionCodec α) (r : RunningDaemons α)

/-- The pane is live in a daemon or occurs in a session file of one of the buckets. -/
def Needs (paneId : Uuid) : Prop :=
  (∃ sm ∈ r.daemons, ⟨paneId⟩ ∈ sm.listPanes) ∨ ∃ sessionId,
    InFile codec r.disk paneId (.active sessionId) ∨
    InFile codec r.disk paneId (.session sessionId) ∨ InFile codec r.disk paneId (.trash sessionId)

/-- No log that is needed is deleted when the daemon of `sm` starts. -/
def KeepsNeeded (os : Os Uuid) (osLogs : Os LogPath) (sm : SessionManager) : Prop :=
  ∀ paneId, r.Needs codec paneId → .log paneId ∈ r.logs.files →
    .log paneId ∈ (startUpPrune os codec osLogs sm r.disk r.logs).files

/-- The pane is one the prune knows of. -/
def Known (sm : SessionManager) (paneId : Uuid) : Prop :=
  ⟨paneId⟩ ∈ sm.listPanes ∨ ∃ sessionId,
    InFile codec r.disk paneId (.session sessionId) ∨ InFile codec r.disk paneId (.trash sessionId)

end Claims

end RunningDaemons

/-! ### What is collected and what is deleted -/

section Collecting

variable {α : Type} {os : Os Uuid} {codec : SessionCodec α} {path : Uuid → FilePath} {d : Disk α}
  {ids : List Uuid} {paneId : Uuid}

theorem loadFromPath_files (p : FilePath) : (loadFromPath os codec p d).1.files = d.files := by
  unfold loadFromPath
  split_ifs
  · have hread : (d.read os p).1.files = d.files := read_files p
    generalize d.read os p = r at hread ⊢
    obtain ⟨d', e | c⟩ := r <;> exact hread
  · rfl

theorem collectFrom_files : (collectFrom os codec path ids d).1.files = d.files := by
  induction ids generalizing d with
  | nil => rfl
  | cons sessionId rest ih => exact ih.trans (loadFromPath_files (path sessionId))

variable (hos : os.Works)
include hos

/-- What is loaded from a file is what the file holds. -/
theorem loadFromPath_works (p : FilePath) :
    (loadFromPath os codec p d).2 = .ok ((d.files.get p).bind codec.decode) := by
  by_cases h : p ∈ d.files
  · obtain ⟨c, hc⟩ := PMap.exists_get h
    rw [loadFromPath, if_pos h, read_works hos hc, hc]
    rfl
  · rw [loadFromPath, if_neg h, PMap.get_eq_none h]
    rfl

theorem mem_collectFrom :
    paneId ∈ (collectFrom os codec path ids d).2 ↔
      ∃ sessionId ∈ ids, InFile codec d paneId (path sessionId) := by
  induction ids generalizing d with
  | nil => simp [collectFrom]
  | cons sessionId rest ih =>
    have hsame (p : FilePath) :
        InFile codec (loadFromPath os codec (path sessionId) d).1 paneId p ↔
          InFile codec d paneId p := by
      rw [InFile, loadFromPath_files, InFile]
    have hfirst : paneId ∈ (match (loadFromPath os codec (path sessionId) d).2 with
        | .ok (some state) => state.collectPaneIds
        | _ => []) ↔ InFile codec d paneId (path sessionId) := by
      rw [loadFromPath_works hos, InFile]
      cases hget : d.files.get (path sessionId) with
      | none => simp
      | some c => cases hdec : codec.decode c <;> simp [hdec]
    simp only [collectFrom, List.mem_append, hfirst, ih, hsame, List.mem_cons, exists_eq_or_imp]

theorem mem_listBucket {sessionId : Uuid}
    (hlist : path sessionId ∈ d.files → ∀ n, sessionId ∈ os.names n) :
    sessionId ∈ (listBucket os path d).2 ↔ path sessionId ∈ d.files := by
  simp only [listBucket, readDir_works hos, Except.toOption, Option.getD_some, List.mem_filter,
    decide_eq_true_eq]
  exact ⟨And.right, fun h => ⟨hlist h _, h⟩⟩

/-- What is collected is what occurs in a file of the two buckets. -/
theorem mem_allPersistedPaneIds
    (hlist : ∀ u, .session u ∈ d.files ∨ .trash u ∈ d.files → ∀ n, u ∈ os.names n) :
    paneId ∈ (allPersistedPaneIds os codec d).2 ↔ ∃ sessionId,
      InFile codec d paneId (.session sessionId) ∨ InFile codec d paneId (.trash sessionId) := by
  have hfile {p : FilePath} (h : InFile codec d paneId p) : p ∈ d.files := by
    obtain ⟨c, state, hc, -⟩ := h
    exact PMap.mem_of_get hc
  have hsaved : (collectFrom os codec sessionPathFor (listSessions os d).2
      (listSessions os d).1).1.files = d.files := collectFrom_files
  have hinFile (d' : Disk α) (h : d'.files = d.files) (p : FilePath) :
      InFile codec d' paneId p ↔ InFile codec d paneId p := by rw [InFile, h, InFile]
  simp only [allPersistedPaneIds, List.mem_dedup, List.mem_append, mem_collectFrom hos]
  rw [exists_or]
  refine or_congr (exists_congr fun u => ?_) (exists_congr fun u => ?_)
  · rw [hinFile _ rfl, listSessions, mem_listBucket hos fun h => hlist u (Or.inl h)]
    exact ⟨And.right, fun h => ⟨hfile h, h⟩⟩
  · have hmem : u ∈ (listTrashedSessions os (collectFrom os codec sessionPathFor
        (listSessions os d).2 (listSessions os d).1).1).2 ↔ .trash u ∈ d.files := by
      rw [listTrashedSessions, mem_listBucket hos, hsaved]
      rw [hsaved]
      exact fun h => hlist u (Or.inr h)
    have hlisted : (listTrashedSessions os (collectFrom os codec sessionPathFor
        (listSessions os d).2 (listSessions os d).1).1).1.files = d.files := hsaved
    rw [hmem, hinFile _ hlisted]
    exact ⟨And.right, fun h => ⟨hfile h, h⟩⟩

end Collecting

section Pruning

variable {os : Os LogPath} {live : List Uuid} {logs : Logs} {q : LogPath}
variable (hos : os.Works)
include hos

theorem mem_pruneEntries {entries : List LogPath} :
    q ∈ (entries.foldl (fun logs entry =>
      if entry.paneId ∈ live then logs else (logs.remove os entry).1) logs).files ↔
      q ∈ logs.files ∧ (q ∈ entries → q.paneId ∈ live) := by
  induction entries generalizing logs with
  | nil => simp
  | cons entry rest ih =>
    have hstep : q ∈ (if entry.paneId ∈ live then logs else (logs.remove os entry).1).files ↔
        q ∈ logs.files ∧ (q = entry → q.paneId ∈ live) := by
      split_ifs with hlive
      · exact ⟨fun h => ⟨h, fun hq => hq ▸ hlive⟩, And.left⟩
      · by_cases hfile : entry ∈ logs.files
        · rw [remove_works hos hfile]
          simp only [PMap.mem_erase]
          constructor
          · exact fun h => ⟨h.2, fun hq => absurd hq h.1⟩
          · exact fun h => ⟨fun hq => hlive (hq ▸ h.2 hq), h.1⟩
        · have hremove : (logs.remove os entry).1.files = logs.files := by
            simp [FileStore.remove, hos logs.calls, PMap.get_eq_none hfile]
          rw [hremove]
          exact ⟨fun h => ⟨h, fun hq => absurd (hq ▸ h) hfile⟩, And.left⟩
    rw [List.foldl_cons, ih, hstep, List.mem_cons]
    tauto

/-- The prune keeps exactly the files of the panes it is given. -/
theorem mem_pruneOrphanLogs (hlist : ∀ n, q ∈ logs.files → q ∈ os.names n) :
    q ∈ (pruneOrphanLogs os live logs).files ↔ q ∈ logs.files ∧ q.paneId ∈ live := by
  simp only [pruneOrphanLogs, readDir_works hos, Except.toOption, Option.getD_some,
    mem_pruneEntries hos, count_files, List.mem_filter, id_eq, decide_eq_true_eq]
  exact ⟨fun h => ⟨h.1, h.2 ⟨hlist _ h.1, h.1⟩⟩, fun h => ⟨h.1, fun _ => h.2⟩⟩

end Pruning

namespace RunningDaemons

section Exact

variable {α : Type} {codec : SessionCodec α} {r : RunningDaemons α} {os : Os Uuid}
  {osLogs : Os LogPath}

/-- A log stays exactly if the prune knows its pane. -/
theorem mem_startUpPrune (hos : os.Works) (hosLogs : osLogs.Works)
    (hlist : ∀ u, .session u ∈ r.disk.files ∨ .trash u ∈ r.disk.files → ∀ n, u ∈ os.names n)
    (hlogs : ∀ q ∈ r.logs.files, ∀ n, q ∈ osLogs.names n) (sm : SessionManager) (q : LogPath) :
    q ∈ (startUpPrune os codec osLogs sm r.disk r.logs).files ↔
      q ∈ r.logs.files ∧ r.Known codec sm q.paneId := by
  have hmem : (∃ p ∈ sm.listPanes, p.uuid = q.paneId) ↔ ⟨q.paneId⟩ ∈ sm.listPanes := by
    constructor
    · rintro ⟨p, hp, hq⟩
      exact hq ▸ hp
    · exact fun h => ⟨_, h, rfl⟩
  rw [startUpPrune, mem_pruneOrphanLogs hosLogs fun n h => hlogs q h n]
  simp only [List.mem_dedup, List.mem_append, List.mem_map, mem_allPersistedPaneIds hos hlist, hmem,
    Known]

/-- When a daemon starts beside any others, no log that is needed is deleted exactly if
each belongs to a pane of its own or to one that occurs in a file of `sessions/` or
`trash/`. -/
theorem keepsNeeded_iff (hos : os.Works) (hosLogs : osLogs.Works)
    (hlist : ∀ u, .session u ∈ r.disk.files ∨ .trash u ∈ r.disk.files → ∀ n, u ∈ os.names n)
    (hlogs : ∀ q ∈ r.logs.files, ∀ n, q ∈ osLogs.names n) (sm : SessionManager) :
    r.KeepsNeeded codec os osLogs sm ↔
      ∀ paneId, r.Needs codec paneId → .log paneId ∈ r.logs.files → r.Known codec sm paneId := by
  refine forall_congr' fun paneId => forall_congr' fun _ => forall_congr' fun hlog => ?_
  rw [mem_startUpPrune hos hosLogs hlist hlogs]
  exact ⟨And.right, fun h => ⟨hlog, h⟩⟩

end Exact

end RunningDaemons

/-! A daemon that has a pane and saved its session, and a second one that starts for
another window. -/

def everyCallWorks {ν : Type} (names : List ν) : Os ν where
  answer _ := .works
  names _ := names

def onePaneDaemon : SessionManager :=
  (SessionManager.new .counting .empty).apply .counting (.createTab 0 none .default none)

def besideOnePane : RunningDaemons WorkspaceState where
  disk := (moveToActive (everyCallWorks []) .doubled ⟨7⟩ (onePaneDaemon.toWorkspaceState .counting)
    ⟨.empty, 0, []⟩).1
  logs := ⟨PMap.empty.insert (.log ⟨1⟩) [], 0, []⟩
  daemons := [onePaneDaemon]

theorem not_keepsNeeded_besideOnePane :
    ¬besideOnePane.KeepsNeeded .doubled (everyCallWorks [⟨7⟩]) (everyCallWorks [.log ⟨1⟩])
      (SessionManager.new .counting .empty) := by
  intro h
  have hneeds : besideOnePane.Needs .doubled ⟨1⟩ :=
    Or.inl ⟨onePaneDaemon, List.mem_singleton_self _, by decide⟩
  exact absurd (h ⟨1⟩ hneeds (by decide)) (by decide)

/-- Its own start is harmless. -/
theorem keepsNeeded_restarted :
    besideOnePane.KeepsNeeded .doubled (everyCallWorks [⟨7⟩]) (everyCallWorks [.log ⟨1⟩])
      onePaneDaemon := by
  have hfiles : besideOnePane.disk.files = _ := (saveToPath_works (fun _ => rfl) _ (by decide)).2
  have hlogs (q : LogPath) (h : q ∈ besideOnePane.logs.files) : q = .log ⟨1⟩ := by
    simpa [besideOnePane] using h
  refine (RunningDaemons.keepsNeeded_iff (fun _ => rfl) (fun _ => rfl) ?_ ?_ _).mpr ?_
  · intro u hu
    simp [hfiles] at hu
  · exact fun q hq n => List.mem_singleton.mpr (hlogs q hq)
  · rintro paneId - hlog
    obtain rfl : paneId = ⟨1⟩ := by simpa using hlogs _ hlog
    exact Or.inl (by decide)

end Forgetty
