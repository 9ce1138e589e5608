import Forgetty.Session.Failures
import Forgetty.Socket.Dispatch
import Forgetty.Workspace.AtomicSave

/-! What a refused request leaves behind. Every answer carries the id of its request and is a
result or an error, and an error means that nothing has happened, but for five methods: creating a
workspace keeps the workspace when its tab cannot be made, pinning is kept when it cannot be
saved, with the working directories read anew for it and perhaps a session file cut off, a device
is revoked in memory when the registry cannot be saved, and a terminal may have taken some of the
bytes it was to take. -/

namespace Forgetty

open Lib SessionManager

/-! ### Handlers on the session -/

/-- What a handler on the session keeps to. -/
structure Serves (w : World) (req : Request) (s : SessionManager)
    (made : SessionManager × Response) : Prop where
  id_eq : made.2.id = req.id
  exclusive : made.2.result.isSome = !made.2.error.isSome
  shown : LiveShown s → LiveShown made.1
  clean : LiveShown s → made.2.error.isSome → Untouched s made.1

section Rules

variable {w : World} {req : Request} {s : SessionManager} {α : Type}

theorem serves_failure (code : ℤ) (message : String) :
    Serves w req s (s, .failure req.id code message) where
  id_eq := rfl
  exclusive := rfl
  shown := id
  clean _ _ := .refl s

/-- A handler that ends in a call and answers an error if the call does. -/
theorem serves_op (hw : Function.Injective w.newV4) (op : Op)
    {made : SessionManager × Except ForgettyError α}
    (hmade : made.map id (Except.map fun _ => ()) = op.exec w s)
    {reply : Except ForgettyError α → Response} (hid : ∀ r, (reply r).id = req.id)
    (hok : ∀ x, (reply (.ok x)).result.isSome = true ∧ (reply (.ok x)).error = none)
    (herror : ∀ e, (reply (.error e)).result = none ∧ (reply (.error e)).error.isSome = true) :
    Serves w req s (made.map id reply) where
  id_eq := hid _
  exclusive := by
    obtain ⟨t, r⟩ := made
    cases r with
    | ok x => simp [hok x]
    | error e => simp [herror e]
  shown h := by
    have ht := liveShown_apply hw h op
    rw [SessionManager.apply, ← hmade] at ht
    exact ht
  clean h hr := by
    have hclean := failsClean_op (w := w) h op
    rw [← hmade] at hclean
    obtain ⟨t, r⟩ := made
    cases r with
    | ok x =>
      rw [show (Prod.map id reply (t, Except.ok x)).2 = reply (.ok x) from rfl, (hok x).2] at hr
      cases hr
    | error e => exact hclean e rfl

theorem serves_replyOk (hw : Function.Injective w.newV4) (op : Op)
    {made : SessionManager × Except ForgettyError Unit} (hmade : made = op.exec w s) (code : ℤ)
    (label : String) : Serves w req s (made.map id (replyOk req code label)) := by
  refine serves_op hw op ?_ (fun r => ?_) (fun _ => ⟨rfl, rfl⟩) (fun _ => ⟨rfl, rfl⟩)
  · rw [← hmade]
    obtain ⟨t, _ | _⟩ := made <;> rfl
  · cases r <;> rfl

end Rules

section Handlers

variable {w : World} {req : Request} {s : SessionManager}

/-- What is refused while the parameters are read is refused by a failure. -/
theorem requireIdx_error {key hint : String} {r : Response}
    (h : requireIdx req key hint = .error r) : ∃ code message, r = .failure req.id code message := by
  unfold requireIdx at h
  split at h
  · cases h
  · cases h
    exact ⟨_, _, rfl⟩

theorem requirePaneId_error {r : Response} (h : requirePaneId req s = .error r) :
    ∃ code message, r = .failure req.id code message := by
  unfold requirePaneId at h
  split at h
  · cases h
    exact ⟨_, _, rfl⟩
  · split at h
    · cases h
      exact ⟨_, _, rfl⟩
    · split_ifs at h
      cases h
      exact ⟨_, _, rfl⟩

theorem requireUuid_error {key invalid : String} {r : Response}
    (h : requireUuid req key invalid = .error r) :
    ∃ code message, r = .failure req.id code message := by
  unfold requireUuid at h
  split at h
  · cases h
    exact ⟨_, _, rfl⟩
  · split at h
    · cases h
      exact ⟨_, _, rfl⟩
    · cases h

theorem optionalPaneId_error {σ : Type} {lib : JsonText σ} {r : Response}
    (h : optionalPaneId req lib = .error r) : ∃ code message, r = .failure req.id code message := by
  unfold optionalPaneId at h
  split at h
  · cases h
  · cases h
  · split at h
    · cases h
      exact ⟨_, _, rfl⟩
    · cases h
  · cases h
    exact ⟨_, _, rfl⟩

theorem serves_error {r : Response} (h : ∃ code message, r = .failure req.id code message) :
    Serves w req s (s, r) := by
  obtain ⟨code, message, rfl⟩ := h
  exact serves_failure code message

variable (hw : Function.Injective w.newV4)

include hw

theorem serves_handleNewTab (isDir : PathBuf → Bool) :
    Serves w req s (handleNewTab w isDir req s) := by
  unfold handleNewTab
  refine serves_op hw (.createTab _ _ _ _) rfl (fun r => ?_) (fun _ => ⟨rfl, rfl⟩)
    (fun _ => ⟨rfl, rfl⟩)
  cases r <;> rfl

theorem serves_handleSplitPane (isDir : PathBuf → Bool) :
    Serves w req s (handleSplitPane w isDir req s) := by
  unfold handleSplitPane
  split
  · rename_i h
    exact serves_error (requirePaneId_error h)
  · split
    · exact serves_failure _ _
    · split_ifs
      · exact serves_failure _ _
      · refine serves_op hw (.splitPane _ _ _ _) rfl (fun r => ?_) (fun _ => ⟨rfl, rfl⟩)
          (fun _ => ⟨rfl, rfl⟩)
        cases r <;> rfl

theorem serves_handleResizePane (resize : PaneId → PtySize → Except String Unit) :
    Serves w req s (handleResizePane req s resize) := by
  unfold handleResizePane
  split
  · rename_i h
    exact serves_error (requirePaneId_error h)
  · split
    · exact serves_failure _ _
    · split
      · exact serves_failure _ _
      · exact serves_replyOk hw (.resizePane _ _ _) rfl _ _

theorem serves_handleClosePane : Serves w req s (handleClosePane w req s) := by
  unfold handleClosePane
  split
  · rename_i h
    exact serves_error (requirePaneId_error h)
  · unfold closePaneRpc
    split
    · split_ifs
      · exact serves_replyOk hw (.closeTab _) rfl _ _
      · exact serves_replyOk hw (.closePane _) rfl _ _
    · exact serves_replyOk hw (.closePane _) rfl _ _

theorem serves_handleCloseTab : Serves w req s (handleCloseTab w req s) := by
  unfold handleCloseTab
  split
  · split
    · exact serves_failure _ _
    · exact serves_replyOk hw (.closeTab _) rfl _ _
  · split
    · exact serves_failure _ _
    · split_ifs
      · exact serves_failure _ _
      · unfold closeTabByPaneRpc
        split
        · exact serves_replyOk hw (.closeTab _) rfl _ _
        · exact serves_replyOk hw (.closePane _) rfl _ _
  · exact serves_failure _ _

theorem serves_handleFocusTab : Serves w req s (handleFocusTab req s) := by
  unfold handleFocusTab
  split
  · rename_i h
    exact serves_error (requireUuid_error h)
  · split
    · exact serves_failure _ _
    · exact serves_replyOk hw (.setActiveTab _ _) rfl _ _

theorem serves_handleMoveTab : Serves w req s (handleMoveTab req s) := by
  unfold handleMoveTab
  split
  · rename_i h
    exact serves_error (requireUuid_error h)
  · split
    · rename_i h
      exact serves_error (requireIdx_error h)
    · exact serves_replyOk hw (.moveTab _ _) rfl _ _

theorem serves_handleIdx {key hint : String} {code : ℤ} {label : String}
    {call : ℕ → SessionManager → SessionManager × Except ForgettyError Unit} (op : ℕ → Op)
    (hop : ∀ n, call n s = (op n).exec w s) :
    Serves w req s (handleIdx key hint code label call req s) := by
  unfold handleIdx
  split
  · rename_i h
    exact serves_error (requireIdx_error h)
  · exact serves_replyOk hw (op _) (hop _) _ _

theorem serves_handleMoveWorkspace : Serves w req s (handleMoveWorkspace req s) := by
  unfold handleMoveWorkspace
  split
  · rename_i h
    exact serves_error (requireIdx_error h)
  · split
    · rename_i h
      exact serves_error (requireIdx_error h)
    · exact serves_replyOk hw (.moveWorkspace _ _) rfl _ _

theorem serves_handleRenameWorkspace : Serves w req s (handleRenameWorkspace req s) := by
  unfold handleRenameWorkspace
  split
  · rename_i h
    exact serves_error (requireIdx_error h)
  · split
    · exact serves_failure _ _
    · exact serves_replyOk hw (.renameWorkspace _ _) rfl _ _

theorem serves_handleSetWorkspaceColor : Serves w req s (handleSetWorkspaceColor req s) := by
  unfold handleSetWorkspaceColor
  split
  · rename_i h
    exact serves_error (requireIdx_error h)
  · exact serves_replyOk hw (.setWorkspaceColor _ _) rfl _ _

theorem serves_handleDuplicateWorkspace : Serves w req s (handleDuplicateWorkspace w req s) := by
  unfold handleDuplicateWorkspace
  split
  · rename_i h
    exact serves_error (requireIdx_error h)
  · refine serves_op hw (.duplicateWorkspace _ _ _) rfl (fun r => ?_) (fun _ => ⟨rfl, rfl⟩)
      (fun _ => ⟨rfl, rfl⟩)
    cases r <;> rfl

theorem serves_handleSetActivePane {σ : Type} (lib : JsonText σ) :
    Serves w req s (handleSetActivePane req s lib) := by
  unfold handleSetActivePane
  split
  · rename_i h
    exact serves_error (requireIdx_error h)
  · split
    · rename_i h
      exact serves_error (requireUuid_error h)
    · split
      · rename_i h
        exact serves_error (optionalPaneId_error h)
      · exact serves_replyOk hw (.setActivePane _ _ _) rfl _ _

theorem serves_handleUpdateSplitRatios {σ : Type} (lib : JsonText σ) :
    Serves w req s (handleUpdateSplitRatios req s lib) := by
  unfold handleUpdateSplitRatios
  split
  · exact serves_failure _ _
  · exact {
      id_eq := rfl
      exclusive := rfl
      shown := fun h => liveShown_apply hw h (.updateSplitRatios _)
      clean := fun _ hr => nomatch hr }

end Handlers

/-! ### The daemon -/

namespace Daemon

variable {α β ν σ : Type}

/-- Nothing but the session. -/
structure SameOutside (d d' : Daemon α β) : Prop where
  typed : d'.typed = d.typed
  interrupted : d'.interrupted = d.interrupted
  devices : d'.devices = d.devices
  pairing : d'.pairing = d.pairing
  revoked : d'.revoked = d.revoked
  disk : d'.disk = d.disk

/-- The pane and the bytes that a request asks to be written. -/
def Asks (host : Host) (req : Request) (sm : SessionManager) (id : PaneId) (data : Bytes) : Prop :=
  requirePaneId req sm = .ok id ∧
    (req.method = Method.sendInput.name ∧
        (req.strParam "data").bind (fun dataB64 => Base64.decode dataB64.toList) = some data ∨
      req.method = Method.sendSigint.name ∧ data = [(host.intrByte id).getD 3])

/-- The file of the session is as it was or has a beginning of the new text, and but for it and
the temporary file beside it the files are as they were. -/
structure FileCut (svc : Service α β ν σ) (sid : Uuid) (state : WorkspaceState)
    (disk disk' : Disk β) : Prop where
  others : FileStore.Within (fun q => q = .active sid ∨ q = .jsonTmp (.active sid)) disk disk'
  file : disk'.files.get (.active sid) = disk.files.get (.active sid) ∨
    ∃ k, disk'.files.get (.active sid) = some ((svc.sessionCodec.encode state).take k)

/-- What a refused request may have done all the same. -/
inductive LeftBehind (svc : Service α β ν σ) (host : Host) (req : Request) (d d' : Daemon α β) :
    Prop where
  | nothing (session : Untouched d.sm d'.sm) (same : SameOutside d d')
  | workspace (method : req.method = Method.createWorkspace.name)
      (session : Untouched
        (d.sm.createWorkspace svc.w ((req.strParam "name").getD "Workspace")).1 d'.sm)
      (same : SameOutside d d')
  | pin (method : req.method = Method.setPinned.name) (pinned : Bool)
      (asked : req.boolParam "pinned" = some pinned) (sid : Uuid)
      (started : svc.sessionId = some sid)
      (session : d'.sm = (d.sm.setPinned pinned).refreshPaneCwds host.procCwd)
      (cut : FileCut svc sid
        ((d.sm.setPinned pinned).snapshotToWorkspaceState svc.w host.procCwd).2 d.disk d'.disk)
      (same : SameOutside { d with disk := d'.disk } d')
  | device (method : req.method = Method.revokeDevice.name) (deviceId : String)
      (asked : req.strParam "device_id" = some deviceId)
      (memory : d'.devices.registry = d.devices.registry.retainOthers deviceId)
      (file : d'.devices.disk.files.get .file = d.devices.disk.files.get .file)
      (session : d'.sm = d.sm) (same : SameOutside { d with devices := d'.devices } d')
  | bytes (id : PaneId) (data written : Bytes) (asks : Asks host req d.sm id data)
      (beginning : written <+: data) (typed : d'.typed = d.typed ++ [(id, written)])
      (session : d'.sm = d.sm) (same : SameOutside { d with typed := d'.typed } d')

/-- What the answer of a request says, and what the request leaves. -/
structure Answers (svc : Service α β ν σ) (host : Host) (req : Request) (d : Daemon α β)
    (made : Daemon α β × Response) : Prop where
  id_eq : made.2.id = req.id
  exclusive : made.2.result.isSome = !made.2.error.isSome
  shown : LiveShown d.sm → LiveShown made.1.sm
  left : LiveShown d.sm → made.2.error.isSome → LeftBehind svc host req d made.1

section Rules

variable {svc : Service α β ν σ} {host : Host} {req : Request} {d : Daemon α β}

theorem SameOutside.refl (d : Daemon α β) : SameOutside d d := ⟨rfl, rfl, rfl, rfl, rfl, rfl⟩

theorem answers_failure (code : ℤ) (message : String) :
    Answers svc host req d (d, .failure req.id code message) where
  id_eq := rfl
  exclusive := rfl
  shown := id
  left _ _ := .nothing (.refl _) (.refl d)

theorem answers_error {r : Response} (h : ∃ code message, r = .failure req.id code message) :
    Answers svc host req d (d, r) := by
  obtain ⟨code, message, rfl⟩ := h
  exact answers_failure code message

/-- An answer that is a result. -/
theorem answers_success {d' : Daemon α β} {r : Response} (hid : r.id = req.id)
    (hresult : r.result.isSome = true) (herror : r.error = none)
    (hshown : LiveShown d.sm → LiveShown d'.sm) : Answers svc host req d (d', r) where
  id_eq := hid
  exclusive := by simp [hresult, herror]
  shown := hshown
  left _ hr := by
    rw [herror] at hr
    cases hr

theorem answers_onSession {f : SessionManager → SessionManager × Response}
    (h : Serves svc.w req d.sm (f d.sm)) : Answers svc host req d (d.onSession f) where
  id_eq := h.id_eq
  exclusive := h.exclusive
  shown := h.shown
  left hs hr := .nothing (h.clean hs hr) ⟨rfl, rfl, rfl, rfl, rfl, rfl⟩

theorem answers_onSync {f : String → Daemon α β → Daemon α β × Response}
    (h : ∀ nodeId, Answers svc host req d (f nodeId d)) :
    Answers svc host req d (d.onSync svc req f) := by
  unfold onSync
  split
  · exact answers_failure _ _
  · exact h _

end Rules

section Handlers

variable {svc : Service α β ν σ} {host : Host} {req : Request} {d : Daemon α β}

/-- A workspace without its tab, or the workspace with it. -/
theorem answers_handleCreateWorkspace (hw : Function.Injective svc.w.newV4)
    (hm : req.method = Method.createWorkspace.name) :
    Answers svc host req d (d.onSession (handleCreateWorkspace svc.w req)) := by
  set name := (req.strParam "name").getD "Workspace" with hname
  have hcreate := fun h : LiveShown d.sm => liveShown_apply hw h (.createWorkspace name)
  set made := d.sm.createWorkspace svc.w name with hmade
  have htab := fun h : LiveShown d.sm =>
    liveShown_apply hw (hcreate h) (.createTab made.2.2 none .default none)
  have hclean := fun h : LiveShown d.sm =>
    failsClean_op (w := svc.w) (hcreate h) (.createTab made.2.2 none .default none)
  simp only [onSession, handleCreateWorkspace, createWorkspaceRpc, ← hname, ← hmade]
  simp only [SessionManager.apply, Op.exec, ← hmade] at hcreate htab hclean
  rcases hr : made.1.createTab svc.w made.2.2 none .default none with ⟨sm, e | ⟨paneId, tabId⟩⟩
  · rw [hr] at htab hclean
    exact {
      id_eq := rfl
      exclusive := rfl
      shown := htab
      left := fun h _ => .workspace hm (hclean h e rfl) ⟨rfl, rfl, rfl, rfl, rfl, rfl⟩ }
  · rw [hr] at htab
    exact answers_success rfl rfl rfl htab

theorem liveShown_pinned {s : SessionManager} (h : LiveShown s) (pinned : Bool)
    (procCwd : ℕ → Option PathBuf) : LiveShown ((s.setPinned pinned).refreshPaneCwds procCwd) where
  leaf p hp := h.leaf p ((refreshPaneCwds_mem_panes procCwd _ p).mp hp)
  workspaces := h.workspaces

theorem answers_handleSetPinned (hm : req.method = Method.setPinned.name) :
    Answers svc host req d
      (d.handleSetPinned svc.w svc.osSessions svc.sessionCodec host req svc.sessionId) := by
  unfold handleSetPinned
  split
  · exact answers_failure _ _
  · rename_i pinned hasked
    split
    · exact answers_success rfl rfl rfl fun h => ⟨h.leaf, h.workspaces⟩
    · rename_i sid hsid
      dsimp only
      split
      · rename_i disk e hsave
        have hcut : FileCut svc sid
            ((d.sm.setPinned pinned).snapshotToWorkspaceState svc.w host.procCwd).2 d.disk disk := by
          obtain rfl : _ = disk := congrArg Prod.fst hsave
          exact ⟨saveToPath_within _ (.inl rfl) (.inr rfl), saveToPath_get _ _ _ _ _⟩
        exact {
          id_eq := rfl
          exclusive := rfl
          shown := fun h => liveShown_pinned h pinned host.procCwd
          left := fun _ _ =>
            .pin hm pinned hasked sid hsid rfl hcut ⟨rfl, rfl, rfl, rfl, rfl, rfl⟩ }
      · exact answers_success rfl rfl rfl fun h => liveShown_pinned h pinned host.procCwd

/-- A device that cannot be revoked is gone from memory, and is still in the file. -/
theorem remove_error {os : Os ν} {codec : RegistryCodec α} {deviceId : String}
    {r r' : DeviceRegistry} {disk disk' : RegistryDisk α} {e : IoError}
    (h : r.remove os codec deviceId disk = (r', disk', .error e)) :
    r' = r.retainOthers deviceId ∧ disk'.files.get .file = disk.files.get .file := by
  unfold DeviceRegistry.remove at h
  dsimp only at h
  split_ifs at h
  · refine ⟨(congrArg Prod.fst h).symm, ?_⟩
    have hsaved := congrArg Prod.snd h
    by_cases hsaves : DeviceStore.Saves os disk
    · obtain ⟨-, hok⟩ := @DeviceStore.save_of_saves _ _ os codec disk
        (r.retainOthers deviceId) hsaves
      rcases hsave : (r.retainOthers deviceId).save os codec disk with ⟨d', u⟩
      rw [hsave] at hok hsaved
      subst hok
      cases congrArg Prod.snd hsaved
    · obtain ⟨hfile, e', herror⟩ := @DeviceStore.save_of_not_saves _ _ os codec disk
        (r.retainOthers deviceId) hsaves
      rcases hsave : (r.retainOthers deviceId).save os codec disk with ⟨d', u⟩
      rw [hsave] at hfile herror hsaved
      subst herror
      obtain rfl : d' = disk' := congrArg Prod.fst hsaved
      exact hfile
  · cases congrArg (·.2.2) h

theorem answers_handleRevokeDevice (hm : req.method = Method.revokeDevice.name) :
    Answers svc host req d (d.handleRevokeDevice svc.osDevices svc.devicesCodec req) := by
  unfold handleRevokeDevice
  split
  · exact answers_failure _ _
  · rename_i deviceId hasked
    split
    · rename_i heq
      exact {
        id_eq := rfl
        exclusive := rfl
        shown := id
        left := fun _ _ =>
          .device hm deviceId hasked (remove_error heq).1 (remove_error heq).2 rfl
            ⟨rfl, rfl, rfl, rfl, rfl, rfl⟩ }
    · exact answers_success rfl rfl rfl id

variable (host) in
/-- A terminal takes all of the bytes, or fails behind some of them. -/
theorem writePty_live {id : PaneId} (hid : id ∈ d.sm.panes) (data : Bytes) :
    (∃ k e, d.writePty host id data =
      ({ d with typed := d.typed ++ [(id, data.take k)] }, .error e)) ∨
    d.writePty host id data = ({ d with typed := d.typed ++ [(id, data)] }, .ok ()) := by
  obtain ⟨pane, hpane⟩ := PMap.exists_get hid
  simp only [writePty, hpane]
  cases host.write id data with
  | error e => exact .inl ⟨e.1, _, rfl⟩
  | ok _ => exact .inr rfl

theorem requirePaneId_mem {s : SessionManager} {p : PaneId} (h : requirePaneId req s = .ok p) :
    p ∈ s.panes := (requirePaneId_eq_ok_iff.mp h).choose_spec.2.2

/-- The write of what a request asks for fails behind some of the bytes. -/
theorem answers_cut {id : PaneId} {data : Bytes} (hasks : Asks host req d.sm id data) (k : ℕ)
    (code : ℤ) (message : String) :
    Answers svc host req d
      ({ d with typed := d.typed ++ [(id, data.take k)] }, .failure req.id code message) where
  id_eq := rfl
  exclusive := rfl
  shown hs := hs
  left _ _ :=
    .bytes id data _ hasks (List.take_prefix k data) rfl rfl ⟨rfl, rfl, rfl, rfl, rfl, rfl⟩

theorem answers_handleSendInput (hm : req.method = Method.sendInput.name) :
    Answers svc host req d (d.handleSendInput host req) := by
  unfold handleSendInput
  split
  · rename_i h
    exact answers_error (requirePaneId_error h)
  · rename_i id h
    split
    · exact answers_failure _ _
    · rename_i dataB64 hdata
      split
      · exact answers_failure _ _
      · rename_i bytes hbytes
        have hasks : Asks host req d.sm id bytes :=
          ⟨h, .inl ⟨hm, by rw [hdata, Option.bind_some, hbytes]⟩⟩
        rcases writePty_live host (requirePaneId_mem h) bytes with ⟨k, e, heq⟩ | heq
        · rw [heq]
          exact answers_cut hasks k _ _
        · rw [heq]
          exact answers_success rfl rfl rfl fun hs => hs

theorem answers_handleSendSigint (hm : req.method = Method.sendSigint.name) :
    Answers svc host req d (d.handleSendSigint host req) := by
  unfold handleSendSigint
  split
  · rename_i h
    exact answers_error (requirePaneId_error h)
  · rename_i id h
    rcases writePty_live host (requirePaneId_mem h) [(host.intrByte id).getD 3]
      with ⟨k, e, heq⟩ | heq
    · rw [heq]
      exact answers_cut ⟨h, .inr ⟨hm, rfl⟩⟩ k _ _
    · rw [heq]
      refine answers_success rfl rfl rfl fun hs => ?_
      unfold sendSigint
      split_ifs <;> exact hs

theorem answers_handleGetPaneInfo :
    Answers svc host req d (d, handleGetPaneInfo req d.sm) := by
  unfold handleGetPaneInfo
  split
  · rename_i h
    exact answers_error (requirePaneId_error h)
  · split
    · exact answers_failure _ _
    · exact answers_success rfl rfl rfl id

theorem answers_handleNotify : Answers svc host req d (d, handleNotify req d.sm) := by
  unfold handleNotify
  split
  · rename_i h
    exact answers_error (requirePaneId_error h)
  · exact answers_success rfl rfl rfl id

theorem answers_handleGetPairingInfo (nodeId : String) :
    Answers svc host req d (d, handleGetPairingInfo host req nodeId) := by
  unfold handleGetPairingInfo
  split
  · exact answers_failure _ _
  · exact answers_success rfl rfl rfl id

theorem answers_dispatch (hw : Function.Injective svc.w.newV4) (d : Daemon α β) :
    Answers svc host req d (dispatch svc host req d) := by
  unfold dispatch
  split
  · rename_i method hmethod
    have hm : req.method = method.name := by
      have := List.find?_some hmethod
      simpa [eq_comm] using this
    cases method with
    | listTabs => exact answers_success rfl rfl rfl id
    | getLayout => exact answers_success rfl rfl rfl id
    | newTab => exact answers_onSession (serves_handleNewTab hw _)
    | closeTab => exact answers_onSession (serves_handleCloseTab hw)
    | focusTab => exact answers_onSession (serves_handleFocusTab hw)
    | setActiveWorkspace =>
      exact answers_onSession (serves_handleIdx hw .setActiveWorkspace fun _ => rfl)
    | splitPane => exact answers_onSession (serves_handleSplitPane hw _)
    | moveTab => exact answers_onSession (serves_handleMoveTab hw)
    | sendInput => exact answers_handleSendInput hm
    | getPaneInfo => exact answers_handleGetPaneInfo
    | resizePane =>
      simp only [Method.handle]
      refine answers_onSession ?_
      exact serves_handleResizePane hw _
    | sendSigint => exact answers_handleSendSigint hm
    | notify => exact answers_handleNotify
    | closePane => exact answers_onSession (serves_handleClosePane hw)
    | createWorkspace => exact answers_handleCreateWorkspace hw hm
    | renameWorkspace => exact answers_onSession (serves_handleRenameWorkspace hw)
    | deleteWorkspace =>
      exact answers_onSession (serves_handleIdx hw .deleteWorkspace fun _ => rfl)
    | duplicateWorkspace => exact answers_onSession (serves_handleDuplicateWorkspace hw)
    | setWorkspaceColor => exact answers_onSession (serves_handleSetWorkspaceColor hw)
    | moveWorkspace => exact answers_onSession (serves_handleMoveWorkspace hw)
    | setActivePane =>
      simp only [Method.handle]
      refine answers_onSession ?_
      exact serves_handleSetActivePane hw _
    | updateSplitRatios =>
      simp only [Method.handle]
      refine answers_onSession ?_
      exact serves_handleUpdateSplitRatios hw _
    | setPinned => exact answers_handleSetPinned hm
    | getPinned => exact answers_success rfl rfl rfl id
    | listDevices =>
      simp only [Method.handle]
      refine answers_onSync fun _ => ?_
      exact answers_success rfl rfl rfl id
    | revokeDevice => exact answers_onSync fun _ => answers_handleRevokeDevice hm
    | getPairingInfo =>
      simp only [Method.handle]
      refine answers_onSync fun nodeId => ?_
      exact answers_handleGetPairingInfo nodeId
    | enablePairing =>
      simp only [Method.handle]
      refine answers_onSync fun _ => ?_
      exact answers_success rfl rfl rfl id
  · exact answers_failure _ _

end Handlers

/-! ### Runs -/

/-- What happens to a daemon: a request, or a call that comes from elsewhere. -/
inductive Step where
  | request (host : Host) (req : Request)
  | call (call : Call)

def step (svc : Service α β ν σ) (d : Daemon α β) : Step → Daemon α β
  | .request host req => (dispatch svc host req d).1
  | .call call => { d with sm := d.sm.invoke svc.w call }

/-- In every state a daemon comes to, a request is answered under its id by a result or an
error, and one that is refused has left behind what it may, and mostly nothing. -/
theorem answers_run (svc : Service α β ν σ) (hw : Function.Injective svc.w.newV4)
    (d : Daemon α β) (hd : Reached svc.w d.sm) (steps : List Step) (host : Host) (req : Request) :
    let before := run (step svc) d steps
    let made := dispatch svc host req before
    made.2.id = req.id ∧ made.2.result.isSome = !made.2.error.isSome ∧
      (made.2.error.isSome → LeftBehind svc host req before made.1) := by
  have hshown : LiveShown (run (step svc) d steps).sm := by
    refine (along_of_step (P := fun d : Daemon α β => LiveShown d.sm) (hd.liveShown hw) fun t i ht => ?_).last
    cases i with
    | request host req => exact (answers_dispatch hw t).shown ht
    | call call => exact liveShown_invoke hw ht call
  have h : Answers svc host req _ _ := answers_dispatch hw (run (step svc) d steps)
  exact ⟨h.id_eq, h.exclusive, h.left hshown⟩

end Daemon

/-! ### A workspace without a tab -/

/-- No shell can be started, and there are no devices. -/
def noShells : Service (List DeviceEntry) WorkspaceState Unit Json where
  w := { World.counting with ptySpawn := fun _ _ _ _ _ => .error "no more" }
  lib := .values
  osDevices := Os.full
  devicesCodec := .whole
  osSessions := fullDisk
  sessionCodec := .doubled
  sessionId := none
  nodeId := none
  rate := 1

def Daemon.idle : Daemon (List DeviceEntry) WorkspaceState where
  sm := fresh noShells.w .empty 1024 10
  typed := []
  interrupted := []
  devices := onePhone
  pairing := .build false
  revoked := []
  disk := savedDisk

def Host.still : Host where
  isDir _ := false
  resize _ _ := .ok ()
  write _ _ := .ok ()
  intrByte _ := none
  signals _ := false
  procCwd _ := none
  machine := "here"
  qrPng := .ok []

def newWorkspaceRequest : Request where
  method := "create_workspace"
  params := .obj [("name", .str "Second")]
  id := some (.posInt 1)

theorem answers_run_noShells :
    (dispatch noShells .still newWorkspaceRequest .idle).2.error.isSome ∧
      Daemon.LeftBehind noShells .still newWorkspaceRequest .idle
        (dispatch noShells .still newWorkspaceRequest .idle).1 :=
  ⟨rfl, (Daemon.answers_run noShells World.counting_injective .idle ⟨_, _, _, [], rfl⟩ [] .still
    newWorkspaceRequest).2.2 rfl⟩

end Forgetty
