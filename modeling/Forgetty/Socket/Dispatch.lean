import Forgetty.Gtk.GetLayout
import Forgetty.Lib.Base64
import Forgetty.Session.Snapshot
import Forgetty.Socket.Sizes
import Forgetty.Sync.PairingWindow
import Forgetty.Workspace.Persistence

/-! Every request of the socket but the subscriptions and those that end the daemon: the method
is looked up by its name, and its handler works on the session, the terminals, the paired
devices or the session file. -/

namespace Forgetty

open Lib SessionManager

/-! ### Methods -/

inductive Method where
  | listTabs
  | getLayout
  | newTab
  | closeTab
  | focusTab
  | setActiveWorkspace
  | splitPane
  | moveTab
  | sendInput
  | getPaneInfo
  | resizePane
  | sendSigint
  | notify
  | closePane
  | createWorkspace
  | renameWorkspace
  | deleteWorkspace
  | duplicateWorkspace
  | setWorkspaceColor
  | moveWorkspace
  | setActivePane
  | updateSplitRatios
  | setPinned
  | getPinned
  | listDevices
  | revokeDevice
  | getPairingInfo
  | enablePairing
  deriving DecidableEq, Repr

namespace Method

def name : Method → String
  | listTabs => "list_tabs"
  | getLayout => "get_layout"
  | newTab => "new_tab"
  | closeTab => "close_tab"
  | focusTab => "focus_tab"
  | setActiveWorkspace => "set_active_workspace"
  | splitPane => "split_pane"
  | moveTab => "move_tab"
  | sendInput => "send_input"
  | getPaneInfo => "get_pane_info"
  | resizePane => "resize_pane"
  | sendSigint => "send_sigint"
  | notify => "notify"
  | closePane => "close_pane"
  | createWorkspace => "create_workspace"
  | renameWorkspace => "rename_workspace"
  | deleteWorkspace => "delete_workspace"
  | duplicateWorkspace => "duplicate_workspace"
  | setWorkspaceColor => "set_workspace_color"
  | moveWorkspace => "move_workspace"
  | setActivePane => "set_active_pane"
  | updateSplitRatios => "update_split_ratios"
  | setPinned => "set_pinned"
  | getPinned => "get_pinned"
  | listDevices => "list_devices"
  | revokeDevice => "revoke_device"
  | getPairingInfo => "get_pairing_info"
  | enablePairing => "enable_pairing"

def all : List Method :=
  [listTabs, getLayout, newTab, closeTab, focusTab, setActiveWorkspace, splitPane, moveTab,
    sendInput, getPaneInfo, resizePane, sendSigint, notify, closePane, createWorkspace,
    renameWorkspace, deleteWorkspace, duplicateWorkspace, setWorkspaceColor, moveWorkspace,
    setActivePane, updateSplitRatios, setPinned, getPinned, listDevices, revokeDevice,
    getPairingInfo, enablePairing]

def ofName (s : String) : Option Method := all.find? (·.name = s)

end Method

/-! ### The session -/

section Session

variable (req : Request) (sm : SessionManager)

def Json.ofPaneInfo (info : PaneInfo) : Json := .obj [
  ("cols", .posInt info.cols.toNat),
  ("cwd", .str info.cwd.toStringLossy),
  ("pane_id", .str (toString info.id)),
  ("pid", Json.ofOption .posInt info.pid),
  ("rows", .posInt info.rows.toNat),
  ("title", .str info.title)]

def handleListTabs : Response :=
  let tabs := sm.listPanes.filterMap fun id => (sm.paneInfo id).map Json.ofPaneInfo
  .success req.id (.obj [("tabs", .arr tabs)])

/-- A parameter that is a UUID, with its text. -/
def requireUuid (key invalid : String) : Except Response (String × Uuid) :=
  match req.strParam key with
  | none => .error (.failure req.id invalidParams s!"missing param: {key}")
  | some raw =>
    match Uuid.parseStr raw with
    | none => .error (.failure req.id invalidParams s!"{invalid}: {raw}")
    | some uuid => .ok (raw, uuid)

/-- The workspace and the place in it of the first tab with the id. -/
def locateTab (tabUuid : Uuid) (layout : SessionLayout) : Option (ℕ × ℕ) :=
  layout.workspaces.zipIdx.findSome? fun ws =>
    (ws.1.tabs.findIdx? (·.id = tabUuid)).map (ws.2, ·)

def handleFocusTab : SessionManager × Response :=
  match requireUuid req "tab_id" "invalid UUID" with
  | .error r => (sm, r)
  | .ok (raw, tabUuid) =>
    match locateTab tabUuid sm.layout with
    | none => (sm, .failure req.id invalidParams s!"tab not found: {raw}")
    | some (wsIdx, tabIdx) =>
      (sm.setActiveTab wsIdx tabIdx).map id (replyOk req internalError "set_active_tab failed")

def handleMoveTab : SessionManager × Response :=
  match requireUuid req "tab_id" "invalid UUID" with
  | .error r => (sm, r)
  | .ok (_, tabUuid) =>
    match requireIdx req "new_index" "" with
    | .error r => (sm, r)
    | .ok newIndex =>
      (sm.moveTab tabUuid newIndex).map id (replyOk req internalError "move_tab failed")

def handleRenameWorkspace : SessionManager × Response :=
  match requireIdx req "workspace_idx" " (u64)" with
  | .error r => (sm, r)
  | .ok workspaceIdx =>
    match req.strParam "name" with
    | none => (sm, .failure req.id invalidParams "missing param: name")
    | some name =>
      (sm.renameWorkspace workspaceIdx name).map id
        (replyOk req internalError "rename_workspace failed")

/-- A colour that is absent or no string clears the colour. -/
def handleSetWorkspaceColor : SessionManager × Response :=
  match requireIdx req "workspace_idx" " (u64)" with
  | .error r => (sm, r)
  | .ok workspaceIdx =>
    (sm.setWorkspaceColor workspaceIdx (req.strParam "color")).map id
      (replyOk req internalError "set_workspace_color failed")

def handleGetPinned : Response := .success req.id (.obj [("pinned", .bool sm.isPinned)])

/-- The second look at the pane finds what the first one found. -/
def handleGetPaneInfo : Response :=
  match requirePaneId req sm with
  | .error r => r
  | .ok paneId =>
    match sm.paneInfo paneId with
    | none => .failure req.id invalidParams s!"pane not found: {paneId}"
    | some info => .success req.id (Json.ofPaneInfo info)

/-- The notification is only logged. -/
def handleNotify : Response :=
  match requirePaneId req sm with
  | .error r => r
  | .ok _ => .ok req.id

section Text

variable {σ : Type} (lib : JsonText σ)

/-- Nothing and `null` are no pane. -/
def optionalPaneId : Except Response (Option PaneId) :=
  match req.params.get "pane_id" with
  | none => .ok none
  | some .null => .ok none
  | some (.str s) =>
    match Uuid.parseStr s with
    | none => .error (.failure req.id invalidParams s!"invalid pane_id UUID: {s}")
    | some uuid => .ok (some ⟨uuid⟩)
  | some other =>
    .error (.failure req.id invalidParams
      s!"invalid pane_id type: expected string or null, got {lib.display other}")

def handleSetActivePane : SessionManager × Response :=
  match requireIdx req "workspace_idx" " (u64)" with
  | .error r => (sm, r)
  | .ok workspaceIdx =>
    match requireUuid req "tab_id" "invalid tab_id UUID" with
    | .error r => (sm, r)
    | .ok (_, tabUuid) =>
      match optionalPaneId req lib with
      | .error r => (sm, r)
      | .ok paneId =>
        (sm.setActivePane workspaceIdx tabUuid paneId).map id
          (replyOk req internalError "set_active_pane failed")

/-- Entries without a pane or a ratio are passed over. -/
def ratioEntry (entry : Json) : Option (PaneId × F32) :=
  match ((entry.get "pane_id").bind Json.asStr).bind Uuid.parseStr,
    (entry.get "ratio").bind Json.asF64 with
  | some uuid, some r => some (⟨uuid⟩, lib.toF32 r)
  | _, _ => none

def handleUpdateSplitRatios : SessionManager × Response :=
  match (req.params.get "ratios").bind Json.asArr with
  | none =>
    (sm, .failure req.id invalidParams
      ("missing param: ratios (array of " ++ "\x7b" ++ "pane_id, ratio" ++ "\x7d" ++ ")"))
  | some ratios => (sm.updateSplitRatios (ratios.filterMap (ratioEntry lib)), .ok req.id)

end Text

end Session

/-! ### The daemon -/

/-- What requests work on: the session, what was written to the terminals and which panes were
sent a signal besides, the paired devices and the flag for new ones, the devices whose
revocation was announced, and the session files. -/
structure Daemon (α β : Type) where
  sm : SessionManager
  typed : List (PaneId × Bytes)
  interrupted : List PaneId
  devices : DeviceStore α
  pairing : SyncEndpoint
  revoked : List String
  disk : Disk β

/-- What the system answers while a request is handled. A write to a terminal that fails may
have written some of the bytes. -/
structure Host where
  isDir : PathBuf → Bool
  resize : PaneId → PtySize → Except String Unit
  write : PaneId → Bytes → Except (ℕ × String) Unit
  intrByte : PaneId → Option UInt8
  /-- There is a foreground process group that does not forward signals itself. -/
  signals : PaneId → Bool
  procCwd : ℕ → Option PathBuf
  machine : String
  qrPng : Except String (List UInt8)

namespace Daemon

section Handlers

variable {α β ν : Type} (w : World) (osDevices : Os ν) (devicesCodec : RegistryCodec α)
  (osSessions : Os Uuid) (sessionCodec : SessionCodec β) (host : Host) (req : Request)
  (d : Daemon α β)

def writePty (id : PaneId) (data : Bytes) : Daemon α β × Except ForgettyError Unit :=
  match d.sm.panes.get id with
  | none => (d, .error (.pty s!"pane {id} not found"))
  | some _ =>
    match host.write id data with
    | .error (k, e) => ({ d with typed := d.typed ++ [(id, data.take k)] }, .error (.io e))
    | .ok _ => ({ d with typed := d.typed ++ [(id, data)] }, .ok ())

def handleSendInput : Daemon α β × Response :=
  match requirePaneId req d.sm with
  | .error r => (d, r)
  | .ok id =>
    match req.strParam "data" with
    | none => (d, .failure req.id invalidParams "missing param: data")
    | some dataB64 =>
      match Base64.decode dataB64.toList with
      | none => (d, .failure req.id invalidParams "invalid base64 in data field")
      | some bytes =>
        (d.writePty host id bytes).map (fun d => d) (replyOk req internalError "failed to write PTY")

def sendSigint (id : PaneId) : Daemon α β :=
  if id ∈ d.sm.panes ∧ host.signals id then { d with interrupted := d.interrupted ++ [id] } else d

def handleSendSigint : Daemon α β × Response :=
  match requirePaneId req d.sm with
  | .error r => (d, r)
  | .ok id =>
    match d.writePty host id [(host.intrByte id).getD 3] with
    | (d, .ok _) => (d.sendSigint host id, .ok req.id)
    | (d, .error e) => (d, .failure req.id internalError s!"failed to send SIGINT: {e}")

/-- The session is changed before the file is written. -/
def handleSetPinned (sessionId : Option Uuid) : Daemon α β × Response :=
  match req.boolParam "pinned" with
  | none => (d, .failure req.id invalidParams "missing param: pinned (bool)")
  | some pinned =>
    let sm := d.sm.setPinned pinned
    match sessionId with
    | none => ({ d with sm := sm }, .ok req.id)
    | some sid =>
      let (sm, state) := sm.snapshotToWorkspaceState w host.procCwd
      match moveToActive osSessions sessionCodec sid state d.disk with
      | (disk, .error e) =>
        ({ d with sm := sm, disk := disk },
          .failure req.id internalError s!"failed to persist pinned state: {e.message}")
      | (disk, .ok _) => ({ d with sm := sm, disk := disk }, .ok req.id)

/-! The devices. -/

def syncUnavailable : Response :=
  .failure req.id methodNotFound
    "sync endpoint not available (daemon started without --allow-pairing?)"

def ofDevice (entry : DeviceEntry) : Json := .obj [
  ("device_id", .str entry.deviceId),
  ("last_seen", Json.ofOption .str entry.lastSeen),
  ("name", .str entry.name),
  ("paired_at", .str entry.pairedAt)]

def handleListDevices : Response :=
  .success req.id (.obj [("devices", .arr (d.devices.registry.devices.map ofDevice))])

def handleRevokeDevice : Daemon α β × Response :=
  match req.strParam "device_id" with
  | none => (d, .failure req.id invalidParams "missing param: device_id")
  | some deviceId =>
    match d.devices.registry.remove osDevices devicesCodec deviceId d.devices.disk with
    | (registry, disk, .error e) =>
      ({ d with devices := ⟨registry, disk⟩ },
        .failure req.id internalError s!"failed to revoke device: {e.message}")
    | (registry, disk, .ok found) =>
      ({ d with
          devices := ⟨registry, disk⟩
          revoked := d.revoked ++ if found then [deviceId] else [] },
        .success req.id (.obj [("ok", .bool found)]))

def handleEnablePairing (rate : ℕ) : Daemon α β × Response :=
  let secs := (req.u64Param "secs").getD 120
  ({ d with pairing := d.pairing.step rate (.enablePairing secs) },
    .success req.id (.obj [("ok", .bool true), ("secs", .posInt secs)]))

def handleGetPairingInfo (nodeId : String) : Response :=
  match host.qrPng with
  | .error e => .failure req.id internalError s!"QR PNG generation failed: {e}"
  | .ok png =>
    .success req.id (.obj [("machine", .str host.machine), ("node_id", .str nodeId),
      ("qr_png_base64", .str (String.ofList (Base64.encode png)))])

end Handlers

/-- A handler that works on the session alone. -/
def onSession {α β : Type} (f : SessionManager → SessionManager × Response) (d : Daemon α β) :
    Daemon α β × Response := (f d.sm).map (fun sm => { d with sm := sm }) id

end Daemon

/-! ### The dispatch -/

/-- What the daemon was started with. Without pairing there is no node id. -/
structure Service (α β ν σ : Type) where
  w : World
  lib : JsonText σ
  osDevices : Os ν
  devicesCodec : RegistryCodec α
  osSessions : Os Uuid
  sessionCodec : SessionCodec β
  sessionId : Option Uuid
  nodeId : Option String
  /-- How often the clock moves in a second. -/
  rate : ℕ

section Dispatch

variable {α β ν σ : Type} (svc : Service α β ν σ) (host : Host) (req : Request)

/-- The handlers of a daemon that can pair. -/
def Daemon.onSync (f : String → Daemon α β → Daemon α β × Response) (d : Daemon α β) :
    Daemon α β × Response :=
  match svc.nodeId with
  | none => (d, Daemon.syncUnavailable req)
  | some nodeId => f nodeId d

def Method.handle (d : Daemon α β) : Method → Daemon α β × Response
  | .listTabs => (d, handleListTabs req d.sm)
  | .getLayout => (d, handleGetLayout req d.sm.layout)
  | .newTab => d.onSession (handleNewTab svc.w host.isDir req)
  | .closeTab => d.onSession (handleCloseTab svc.w req)
  | .focusTab => d.onSession (handleFocusTab req)
  | .setActiveWorkspace => d.onSession (handleSetActiveWorkspace req)
  | .splitPane => d.onSession (handleSplitPane svc.w host.isDir req)
  | .moveTab => d.onSession (handleMoveTab req)
  | .sendInput => d.handleSendInput host req
  | .getPaneInfo => (d, handleGetPaneInfo req d.sm)
  | .resizePane => d.onSession fun sm => handleResizePane req sm host.resize
  | .sendSigint => d.handleSendSigint host req
  | .notify => (d, handleNotify req d.sm)
  | .closePane => d.onSession (handleClosePane svc.w req)
  | .createWorkspace => d.onSession (handleCreateWorkspace svc.w req)
  | .renameWorkspace => d.onSession (handleRenameWorkspace req)
  | .deleteWorkspace => d.onSession (handleDeleteWorkspace req)
  | .duplicateWorkspace => d.onSession (handleDuplicateWorkspace svc.w req)
  | .setWorkspaceColor => d.onSession (handleSetWorkspaceColor req)
  | .moveWorkspace => d.onSession (handleMoveWorkspace req)
  | .setActivePane => d.onSession fun sm => handleSetActivePane req sm svc.lib
  | .updateSplitRatios => d.onSession fun sm => handleUpdateSplitRatios req sm svc.lib
  | .setPinned => d.handleSetPinned svc.w svc.osSessions svc.sessionCodec host req svc.sessionId
  | .getPinned => (d, handleGetPinned req d.sm)
  | .listDevices => d.onSync svc req fun _ d => (d, d.handleListDevices req)
  | .revokeDevice => d.onSync svc req fun _ d =>
      d.handleRevokeDevice svc.osDevices svc.devicesCodec req
  | .getPairingInfo => d.onSync svc req fun nodeId d =>
      (d, Daemon.handleGetPairingInfo host req nodeId)
  | .enablePairing => d.onSync svc req fun _ d => d.handleEnablePairing req svc.rate

def dispatch (d : Daemon α β) : Daemon α β × Response :=
  match Method.ofName req.method with
  | some method => method.handle svc host req d
  | none => (d, .failure req.id methodNotFound s!"Unknown method: {req.method}")

end Dispatch

end Forgetty
