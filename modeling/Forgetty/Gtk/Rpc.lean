import Forgetty.Socket.Lines

/-! The calls of the client. Each is a request with parameters of its own, and a reading of the
result; the connection is closed after the answer. -/

namespace Forgetty

open Lib

/-! ### The calls -/

/-- A pane as the client lists it. -/
structure ListedPane where
  paneId : PaneId
  rows : UInt16
  cols : UInt16
  cwd : String
  title : String
  deriving DecidableEq, Repr

structure PairingInfo where
  nodeId : String
  machine : String
  qrPngBase64 : String
  deriving DecidableEq, Repr

/-- The calls that answer, by what the daemon makes and what the client reads of it. The calls
that subscribe or end the daemon are others. -/
inductive ClientCall : Type → Type → Type
  | listTabs : ClientCall (List PaneInfo) (List ListedPane)
  | newTabWithCwd (workspaceIdx : ℕ) (cwd : Option PathBuf) :
    ClientCall (PaneId × Uuid) (PaneId × Uuid)
  | newTabWithProfile (workspaceIdx : ℕ) (command : Option (List String)) (cwd : Option PathBuf) :
    ClientCall (PaneId × Uuid) (PaneId × Uuid)
  | createWorkspace (name : String) :
    ClientCall (Uuid × ℕ × PaneId × Uuid) (Uuid × ℕ × PaneId × Uuid)
  | renameWorkspace (workspaceIdx : ℕ) (newName : String) : ClientCall Unit Unit
  | setWorkspaceColor (workspaceIdx : ℕ) (color : Option String) : ClientCall Unit Unit
  | moveWorkspace (fromIdx toIdx : ℕ) : ClientCall Unit Unit
  | deleteWorkspace (workspaceIdx : ℕ) : ClientCall Unit Unit
  | duplicateWorkspace (sourceWorkspaceIdx : ℕ) (newName : Option String) :
    ClientCall (Uuid × ℕ × List DuplicatedTab) (Uuid × ℕ × List DuplicatedTab)
  | closeTab (tabId : Uuid) : ClientCall Unit Unit
  | closeTabByPaneId (paneId : PaneId) : ClientCall Unit Unit
  | splitPane (paneId : PaneId) (direction : String) : ClientCall PaneId PaneId
  | focusTab (tabId : Uuid) : ClientCall Unit Unit
  | setActiveWorkspace (workspaceIdx : ℕ) : ClientCall Unit Unit
  | setActivePane (workspaceIdx : ℕ) (tabId : Uuid) (paneId : Option PaneId) : ClientCall Unit Unit
  | moveTab (tabId : Uuid) (newIndex : ℕ) : ClientCall Unit Unit
  | resizePane (paneId : PaneId) (rows cols : UInt16) : ClientCall Unit Unit
  | sendInput (paneId : PaneId) (data : Bytes) : ClientCall Unit Unit
  | sendSigint (paneId : PaneId) : ClientCall Unit Unit
  | listDevices : ClientCall (List DeviceEntry) (List DeviceEntry)
  | revokeDevice (deviceId : String) : ClientCall Bool Unit
  | enablePairing (secs : ℕ) : ClientCall ℕ Unit
  | getPairingInfo : ClientCall PairingInfo PairingInfo
  | closePane (paneId : PaneId) : ClientCall Unit Unit
  | updateSplitRatios (ratios : List (PaneId × F32)) : ClientCall Unit Unit
  | setPinned (pinned : Bool) : ClientCall Unit Unit
  | getPinned : ClientCall Bool Bool
  | notify (paneId : PaneId) (title body source : String) : ClientCall Unit Unit

namespace ClientCall

variable {γ δ : Type}

def method : ClientCall γ δ → Method
  | listTabs => .listTabs
  | newTabWithCwd .. => .newTab
  | newTabWithProfile .. => .newTab
  | createWorkspace .. => .createWorkspace
  | renameWorkspace .. => .renameWorkspace
  | setWorkspaceColor .. => .setWorkspaceColor
  | moveWorkspace .. => .moveWorkspace
  | deleteWorkspace .. => .deleteWorkspace
  | duplicateWorkspace .. => .duplicateWorkspace
  | closeTab .. => .closeTab
  | closeTabByPaneId .. => .closeTab
  | splitPane .. => .splitPane
  | focusTab .. => .focusTab
  | setActiveWorkspace .. => .setActiveWorkspace
  | setActivePane .. => .setActivePane
  | moveTab .. => .moveTab
  | resizePane .. => .resizePane
  | sendInput .. => .sendInput
  | sendSigint .. => .sendSigint
  | listDevices => .listDevices
  | revokeDevice .. => .revokeDevice
  | enablePairing .. => .enablePairing
  | getPairingInfo => .getPairingInfo
  | closePane .. => .closePane
  | updateSplitRatios .. => .updateSplitRatios
  | setPinned .. => .setPinned
  | getPinned => .getPinned
  | notify .. => .notify

/-- A field that is left out where there is nothing. -/
def field? {α : Type} (key : String) (f : α → Json) (o : Option α) : List (String × Json) :=
  (o.map fun a => (key, f a)).toList

def ratioJson (entry : PaneId × F32) : Json :=
  .obj [("pane_id", .str (toString entry.1)), ("ratio", .float entry.2)]

/-- A path is told as a text, also where it is none. -/
def pathJson (p : PathBuf) : Json := .str p.toStringLossy

def params : ClientCall γ δ → Json
  | listTabs => .obj []
  | newTabWithCwd workspaceIdx cwd =>
    .obj (field? "cwd" pathJson cwd ++ [("workspace_idx", .posInt workspaceIdx)])
  | newTabWithProfile workspaceIdx command cwd =>
    .obj (field? "command" (fun cmd => .arr (cmd.map .str)) command ++ field? "cwd" pathJson cwd ++
      [("workspace_idx", .posInt workspaceIdx)])
  | createWorkspace name => .obj [("name", .str name)]
  | renameWorkspace workspaceIdx newName =>
    .obj [("name", .str newName), ("workspace_idx", .posInt workspaceIdx)]
  | setWorkspaceColor workspaceIdx color =>
    .obj [("color", Json.ofOption .str color), ("workspace_idx", .posInt workspaceIdx)]
  | moveWorkspace fromIdx toIdx => .obj [("from_idx", .posInt fromIdx), ("to_idx", .posInt toIdx)]
  | deleteWorkspace workspaceIdx => .obj [("workspace_idx", .posInt workspaceIdx)]
  | duplicateWorkspace sourceWorkspaceIdx newName =>
    .obj (field? "new_name" .str newName ++
      [("source_workspace_idx", .posInt sourceWorkspaceIdx)])
  | closeTab tabId => .obj [("tab_id", .str (toString tabId))]
  | closeTabByPaneId paneId => .obj [("pane_id", .str (toString paneId))]
  | splitPane paneId direction =>
    .obj [("direction", .str direction), ("pane_id", .str (toString paneId))]
  | focusTab tabId => .obj [("tab_id", .str (toString tabId))]
  | setActiveWorkspace workspaceIdx => .obj [("workspace_idx", .posInt workspaceIdx)]
  | setActivePane workspaceIdx tabId paneId =>
    .obj [("pane_id", Json.ofOption (fun p => .str (toString p)) paneId),
      ("tab_id", .str (toString tabId)), ("workspace_idx", .posInt workspaceIdx)]
  | moveTab tabId newIndex => .obj [("new_index", .posInt newIndex), ("tab_id", .str (toString tabId))]
  | resizePane paneId rows cols =>
    .obj [("cols", .posInt cols.toNat), ("pane_id", .str (toString paneId)),
      ("rows", .posInt rows.toNat)]
  | sendInput paneId data =>
    .obj [("data", .str (String.ofList (Base64.encode data))), ("pane_id", .str (toString paneId))]
  | sendSigint paneId => .obj [("pane_id", .str (toString paneId))]
  | listDevices => .obj []
  | revokeDevice deviceId => .obj [("device_id", .str deviceId)]
  | enablePairing secs => .obj [("secs", .posInt secs)]
  | getPairingInfo => .obj []
  | closePane paneId => .obj [("pane_id", .str (toString paneId))]
  | updateSplitRatios ratios => .obj [("ratios", .arr (ratios.map ratioJson))]
  | setPinned pinned => .obj [("pinned", .bool pinned)]
  | getPinned => .obj []
  | notify paneId title body source =>
    .obj [("body", .str body), ("pane_id", .str (toString paneId)), ("source", .str source),
      ("title", .str title)]

end ClientCall

/-! ### The readings -/

namespace DaemonClient

section Read

variable (uuidError : String → String)

/-- A field that is the text of a UUID. -/
def readUuid (missing invalid key : String) (v : Json) : Except DaemonError Uuid := do
  let s ← okOr missing ((v.get key).bind Json.asStr)
  parseUuid uuidError invalid s

def readPane (tab : Json) : Except DaemonError ListedPane := do
  let paneIdStr ← okOr "list_tabs: missing pane_id" ((tab.get "pane_id").bind Json.asStr)
  let uuid ← parseUuid uuidError s!"list_tabs: invalid UUID {paneIdStr}" paneIdStr
  return {
    paneId := ⟨uuid⟩
    rows := UInt16.ofNat (((tab.get "rows").bind Json.asU64).getD 24)
    cols := UInt16.ofNat (((tab.get "cols").bind Json.asU64).getD 80)
    cwd := ((tab.get "cwd").bind Json.asStr).getD ""
    title := ((tab.get "title").bind Json.asStr).getD "" }

/-- A pane and its tab, in the answer of a call with the name. -/
def readNewTab (call : String) (result : Json) : Except DaemonError (PaneId × Uuid) := do
  let paneId ← readUuid uuidError s!"{call}: missing pane_id" s!"{call}: invalid pane_id UUID"
    "pane_id" result
  let tabId ← readUuid uuidError s!"{call}: missing tab_id" s!"{call}: invalid tab_id UUID"
    "tab_id" result
  return (⟨paneId⟩, tabId)

def readCreated (result : Json) : Except DaemonError (Uuid × ℕ × PaneId × Uuid) := do
  let workspaceId ← readUuid uuidError "create_workspace: missing workspace_id"
    "create_workspace: invalid workspace_id UUID" "workspace_id" result
  let workspaceIdx ← okOr "create_workspace: missing workspace_idx"
    ((result.get "workspace_idx").bind Json.asU64)
  let paneId ← readUuid uuidError "create_workspace: missing pane_id"
    "create_workspace: invalid pane_id UUID" "pane_id" result
  let tabId ← readUuid uuidError "create_workspace: missing tab_id"
    "create_workspace: invalid tab_id UUID" "tab_id" result
  return (workspaceId, workspaceIdx, ⟨paneId⟩, tabId)

def readDuplicatedTab (entry : Json × ℕ) : Except DaemonError DuplicatedTab := do
  let tab := s!"duplicate_workspace: tabs[{entry.2}]"
  let tabId ← readUuid uuidError s!"{tab} missing tab_id" s!"{tab} invalid tab_id UUID" "tab_id"
    entry.1
  let paneId ← readUuid uuidError s!"{tab} missing pane_id" s!"{tab} invalid pane_id UUID" "pane_id"
    entry.1
  return { tabId := tabId, paneId := ⟨paneId⟩ }

def readDuplicated (result : Json) : Except DaemonError (Uuid × ℕ × List DuplicatedTab) := do
  let workspaceId ← readUuid uuidError "duplicate_workspace: missing workspace_id"
    "duplicate_workspace: invalid workspace_id UUID" "workspace_id" result
  let workspaceIdx ← okOr "duplicate_workspace: missing workspace_idx"
    ((result.get "workspace_idx").bind Json.asU64)
  let tabsArr ← okOr "duplicate_workspace: missing tabs array"
    ((result.get "tabs").bind Json.asArr)
  let tabs ← tabsArr.zipIdx.mapM (readDuplicatedTab uuidError)
  return (workspaceId, workspaceIdx, tabs)

/-- What is missing of a device is empty. -/
def readDevice (d : Json) : DeviceEntry where
  deviceId := ((d.get "device_id").bind Json.asStr).getD ""
  name := ((d.get "name").bind Json.asStr).getD ""
  pairedAt := ((d.get "paired_at").bind Json.asStr).getD ""
  lastSeen := (d.get "last_seen").bind Json.asStr

def readPairingInfo (result : Json) : Except DaemonError PairingInfo := do
  let qrPngBase64 ← okOr "get_pairing_info: missing qr_png_base64"
    ((result.get "qr_png_base64").bind Json.asStr)
  return {
    nodeId := ((result.get "node_id").bind Json.asStr).getD ""
    machine := ((result.get "machine").bind Json.asStr).getD ""
    qrPngBase64 := qrPngBase64 }

/-- What a call makes of its result. -/
def readResult {γ δ : Type} (result : Json) : ClientCall γ δ → Except DaemonError δ
  | .listTabs => do
    let tabs ← okOr "list_tabs: missing tabs array" ((result.get "tabs").bind Json.asArr)
    tabs.mapM (readPane uuidError)
  | .newTabWithCwd .. => readNewTab uuidError "new_tab" result
  | .newTabWithProfile .. => readNewTab uuidError "new_tab_with_profile" result
  | .createWorkspace .. => readCreated uuidError result
  | .renameWorkspace .. => .ok ()
  | .setWorkspaceColor .. => .ok ()
  | .moveWorkspace .. => .ok ()
  | .deleteWorkspace .. => .ok ()
  | .duplicateWorkspace .. => readDuplicated uuidError result
  | .closeTab .. => .ok ()
  | .closeTabByPaneId .. => .ok ()
  | .splitPane .. => do
    let uuid ← readUuid uuidError "split_pane: missing pane_id in response"
      "split_pane: invalid UUID" "pane_id" result
    return ⟨uuid⟩
  | .focusTab .. => .ok ()
  | .setActiveWorkspace .. => .ok ()
  | .setActivePane .. => .ok ()
  | .moveTab .. => .ok ()
  | .resizePane .. => .ok ()
  | .sendInput .. => .ok ()
  | .sendSigint .. => .ok ()
  | .listDevices => do
    let devs ← okOr "list_devices: missing devices array"
      ((result.get "devices").bind Json.asArr)
    return devs.map readDevice
  | .revokeDevice .. => .ok ()
  | .enablePairing .. => .ok ()
  | .getPairingInfo => readPairingInfo result
  | .closePane .. => .ok ()
  | .updateSplitRatios .. => .ok ()
  | .setPinned .. => .ok ()
  | .getPinned => .ok (((result.get "pinned").bind Json.asBool).getD false)
  | .notify .. => .ok ()

end Read

/-! ### A call -/

/-- The value of a request, with the id of all of them. -/
def requestJson (method : String) (params : Json) : Json :=
  .obj [("id", .posInt 1), ("jsonrpc", .str "2.0"), ("method", .str method), ("params", params)]

section Call

variable {α β ν σ γ δ : Type} (svc : Service α β ν σ) (shapeError : Json → String)
  (uuidError : String → String) (host : Host) (arrival : Except String Unit)

/-- The line is written, the daemon answers it, and the answer is read. The client waits for the
answer for half a second only: what the daemon does it does all the same, but the answer may not
arrive, with the error of the read. -/
def rpc (method : String) (params : Json) (d : Daemon α β) : Daemon α β × Except DaemonError Json :=
  (serveLine svc shapeError host (svc.lib.render (requestJson method params).ordered) d).map id
    fun answer =>
      match arrival, answer with
      | .error e, _ => .error ⟨s!"read response: {e}"⟩
      | .ok (), some line => readResponse svc.lib line
      | .ok (), none => .error ⟨"read response: no line"⟩

def call (c : ClientCall γ δ) (d : Daemon α β) : Daemon α β × Except DaemonError δ :=
  (rpc svc shapeError host arrival c.method.name c.params d).map id fun answer =>
    answer >>= fun result => readResult uuidError result c

end Call

end DaemonClient

end Forgetty
