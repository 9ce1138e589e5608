import Forgetty.Gtk.Rpc

/-! What a call of the client does on the daemon, said on the values themselves, without a request,
and what the client is to have of it. -/

namespace Forgetty

open Lib SessionManager

/-! ### The calls on the daemon -/

/-- The codes of the errors that a request is refused with. -/
inductive RefusalCode where
  | methodNotFound
  | invalidParams
  | internalError
  deriving DecidableEq, Repr

def RefusalCode.value : RefusalCode → ℤ
  | methodNotFound => Forgetty.methodNotFound
  | invalidParams => Forgetty.invalidParams
  | internalError => Forgetty.internalError

structure Refusal where
  code : RefusalCode
  message : String
  deriving DecidableEq, Repr

def Refusal.toError (e : Refusal) : RpcError := { code := e.code.value, message := e.message }

namespace Daemon

variable {α β γ : Type} (d : Daemon α β)

/-- A call on the session, with a label for its error. -/
def through (code : RefusalCode) (label : String)
    (made : SessionManager × Except ForgettyError γ) : Daemon α β × Except Refusal γ :=
  ({ d with sm := made.1 }, made.2.mapError fun e => ⟨code, s!"{label}: {e}"⟩)

/-- A call that needs a live pane. -/
def onPane (p : PaneId) (made : Daemon α β × Except Refusal γ) : Daemon α β × Except Refusal γ :=
  if p ∈ d.sm.panes then made else (d, .error ⟨.invalidParams, s!"pane not found: {p}"⟩)

/-- A call that needs a daemon that can pair. -/
def paired {ν σ : Type} (svc : Service α β ν σ)
    (f : String → Daemon α β × Except Refusal γ) : Daemon α β × Except Refusal γ :=
  match svc.nodeId with
  | none =>
    (d, .error ⟨.methodNotFound,
      "sync endpoint not available (daemon started without --allow-pairing?)"⟩)
  | some nodeId => f nodeId

end Daemon

namespace ClientCall

variable {α β γ δ ν σ : Type}

section Direct

variable (svc : Service α β ν σ) (host : Host) (d : Daemon α β)

def directory (cwd : Option PathBuf) : Option PathBuf :=
  (cwd.filter (· ≠ .ofString "")).filter host.isDir

/-- What a call does, and what it makes. -/
def direct : ClientCall γ δ → Daemon α β × Except Refusal γ
  | listTabs => (d, .ok (d.sm.listPanes.filterMap d.sm.paneInfo))
  | newTabWithCwd workspaceIdx cwd =>
    d.through .internalError "failed to create tab"
      (d.sm.createTab svc.w workspaceIdx (directory host cwd) .default none)
  | newTabWithProfile workspaceIdx command cwd =>
    d.through .internalError "failed to create tab"
      (d.sm.createTab svc.w workspaceIdx (directory host cwd) .default (command.filter (· ≠ [])))
  | createWorkspace name =>
    d.through .internalError "create_workspace: create_tab failed"
      (createWorkspaceRpc svc.w name d.sm)
  | renameWorkspace workspaceIdx newName =>
    d.through .internalError "rename_workspace failed" (d.sm.renameWorkspace workspaceIdx newName)
  | setWorkspaceColor workspaceIdx color =>
    d.through .internalError "set_workspace_color failed" (d.sm.setWorkspaceColor workspaceIdx color)
  | moveWorkspace fromIdx toIdx =>
    d.through .internalError "move_workspace failed" (d.sm.moveWorkspace fromIdx toIdx)
  | deleteWorkspace workspaceIdx =>
    d.through .internalError "delete_workspace failed" (d.sm.deleteWorkspace workspaceIdx)
  | duplicateWorkspace sourceWorkspaceIdx newName =>
    d.through .internalError "duplicate_workspace failed"
      (d.sm.duplicateWorkspace svc.w sourceWorkspaceIdx newName .default)
  | closeTab tabId =>
    d.through .internalError "failed to close tab" (d.sm.closeTab svc.w tabId)
  | closeTabByPaneId paneId =>
    d.onPane paneId <|
      match findTabForPane d.sm.layout paneId with
      | some tab => d.through .internalError "failed to close tab" (d.sm.closeTab svc.w tab.id)
      | none => d.through .internalError "failed to close pane" (d.sm.closePane svc.w paneId)
  | splitPane paneId direction =>
    d.onPane paneId <|
      if direction ≠ "horizontal" ∧ direction ≠ "vertical" then
        (d, .error ⟨.invalidParams, "direction must be 'horizontal' or 'vertical'"⟩)
      else
        d.through .internalError "split_pane failed"
          (d.sm.splitPane svc.w paneId direction .default ((d.sm.paneInfo paneId).map (·.cwd)))
  | focusTab tabId =>
    match locateTab tabId d.sm.layout with
    | none => (d, .error ⟨.invalidParams, s!"tab not found: {tabId}"⟩)
    | some (wsIdx, tabIdx) =>
      d.through .internalError "set_active_tab failed" (d.sm.setActiveTab wsIdx tabIdx)
  | setActiveWorkspace workspaceIdx =>
    d.through .invalidParams "set_active_workspace failed" (d.sm.setActiveWorkspace workspaceIdx)
  | setActivePane workspaceIdx tabId paneId =>
    d.through .internalError "set_active_pane failed" (d.sm.setActivePane workspaceIdx tabId paneId)
  | moveTab tabId newIndex =>
    d.through .internalError "move_tab failed" (d.sm.moveTab tabId newIndex)
  | resizePane paneId rows cols =>
    let size : PtySize := { rows := rows, cols := cols, pixelWidth := 0, pixelHeight := 0 }
    d.onPane paneId <|
      d.through .internalError "failed to resize pane"
        (d.sm.resizePane (host.resize paneId size) paneId size)
  | sendInput paneId data =>
    d.onPane paneId <|
      (d.writePty host paneId data).map id
        (Except.mapError fun e => ⟨.internalError, s!"failed to write PTY: {e}"⟩)
  | sendSigint paneId =>
    d.onPane paneId <|
      match d.writePty host paneId [(host.intrByte paneId).getD 3] with
      | (d, .ok _) => (d.sendSigint host paneId, .ok ())
      | (d, .error e) => (d, .error ⟨.internalError, s!"failed to send SIGINT: {e}"⟩)
  | listDevices => d.paired svc fun _ => (d, .ok d.devices.registry.devices)
  | revokeDevice deviceId =>
    d.paired svc fun _ =>
      match d.devices.registry.remove svc.osDevices svc.devicesCodec deviceId d.devices.disk with
      | (registry, disk, .error e) =>
        ({ d with devices := ⟨registry, disk⟩ },
          .error ⟨.internalError, s!"failed to revoke device: {e.message}"⟩)
      | (registry, disk, .ok found) =>
        ({ d with
            devices := ⟨registry, disk⟩
            revoked := d.revoked ++ if found then [deviceId] else [] }, .ok found)
  | enablePairing secs =>
    d.paired svc fun _ =>
      ({ d with pairing := d.pairing.step svc.rate (.enablePairing secs) }, .ok secs)
  | getPairingInfo =>
    d.paired svc fun nodeId =>
      match host.qrPng with
      | .error e => (d, .error ⟨.internalError, s!"QR PNG generation failed: {e}"⟩)
      | .ok png => (d, .ok ⟨nodeId, host.machine, String.ofList (Base64.encode png)⟩)
  | closePane paneId =>
    d.onPane paneId <|
      match findTabForPane d.sm.layout paneId with
      | some tab =>
        if (collectAllPaneIds tab.paneTree []).length ≤ 1 then
          d.through .internalError "close_pane (via close_tab) failed" (d.sm.closeTab svc.w tab.id)
        else
          d.through .internalError "close_pane (split leaf) failed" (d.sm.closePane svc.w paneId)
      | none =>
        d.through .internalError "close_pane (legacy fallback) failed" (d.sm.closePane svc.w paneId)
  | updateSplitRatios ratios => ({ d with sm := d.sm.updateSplitRatios ratios }, .ok ())
  | setPinned pinned =>
    let sm := d.sm.setPinned pinned
    match svc.sessionId with
    | none => ({ d with sm := sm }, .ok ())
    | some sid =>
      let (sm, state) := sm.snapshotToWorkspaceState svc.w host.procCwd
      match moveToActive svc.osSessions svc.sessionCodec sid state d.disk with
      | (disk, .error e) =>
        ({ d with sm := sm, disk := disk },
          .error ⟨.internalError, s!"failed to persist pinned state: {e.message}"⟩)
      | (disk, .ok _) => ({ d with sm := sm, disk := disk }, .ok ())
  | getPinned => (d, .ok d.sm.isPinned)
  | notify paneId _ _ _ => d.onPane paneId (d, .ok ())

end Direct

/-- The directory of a call. -/
def cwd : ClientCall γ δ → Option PathBuf
  | newTabWithCwd _ cwd => cwd
  | newTabWithProfile _ _ cwd => cwd
  | _ => none

/-- A result as a value. -/
def encode : ClientCall γ δ → γ → Json
  | listTabs, tabs => .obj [("tabs", .arr (tabs.map Json.ofPaneInfo))]
  | newTabWithCwd .., made => ofNewTab made
  | newTabWithProfile .., made => ofNewTab made
  | createWorkspace _, (workspaceId, idx, paneId, tabId) =>
    .obj [("workspace_id", .str (toString workspaceId)), ("workspace_idx", .posInt idx),
      ("pane_id", .str (toString paneId)), ("tab_id", .str (toString tabId))]
  | duplicateWorkspace .., (workspaceId, idx, tabs) =>
    .obj [("workspace_id", .str (toString workspaceId)), ("workspace_idx", .posInt idx),
      ("tabs", .arr (tabs.map ofDuplicatedTab))]
  | splitPane .., newPaneId => .obj [("pane_id", .str (toString newPaneId))]
  | listDevices, devices => .obj [("devices", .arr (devices.map Daemon.ofDevice))]
  | revokeDevice _, found => .obj [("ok", .bool found)]
  | enablePairing _, secs => .obj [("ok", .bool true), ("secs", .posInt secs)]
  | getPairingInfo, info =>
    .obj [("machine", .str info.machine), ("node_id", .str info.nodeId),
      ("qr_png_base64", .str info.qrPngBase64)]
  | getPinned, pinned => .obj [("pinned", .bool pinned)]
  | renameWorkspace .., _ => done
  | setWorkspaceColor .., _ => done
  | moveWorkspace .., _ => done
  | deleteWorkspace .., _ => done
  | closeTab .., _ => done
  | closeTabByPaneId .., _ => done
  | focusTab .., _ => done
  | setActiveWorkspace .., _ => done
  | setActivePane .., _ => done
  | moveTab .., _ => done
  | resizePane .., _ => done
  | sendInput .., _ => done
  | sendSigint .., _ => done
  | closePane .., _ => done
  | updateSplitRatios .., _ => done
  | setPinned .., _ => done
  | notify .., _ => done
where
  done : Json := .obj [("ok", .bool true)]
  ofNewTab (made : PaneId × Uuid) : Json :=
    .obj [("tab_id", .str (toString made.2)), ("pane_id", .str (toString made.1))]
  ofDuplicatedTab (dt : DuplicatedTab) : Json :=
    .obj [("tab_id", .str (toString dt.tabId)), ("pane_id", .str (toString dt.paneId))]

def listed (info : PaneInfo) : ListedPane where
  paneId := info.id
  rows := info.rows
  cols := info.cols
  cwd := info.cwd.toStringLossy
  title := info.title

/-- What the client keeps of a result. -/
def view : ClientCall γ δ → γ → δ
  | listTabs, tabs => tabs.map listed
  | newTabWithCwd .., made => made
  | newTabWithProfile .., made => made
  | createWorkspace _, made => made
  | renameWorkspace .., _ => ()
  | setWorkspaceColor .., _ => ()
  | moveWorkspace .., _ => ()
  | deleteWorkspace .., _ => ()
  | duplicateWorkspace .., made => made
  | closeTab .., _ => ()
  | closeTabByPaneId .., _ => ()
  | splitPane .., newPaneId => newPaneId
  | focusTab .., _ => ()
  | setActiveWorkspace .., _ => ()
  | setActivePane .., _ => ()
  | moveTab .., _ => ()
  | resizePane .., _ => ()
  | sendInput .., _ => ()
  | sendSigint .., _ => ()
  | listDevices, devices => devices
  | revokeDevice .., _ => ()
  | enablePairing .., _ => ()
  | getPairingInfo, info => info
  | closePane .., _ => ()
  | updateSplitRatios .., _ => ()
  | setPinned .., _ => ()
  | getPinned, pinned => pinned
  | notify .., _ => ()

/-- Numbers of a call are as large as the types of the source have them. -/
def Sized : ClientCall γ δ → Prop
  | newTabWithCwd workspaceIdx _ => workspaceIdx < 2 ^ 64
  | newTabWithProfile workspaceIdx _ _ => workspaceIdx < 2 ^ 64
  | renameWorkspace workspaceIdx _ => workspaceIdx < 2 ^ 64
  | setWorkspaceColor workspaceIdx _ => workspaceIdx < 2 ^ 64
  | moveWorkspace fromIdx toIdx => fromIdx < 2 ^ 64 ∧ toIdx < 2 ^ 64
  | deleteWorkspace workspaceIdx => workspaceIdx < 2 ^ 64
  | duplicateWorkspace sourceWorkspaceIdx _ => sourceWorkspaceIdx < 2 ^ 64
  | closeTab tabId => tabId.bits < 2 ^ 128
  | closeTabByPaneId paneId => paneId.uuid.bits < 2 ^ 128
  | splitPane paneId _ => paneId.uuid.bits < 2 ^ 128
  | focusTab tabId => tabId.bits < 2 ^ 128
  | setActiveWorkspace workspaceIdx => workspaceIdx < 2 ^ 64
  | setActivePane workspaceIdx tabId paneId =>
    workspaceIdx < 2 ^ 64 ∧ tabId.bits < 2 ^ 128 ∧ ∀ p ∈ paneId, p.uuid.bits < 2 ^ 128
  | moveTab tabId newIndex => tabId.bits < 2 ^ 128 ∧ newIndex < 2 ^ 64
  | resizePane paneId _ _ => paneId.uuid.bits < 2 ^ 128
  | sendInput paneId _ => paneId.uuid.bits < 2 ^ 128
  | sendSigint paneId => paneId.uuid.bits < 2 ^ 128
  | enablePairing secs => secs < 2 ^ 64
  | closePane paneId => paneId.uuid.bits < 2 ^ 128
  | updateSplitRatios ratios => ∀ entry ∈ ratios, entry.1.uuid.bits < 2 ^ 128
  | notify paneId _ _ _ => paneId.uuid.bits < 2 ^ 128
  | _ => True

/-- Numbers of a result are as large as the types of the source have them. -/
def Fits : ClientCall γ δ → γ → Prop
  | listTabs, tabs =>
    ∀ info ∈ tabs, info.id.uuid.bits < 2 ^ 128 ∧ ∀ pid ∈ info.pid, pid < 2 ^ 64
  | newTabWithCwd .., (paneId, tabId) => paneId.uuid.bits < 2 ^ 128 ∧ tabId.bits < 2 ^ 128
  | newTabWithProfile .., (paneId, tabId) => paneId.uuid.bits < 2 ^ 128 ∧ tabId.bits < 2 ^ 128
  | createWorkspace _, (workspaceId, idx, paneId, tabId) =>
    workspaceId.bits < 2 ^ 128 ∧ idx < 2 ^ 64 ∧ paneId.uuid.bits < 2 ^ 128 ∧ tabId.bits < 2 ^ 128
  | duplicateWorkspace .., (workspaceId, idx, tabs) =>
    workspaceId.bits < 2 ^ 128 ∧ idx < 2 ^ 64 ∧
      ∀ dt ∈ tabs, dt.tabId.bits < 2 ^ 128 ∧ dt.paneId.uuid.bits < 2 ^ 128
  | splitPane .., newPaneId => newPaneId.uuid.bits < 2 ^ 128
  | enablePairing _, secs => secs < 2 ^ 64
  | _, _ => True

/-- The answer to a call. -/
def respond (c : ClientCall γ δ) : Except Refusal γ → Response
  | .ok x => .success (some (.posInt 1)) (c.encode x)
  | .error e => { result := none, error := some e.toError, id := some (.posInt 1) }

/-- The request of a call, as it is read from its line. -/
def request (lib : JsonText σ) (c : ClientCall γ δ) : Request where
  method := c.method.name
  params := c.params.onWire lib
  id := some (.posInt 1)

end ClientCall

end Forgetty
