import Forgetty.Session.Coherence
import Forgetty.Socket.Protocol

/-! The request handlers that change the layout. A handler reads its parameters,
makes one or two calls on the session manager, and answers. The part of a
handler that runs once its parameters are read has a name of its own. -/

namespace Forgetty

open Lib SessionManager

section Replies

/-- The index parameter `key`, or the answer that it is missing. -/
def requireIdx (req : Request) (key hint : String) : Except Response ℕ :=
  match req.u64Param key with
  | some n => .ok n
  | none => .error (.failure req.id invalidParams s!"missing param: {key}{hint}")

/-- Answer `{ "ok": true }`, or the error of the call behind `label`. -/
def replyOk (req : Request) (code : ℤ) (label : String) :
    Except ForgettyError Unit → Response
  | .ok _ => .ok req.id
  | .error e => .failure req.id code s!"{label}: {e}"

/-- The parameter `pane_id`: present, a UUID, and a live pane. -/
def requirePaneId (req : Request) (sm : SessionManager) : Except Response PaneId :=
  match req.strParam "pane_id" with
  | none => .error (.failure req.id invalidParams "missing param: pane_id")
  | some raw =>
    match Uuid.parseStr raw with
    | none => .error (.failure req.id invalidParams s!"invalid UUID: {raw}")
    | some uuid =>
      if (sm.paneInfo ⟨uuid⟩).isNone then
        .error (.failure req.id invalidParams s!"pane not found: {raw}")
      else .ok ⟨uuid⟩

end Replies

/-! ### Panes and tabs -/

def treeContainsPane (p : PaneId) : PaneTreeLayout → Bool
  | .leaf q => q = p
  | .node _ first second => treeContainsPane p first || treeContainsPane p second

def collectAllPaneIds : PaneTreeLayout → List PaneId → List PaneId
  | .leaf p, out => out ++ [p]
  | .node _ first second, out => collectAllPaneIds second (collectAllPaneIds first out)

/-- The first tab whose tree contains the pane. -/
def findTabForPane (layout : SessionLayout) (p : PaneId) : Option SessionTab :=
  layout.workspaces.findSome? fun ws => ws.tabs.find? fun tab => treeContainsPane p tab.paneTree

/-- Close the whole tab when the pane is its only leaf, and only the pane otherwise. -/
def closePaneRpc (w : World) (req : Request) (p : PaneId) (sm : SessionManager) :
    SessionManager × Response :=
  match findTabForPane sm.layout p with
  | some tab =>
    if (collectAllPaneIds tab.paneTree []).length ≤ 1 then
      (sm.closeTab w tab.id).map id (replyOk req internalError "close_pane (via close_tab) failed")
    else (sm.closePane w p).map id (replyOk req internalError "close_pane (split leaf) failed")
  | none =>
    (sm.closePane w p).map id (replyOk req internalError "close_pane (legacy fallback) failed")

def handleClosePane (w : World) (req : Request) (sm : SessionManager) :
    SessionManager × Response :=
  match requirePaneId req sm with
  | .error r => (sm, r)
  | .ok p => closePaneRpc w req p sm

/-- Close the tab that shows the pane. -/
def closeTabByPaneRpc (w : World) (req : Request) (p : PaneId) (sm : SessionManager) :
    SessionManager × Response :=
  match findTabForPane sm.layout p with
  | some tab => (sm.closeTab w tab.id).map id (replyOk req internalError "failed to close tab")
  | none => (sm.closePane w p).map id (replyOk req internalError "failed to close pane")

def handleCloseTab (w : World) (req : Request) (sm : SessionManager) : SessionManager × Response :=
  match req.strParam "tab_id", req.strParam "pane_id" with
  | some raw, _ =>
    match Uuid.parseStr raw with
    | none => (sm, .failure req.id invalidParams s!"invalid UUID: {raw}")
    | some tabId =>
      (sm.closeTab w tabId).map id (replyOk req internalError "failed to close tab")
  | none, some raw =>
    match Uuid.parseStr raw with
    | none => (sm, .failure req.id invalidParams s!"invalid UUID: {raw}")
    | some uuid =>
      if (sm.paneInfo ⟨uuid⟩).isNone then
        (sm, .failure req.id invalidParams s!"pane not found: {raw}")
      else closeTabByPaneRpc w req ⟨uuid⟩ sm
  | none, none => (sm, .failure req.id invalidParams "missing param: tab_id or pane_id")

/-! ### Workspaces -/

/-- A handler whose only parameter is an index. -/
def handleIdx (key hint : String) (code : ℤ) (label : String)
    (call : ℕ → SessionManager → SessionManager × Except ForgettyError Unit) (req : Request)
    (sm : SessionManager) : SessionManager × Response :=
  match requireIdx req key hint with
  | .error r => (sm, r)
  | .ok n => (call n sm).map id (replyOk req code label)

def handleSetActiveWorkspace : Request → SessionManager → SessionManager × Response :=
  handleIdx "workspace_idx" "" invalidParams "set_active_workspace failed" setActiveWorkspace

def handleDeleteWorkspace : Request → SessionManager → SessionManager × Response :=
  handleIdx "workspace_idx" " (u64)" internalError "delete_workspace failed" deleteWorkspace

def handleMoveWorkspace (req : Request) (sm : SessionManager) : SessionManager × Response :=
  match requireIdx req "from_idx" " (u64)" with
  | .error r => (sm, r)
  | .ok fromIdx =>
    match requireIdx req "to_idx" " (u64)" with
    | .error r => (sm, r)
    | .ok toIdx =>
      (sm.moveWorkspace fromIdx toIdx).map id (replyOk req internalError "move_workspace failed")

/-- A workspace and its first tab. What the first call made stays when the second fails. -/
def createWorkspaceRpc (w : World) (name : String) (sm : SessionManager) :
    SessionManager × Except ForgettyError (Uuid × ℕ × PaneId × Uuid) :=
  let made := sm.createWorkspace w name
  let idx := made.2.2
  match made.1.createTab w idx none .default none with
  | (sm, .ok (paneId, tabId)) => (sm, .ok (made.2.1, idx, paneId, tabId))
  | (sm, .error e) => (sm, .error e)

def handleCreateWorkspace (w : World) (req : Request) (sm : SessionManager) :
    SessionManager × Response :=
  let name := (req.strParam "name").getD "Workspace"
  (createWorkspaceRpc w name sm).map id fun
    | .ok (workspaceId, idx, paneId, tabId) =>
      .success req.id (.obj [("workspace_id", .str (toString workspaceId)),
        ("workspace_idx", .posInt idx), ("pane_id", .str (toString paneId)),
        ("tab_id", .str (toString tabId))])
    | .error e => .failure req.id internalError s!"create_workspace: create_tab failed: {e}"

def handleDuplicateWorkspace (w : World) (req : Request) (sm : SessionManager) :
    SessionManager × Response :=
  match requireIdx req "source_workspace_idx" " (u64)" with
  | .error r => (sm, r)
  | .ok sourceIdx =>
    (sm.duplicateWorkspace w sourceIdx (req.strParam "new_name") .default).map id fun
      | .ok (workspaceId, idx, tabs) =>
        .success req.id (.obj [("workspace_id", .str (toString workspaceId)),
          ("workspace_idx", .posInt idx),
          ("tabs", .arr (tabs.map fun dt => .obj [("tab_id", .str (toString dt.tabId)),
            ("pane_id", .str (toString dt.paneId))]))])
      | .error e => .failure req.id internalError s!"duplicate_workspace failed: {e}"

end Forgetty
