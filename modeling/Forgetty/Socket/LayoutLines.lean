import Forgetty.Core.Text
import Forgetty.Gtk.GetLayout
import Forgetty.Lib.CutStream
import Forgetty.Socket.Ordered
import Forgetty.Socket.SubscribeLayout

/-! The lines a connection that subscribed to the layout is sent: the acknowledgment, and one
line for each notification. -/

namespace Forgetty

open Lib

/-! ### The library on texts -/

/-- The printer and the parser of texts. -/
structure JsonPrinter where
  print : Json → Text
  parse : Text → Except String Json
  display : Json → String

/-- An object is printed on one line between braces, and read back with its keys in order; a
text that breaks off before its end is not read. -/
structure JsonPrinter.Prints (lib : JsonPrinter) (v : Json) : Prop where
  oneLine : '\n' ∉ lib.print v
  braced : ∃ inner, lib.print v = '\x7b' :: (inner ++ ['\x7d'])
  read : lib.parse (lib.print v) = .ok v.ordered
  broken : ∀ text, text <+: lib.print v → text ≠ lib.print v → ∃ e, lib.parse text = .error e

/-! ### Notifications -/

namespace LayoutNotification

def method : LayoutNotification → String
  | tabCreated .. => "tab_created"
  | tabClosed .. => "tab_closed"
  | paneSplit .. => "pane_split"
  | tabMoved .. => "tab_moved"
  | activeTabChanged .. => "active_tab_changed"
  | activeWorkspaceChanged .. => "active_workspace_changed"
  | workspaceCreated .. => "workspace_created"
  | workspaceRenamed .. => "workspace_renamed"
  | workspaceDeleted .. => "workspace_deleted"
  | workspaceColorChanged .. => "workspace_color_changed"
  | workspacesReordered .. => "workspaces_reordered"
  | activePaneChanged .. => "active_pane_changed"

def params : LayoutNotification → Json
  | tabCreated workspaceIdx tabId paneId =>
    .obj [("workspace_idx", .posInt workspaceIdx), ("tab_id", .str (toString tabId)),
      ("pane_id", .str (toString paneId))]
  | tabClosed workspaceIdx tabId =>
    .obj [("workspace_idx", .posInt workspaceIdx), ("tab_id", .str (toString tabId))]
  | paneSplit tabId parentPaneId newPaneId direction =>
    .obj [("tab_id", .str (toString tabId)), ("parent_pane_id", .str (toString parentPaneId)),
      ("new_pane_id", .str (toString newPaneId)), ("direction", .str direction)]
  | tabMoved workspaceIdx tabId newIndex =>
    .obj [("workspace_idx", .posInt workspaceIdx), ("tab_id", .str (toString tabId)),
      ("new_index", .posInt newIndex)]
  | activeTabChanged workspaceIdx tabIdx =>
    .obj [("workspace_idx", .posInt workspaceIdx), ("tab_idx", .posInt tabIdx)]
  | activeWorkspaceChanged workspaceIdx => .obj [("workspace_idx", .posInt workspaceIdx)]
  | workspaceCreated workspaceIdx workspaceId name =>
    .obj [("workspace_idx", .posInt workspaceIdx), ("workspace_id", .str (toString workspaceId)),
      ("name", .str name)]
  | workspaceRenamed workspaceIdx workspaceId name =>
    .obj [("workspace_idx", .posInt workspaceIdx), ("workspace_id", .str (toString workspaceId)),
      ("name", .str name)]
  | workspaceDeleted workspaceIdx workspaceId =>
    .obj [("workspace_idx", .posInt workspaceIdx), ("workspace_id", .str (toString workspaceId))]
  | workspaceColorChanged workspaceIdx workspaceId color =>
    .obj [("workspace_idx", .posInt workspaceIdx), ("workspace_id", .str (toString workspaceId)),
      ("color", Json.ofOption .str color)]
  | workspacesReordered fromIdx toIdx fromWorkspaceId toWorkspaceId =>
    .obj [("from_idx", .posInt fromIdx), ("to_idx", .posInt toIdx),
      ("from_workspace_id", .str (toString fromWorkspaceId)),
      ("to_workspace_id", .str (toString toWorkspaceId))]
  | activePaneChanged workspaceIdx tabId paneId =>
    .obj [("workspace_idx", .posInt workspaceIdx), ("tab_id", .str (toString tabId)),
      ("pane_id", Json.ofOption (fun p => .str (toString p)) paneId)]

/-- The value of a notification, with the keys in the order of the map. -/
def json (n : LayoutNotification) : Json :=
  (Json.obj [("jsonrpc", .str "2.0"), ("method", .str n.method), ("params", n.params)]).ordered

/-- Indices have 64 bits and ids 128. -/
def Sized : LayoutNotification → Prop
  | tabCreated i tabId p => i < 2 ^ 64 ∧ tabId.bits < 2 ^ 128 ∧ p.uuid.bits < 2 ^ 128
  | tabClosed i tabId => i < 2 ^ 64 ∧ tabId.bits < 2 ^ 128
  | paneSplit tabId p q _ => tabId.bits < 2 ^ 128 ∧ p.uuid.bits < 2 ^ 128 ∧ q.uuid.bits < 2 ^ 128
  | tabMoved i tabId k => i < 2 ^ 64 ∧ tabId.bits < 2 ^ 128 ∧ k < 2 ^ 64
  | activeTabChanged i j => i < 2 ^ 64 ∧ j < 2 ^ 64
  | activeWorkspaceChanged i => i < 2 ^ 64
  | workspaceCreated i id _ | workspaceRenamed i id _ => i < 2 ^ 64 ∧ id.bits < 2 ^ 128
  | workspaceDeleted i id | workspaceColorChanged i id _ => i < 2 ^ 64 ∧ id.bits < 2 ^ 128
  | workspacesReordered i j u v =>
    i < 2 ^ 64 ∧ j < 2 ^ 64 ∧ u.bits < 2 ^ 128 ∧ v.bits < 2 ^ 128
  | activePaneChanged i tabId p =>
    i < 2 ^ 64 ∧ tabId.bits < 2 ^ 128 ∧ ∀ q, p = some q → q.uuid.bits < 2 ^ 128

theorem printable (n : LayoutNotification) (h : n.Sized) :
    (Json.obj [("jsonrpc", .str "2.0"), ("method", .str n.method),
      ("params", n.params)]).Printable := by
  have hparams : n.params.Printable := by
    cases n with
    | workspaceColorChanged i id color =>
      cases color <;>
        simpa [params, Json.ofOption, Json.Printable, Json.PrintableFields] using h.1
    | activePaneChanged i tabId p =>
      cases p <;> simpa [params, Json.ofOption, Json.Printable, Json.PrintableFields] using h.1
    | _ => simp_all [params, Json.Printable, Json.PrintableFields, Sized]
  simpa [Json.Printable, Json.PrintableFields] using hparams

end LayoutNotification

/-! ### The connection -/

/-- The answer to the request to subscribe, with its fields in the order of the structure. -/
def layoutAck (reqId : Option Json) : Json :=
  .obj [("jsonrpc", .str "2.0"), ("result", .obj [("ok", .bool true)]),
    ("id", Json.ofOption id reqId)]

/-- The lines for the events a subscriber received. -/
def layoutLines (lib : JsonPrinter) (reqId : Option Json) (events : List SessionEvent) : List Text :=
  lib.print (layoutAck reqId) ::
    (events.filterMap handleSubscribeLayout).map fun n => lib.print n.json

/-- What is written to the socket. -/
def serveSubscribeLayout (lib : JsonPrinter) (reqId : Option Json) (events : List SessionEvent) :
    Text := terminated '\n' (layoutLines lib reqId events)

end Forgetty
