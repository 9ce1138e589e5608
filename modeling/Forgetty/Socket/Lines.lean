import Forgetty.Socket.Attachment
import Forgetty.Socket.Dispatch
import Forgetty.Socket.Ordered

/-! The lines of a connection. A line that is no request is answered by an error, and so is a
request of another version or without a method; every other request that is neither a
subscription, nor a probe, nor the end of the daemon is dispatched. -/

namespace Forgetty

open Lib

namespace Methods

def shutdown : String := "shutdown"
def shutdownSave : String := "shutdown_save"
def shutdownClean : String := "shutdown_clean"
def disconnect : String := "disconnect"

/-- The methods that the connection answers itself. -/
def ofConnection : List String :=
  [subscribeOutput, subscribeLayout, shutdownSave, shutdownClean, disconnect, shutdown, isAttached]

end Methods

namespace Request

/-- The version and the request in a value: an object, or a sequence of its fields. -/
def ofJson : Json → Option (String × Request)
  | .arr [.str jsonrpc, .str method, params, id] =>
    some (jsonrpc, { method := method, params := params, id := present id })
  | .arr _ => none
  | v =>
    match (v.get "jsonrpc").bind Json.asStr, (v.get "method").bind Json.asStr with
    | some jsonrpc, some method =>
      some (jsonrpc,
        { method := method
          params := (v.get "params").getD .null
          id := (v.get "id").bind present })
    | _, _ => none
where
  /-- An id that is `null` is no id. -/
  present : Json → Option Json
    | .null => none
    | v => some v

variable {σ : Type} (lib : JsonText σ) (shapeError : Json → String)

def parse (input : σ) : Except Response Request :=
  match lib.parse input with
  | .error e => .error (.failure none parseErrorCode s!"Parse error: {e}")
  | .ok v =>
    match ofJson v with
    | none => .error (.failure none parseErrorCode s!"Parse error: {shapeError v}")
    | some (jsonrpc, request) =>
      if jsonrpc ≠ "2.0" then
        .error (.failure request.id invalidRequest "Invalid JSON-RPC version, expected \"2.0\"")
      else if request.method = "" then
        .error (.failure request.id invalidRequest "Method must not be empty")
      else .ok request

end Request

/-- A line that is not blank, and the line it is answered by. The methods of the connection are
not answered here. -/
def serveLine {α β ν σ : Type} (svc : Service α β ν σ) (shapeError : Json → String) (host : Host)
    (line : σ) (d : Daemon α β) : Daemon α β × Option σ :=
  match Request.parse svc.lib shapeError line with
  | .error err => (d, some (svc.lib.render (Json.ofResponse err).ordered))
  | .ok request =>
    if request.method ∈ Methods.ofConnection then (d, none)
    else
      (dispatch svc host request d).map id fun response =>
        some (svc.lib.render (Json.ofResponse response).ordered)

end Forgetty
