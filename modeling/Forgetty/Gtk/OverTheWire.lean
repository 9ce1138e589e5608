import Forgetty.Gtk.DirectCalls
import Forgetty.Socket.Refusals

/-! A call of the client is the call on the daemon: the request, the two texts and the readings on
both sides add nothing to it and lose nothing of it. -/

namespace Forgetty

open Lib SessionManager

namespace ClientCall

variable {α β γ δ ν σ : Type}

/-! ### The texts -/

section Texts

variable {lib : JsonText σ} {c : ClientCall γ δ}

end Texts

/-! ### The daemon's readings -/

section Readings

variable {lib : JsonText σ} {c : ClientCall γ δ}

end Readings

/-! ### The handlers -/

section Handlers

variable {svc : Service α β ν σ} {host : Host} {d : Daemon α β}

/-- The answer to a call, with what the call leaves. -/
def answered (c : ClientCall γ δ) (made : Daemon α β × Except Refusal γ) : Daemon α β × Response :=
  made.map id c.respond

end Handlers

/-! ### The client's readings -/

section Results

variable {c : ClientCall γ δ} {x : γ}

end Results

section Reading

open DaemonClient

variable {lib : JsonText σ} {uuidError : String → String}

end Reading

/-! ### The call over the wire -/

section Wire

open DaemonClient

variable (svc : Service α β ν σ) (shapeError : Json → String) (uuidError : String → String)
  (host : Host) (d : Daemon α β)

variable (arrival : Except String Unit)

/-- What the client is to have of a call: its result or its error, or the error of the read. -/
def heard (lib : JsonText σ) (c : ClientCall γ δ) :
    Except String Unit → Except Refusal γ → Except DaemonError δ
  | .ok (), .ok x => .ok (c.view x)
  | .ok (), .error e => .error ⟨s!"RPC error: {lib.display (Json.ofError e.toError)}"⟩
  | .error e, _ => .error ⟨s!"read response: {e}"⟩

end Wire

end ClientCall

end Forgetty
