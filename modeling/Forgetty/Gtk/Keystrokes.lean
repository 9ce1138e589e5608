import Forgetty.Gtk.OverTheWire

/-! Keys on their way to the terminals. Any number of clients call the daemon, one call after the
other; what a terminal has taken is, byte for byte and in order, what the daemon said it took, and
all or nothing of what the daemon was too late to say. -/

namespace Forgetty

open Lib SessionManager

/-! ### What is written -/

/-- What a terminal has been written, of writes to all of them. -/
def bytesTo (p : PaneId) (writes : List (PaneId × Bytes)) : Bytes :=
  (writes.filter (·.1 = p)).flatMap (·.2)

@[simp] theorem bytesTo_nil_write (p q : PaneId) : bytesTo p [(q, [])] = [] := by
  by_cases h : q = p <;> simp [bytesTo, h]

/-- A write that fails has written nothing. -/
def Host.Atomic (host : Host) : Prop := ∀ p data k e, host.write p data = .error (k, e) → k = 0

namespace ClientCall

variable {α β γ δ ν σ : Type} {svc : Service α β ν σ} {host : Host} {d : Daemon α β}

/-- What a call has the daemon write. -/
def keys (host : Host) : ClientCall γ δ → List (PaneId × Bytes)
  | sendInput p data => [(p, data)]
  | sendSigint p => [(p, [(host.intrByte p).getD 3])]
  | _ => []

@[simp] theorem typed_through {code : RefusalCode} {label : String}
    {made : SessionManager × Except ForgettyError γ} :
    (d.through code label made).1.typed = d.typed := rfl

end ClientCall

/-! ### A run of calls -/

section Run

variable {α β ν σ : Type} (svc : Service α β ν σ) (shapeError : Json → String)
  (uuidError : String → String)

/-- What happens at the daemon: a client calls, and its answer arrives or not, or the session is
called on otherwise. -/
inductive WireStep where
  | client {γ δ : Type} (host : Host) (arrival : Except String Unit) (c : ClientCall γ δ)
  | session (call : Call)

namespace WireStep

def take (d : Daemon α β) : WireStep → Daemon α β
  | client host arrival c => (DaemonClient.call svc shapeError uuidError host arrival c d).1
  | session call => { d with sm := d.sm.invoke svc.w call }

/-- What a client can tell of the keys of its call: they are written if it is answered, they are
not if it is refused, and an answer that does not arrive leaves it open. -/
def Tells (d : Daemon α β) (writes : List (PaneId × Bytes)) : WireStep → Prop
  | client host arrival c =>
    if arrival.isOk then
      writes = if (DaemonClient.call svc shapeError uuidError host arrival c d).2.isOk
        then c.keys host else []
    else writes = c.keys host ∨ writes = []
  | session _ => writes = []

/-- Numbers are as large as the types of the source have them, and failing writes write nothing. -/
def Sound : WireStep → Prop
  | client host _ c => host.Atomic ∧ c.Sized
  | session _ => True

variable {svc shapeError uuidError}

end WireStep

open WireStep

end Run

end Forgetty
