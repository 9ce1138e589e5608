import Forgetty.Socket.Handlers

/-! The calls a window makes on the daemon. A call runs the part of its handler
behind the reading of the parameters; of an error answer the window only logs
the text. Whether a pane that the daemon created also gets a widget is decided
by the subscription to its output and by the terminal. -/

namespace Forgetty

open Lib SessionManager

/-- What the surroundings of a window answer for a pane. -/
structure Terminals where
  subscribeOutput : PaneId → Bool
  createTerminal : PaneId → Bool

/-- The pane gets a widget. -/
def Terminals.Shows (term : Terminals) (p : PaneId) : Prop :=
  term.subscribeOutput p = true ∧ term.createTerminal p = true

instance (term : Terminals) (p : PaneId) : Decidable (term.Shows p) :=
  inferInstanceAs (Decidable (_ ∧ _))

/-- Every pane gets its widget. -/
def Terminals.all : Terminals where
  subscribeOutput _ := true
  createTerminal _ := true

theorem Terminals.shows_all (p : PaneId) : Terminals.all.Shows p := ⟨rfl, rfl⟩

namespace DaemonClient

/-- The request of a call whose only parameter is a pane. -/
def paneRequest (method : String) (p : PaneId) : Request where
  method := method
  params := .obj [("pane_id", .str (toString p))]
  id := none

/-- The new pane opens in the directory of the old one. -/
def splitPane (w : World) (p : PaneId) (direction : String) (sm : SessionManager) :
    SessionManager × Option PaneId :=
  match sm.paneInfo p with
  | none => (sm, none)
  | some info =>
    if direction = "horizontal" ∨ direction = "vertical" then
      (sm.splitPane w p direction .default (some info.cwd)).map id Except.toOption
    else (sm, none)

def closePane (w : World) (p : PaneId) (sm : SessionManager) : SessionManager :=
  if (sm.paneInfo p).isSome then (closePaneRpc w (paneRequest "close_pane" p) p sm).1 else sm

def closeTabByPaneId (w : World) (p : PaneId) (sm : SessionManager) : SessionManager :=
  if (sm.paneInfo p).isSome then (closeTabByPaneRpc w (paneRequest "close_tab" p) p sm).1 else sm

end DaemonClient

end Forgetty
