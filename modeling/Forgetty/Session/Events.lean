import Forgetty.Core.Basic
import Forgetty.Lib.Endings

/-! What the session manager broadcasts: pane output and every change of the layout. -/

namespace Forgetty

open Lib

inductive SessionEvent where
  | ptyOutput (paneId : PaneId) (data : Bytes)
  | paneCreated (paneId : PaneId)
  | paneClosed (paneId : PaneId)
  | tabCreated (workspaceIdx : ℕ) (tabId : Uuid) (paneId : PaneId)
  | tabClosed (workspaceIdx : ℕ) (tabId : Uuid)
  | paneSplit (tabId : Uuid) (parentPaneId newPaneId : PaneId) (direction : String)
  | tabMoved (workspaceIdx : ℕ) (tabId : Uuid) (newIndex : ℕ)
  | activeTabChanged (workspaceIdx tabIdx : ℕ)
  | activeWorkspaceChanged (workspaceIdx : ℕ)
  | workspaceCreated (workspaceIdx : ℕ) (workspaceId : Uuid) (name : String)
  | workspaceRenamed (workspaceIdx : ℕ) (workspaceId : Uuid) (name : String)
  | workspaceDeleted (workspaceIdx : ℕ) (workspaceId : Uuid)
  | workspaceColorChanged (workspaceIdx : ℕ) (workspaceId : Uuid) (color : Option String)
  | workspacesReordered (fromIdx toIdx : ℕ) (fromWorkspaceId toWorkspaceId : Uuid)
  | activePaneChanged (workspaceIdx : ℕ) (tabId : Uuid) (paneId : Option PaneId)
  deriving DecidableEq, Repr

namespace SessionEvent

/-- The bytes an event carries for one pane. -/
def outputOf (p : PaneId) : SessionEvent → Bytes
  | ptyOutput paneId data => if paneId = p then data else []
  | _ => []

/-- What an event tells of a pane. -/
def word : SessionEvent → Option (Word PaneId)
  | ptyOutput paneId _ => some (.said paneId)
  | paneClosed paneId => some (.ended paneId)
  | _ => none

/-- An event that tells of no pane is no output and no closing. -/
theorem outputOf_of_word {e : SessionEvent} (h : e.word = none) (p : PaneId) :
    e.outputOf p = [] ∧ e ≠ .paneClosed p := by
  cases e <;> simp [word, outputOf] at h ⊢

end SessionEvent

/-- The bytes a sequence of events carries for one pane. -/
def outputOf (p : PaneId) (events : List SessionEvent) : Bytes :=
  events.flatMap (SessionEvent.outputOf p)

@[simp] theorem outputOf_nil (p : PaneId) : outputOf p [] = [] := rfl

@[simp] theorem outputOf_append (p : PaneId) (es fs : List SessionEvent) :
    outputOf p (es ++ fs) = outputOf p es ++ outputOf p fs := List.flatMap_append

@[simp] theorem outputOf_singleton (p : PaneId) (e : SessionEvent) :
    outputOf p [e] = e.outputOf p := by simp [outputOf]

end Forgetty
