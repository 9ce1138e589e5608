import Forgetty.Session.Layout
import Forgetty.Session.Events
import Forgetty.Lib.FileStore

/-! The state of a session as it is stored on disk, and its JSON form. The JSON
library is a parameter: a printer of states whose paths are text, a parser that reads
back what was printed unless it is nested too deep, and the probe that reads the `pinned`
field alone. -/

namespace Forgetty

open Lib

/-- A saved pane. Files from before pane ids were saved have none. -/
structure SavedLeaf where
  cwd : PathBuf
  paneId : Option Uuid
  deriving DecidableEq, Repr

/-- The saved pane tree of a tab. -/
abbrev PaneTreeState := LeafTree SplitLabel SavedLeaf

structure TabState where
  title : String
  paneTree : PaneTreeState
  paneId : Option Uuid
  activePaneId : Option Uuid
  deriving DecidableEq, Repr

structure Workspace where
  id : Uuid
  name : String
  rootPaths : List PathBuf
  tabs : List TabState
  activeTab : ℕ
  color : Option String
  deriving DecidableEq, Repr

structure WorkspaceState where
  version : UInt32
  workspaces : List Workspace
  activeWorkspace : ℕ
  windowWidth : Option Int32
  windowHeight : Option Int32
  pinned : Bool
  deriving DecidableEq

/-- A state without workspaces. -/
def WorkspaceState.new : WorkspaceState where
  version := 1
  workspaces := []
  activeWorkspace := 0
  windowWidth := none
  windowHeight := none
  pinned := false

instance : Inhabited WorkspaceState := ⟨.new⟩

def Workspace.paths (ws : Workspace) : List PathBuf :=
  ws.rootPaths ++ ws.tabs.flatMap fun t => t.paneTree.leaves.map (·.cwd)

/-- Every path of the state is text. -/
def WorkspaceState.IsText (s : WorkspaceState) : Prop :=
  ∀ ws ∈ s.workspaces, ∀ p ∈ ws.paths, p.IsText

instance (s : WorkspaceState) : Decidable s.IsText :=
  inferInstanceAs (Decidable (∀ ws ∈ s.workspaces, ∀ p ∈ ws.paths, p.IsText))

/-! ### The JSON form -/

/-- How deep the JSON form of a pane tree is nested: every variant is an object
around the object of its fields. -/
def PaneTreeState.nesting : PaneTreeState → ℕ
  | .leaf _ => 2
  | .node _ first second => 2 + max (nesting first) (nesting second)

/-- The same for a whole state: the state, the list of workspaces, a workspace,
its list of tabs, a tab, its tree. -/
def WorkspaceState.nesting (s : WorkspaceState) : ℕ :=
  5 + ((s.workspaces.flatMap (·.tabs)).map fun t => PaneTreeState.nesting t.paneTree).foldr max 0

/-- The parser refuses documents nested deeper than this. -/
def recursionLimit : ℕ := 127

/-- The JSON library at the types of a session file, over the symbols `α` a file
is made of. What it reads is text, and it prints nothing else. -/
structure SessionCodec (α : Type) where
  encode : WorkspaceState → List α
  decode : List α → Option WorkspaceState
  probe : List α → Option Bool
  decode_encode : ∀ s : WorkspaceState, s.IsText → s.nesting ≤ recursionLimit →
    decode (encode s) = some s
  probe_encode : ∀ s : WorkspaceState, s.IsText → s.nesting ≤ recursionLimit →
    probe (encode s) = some s.pinned
  nesting_of_decode : ∀ (c : List α) (s : WorkspaceState), decode c = some s →
    s.nesting ≤ recursionLimit
  isText_of_decode : ∀ (c : List α) (s : WorkspaceState), decode c = some s → s.IsText

namespace SessionCodec

variable {α : Type} (codec : SessionCodec α) {s : WorkspaceState}

/-- `serde_json::to_string_pretty`. A path that is no text is refused. -/
def toStringPretty (s : WorkspaceState) : Except IoError (List α) :=
  if s.IsText then .ok (codec.encode s)
  else .error { kind := .invalidData, message := "path contains invalid UTF-8 characters" }

variable {codec} in
theorem toStringPretty_ok (h : s.IsText) : codec.toStringPretty s = .ok (codec.encode s) :=
  if_pos h

variable {codec} in
theorem toStringPretty_eq_ok {json : List α} (h : codec.toStringPretty s = .ok json) :
    s.IsText ∧ codec.encode s = json := by
  unfold toStringPretty at h
  split_ifs at h with htext
  exact ⟨htext, Except.ok.inj h⟩

/-- What is printed is read back exactly if it is not nested too deep. -/
theorem decode_encode_iff (h : s.IsText) :
    codec.decode (codec.encode s) = some s ↔ s.nesting ≤ recursionLimit :=
  ⟨codec.nesting_of_decode _ s, codec.decode_encode s h⟩

/-- A form in two symbols, that of half a file being unreadable. -/
def doubled : SessionCodec WorkspaceState where
  encode s := [s, s]
  decode
    | [s, _] => if s.IsText ∧ s.nesting ≤ recursionLimit then some s else none
    | _ => none
  probe
    | [s, _] => some s.pinned
    | _ => none
  decode_encode _ ht h := if_pos ⟨ht, h⟩
  probe_encode _ _ _ := rfl
  nesting_of_decode c s h := by
    split at h
    · split_ifs at h with hn
      exact Option.some.inj h ▸ hn.2
    · exact nomatch h
  isText_of_decode c s h := by
    split at h
    · split_ifs at h with hn
      exact Option.some.inj h ▸ hn.1
    · exact nomatch h

end SessionCodec

end Forgetty
