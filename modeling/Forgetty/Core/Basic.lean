import Mathlib.Algebra.Group.Nat.Defs
import Mathlib.Algebra.GroupWithZero.Nat
import Mathlib.Algebra.Order.Ring.Unbundled.Rat
import Mathlib.Tactic.Common
import Forgetty.Core.Utf8

/-! Identifiers, errors, and what the daemon process takes from its surroundings:
fresh UUIDs, child processes on pseudoterminals, and files it may fail to open. -/

namespace Forgetty

/-- A UUID. Only equality of UUIDs and the way they print matter to the program. -/
structure Uuid where
  bits : ℕ
  deriving DecidableEq, Repr

namespace Uuid

/-- The last `n` hexadecimal digits of a number, most significant first. -/
def hexDigits : ℕ → ℕ → List Char
  | 0, _ => []
  | n + 1, k => hexDigits n (k / 16) ++ [Nat.digitChar (k % 16)]

/-- The hyphenated lower-case form, 8-4-4-4-12. -/
def hyphenated (u : Uuid) : String :=
  let d := hexDigits 32 u.bits
  String.ofList (d.take 8 ++ '-' :: (d.drop 8).take 4 ++ '-' :: (d.drop 12).take 4 ++
    '-' :: (d.drop 16).take 4 ++ '-' :: d.drop 20)

instance : ToString Uuid := ⟨hyphenated⟩

end Uuid

/-- The identifier of a terminal pane. -/
structure PaneId where
  uuid : Uuid
  deriving DecidableEq, Repr

instance : ToString PaneId := ⟨fun p => toString p.uuid⟩

/-- Paths are bytes, text or not. They are compared, stored and printed, never taken apart. -/
structure PathBuf where
  bytes : Bytes
  deriving DecidableEq, Repr

namespace PathBuf

/-- `PathBuf::from`. -/
def ofString (s : String) : PathBuf := ⟨Utf8.encode s.toList⟩

/-- `Path::to_string_lossy`, and what `Path::display` prints. -/
def toStringLossy (p : PathBuf) : String := Utf8.decodeLossy p.bytes

/-- The path is text. -/
def IsText (p : PathBuf) : Prop :=
  Utf8.encode (Utf8.chars p.bytes.length p.bytes) = p.bytes

instance (p : PathBuf) : Decidable p.IsText := inferInstanceAs (Decidable (_ = _))

@[simp] theorem toStringLossy_ofString (s : String) : (ofString s).toStringLossy = s := by
  rw [toStringLossy, ofString, Utf8.decodeLossy_encode, String.ofList_toList]

@[simp] theorem ofString_inj {s t : String} : ofString s = ofString t ↔ s = t := by
  refine ⟨fun h => ?_, congrArg ofString⟩
  rw [← toStringLossy_ofString s, h, toStringLossy_ofString]

end PathBuf

/-- Finite `f32` values. The code stores, compares and clamps them. -/
abbrev F32 := ℚ

inductive ForgettyError where
  | vt (message : String)
  | pty (message : String)
  | renderer (message : String)
  | config (message : String)
  | io (message : String)
  deriving DecidableEq, Repr

instance : ToString ForgettyError where
  toString
    | .vt m => s!"VT error: {m}"
    | .pty m => s!"PTY error: {m}"
    | .renderer m => s!"Renderer error: {m}"
    | .config m => s!"Config error: {m}"
    | .io m => s!"I/O error: {m}"

structure PtySize where
  rows : UInt16
  cols : UInt16
  pixelWidth : UInt16
  pixelHeight : UInt16
  deriving DecidableEq, Repr

/-- The size the daemon gives panes nobody asked a size for. -/
def PtySize.default : PtySize := { rows := 24, cols := 80, pixelWidth := 0, pixelHeight := 0 }

/-- A child process on a pseudoterminal. -/
structure PtyProcess where
  pid : Option ℕ
  deriving DecidableEq, Repr

/-- A pseudoterminal with its reader thread. `ptyRx` tells whether the receiving
end of the output channel is still in the bridge. -/
structure PtyBridge where
  pty : PtyProcess
  ptyRx : Bool
  deriving DecidableEq, Repr

/-- Everything the surroundings decide: the UUIDs handed out, the outcome of the
`n`-th spawn and of the `n`-th opening of a log file, and the home directory. -/
structure World where
  newV4 : ℕ → Uuid
  ptySpawn : ℕ → PtySize → Option PathBuf → Option (List String) → Bool → Except String PtyProcess
  openLog : ℕ → Except String Unit
  home : Option String

/-- `HOME` where it is text, or the root directory. -/
def World.homeDirFallback (w : World) : PathBuf := .ofString (w.home.getD "/")

/-- The command to run and whether as a login shell. An explicit command runs as
it is; a configured shell and the detected one run as the user's login shell. -/
def PtyBridge.effective (command : Option (List String)) (shell : Option String)
    (loginShell : Bool) : Option (List String) × Bool :=
  match command, shell with
  | some cmd, _ => (some cmd, false)
  | none, some s => (some [s], true)
  | none, none => (none, loginShell)

/-- Spawn the child and start its reader. -/
def PtyBridge.spawn (w : World) (n : ℕ) (size : PtySize) (workingDir : Option PathBuf)
    (command : Option (List String)) (shell : Option String) (loginShell : Bool) :
    Except String PtyBridge :=
  let run := effective command shell loginShell
  match w.ptySpawn n size workingDir run.1 run.2 with
  | .error e => .error s!"spawn PTY: {e}"
  | .ok pty => .ok { pty := pty, ptyRx := true }

/-- Surroundings where everything works: UUIDs and process ids are counted up. -/
def World.counting : World where
  newV4 n := ⟨n⟩
  ptySpawn n _ _ _ _ := .ok { pid := some n }
  openLog _ := .ok ()
  home := none

theorem World.counting_injective : Function.Injective World.counting.newV4 :=
  fun _ _ h => congrArg Uuid.bits h

/-- Every spawn the process asks for succeeds. -/
def World.SpawnsSucceed (w : World) : Prop :=
  ∀ n size dir cmd login, ∃ pty, w.ptySpawn n size dir cmd login = .ok pty

theorem World.counting_spawnsSucceed : World.counting.SpawnsSucceed := fun _ _ _ _ _ => ⟨_, rfl⟩

theorem PtyBridge.spawn_ok {w : World} (hw : w.SpawnsSucceed) (n : ℕ) (size : PtySize)
    (dir : Option PathBuf) (cmd : Option (List String)) (shell : Option String) (login : Bool) :
    ∃ b, PtyBridge.spawn w n size dir cmd shell login = .ok b := by
  obtain ⟨pty, h⟩ := hw n size dir (effective cmd shell login).1 (effective cmd shell login).2
  exact ⟨{ pty := pty, ptyRx := true }, by simp only [spawn, h]⟩

end Forgetty
