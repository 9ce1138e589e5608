import Forgetty.Daemon.Restored
import Forgetty.Daemon.RestoredIds
import Forgetty.Session.BetweenSections

/-! The daemon between any two sections: it has come up, with or without a session file, and
the sections of the calls of its clients have run in some order. -/

namespace Forgetty

open Lib SessionManager

/-- The process that has come up warned about the live panes it has no log of. -/
def Process.started (s : SessionManager) : Process :=
  ⟨s, s.paneOrder.filter (· ∉ s.byteLogs)⟩

/-- What the clients lead to, section by section. -/
def Serving (w : World) (m : Shared Process Todo) : Prop :=
  ∃ s turns, Started w s ∧ m = run (lockSections w).turn ⟨Process.started s, []⟩ turns

/-- A daemon without a session file. -/
def emptyStart (w : World) : SessionManager :=
  (SessionManager.new w .empty).setByteLogConfig 1024 10

theorem started_emptyStart (w : World) : Started w (emptyStart w) := .empty .empty 1024 10

variable {w : World} {s : SessionManager} {m : Shared Process Todo}

theorem Started.preparing (hw : Function.Injective w.newV4) (h : Started w s) :
    Preparing w s [] := by
  obtain ⟨ht, -⟩ := h.tracked_sound hw
  exact ⟨fun n hn => ⟨ht.fresh_panes hn, List.not_mem_nil⟩, List.nodup_nil,
    fun p hp => absurd hp List.not_mem_nil⟩

theorem Serving.preparing (hw : Function.Injective w.newV4) (h : Serving w m) :
    Preparing w m.state.sm m.pending := by
  obtain ⟨s, turns, hs, rfl⟩ := h
  have hstart : Preparing w (Process.started s).sm ([] ++ []) := hs.preparing hw
  have hend := Preparing.turns (m := ⟨Process.started s, []⟩) hw hstart turns
  rwa [List.append_nil] at hend

theorem Serving.identified (hw : Function.Injective w.newV4) (h : Serving w m) :
    Identified w m.state.sm := by
  obtain ⟨s, turns, hs, rfl⟩ := h
  exact (inherits_turns _ turns).identified hw (hs.identified hw)

end Forgetty
