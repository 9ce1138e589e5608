import Forgetty.Daemon.Reached
import Forgetty.Daemon.RoundTrip
import Forgetty.Session.LiveFocus

/-! A restore writes the focus pointers of a session file. It ends no pane, so all leaves are
live when it writes them, whatever the file holds. -/

namespace Forgetty

open Lib SessionManager

variable {w : World} {isDir : PathBuf → Bool} {s : SessionManager}

/-- What holds while a session is restored. -/
structure AllLive (w : World) (s : SessionManager) : Prop where
  identified : Identified w s
  shown : LiveShown s
  leaf : ∀ p ∈ s.layout.leaves, p ∈ s.panes
  focus : FocusLive s

/-- A call that ends nothing spares the focus. -/
theorem AllLive.spares (h : AllLive w s) {call : Call} (hc : ¬Ends call) : SparesFocus s call where
  stays k ws tab p hws htab htakes hp := by
    match call with
    | .createTabWithPaneId .. => exact List.not_mem_nil
    | .splitPaneWithRatioAndPaneId .. => exact List.not_mem_nil
    | .op op =>
      cases op with
      | closePane q => exact absurd trivial hc
      | closeTab tabId => exact absurd trivial hc
      | deleteWorkspace i => exact absurd trivial hc
      | _ => exact List.not_mem_nil
  aims i ws tabId tab p hcall hws htab hp := by
    refine h.leaf p (List.mem_flatMap.mpr ⟨ws, List.mem_of_getElem? hws, ?_⟩)
    exact List.mem_flatMap.mpr ⟨tab, List.mem_of_find?_eq_some htab, hp⟩

theorem AllLive.invoke (hw : Function.Injective w.newV4) (h : AllLive w s) {call : Call}
    (hc : ¬Ends call) : AllLive w (s.invoke w call) where
  identified := (inherits_invoke call s).identified hw h.identified
  shown := liveShown_invoke hw h.shown call
  leaf p hp := by
    have hg := gains_invoke hw h.shown hc
    exact (hg.leaf p hp).elim (fun hp => hg.live p (h.leaf p hp)) id
  focus := focusLive_invoke hw h.identified h.shown h.focus (h.spares hc)

theorem allLive_fresh (hw : Function.Injective w.newV4) (logFiles : PMap Uuid Bytes)
    (ringKb maxMb : UInt32) : AllLive w (fresh w logFiles ringKb maxMb) where
  identified := identified_fresh hw logFiles ringKb maxMb
  shown := liveShown_fresh logFiles ringKb maxMb
  leaf p hp := absurd hp List.not_mem_nil
  focus ws hws tab htab := by
    rw [List.mem_singleton.mp hws] at htab
    exact absurd htab List.not_mem_nil

/-- However the daemon comes up, the panes in focus are live. -/
theorem allLive_daemonStart {α : Type} (hw : Function.Injective w.newV4) (os : Os Uuid)
    (codec : SessionCodec α) (sessionId : Uuid) (ringKb maxMb : UInt32) (d : Disk α)
    (logFiles : PMap Uuid Bytes) :
    AllLive w (daemonStart w isDir os codec sessionId ringKb maxMb d logFiles) := by
  have hfresh := allLive_fresh hw logFiles ringKb maxMb
  rw [daemonStart]
  split
  · exact (builds_coldStart _ _).invariant (fun t call hc ht => ht.invoke hw hc) hfresh
  · exact hfresh

/-- A daemon comes up, with any session file or with none, and takes calls with any arguments:
as long as they spare the focus, the focus of every tab is a live leaf of it in every
state. -/
theorem focusLive_along {α : Type} (w : World) (hw : Function.Injective w.newV4)
    (isDir : PathBuf → Bool) (os : Os Uuid) (codec : SessionCodec α) (sessionId : Uuid)
    (ringKb maxMb : UInt32) (d : Disk α) (logFiles : PMap Uuid Bytes) (calls : List Call)
    (h : Meets (invoke w) SparesFocus
      (daemonStart w isDir os codec sessionId ringKb maxMb d logFiles) calls) :
    Along (invoke w) FocusLive (daemonStart w isDir os codec sessionId ringKb maxMb d logFiles)
      calls := by
  have hstart := @allLive_daemonStart w isDir α hw os codec sessionId ringKb maxMb d logFiles
  refine along_of_invariant (I := fun t => Identified w t ∧ LiveShown t ∧ FocusLive t)
    (fun t call ht hc => ⟨?_, ?_, ?_⟩) (fun t ht => ht.2.2)
    ⟨hstart.identified, hstart.shown, hstart.focus⟩ h
  · exact (inherits_invoke call t).identified hw ht.1
  · exact liveShown_invoke hw ht.2.1 call
  · exact focusLive_invoke hw ht.1 ht.2.1 ht.2.2 hc

/-- A restored split: the second pane gets the focus, then the first one is closed. -/
theorem focusLive_otherClosed :
    Along (invoke .next) FocusLive nextDaemon
      [.op (.setActivePane 0 ⟨102⟩ (some ⟨⟨3⟩⟩)), .op (.closePane ⟨⟨1⟩⟩)] := by
  have hall : ∀ ws ∈ (nextDaemon.invoke .next
      (.op (.setActivePane 0 ⟨102⟩ (some ⟨⟨3⟩⟩)))).layout.workspaces, ∀ tab ∈ ws.tabs,
      tab.activePaneId ≠ some ⟨⟨1⟩⟩ := by decide
  refine focusLive_along .next World.next_injective _ _ _ _ _ _ _ _ _ ⟨?_, ⟨?_, nofun⟩, trivial⟩
  · refine ⟨fun _ _ _ _ _ _ _ _ => List.not_mem_nil, fun i ws tabId tab p hcall _ _ _ => ?_⟩
    cases hcall
    decide
  · intro k ws tab p hws htab _ hp hmem
    rw [List.mem_singleton.mp hmem] at hp
    exact hall ws (List.mem_of_getElem? hws) tab htab hp

/-- A tab is split, the new pane gets the focus and is closed. -/
theorem not_focusLive_focusedClosed :
    ¬Along (invoke .counting) FocusLive
      (daemonStart .counting (fun _ => true) ⟨fun _ => .works, fun _ => []⟩ .doubled ⟨7⟩ 1024 10
        ⟨.empty, 0, []⟩ .empty)
      [.op (.createTab 0 none .default none), .op (.splitPane ⟨⟨1⟩⟩ "horizontal" .default none),
        .op (.setActivePane 0 ⟨2⟩ (some ⟨⟨3⟩⟩)), .op (.closePane ⟨⟨3⟩⟩)] := by
  intro h
  have hfocus := h.last _ (List.mem_singleton_self _) _ (List.mem_singleton_self _) ⟨⟨3⟩⟩ (by decide)
  exact absurd hfocus.2 (by decide)

end Forgetty
