import Forgetty.Session.Calls

/-! Indices in bounds. Only one thing can bring an active index out of bounds: closing
a pane that two tabs of a workspace consist of drops both tabs, and the index of a
workspace without tabs is not clamped. Two such tabs come from a caller that brings
the same pane id along twice. -/

namespace Forgetty

open Lib

/-- There is a workspace, the active one is in bounds, and so is the active tab of every
workspace; without tabs it is 0. -/
structure SessionLayout.Indexed (l : SessionLayout) : Prop where
  workspaces : l.workspaces ≠ []
  activeWorkspace : l.activeWorkspace < l.workspaces.length
  activeTab : ∀ ws ∈ l.workspaces, ws.activeTab < ws.tabs.length ∨ ws.tabs = [] ∧ ws.activeTab = 0

theorem SessionLayout.Sound.indexed {l : SessionLayout} (h : l.Sound) : l.Indexed where
  workspaces := List.length_pos_iff.mp (Nat.zero_lt_of_lt h.active)
  activeWorkspace := h.active
  activeTab ws hws := by
    have ha := (h.workspaces ws hws).active
    by_cases hnil : ws.tabs = []
    · rw [hnil, List.length_nil] at ha
      exact Or.inr ⟨hnil, by omega⟩
    · have hpos := List.length_pos_iff.mpr hnil
      exact Or.inl (by omega)

namespace SessionManager

/-- A call that closes no pane two tabs of a workspace consist of. -/
def DropsOneTab (s : SessionManager) : Call → Prop
  | .op op => ClosesOneTab s op
  | _ => True

variable {w : World} {s : SessionManager}

theorem sound_invoke (h : s.layout.Sound) {call : Call} (hc : DropsOneTab s call) :
    (s.invoke w call).layout.Sound := by
  cases call with
  | op op => exact sound_apply h hc
  | createTabWithPaneId i cwd size command p => exact sound_createTabWithPaneId h i cwd size command p
  | splitPaneWithRatioAndPaneId p direction ratio size cwd q =>
    simp only [invoke, Call.exec, splitPaneWithRatioAndPaneId]
    split_ifs
    · exact sound_splitAt h _ p direction ratio size cwd q
    · exact h

/-- In every state of every run of calls in which no pane is closed that two tabs of a
workspace consist of, the indices are in bounds. -/
theorem indexed_along (w : World) (logFiles : PMap Uuid Bytes) (ringKb maxMb : UInt32)
    (calls : List Call)
    (h : Meets (invoke w) DropsOneTab (fresh w logFiles ringKb maxMb) calls) :
    Along (invoke w) (fun s => s.layout.Indexed) (fresh w logFiles ringKb maxMb) calls :=
  along_of_invariant (fun _ _ hs hc => sound_invoke hs hc) (fun _ hs => hs.indexed)
    (SessionLayout.sound_newDefault _) h

/-- Two tabs get the same pane, the second becomes the active one, and the pane is closed. -/
def closedTwice : List Call :=
  [.createTabWithPaneId 0 none .default none ⟨⟨50⟩⟩,
    .createTabWithPaneId 0 none .default none ⟨⟨50⟩⟩, .op (.setActiveTab 0 1),
    .op (.closePane ⟨⟨50⟩⟩)]

theorem not_indexed_closedTwice :
    ¬Along (invoke .counting) (fun s => s.layout.Indexed) (fresh .counting .empty 1024 10)
      closedTwice := by
  intro h
  rcases h.last.activeTab _ (List.mem_singleton.mpr rfl) with hlt | ⟨-, hzero⟩
  · exact absurd hlt (by decide)
  · exact absurd hzero (by decide)

/-- The same with two panes. -/
theorem indexed_closedOnce :
    Along (invoke .counting) (fun s => s.layout.Indexed) (fresh .counting .empty 1024 10)
      [.createTabWithPaneId 0 none .default none ⟨⟨50⟩⟩,
        .createTabWithPaneId 0 none .default none ⟨⟨51⟩⟩, .op (.setActiveTab 0 1),
        .op (.closePane ⟨⟨50⟩⟩)] := by
  refine indexed_along .counting .empty 1024 10 _ ⟨trivial, trivial, nofun, ?_, trivial⟩
  intro p heq _ ws hws hall
  obtain rfl := List.mem_singleton.mp hws
  have hsecond := hall (.ofLeaf ⟨2⟩ ⟨⟨51⟩⟩) (by decide)
  rw [← Op.closePane.inj heq] at hsecond
  exact absurd hsecond (by decide)

end SessionManager

end Forgetty
