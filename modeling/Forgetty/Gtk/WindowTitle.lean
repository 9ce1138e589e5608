import Forgetty.Core.HexColours
import Forgetty.Gtk.UrlHover
import Forgetty.Lib.FirstPlace
import Forgetty.Lib.PartialMap
import Forgetty.Lib.Run

/-! The titles of a tab and of the window. A change of the workspace writes its name and the
directory of the focused pane into the title of the window, and everything after that reads the
name back out of the title that is shown and puts the directory of a pane behind it. -/

namespace Forgetty.WindowTitle

open Lib
open UrlHover (findText_none findText_some)
open String (utf8Len)

/-! ### The title of a pane -/

/-- What a pane has its title from. -/
structure TitledPane where
  daemonCwd : Option Text
  oscTitle : Text
deriving DecidableEq

/-- The path of a title `user@host:path`. -/
def cwdFromOscTitle (title : Text) : Text :=
  let before := title.takeWhile (· ≠ ':')
  match title.drop before.length with
  | [] => title
  | _ :: rest =>
    let after := rest.dropWhile (· = ' ')
    if '@' ∈ before ∧ after ≠ [] then after else title

/-- The home directory is written as a tilde. The home directory itself has its own title. -/
def tilde (home atHome cwd : Text) : Text :=
  if home ≠ [] ∧ home.isPrefixOf cwd then
    let rest := cwd.drop home.length
    if rest = [] then atHome else '~' :: rest
  else cwd

def computeDisplayTitle (home : Text) (p : TitledPane) : Text :=
  let shell := "shell".toList
  match p.daemonCwd with
  | some (c :: cwd) => tilde home ['~'] (c :: cwd)
  | _ =>
    if p.oscTitle ≠ [] ∧ p.oscTitle ≠ shell then tilde home ['~'] (cwdFromOscTitle p.oscTitle)
    else shell

def appTitle : Text := "Forgetty".toList

def settingsTitle : Text := "Settings — Forgetty".toList

def computeWindowTitle (home : Text) (p : TitledPane) : Text :=
  if p.oscTitle ≠ [] then tilde home appTitle (cwdFromOscTitle p.oscTitle)
  else match p.daemonCwd with
    | some (c :: cwd) => tilde home appTitle (c :: cwd)
    | _ => appTitle

/-! ### The title of the window -/

def separator : Text := " — ".toList

/-- What stands before the first separator of a title. -/
def heading (title : Text) : Option Text :=
  (findText separator title).bind fun headEnd => (splitBytes headEnd title).map (·.1)

/-- A title with a workspace, or without one. -/
def headed (workspace : Option Text) (paneTitle : Text) : Text :=
  match workspace with
  | some name => name ++ separator ++ paneTitle
  | none => paneTitle

def setWindowTitlePreservingWorkspace (paneTitle current : Text) : Text :=
  headed (heading current) paneTitle

/-- The title of the focused pane, if there is one. -/
def focusedTitle (home : Text) : Option TitledPane → Text
  | some p => computeWindowTitle home p
  | none => appTitle

def updateWindowTitleWithWorkspace (home : Text) (wsCount : ℕ) (wsName : Text)
    (focused : Option TitledPane) : Text :=
  headed (if wsCount ≤ 1 then none else some wsName) (focusedTitle home focused)

/-- What a tick of the timer of a tab finds. -/
structure TabView where
  isSelected : Bool
  hasCustomTitle : Bool
  /-- The workspace of the tab is the one that is shown. -/
  isShown : Bool
  focusedName : Text
  leaves : List Text
  panes : PMap Text TitledPane

namespace TabView

/-- The focused pane, or the first one of the tab where that is in another tab. -/
def titlePane (v : TabView) : Option TitledPane :=
  if v.focusedName ∈ v.leaves then v.panes.get v.focusedName
  else v.leaves.head?.bind v.panes.get

/-- The pane whose title the window is given. -/
def windowPane (v : TabView) : Option TitledPane :=
  if v.isSelected ∧ v.isShown then
    if v.hasCustomTitle then v.panes.get v.focusedName else v.titlePane
  else none

/-- The title of the tab after the tick. -/
def tabTitle (home : Text) (v : TabView) (title : Text) : Text :=
  if v.isSelected ∧ ¬ v.hasCustomTitle then
    match v.titlePane with
    | some p => computeDisplayTitle home p
    | none => title
  else title

end TabView

inductive PaneUpdate where
  | tick (v : TabView)
  /-- A pane was focused. It may have been removed from the panes of its tab. -/
  | focusGained (p : Option TitledPane)

def PaneUpdate.pane : PaneUpdate → Option TitledPane
  | .tick v => v.windowPane
  | .focusGained p => p

inductive Event where
  | paneUpdate (u : PaneUpdate)
  | workspace (wsCount : ℕ) (wsName : Text) (focused : Option TitledPane)
  | settingsOpened
  | settingsClosed

def step (home : Text) (title : Text) : Event → Text
  | .paneUpdate u => match u.pane with
    | some p => setWindowTitlePreservingWorkspace (computeWindowTitle home p) title
    | none => title
  | .workspace wsCount wsName focused => updateWindowTitleWithWorkspace home wsCount wsName focused
  | .settingsOpened => settingsTitle
  | .settingsClosed => appTitle

/-! ### What is read back -/

variable {title name paneTitle home : Text}

theorem heading_eq_some_iff : heading title = some name ↔ FirstAt separator name title := by
  constructor
  · intro h
    obtain ⟨headEnd, hfind, hsplit⟩ := Option.bind_eq_some_iff.mp h
    obtain ⟨⟨before, rest⟩, hbytes, rfl⟩ := Option.map_eq_some_iff.mp hsplit
    obtain ⟨skipped, found, htitle, hlen, hfound, hfirst⟩ := findText_some hfind
    obtain ⟨htitle', hlen'⟩ := splitBytes_eq_some_iff.mp hbytes
    have hskipped : splitBytes headEnd title = some (skipped, found) :=
      splitBytes_eq_some_iff.mpr ⟨htitle, hlen⟩
    obtain ⟨rfl, rfl⟩ := Prod.mk.inj (Option.some.inj (hbytes.symm.trans hskipped))
    refine ⟨?_, hfirst⟩
    rw [htitle]
    exact (List.prefix_append_right_inj before).mpr hfound
  · intro h
    cases hfind : findText separator title with
    | none => exact absurd (FirstAt.drop_append h.1) (findText_none hfind name.length)
    | some headEnd =>
      obtain ⟨skipped, found, htitle, hlen, hfound, hfirst⟩ := findText_some hfind
      have hplace : FirstAt separator skipped title := by
        refine ⟨?_, hfirst⟩
        rw [htitle]
        exact (List.prefix_append_right_inj skipped).mpr hfound
      rw [heading, hfind, Option.bind_some, splitBytes_eq_some_iff.mpr ⟨htitle, hlen⟩,
        Option.map_some, hplace.unique h]

theorem heading_eq_none_iff : heading title = none ↔ ¬ separator <:+: title := by
  constructor
  · intro h hinfix
    obtain ⟨name, hname⟩ := exists_firstAt hinfix
    rw [heading_eq_some_iff.mpr hname] at h
    cases h
  · intro h
    cases hname : heading title with
    | none => rfl
    | some name => exact absurd (heading_eq_some_iff.mp hname).isInfix h

/-- The heading of a title stays the heading of what it is put before. -/
theorem heading_headed (h : heading title = some name) (paneTitle : Text) :
    heading (headed (some name) paneTitle) = some name :=
  heading_eq_some_iff.mpr ((heading_eq_some_iff.mp h).write paneTitle)

/-- A title with a heading keeps it, and one without takes it from the title of the pane. -/
theorem heading_set (paneTitle title : Text) :
    heading (setWindowTitlePreservingWorkspace paneTitle title) =
      (heading title).or (heading paneTitle) := by
  rw [setWindowTitlePreservingWorkspace]
  cases h : heading title with
  | none => rfl
  | some name => exact heading_headed h paneTitle

/-- The title after pane titles were put into it: the first separator ever seen is the one that
counts, in the title at the beginning or in one of the pane titles. -/
theorem foldl_set (title : Text) (earlier : List Text) (last : Text) :
    (earlier ++ [last]).foldl (fun t p => setWindowTitlePreservingWorkspace p t) title =
      headed ((title :: earlier).findSome? heading) last := by
  induction earlier generalizing title with
  | nil =>
    rw [List.nil_append, List.foldl_cons, List.foldl_nil, List.findSome?_singleton]
    rfl
  | cons p earlier ih =>
    rw [List.cons_append, List.foldl_cons, ih, List.findSome?_cons, heading_set,
      List.findSome?_cons, List.findSome?_cons]
    cases heading title with
    | some name => rfl
    | none => simp only [Option.none_or]

theorem step_workspace (wsCount : ℕ) (wsName : Text) (focused : Option TitledPane) :
    step home title (.workspace wsCount wsName focused) =
      updateWindowTitleWithWorkspace home wsCount wsName focused := rfl

theorem step_paneUpdate_none {u : PaneUpdate} (h : u.pane = none) :
    step home title (.paneUpdate u) = title := by
  simp only [step, h]

theorem step_paneUpdate_some {u : PaneUpdate} {p : TitledPane} (h : u.pane = some p) :
    step home title (.paneUpdate u) =
      setWindowTitlePreservingWorkspace (computeWindowTitle home p) title := by
  simp only [step, h]

/-- Updates are the pane titles they come with. -/
theorem run_updates (home title : Text) (updates : List PaneUpdate) :
    run (step home) title (updates.map .paneUpdate) =
      ((updates.filterMap PaneUpdate.pane).map (computeWindowTitle home)).foldl
        (fun t p => setWindowTitlePreservingWorkspace p t) title := by
  induction updates generalizing title with
  | nil => rfl
  | cons u updates ih =>
    rw [List.map_cons, run_cons, ih]
    cases hp : u.pane with
    | none => rw [step_paneUpdate_none hp, List.filterMap_cons_none hp]
    | some p =>
      rw [step_paneUpdate_some hp, List.filterMap_cons_some hp, List.map_cons, List.foldl_cons]

/-- The title after updates of which the last pane is known. -/
theorem run_last (home title : Text) {updates : List PaneUpdate} {earlier : List TitledPane}
    {last : TitledPane} (h : updates.filterMap PaneUpdate.pane = earlier ++ [last]) :
    run (step home) title (updates.map .paneUpdate) =
      headed ((title :: earlier.map (computeWindowTitle home)).findSome? heading)
        (computeWindowTitle home last) := by
  rw [run_updates, h, List.map_append, List.map_singleton, foldl_set]

/-- What the title of the window is meant to be. -/
def intendedTitle (wsCount : ℕ) (wsName paneTitle : Text) : Text :=
  headed (if wsCount ≤ 1 then none else some wsName) paneTitle

theorem headed_inj {a b : Option Text} : headed a paneTitle = headed b paneTitle ↔ a = b := by
  refine ⟨fun h => ?_, fun h => by rw [h]⟩
  cases a with
  | none =>
    cases b with
    | none => rfl
    | some name =>
      have := congrArg List.length h
      simp [headed, separator] at this
      omega
  | some name =>
    cases b with
    | none =>
      have := congrArg List.length h
      simp [headed, separator] at this
      omega
    | some name' =>
      rw [headed, headed, List.append_assoc, List.append_assoc] at h
      rw [List.append_cancel_right h]

theorem heading_appTitle : heading appTitle = none := by decide +kernel

/-- The title of one workspace alone has no heading exactly if the pane title has none. -/
theorem heading_single (home : Text) {wsCount : ℕ} (h : wsCount ≤ 1) (wsName : Text)
    (focused : Option TitledPane) :
    heading (updateWindowTitleWithWorkspace home wsCount wsName focused) = none ↔
      ∀ p ∈ focused.toList, heading (computeWindowTitle home p) = none := by
  rw [updateWindowTitleWithWorkspace, if_pos h]
  cases focused with
  | none => simpa [headed, focusedTitle] using heading_appTitle
  | some p => simp [headed, focusedTitle]

/-- The heading of a title with a workspace is its name exactly if the name leaves the separator
behind it the first. -/
theorem heading_several (home : Text) {wsCount : ℕ} (h : ¬ wsCount ≤ 1) (wsName : Text)
    (focused : Option TitledPane) :
    heading (updateWindowTitleWithWorkspace home wsCount wsName focused) = some wsName ↔
      ¬ separator <:+: wsName ++ separator.dropLast := by
  have hne : separator ≠ [] := by decide
  rw [updateWindowTitleWithWorkspace, if_neg h, heading_eq_some_iff, ← firstAt_self_iff hne]
  constructor
  · exact fun hfirst => hfirst.transfer (List.prefix_refl _)
  · exact fun hfirst => hfirst.write _

theorem exists_heading (home : Text) {wsCount : ℕ} (h : ¬ wsCount ≤ 1) (wsName : Text)
    (focused : Option TitledPane) :
    ∃ name, heading (updateWindowTitleWithWorkspace home wsCount wsName focused) = some name := by
  rw [updateWindowTitleWithWorkspace, if_neg h]
  have hinfix : separator <:+: headed (some wsName) (focusedTitle home focused) :=
    ⟨wsName, focusedTitle home focused, rfl⟩
  obtain ⟨name, hname⟩ := exists_firstAt hinfix
  exact ⟨name, heading_eq_some_iff.mpr hname⟩

/-- The window shows the workspace and the last pane exactly if, with several workspaces, the name
has no separator in it and does not end with the beginning of one, and, with one workspace, no
title of a pane that was shown since has a separator. -/
theorem title_iff (home : Text) (title : Text) (before : List Event) (wsCount : ℕ) (wsName : Text)
    (focused : Option TitledPane) {updates : List PaneUpdate} {earlier : List TitledPane}
    {last : TitledPane} (h : updates.filterMap PaneUpdate.pane = earlier ++ [last]) :
    run (step home) title (before ++ .workspace wsCount wsName focused ::
        updates.map .paneUpdate) = intendedTitle wsCount wsName (computeWindowTitle home last) ↔
      if wsCount ≤ 1 then ∀ p ∈ focused.toList ++ earlier, ¬ separator <:+: computeWindowTitle home p
      else ¬ separator <:+: wsName ++ separator.dropLast := by
  rw [run_append, run_cons, step_workspace, run_last _ _ h, intendedTitle, headed_inj]
  split_ifs with hcount
  · rw [List.findSome?_eq_none_iff, List.forall_mem_cons, heading_single home hcount,
      List.forall_mem_map, List.forall_mem_append]
    simp only [heading_eq_none_iff]
  · obtain ⟨name, hname⟩ := exists_heading home hcount wsName focused
    rw [← heading_several home hcount wsName focused, List.findSome?_cons, hname]

def atTmp : TitledPane := { daemonCwd := none, oscTitle := "me@host:/tmp".toList }

theorem title_iff_twoWorkspaces :
    run (step "/home/me".toList) appTitle ([] ++ .workspace 2 "Work".toList none ::
        [PaneUpdate.focusGained (some atTmp)].map .paneUpdate) =
      intendedTitle 2 "Work".toList (computeWindowTitle "/home/me".toList atTmp) ↔
    if 2 ≤ 1 then ∀ p ∈ (none : Option TitledPane).toList ++ [],
      ¬ separator <:+: computeWindowTitle "/home/me".toList p
    else ¬ separator <:+: "Work".toList ++ separator.dropLast :=
  title_iff "/home/me".toList appTitle [] 2 "Work".toList none rfl

/-- After the settings were left the title has no workspace in it until the workspace changes. -/
theorem run_settingsClosed (home title : Text) {updates : List PaneUpdate}
    {earlier : List TitledPane} {last : TitledPane}
    (h : updates.filterMap PaneUpdate.pane = earlier ++ [last])
    (hplain : ∀ p ∈ earlier, ¬ separator <:+: computeWindowTitle home p) :
    run (step home) title (.settingsClosed :: updates.map .paneUpdate) =
      computeWindowTitle home last := by
  have hnone : (appTitle :: earlier.map (computeWindowTitle home)).findSome? heading = none := by
    rw [List.findSome?_eq_none_iff, List.forall_mem_cons, List.forall_mem_map]
    exact ⟨heading_appTitle, fun p hp => heading_eq_none_iff.mpr (hplain p hp)⟩
  calc run (step home) title (.settingsClosed :: updates.map .paneUpdate)
      = run (step home) appTitle (updates.map .paneUpdate) := rfl
    _ = headed none (computeWindowTitle home last) := by rw [run_last _ _ h, hnone]
    _ = computeWindowTitle home last := rfl

end Forgetty.WindowTitle
