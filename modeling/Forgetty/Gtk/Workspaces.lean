import Forgetty.Core.HexColours
import Forgetty.Gtk.Client
import Forgetty.Lib.Run
import Forgetty.Lib.Splice
import Forgetty.Lib.Swap

/-! The workspaces a window shows. The window changes its own list next to the
calls it makes on the daemon, and handles the layout events of the daemon later,
one by one and in their order. A window with its daemon is one state here, and
what the user does and what the window handles are its steps. -/

namespace Forgetty

open Lib SessionManager
open Forgetty.Core (readSlice u8FromHex u8FromHex_pair hexDigit_plus hexDigit_digitChar hexByte
  pairValue)
open String (utf8Len)

/-! ### Colours -/

/-- A colour by the bytes it is written with, which is all the program compares. The dialogs have no
alpha, and none is read. -/
abbrev AccentColor := { rgba : Core.Rgba // rgba.a = 255 }

def AccentColor.rgb (r g b : UInt8) : AccentColor := ⟨.rgb r g b, rfl⟩

/-- `#rrggbb`. -/
def rgbaToHex (rgba : AccentColor) : String :=
  String.ofList ('#' :: (Uuid.hexDigits 2 rgba.1.r.toNat ++ (Uuid.hexDigits 2 rgba.1.g.toNat ++
    Uuid.hexDigits 2 rgba.1.b.toNat)))

/-- The channel in the bytes from `i` to `j`. -/
def readChannel (i j : ℕ) (hex : Text) : Option UInt8 :=
  (readSlice i j hex >>= u8FromHex).toOption

/-- Six ASCII characters, with or without the leading `#`. No slice of ASCII panics. -/
def hexToRgba (s : String) : Option AccentColor :=
  let hex := if s.toList.head? = some '#' then s.toList.tail else s.toList
  if utf8Len hex ≠ 6 ∨ ¬hex.all isAscii then none
  else do
    let r ← readChannel 0 2 hex
    let g ← readChannel 2 4 hex
    let b ← readChannel 4 6 hex
    some (.rgb r g b)

theorem isAscii_digitChar : ∀ n < 16, isAscii (Nat.digitChar n) := by decide

theorem isAscii_of_mem_hexDigits {n k : ℕ} {c : Char} (h : c ∈ Uuid.hexDigits n k) : isAscii c := by
  induction n generalizing k with
  | zero => cases h
  | succ n ih =>
    rcases List.mem_append.mp h with hc | hc
    · exact ih hc
    · rw [List.mem_singleton.mp hc]
      exact isAscii_digitChar _ (Nat.mod_lt _ (by omega))

theorem utf8Len_hexDigits (n k : ℕ) : utf8Len (Uuid.hexDigits n k) = n := by
  rw [utf8Len_of_isAscii fun c => isAscii_of_mem_hexDigits, Uuid.length_hexDigits]

/-- A byte is read back from the two digits it is written with. -/
theorem u8FromHex_hexDigits (b : UInt8) : u8FromHex (Uuid.hexDigits 2 b.toNat) = .ok b := by
  have hb := b.toNat_lt
  have hhigh : b.toNat / 16 % 16 < 16 := Nat.mod_lt _ (by omega)
  have hlow : b.toNat % 16 < 16 := Nat.mod_lt _ (by omega)
  have hvalue : b.toNat / 16 % 16 * 16 + b.toNat % 16 = b.toNat := by omega
  have hplus : Nat.digitChar (b.toNat / 16 % 16) ≠ '+' := fun h => by
    have hread := hexDigit_digitChar _ hhigh
    rw [h, hexDigit_plus] at hread
    cases hread
  show u8FromHex [Nat.digitChar (b.toNat / 16 % 16), Nat.digitChar (b.toNat % 16)] = _
  rw [u8FromHex_pair, pairValue, if_neg hplus, hexByte, hexDigit_digitChar _ hhigh,
    hexDigit_digitChar _ hlow, Option.bind_some, Option.map_some, hvalue, UInt8.ofNat_toNat]

theorem readChannel_hexDigits (before : Text) (v : UInt8) (behind : Text) {i j : ℕ}
    (hi : utf8Len before = i) (hj : j = i + 2) :
    readChannel i j (before ++ (Uuid.hexDigits 2 v.toNat ++ behind)) = some v := by
  have hstop : utf8Len (before ++ Uuid.hexDigits 2 v.toNat) = j := by
    rw [String.utf8Len_append, utf8Len_hexDigits, hi, hj]
  rw [readChannel, readSlice, ← hi, ← hstop, sliceBytes_utf8Len]
  show (u8FromHex (Uuid.hexDigits 2 v.toNat)).toOption = some v
  rw [u8FromHex_hexDigits]
  rfl

/-- A colour is read back from what it is written as. -/
theorem hexToRgba_rgbaToHex (c : AccentColor) : hexToRgba (rgbaToHex c) = some c := by
  obtain ⟨⟨r, g, b, a⟩, ha⟩ := c
  obtain rfl : a = 255 := ha
  set hex := Uuid.hexDigits 2 r.toNat ++ (Uuid.hexDigits 2 g.toNat ++ Uuid.hexDigits 2 b.toNat)
    with hhex
  have hlen : utf8Len hex = 6 := by simp [hhex, utf8Len_hexDigits]
  have hascii : hex.all isAscii := by
    refine List.all_eq_true.mpr fun c hc => ?_
    rcases List.mem_append.mp hc with hr | hgb
    · exact isAscii_of_mem_hexDigits hr
    · rcases List.mem_append.mp hgb with hg | hb
      · exact isAscii_of_mem_hexDigits hg
      · exact isAscii_of_mem_hexDigits hb
  have hred : readChannel 0 2 hex = some r := readChannel_hexDigits [] r _ rfl rfl
  have hgreen : readChannel 2 4 hex = some g :=
    readChannel_hexDigits _ g _ (utf8Len_hexDigits 2 r.toNat) rfl
  have hblue : readChannel 4 6 hex = some b := by
    have hfour : utf8Len (Uuid.hexDigits 2 r.toNat ++ Uuid.hexDigits 2 g.toNat) = 4 := by
      simp [utf8Len_hexDigits]
    have h := readChannel_hexDigits _ b [] hfour rfl
    rwa [List.append_nil, List.append_assoc] at h
  rw [rgbaToHex, hexToRgba, String.toList_ofList]
  show (if utf8Len hex ≠ 6 ∨ ¬hex.all isAscii then none else
    (readChannel 0 2 hex).bind fun r' => (readChannel 2 4 hex).bind fun g' =>
      (readChannel 4 6 hex).bind fun b' => some (AccentColor.rgb r' g' b')) = _
  rw [if_neg (not_or.mpr ⟨not_not.mpr hlen, not_not.mpr hascii⟩), hred, hgreen, hblue]
  rfl

theorem bind_hexToRgba (color : Option AccentColor) : (color.map rgbaToHex).bind hexToRgba = color := by
  cases color with
  | none => rfl
  | some c => exact hexToRgba_rgbaToHex c

/-! ### Views -/

/-- A page of a tab view: its container, by the address the keys of the tab map
are made of, and the panes shown in it. -/
structure Page where
  key : ℕ
  panes : List PaneId
  deriving DecidableEq, Repr

structure WorkspaceView where
  id : Uuid
  name : String
  pages : List Page
  selected : Option ℕ
  tabIdMap : List (ℕ × Uuid)
  color : Option AccentColor
  tabActivePane : PMap Uuid PaneId

namespace WorkspaceView

/-- A view without pages. -/
def new (id : Uuid) (name : String) : WorkspaceView where
  id := id
  name := name
  pages := []
  selected := none
  tabIdMap := []
  color := none
  tabActivePane := .empty

/-- Append a page; the first page of a view becomes its selected one. -/
def append (key : ℕ) (panes : List PaneId) (ws : WorkspaceView) : WorkspaceView :=
  { ws with
    pages := ws.pages ++ [{ key := key, panes := panes }]
    selected := some (ws.selected.getD key) }

def setSelectedPage (key : ℕ) (ws : WorkspaceView) : WorkspaceView := { ws with selected := some key }

def insertTabId (key : ℕ) (tabId : Uuid) (ws : WorkspaceView) : WorkspaceView :=
  { ws with tabIdMap := ws.tabIdMap.filter (·.1 ≠ key) ++ [(key, tabId)] }

/-- The tab a page stands for. -/
def tabOf (ws : WorkspaceView) (page : Page) : Option Uuid :=
  (ws.tabIdMap.find? (·.1 = page.key)).map (·.2)

/-- The panes that have a widget in the view. -/
def panes (ws : WorkspaceView) : List PaneId := ws.pages.flatMap (·.panes)

end WorkspaceView

structure WorkspaceManagerInner where
  workspaces : List WorkspaceView
  activeIndex : ℕ
  pendingReorders : List (ℕ × ℕ)
  pendingActivePane : List (ℕ × Uuid × PaneId)
  /-- The address of the next page container. -/
  nextPage : ℕ
  /-- The panes that layout events moved the focus to. -/
  grabbed : List PaneId

namespace WorkspaceManagerInner

def modifyView (idx : ℕ) (f : WorkspaceView → WorkspaceView) (mgr : WorkspaceManagerInner) :
    WorkspaceManagerInner :=
  { mgr with workspaces := mgr.workspaces.modify idx f }

/-- Exchange two workspaces; the active index goes with its workspace. -/
def swap (fromIdx toIdx : ℕ) (mgr : WorkspaceManagerInner) : WorkspaceManagerInner :=
  { mgr with
    workspaces := swapIdx mgr.workspaces fromIdx toIdx
    activeIndex := follow fromIdx toIdx mgr.activeIndex }

/-- Append a page for a tab to a workspace and enter it into the tab map. -/
def appendTab (idx : ℕ) (tabId : Uuid) (paneId : PaneId) (mgr : WorkspaceManagerInner) :
    WorkspaceManagerInner :=
  { mgr.modifyView idx fun ws => (ws.append mgr.nextPage [paneId]).insertTabId mgr.nextPage tabId with
    nextPage := mgr.nextPage + 1 }

/-- Append a page for a tab without entering it into the map of the view. -/
def appendUnmapped (idx : ℕ) (paneId : PaneId) (mgr : WorkspaceManagerInner) :
    WorkspaceManagerInner :=
  { mgr.modifyView idx fun ws => ws.append mgr.nextPage [paneId] with nextPage := mgr.nextPage + 1 }

/-- Drop a workspace. The active index follows its workspace; an active workspace
that is dropped hands over to the one that takes its place. -/
def remove (idx : ℕ) (mgr : WorkspaceManagerInner) : WorkspaceManagerInner :=
  let workspaces := mgr.workspaces.eraseIdx idx
  { mgr with
    workspaces := workspaces
    activeIndex :=
      if idx < mgr.activeIndex then mgr.activeIndex - 1
      else if mgr.activeIndex = idx then min idx (workspaces.length - 1)
      else mgr.activeIndex }

end WorkspaceManagerInner

/-- Pages for tabs, one for each tab all of whose panes get a widget. Answers the
view with the address of the next container. -/
def buildPages (term : Terminals) :
    List (Uuid × List PaneId) → ℕ → WorkspaceView → WorkspaceView × ℕ
  | [], nextPage, ws => (ws, nextPage)
  | (tabId, panes) :: tabs, nextPage, ws =>
    if ∀ p ∈ panes, term.Shows p then
      buildPages term tabs (nextPage + 1) ((ws.append nextPage panes).insertTabId nextPage tabId)
    else buildPages term tabs nextPage ws

/-! ### Layout events -/

/-- The echo of an own exchange is the head of the queue, in either order. -/
def consumeReorderSelfEcho (pending : List (ℕ × ℕ)) (fromIdx toIdx : ℕ) :
    List (ℕ × ℕ) × Bool :=
  match pending with
  | head :: rest =>
    if head = (fromIdx, toIdx) ∨ head = (toIdx, fromIdx) then (rest, true) else (pending, false)
  | [] => ([], false)

/-- The echo of an own focus change is the head of the queue. -/
def consumeActivePaneSelfEcho (pending : List (ℕ × Uuid × PaneId)) (workspaceIdx : ℕ)
    (tabId : Uuid) (paneId : Option PaneId) : List (ℕ × Uuid × PaneId) × Bool :=
  match paneId, pending with
  | some pid, head :: rest =>
    if head = (workspaceIdx, tabId, pid) then (rest, true) else (pending, false)
  | _, _ => (pending, false)

namespace WorkspaceManagerInner

/-- A tab that is not in the widget tree yet gets its page. The page is selected
only while its view is the visible one. -/
def onTabCreated (term : Terminals) (idx : ℕ) (tabId : Uuid) (paneId : PaneId)
    (mgr : WorkspaceManagerInner) : WorkspaceManagerInner :=
  match mgr.workspaces[idx]? with
  | none => mgr
  | some ws =>
    if tabId ∈ ws.tabIdMap.map (·.2) then mgr
    else if term.Shows paneId then
      let shown := mgr.appendTab idx tabId paneId
      if mgr.activeIndex = idx then shown.modifyView idx (·.setSelectedPage mgr.nextPage) else shown
    else mgr

/-- The workspace is found by its index; the id of the event is not read. -/
def onWorkspaceRenamed (idx : ℕ) (name : String) (mgr : WorkspaceManagerInner) :
    WorkspaceManagerInner :=
  match mgr.workspaces[idx]? with
  | none => mgr
  | some ws => if ws.name = name then mgr else mgr.modifyView idx fun ws => { ws with name := name }

/-- The workspace is found by its id. -/
def onWorkspaceDeleted (id : Uuid) (mgr : WorkspaceManagerInner) : WorkspaceManagerInner :=
  match mgr.workspaces.findIdx? (·.id = id) with
  | none => mgr
  | some idx =>
    let workspaces := mgr.workspaces.eraseIdx idx
    { mgr with
      workspaces := workspaces
      activeIndex :=
        if idx < mgr.activeIndex then mgr.activeIndex - 1
        else if workspaces.length ≤ mgr.activeIndex ∧ 0 < workspaces.length then
          workspaces.length - 1
        else mgr.activeIndex }

/-- The workspace is found by its id. -/
def onWorkspaceColorChanged (id : Uuid) (color : Option String) (mgr : WorkspaceManagerInner) :
    WorkspaceManagerInner :=
  match mgr.workspaces.findIdx? (·.id = id) with
  | none => mgr
  | some idx =>
    if ((mgr.workspaces[idx]?).bind (·.color)).map rgbaToHex = color then mgr
    else mgr.modifyView idx fun ws => { ws with color := color.bind hexToRgba }

/-- An exchange out of bounds is skipped before the queue is asked. -/
def onWorkspacesReordered (fromIdx toIdx : ℕ) (mgr : WorkspaceManagerInner) :
    WorkspaceManagerInner :=
  if mgr.workspaces.length ≤ fromIdx ∨ mgr.workspaces.length ≤ toIdx then mgr
  else
    let echo := consumeReorderSelfEcho mgr.pendingReorders fromIdx toIdx
    let mgr := { mgr with pendingReorders := echo.1 }
    if echo.2 then mgr else mgr.swap fromIdx toIdx

/-- The pages of the tab are searched for the pane; the first such page decides. -/
def onActivePaneChanged (idx : ℕ) (tabId : Uuid) (paneId : Option PaneId)
    (mgr : WorkspaceManagerInner) : WorkspaceManagerInner :=
  let echo := consumeActivePaneSelfEcho mgr.pendingActivePane idx tabId paneId
  let mgr := { mgr with pendingActivePane := echo.1 }
  if echo.2 then mgr
  else
    match paneId, mgr.workspaces[idx]? with
    | some pid, some ws =>
      let mgr := mgr.modifyView idx fun ws =>
        { ws with tabActivePane := ws.tabActivePane.insert tabId pid }
      let page := ws.pages.find? fun page => ws.tabOf page = some tabId
      { mgr with
        grabbed := mgr.grabbed ++ (page.bind fun page => page.panes.find? (· = pid)).toList }
    | _, _ => mgr

/-- One event of the stream. What a window did itself when it made the call is not
done again, and the kinds of events that never reach it change nothing. -/
def handleLayoutEvent (term : Terminals) (event : SessionEvent) (mgr : WorkspaceManagerInner) :
    WorkspaceManagerInner :=
  match event with
  | .tabCreated idx tabId paneId => mgr.onTabCreated term idx tabId paneId
  | .workspaceRenamed idx _ name => mgr.onWorkspaceRenamed idx name
  | .workspaceDeleted _ id => mgr.onWorkspaceDeleted id
  | .workspaceColorChanged _ id color => mgr.onWorkspaceColorChanged id color
  | .workspacesReordered fromIdx toIdx _ _ => mgr.onWorkspacesReordered fromIdx toIdx
  | .activePaneChanged idx tabId paneId => mgr.onActivePaneChanged idx tabId paneId
  | .tabClosed .. | .paneSplit .. | .tabMoved .. | .activeTabChanged .. => mgr
  | .workspaceCreated .. | .activeWorkspaceChanged .. => mgr
  | .ptyOutput .. | .paneCreated .. | .paneClosed .. => mgr

end WorkspaceManagerInner

/-! ### Actions -/

/-- A window and its daemon; `next` counts the events the window has handled. -/
structure Attached where
  sm : SessionManager
  gtk : WorkspaceManagerInner
  next : ℕ

namespace Attached

/-- The ids of the workspaces the window shows. -/
def viewIds (a : Attached) : List Uuid := a.gtk.workspaces.map (·.id)

/-- The ids of the daemon's workspaces. -/
def layoutIds (a : Attached) : List Uuid := a.sm.layout.workspaces.map (·.id)

/-- The events the window has not handled yet. -/
def inFlight (a : Attached) : List SessionEvent := a.sm.eventTx.sent.drop a.next

/-- A call, and the change of the window that follows when the daemon accepts it. -/
def call {α : Type} (rpc : SessionManager × Except ForgettyError α)
    (done : α → WorkspaceManagerInner → WorkspaceManagerInner) (a : Attached) : Attached :=
  match rpc.2 with
  | .ok x => { a with sm := rpc.1, gtk := done x a.gtk }
  | .error _ => { a with sm := rpc.1 }

def switchWorkspace (target : ℕ) (a : Attached) : Attached :=
  if a.gtk.workspaces.length ≤ target ∨ target = a.gtk.activeIndex then a
  else
    { a with
      sm := (a.sm.setActiveWorkspace target).1
      gtk := { a.gtk with activeIndex := target } }

/-- A new workspace with its first tab. The daemon is not told which workspace is
active afterwards; without the output of the pane the window does not show it. -/
def createAndSwitchToNewWorkspace (w : World) (term : Terminals) (name : String) (a : Attached) :
    Attached :=
  a.call (createWorkspaceRpc w name a.sm) fun (workspaceId, _, paneId, tabId) gtk =>
    if term.subscribeOutput paneId then
      let ws := WorkspaceView.new workspaceId name
      let built := buildPages term [(tabId, [paneId])] gtk.nextPage ws
      { gtk with
        workspaces := gtk.workspaces ++ [built.1]
        activeIndex := gtk.workspaces.length
        nextPage := built.2 }
    else gtk

/-- A copy of a workspace, shown and made active where the daemon put it. -/
def duplicateWorkspace (w : World) (term : Terminals) (idx : ℕ) (a : Attached) : Attached :=
  match a.gtk.workspaces[idx]? with
  | none => a
  | some source =>
    let rpc := a.sm.duplicateWorkspace w idx none .default
    match rpc.2 with
    | .error _ => { a with sm := rpc.1 }
    | .ok (workspaceId, insertAt, dupTabs) =>
      let ws := WorkspaceView.new workspaceId s!"{source.name} (copy)"
      let built := buildPages term (dupTabs.map fun dt => (dt.tabId, [dt.paneId])) a.gtk.nextPage ws
      let ws := { built.1 with selected := built.1.pages.head?.map (·.key) }
      let clamped := min insertAt a.gtk.workspaces.length
      { a with
        sm := (rpc.1.setActiveWorkspace clamped).1
        gtk :=
          { a.gtk with
            workspaces := a.gtk.workspaces.insertIdx clamped ws
            activeIndex := clamped
            nextPage := built.2 } }

/-- The common body of the two moves. -/
def moveWorkspace (fromIdx toIdx : ℕ) (a : Attached) : Attached :=
  a.call (a.sm.moveWorkspace fromIdx toIdx) fun _ gtk =>
    { gtk.swap fromIdx toIdx with
      pendingReorders := gtk.pendingReorders ++ [(fromIdx, toIdx)] }

def moveWorkspaceUp (idx : ℕ) (a : Attached) : Attached :=
  if idx = 0 ∨ a.gtk.workspaces.length ≤ idx then a else a.moveWorkspace idx (idx - 1)

def moveWorkspaceDown (idx : ℕ) (a : Attached) : Attached :=
  if a.gtk.workspaces.length ≤ idx + 1 then a else a.moveWorkspace idx (idx + 1)

/-- Delete from the menu of a workspace: the daemon deletes it first. -/
def doDeleteWorkspaceAtIndex (target : ℕ) (a : Attached) : Attached :=
  if a.gtk.workspaces.length ≤ target ∨ a.gtk.workspaces.length ≤ 1 then a
  else a.call (a.sm.deleteWorkspace target) fun _ gtk => gtk.remove target

/-- Delete the active workspace: its panes are closed one by one on the daemon,
where the workspace stays. -/
def deleteCurrentWorkspace (w : World) (a : Attached) : Attached :=
  if a.gtk.workspaces.length ≤ 1 then a
  else
    let panes := ((a.gtk.workspaces[a.gtk.activeIndex]?).map (·.panes)).getD []
    let workspaces := a.gtk.workspaces.eraseIdx a.gtk.activeIndex
    { a with
      sm := panes.foldl (fun sm p => DaemonClient.closeTabByPaneId w p sm) a.sm
      gtk :=
        { a.gtk with
          workspaces := workspaces
          activeIndex :=
            if workspaces.length ≤ a.gtk.activeIndex then workspaces.length - 1
            else a.gtk.activeIndex } }

def applyWorkspaceColor (idx : ℕ) (color : Option AccentColor) (a : Attached) : Attached :=
  if a.gtk.workspaces.length ≤ idx then a
  else a.call (a.sm.setWorkspaceColor idx (color.map rgbaToHex)) fun _ gtk =>
    gtk.modifyView idx fun ws => { ws with color := color }

/-- The answer of the rename dialog; `newName` is its text without outer blanks. -/
def renameWorkspace (idx : ℕ) (newName : String) (a : Attached) : Attached :=
  if newName = "" then a
  else a.call (a.sm.renameWorkspace idx newName) fun _ gtk =>
    gtk.modifyView idx fun ws => { ws with name := newName }

/-- The tab of a call that made one, with its page; the page is selected. -/
def showNewTab (term : Terminals) (idx : ℕ) (mapped : Bool) (made : PaneId × Uuid)
    (gtk : WorkspaceManagerInner) : WorkspaceManagerInner :=
  if term.Shows made.1 then
    let shown :=
      if mapped then gtk.appendTab idx made.2 made.1 else gtk.appendUnmapped idx made.1
    shown.modifyView idx (·.setSelectedPage gtk.nextPage)
  else gtk

/-- An empty command is none. -/
def addNewTab (w : World) (term : Terminals) (idx : ℕ) (cwd : Option PathBuf)
    (command : Option (List String)) (mapped : Bool) (a : Attached) : Attached :=
  a.call (a.sm.createTab w idx cwd .default (command.filter (· ≠ [])))
    (showNewTab term idx mapped)

/-- The page of a duplicate is entered into a map of its own that is dropped. -/
def duplicateTab (w : World) (term : Terminals) (idx : ℕ) (cwd : Option PathBuf)
    (command : Option (List String)) (a : Attached) : Attached :=
  a.addNewTab w term idx cwd command false

/-- A pane gets the focus while `tabId` is the tab of the selected page. The echo
is expected before the call is made, and a refused call is only logged. -/
def focusEnter (tabId : Uuid) (paneId : PaneId) (a : Attached) : Attached :=
  let idx := a.gtk.activeIndex
  let gtk :=
    { a.gtk with pendingActivePane := a.gtk.pendingActivePane ++ [(idx, tabId, paneId)] }
  { a with
    sm := (a.sm.setActivePane idx tabId (some paneId)).1
    gtk := gtk.modifyView idx fun ws =>
      { ws with tabActivePane := ws.tabActivePane.insert tabId paneId } }

/-- Handle the next event, if there is one. -/
def drain (term : Terminals) (a : Attached) : Attached :=
  match a.sm.eventTx.sent[a.next]? with
  | none => a
  | some event => { a with gtk := a.gtk.handleLayoutEvent term event, next := a.next + 1 }

/-- A tab the daemon starts by itself. -/
def autoSeed (w : World) (idx : ℕ) (a : Attached) : Attached :=
  match a.sm.autoSeedDefaultTab w idx .default with
  | (sm, .ok (paneId, _)) => { a with sm := sm.spawnDrainTask w paneId }
  | (sm, .error _) => { a with sm := sm }

end Attached

/-- What happens to a window and its daemon. -/
inductive Action where
  | newWorkspace (name : String)
  | duplicateWorkspace (idx : ℕ)
  | moveUp (idx : ℕ)
  | moveDown (idx : ℕ)
  | switchTo (target : ℕ)
  | deleteAt (target : ℕ)
  | deleteCurrent
  | setColor (idx : ℕ) (color : Option AccentColor)
  | rename (idx : ℕ) (newName : String)
  | newTab (idx : ℕ) (cwd : Option PathBuf) (command : Option (List String))
  | duplicateTab (idx : ℕ) (cwd : Option PathBuf) (command : Option (List String))
  | focusEnter (tabId : Uuid) (paneId : PaneId)
  | drain
  /-- Another client makes a call. -/
  | elsewhere (op : Op)
  | autoSeed (idx : ℕ)

def Attached.step (w : World) (term : Terminals) (a : Attached) : Action → Attached
  | .newWorkspace name => a.createAndSwitchToNewWorkspace w term name
  | .duplicateWorkspace idx => a.duplicateWorkspace w term idx
  | .moveUp idx => a.moveWorkspaceUp idx
  | .moveDown idx => a.moveWorkspaceDown idx
  | .switchTo target => a.switchWorkspace target
  | .deleteAt target => a.doDeleteWorkspaceAtIndex target
  | .deleteCurrent => a.deleteCurrentWorkspace w
  | .setColor idx color => a.applyWorkspaceColor idx color
  | .rename idx newName => a.renameWorkspace idx newName
  | .newTab idx cwd command => a.addNewTab w term idx cwd command true
  | .duplicateTab idx cwd command => a.duplicateTab w term idx cwd command
  | .focusEnter tabId paneId => a.focusEnter tabId paneId
  | .drain => a.drain term
  | .elsewhere op => { a with sm := a.sm.apply w op }
  | .autoSeed idx => a.autoSeed w idx

/-! ### Pages -/

namespace WorkspaceView

/-- What the pages of a view show: the tab of each, and its panes. -/
def shown (ws : WorkspaceView) : List (Option Uuid × List PaneId) :=
  ws.pages.map fun page => (ws.tabOf page, page.panes)

/-- The containers of a view and the keys of its tab map are older than `nextPage`. -/
structure Keyed (nextPage : ℕ) (ws : WorkspaceView) : Prop where
  pages : ∀ page ∈ ws.pages, page.key < nextPage
  tabIdMap : ∀ x ∈ ws.tabIdMap, x.1 < nextPage

section Pages

variable {ws : WorkspaceView} {k n : ℕ} {tabId : Uuid} {ps : List PaneId}

theorem keyed_new (n : ℕ) (id : Uuid) (name : String) : (new id name).Keyed n := ⟨nofun, nofun⟩

theorem Keyed.mono (h : ws.Keyed k) (hkn : k ≤ n) : ws.Keyed n :=
  ⟨fun page hp => (h.pages page hp).trans_le hkn, fun x hx => (h.tabIdMap x hx).trans_le hkn⟩

theorem Keyed.append (h : ws.Keyed k) : (ws.append k ps).Keyed (k + 1) where
  pages page hp := by
    rcases List.mem_append.mp hp with hp | hp
    · exact (h.pages page hp).trans (Nat.lt_succ_self k)
    · rw [List.mem_singleton.mp hp]
      exact Nat.lt_succ_self k
  tabIdMap x hx := (h.tabIdMap x hx).trans (Nat.lt_succ_self k)

theorem tabIdMap_insertTabId (h : ∀ x ∈ ws.tabIdMap, x.1 < k) :
    (ws.insertTabId k tabId).tabIdMap = ws.tabIdMap ++ [(k, tabId)] := by
  rw [insertTabId, List.filter_eq_self.mpr]
  exact fun x hx => decide_eq_true (h x hx).ne

theorem Keyed.add (h : ws.Keyed k) : ((ws.append k ps).insertTabId k tabId).Keyed (k + 1) where
  pages := h.append.pages
  tabIdMap x hx := by
    rw [@tabIdMap_insertTabId (ws.append k ps) k tabId h.tabIdMap] at hx
    rcases List.mem_append.mp hx with hx | hx
    · exact h.append.tabIdMap x hx
    · rw [List.mem_singleton.mp hx]
      exact Nat.lt_succ_self k

/-- A page with its entry shows its tab, and the pages before it what they showed. -/
theorem Keyed.shown_add (h : ws.Keyed k) :
    ((ws.append k ps).insertTabId k tabId).shown = ws.shown ++ [(some tabId, ps)] := by
  have hmap : ((ws.append k ps).insertTabId k tabId).tabIdMap = ws.tabIdMap ++ [(k, tabId)] :=
    @tabIdMap_insertTabId (ws.append k ps) k tabId h.tabIdMap
  have hold : ∀ page ∈ ws.pages,
      ((ws.append k ps).insertTabId k tabId).tabOf page = ws.tabOf page := by
    intro page hp
    rw [tabOf, hmap, List.find?_append, List.find?_singleton,
      if_neg (by simpa using (h.pages page hp).ne'), Option.or_none]
    rfl
  have hnew : ((ws.append k ps).insertTabId k tabId).tabOf ⟨k, ps⟩ = some tabId := by
    rw [tabOf, hmap, List.find?_append, List.find?_eq_none.mpr]
    · simp
    · intro x hx
      simpa using (h.tabIdMap x hx).ne
  calc ((ws.append k ps).insertTabId k tabId).shown
      = ws.pages.map (fun page => (((ws.append k ps).insertTabId k tabId).tabOf page, page.panes)) ++
          [(((ws.append k ps).insertTabId k tabId).tabOf ⟨k, ps⟩, ps)] := List.map_append
    _ = ws.shown ++ [(some tabId, ps)] := by
      rw [hnew]
      congr 1
      exact List.map_congr_left fun page hp => by rw [hold page hp]

end Pages

end WorkspaceView

section Build

variable {term : Terminals}

/-- Every tab gets its page when all panes get their widgets. -/
theorem buildPages_shown (tabs : List (Uuid × List PaneId))
    (hall : ∀ t ∈ tabs, ∀ p ∈ t.2, term.Shows p) {k : ℕ} {ws : WorkspaceView} (h : ws.Keyed k) :
    (buildPages term tabs k ws).1.Keyed (buildPages term tabs k ws).2 ∧
      (buildPages term tabs k ws).1.shown = ws.shown ++ tabs.map fun t => (some t.1, t.2) := by
  induction tabs generalizing k ws with
  | nil => exact ⟨h, by simp [buildPages]⟩
  | cons t tabs ih =>
    rw [buildPages, if_pos (hall t List.mem_cons_self)]
    have hadd : ((ws.append k t.2).insertTabId k t.1).Keyed (k + 1) := h.add
    obtain ⟨hk, hs⟩ := ih (fun u hu => hall u (List.mem_cons_of_mem t hu)) hadd
    refine ⟨hk, ?_⟩
    rw [hs, h.shown_add, List.map_cons, List.append_assoc, List.singleton_append]

/-- The other fields of a view stay. -/
theorem buildPages_rest (tabs : List (Uuid × List PaneId)) (k : ℕ) (ws : WorkspaceView) :
    (buildPages term tabs k ws).1.id = ws.id ∧ (buildPages term tabs k ws).1.name = ws.name ∧
      (buildPages term tabs k ws).1.color = ws.color ∧ k ≤ (buildPages term tabs k ws).2 := by
  induction tabs generalizing k ws with
  | nil => exact ⟨rfl, rfl, rfl, le_rfl⟩
  | cons t tabs ih =>
    rw [buildPages]
    split_ifs
    · obtain ⟨hid, hname, hcolor, hk⟩ := ih (k + 1) ((ws.append k t.2).insertTabId k t.1)
      exact ⟨hid, hname, hcolor, (Nat.le_succ k).trans hk⟩
    · exact ih k ws

end Build

/-! ### Ids -/

section Ids

variable {f : WorkspaceView → WorkspaceView}

theorem ids_modifyView (hf : ∀ ws, (f ws).id = ws.id) (idx : ℕ) (mgr : WorkspaceManagerInner) :
    (mgr.modifyView idx f).workspaces.map (·.id) = mgr.workspaces.map (·.id) :=
  map_modify_of_eq hf mgr.workspaces idx

@[simp] theorem ids_appendTab (idx : ℕ) (tabId : Uuid) (p : PaneId) (mgr : WorkspaceManagerInner) :
    (mgr.appendTab idx tabId p).workspaces.map (·.id) = mgr.workspaces.map (·.id) := by
  apply ids_modifyView
  exact fun _ => rfl

end Ids

/-! ### The stream of events -/

namespace Attached

variable {w : World} {term : Terminals} {a : Attached} {e : SessionEvent} {es : List SessionEvent}

theorem call_of_ok {α : Type} {rpc : SessionManager × Except ForgettyError α} {x : α}
    {done : α → WorkspaceManagerInner → WorkspaceManagerInner} (h : rpc.2 = .ok x) :
    a.call rpc done = { a with sm := rpc.1, gtk := done x a.gtk } := by
  rw [call, h]

theorem call_of_error {α : Type} {rpc : SessionManager × Except ForgettyError α} {x : ForgettyError}
    {done : α → WorkspaceManagerInner → WorkspaceManagerInner} (h : rpc.2 = .error x) :
    a.call rpc done = { a with sm := rpc.1 } := by
  rw [call, h]

@[simp] theorem switchWorkspace_workspaces (a : Attached) (target : ℕ) :
    (a.switchWorkspace target).gtk.workspaces = a.gtk.workspaces := by
  unfold switchWorkspace
  split_ifs <;> rfl

/-- Switching within bounds makes the target the active workspace. -/
theorem switchWorkspace_activeIndex {target : ℕ} (h : target < a.gtk.workspaces.length) :
    (a.switchWorkspace target).gtk.activeIndex = target := by
  unfold switchWorkspace
  split_ifs with hc
  · rcases hc with hc | hc
    · exact absurd h (Nat.not_lt.mpr hc)
    · exact hc.symm
  · rfl

theorem head?_inFlight (a : Attached) : a.inFlight.head? = a.sm.eventTx.sent[a.next]? :=
  List.head?_drop

theorem inFlight_of_next_eq (h : a.next = a.sm.eventTx.sent.length) : a.inFlight = [] := by
  rw [inFlight, h, List.drop_length]

theorem drain_of_nil (h : a.inFlight = []) : a.drain term = a := by
  rw [drain, ← head?_inFlight, h]
  rfl

theorem drain_of_cons (h : a.inFlight = e :: es) :
    a.drain term = { a with gtk := a.gtk.handleLayoutEvent term e, next := a.next + 1 } := by
  rw [drain, ← head?_inFlight, h]
  rfl

@[simp] theorem inFlight_drain (a : Attached) : (a.drain term).inFlight = a.inFlight.tail := by
  cases h : a.inFlight with
  | nil => rw [drain_of_nil h, h, List.tail_nil]
  | cons e es =>
    rw [drain_of_cons h, ← h, inFlight, inFlight, List.tail_drop]

@[simp] theorem sm_drain (a : Attached) : (a.drain term).sm = a.sm := by
  rw [drain]
  split <;> rfl

/-- What a call sends comes behind the events in flight. -/
theorem inFlight_append {b : Attached} (h : a.next ≤ a.sm.eventTx.sent.length)
    (hnext : b.next = a.next) (hs : b.sm.eventTx.sent = a.sm.eventTx.sent ++ es) :
    b.inFlight = a.inFlight ++ es := by
  rw [inFlight, inFlight, hnext, hs, List.drop_append_of_le_length h]

theorem next_le_append {b : Attached} (h : a.next ≤ a.sm.eventTx.sent.length)
    (hnext : b.next = a.next) (hs : b.sm.eventTx.sent = a.sm.eventTx.sent ++ es) :
    b.next ≤ b.sm.eventTx.sent.length := by
  rw [hnext, hs, List.length_append]
  exact h.trans (Nat.le_add_right _ _)

theorem next_drain_le (h : a.next ≤ a.sm.eventTx.sent.length) :
    (a.drain term).next ≤ (a.drain term).sm.eventTx.sent.length := by
  rw [sm_drain, drain]
  split
  · exact h
  · rename_i heq
    exact (List.getElem?_eq_some_iff.mp heq).1

/-- Handling one event after the other empties the stream. -/
theorem inFlight_run_drain (n : ℕ) (a : Attached) :
    (run (step w term) a (List.replicate n .drain)).inFlight = a.inFlight.drop n := by
  induction n generalizing a with
  | zero => rfl
  | succ n ih =>
    rw [List.replicate_succ, run_cons, ih, step, inFlight_drain, List.drop_tail]

end Attached

end Forgetty
