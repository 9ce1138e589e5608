import Forgetty.Socket.Handlers
import Forgetty.Socket.JsonText

/-! The requests that give a terminal its size. A number that is too large is cut to sixteen bits,
and where a size may be left out, so is everything else that is no natural number. -/

namespace Forgetty

open Lib SessionManager

def defaultRows : UInt16 := 24

def defaultCols : UInt16 := 80

/-! ### The handlers -/

section Handlers

variable (w : World) (isDir : PathBuf → Bool) (req : Request) (sm : SessionManager)

/-- A size, or what stands for it if there is no natural number. -/
def sizeParam (key : String) (default : UInt16) : UInt16 :=
  UInt16.ofNat ((req.u64Param key).getD default.toNat)

/-- Directories that do not exist are passed over. -/
def cwdParam : Option PathBuf :=
  (((req.strParam "cwd").filter (· ≠ "")).map .ofString).filter isDir

def commandParam : Option (List String) :=
  (((req.params.get "command").bind Json.asArr).map (·.filterMap Json.asStr)).filter (· ≠ [])

/-- The size of a pane that is to be made. -/
def newSize : PtySize where
  rows := sizeParam req "rows" defaultRows
  cols := sizeParam req "cols" defaultCols
  pixelWidth := 0
  pixelHeight := 0

def handleNewTab : SessionManager × Response :=
  let workspaceIdx := (req.u64Param "workspace_idx").getD 0
  (sm.createTab w workspaceIdx (cwdParam isDir req) (newSize req) (commandParam req)).map id fun
    | .ok (paneId, tabId) =>
      .success req.id (.obj [("tab_id", .str (toString tabId)), ("pane_id", .str (toString paneId))])
    | .error e => .failure req.id internalError s!"failed to create tab: {e}"

/-- The new pane starts in the directory of the old one if there is no other. -/
def handleSplitPane : SessionManager × Response :=
  match requirePaneId req sm with
  | .error r => (sm, r)
  | .ok paneId =>
    match req.strParam "direction" with
    | none => (sm, .failure req.id invalidParams "missing param: direction")
    | some direction =>
      if direction ≠ "horizontal" ∧ direction ≠ "vertical" then
        (sm, .failure req.id invalidParams "direction must be 'horizontal' or 'vertical'")
      else
        let cwd := (cwdParam isDir req).or ((sm.paneInfo paneId).map (·.cwd))
        (sm.splitPane w paneId direction (newSize req) cwd).map id fun
          | .ok newPaneId => .success req.id (.obj [("pane_id", .str (toString newPaneId))])
          | .error e => .failure req.id internalError s!"split_pane failed: {e}"

/-- `resize` is the outcome of the resize call on a pane's terminal. -/
def handleResizePane (resize : PaneId → PtySize → Except String Unit) : SessionManager × Response :=
  match requirePaneId req sm with
  | .error r => (sm, r)
  | .ok paneId =>
    match req.u64Param "rows" with
    | none => (sm, .failure req.id invalidParams "missing param: rows")
    | some rows =>
      match req.u64Param "cols" with
      | none => (sm, .failure req.id invalidParams "missing param: cols")
      | some cols =>
        let size : PtySize :=
          { rows := UInt16.ofNat rows, cols := UInt16.ofNat cols, pixelWidth := 0, pixelHeight := 0 }
        (sm.resizePane (resize paneId size) paneId size).map id
          (replyOk req internalError "failed to resize pane")

end Handlers

/-! ### What is asked for -/

namespace Json

/-- The number that a value is. -/
def number : Json → Option ℚ
  | posInt n => some n
  | negInt n => some (-n)
  | float x => some x
  | _ => none

end Json

section Asked

variable (req : Request) (key : String)

/-- The request has the number under the key, or has nothing there and the number is the default. -/
def Asks (default : Option UInt16) (n : UInt16) : Prop :=
  match req.params.get key with
  | none => default = some n
  | some v => v.number = some (n.toNat : ℚ)

/-- A natural number of sixteen bits, or nothing. Another number is to be the default. -/
def Fits (default : UInt16) : Prop :=
  match req.params.get key with
  | none => True
  | some (.posInt n) => n < 2 ^ 16
  | some v => v.number = some (default.toNat : ℚ)

variable {req key}

theorem u64Param_eq_some_iff {n : ℕ} :
    req.u64Param key = some n ↔ req.params.get key = some (.posInt n) := by
  rw [Request.u64Param]
  cases req.params.get key with
  | none => simp
  | some v => cases v <;> simp [Json.asU64]

theorem asks_ofNat_iff {n : ℕ} (h : req.u64Param key = some n) (default : Option UInt16) :
    Asks req key default (UInt16.ofNat n) ↔ n < 2 ^ 16 := by
  rw [Asks, u64Param_eq_some_iff.mp h]
  show some (n : ℚ) = some ((UInt16.ofNat n).toNat : ℚ) ↔ _
  rw [Option.some.injEq, Rat.natCast_inj, UInt16.toNat_ofNat']
  omega

/-- A size that may be left out is what the request asks for if it fits. -/
theorem asks_sizeParam_iff (default : UInt16) :
    Asks req key (some default) (sizeParam req key default) ↔ Fits req key default := by
  cases h : req.u64Param key with
  | some n =>
    rw [sizeParam, h, Option.getD_some, asks_ofNat_iff h, Fits, u64Param_eq_some_iff.mp h]
  | none =>
    have hsize : sizeParam req key default = default := by
      rw [sizeParam, h, Option.getD_none, UInt16.ofNat_toNat]
    rw [hsize, Asks, Fits]
    cases hv : req.params.get key with
    | none => simp
    | some v =>
      cases v with
      | posInt m =>
        rw [u64Param_eq_some_iff.mpr hv] at h
        cases h
      | _ => rfl

end Asked

/-! ### The sizes of the terminals -/

namespace SessionManager

/-- The terminal of a pane and the size that it was given last. -/
def ptyOf (p : PaneId) (sm : SessionManager) : Option (PtyProcess × UInt16 × UInt16) :=
  (sm.panes.get p).map fun pane => (pane.ptyBridge.pty, pane.rows, pane.cols)

variable (w : World) (p q : PaneId) (sm : SessionManager)

theorem ptyOf_spawnDrainTask : (sm.spawnDrainTask w p).ptyOf q = sm.ptyOf q := by
  unfold spawnDrainTask takePaneOutputRx
  split
  · rw [ptyOf, createByteLogFor_panes, ptyOf]
  · rename_i pane hpane
    rw [createByteLogFor_panes] at hpane
    rw [ptyOf, setPane_panes, createByteLogFor_panes, PMap.get_insert, ptyOf]
    split_ifs with hq
    · rw [hq, hpane]
      rfl
    · rfl

/-- A terminal that is started has the size that it is started with. -/
theorem ptyOf_registerPane (bridge : PtyBridge) (cwd : PathBuf) (size : PtySize) :
    (sm.registerPane (.spawned p bridge cwd size)).ptyOf q =
      if q = p then some (bridge.pty, size.rows, size.cols) else sm.ptyOf q := by
  rw [ptyOf, registerPane_panes, PMap.get_insert]
  show Option.map _ (if q = p then _ else _) = _
  split_ifs <;> rfl

section Create

variable {w sm} {i : ℕ} {cwd : Option PathBuf} {size : PtySize} {command : Option (List String)}

theorem ptyOf_createTab (hi : i < sm.layout.workspaces.length) {bridge : PtyBridge}
    (hspawn : PtyBridge.spawn w sm.spawned size cwd command none true = .ok bridge) :
    (sm.createTab w i cwd size command).1.ptyOf q =
      if q = ⟨w.newV4 sm.minted⟩ then some (bridge.pty, size.rows, size.cols) else sm.ptyOf q := by
  have hlen : ¬sm.mint.layout.workspaces.length ≤ i := Nat.not_le.mpr hi
  have hspawn' : PtyBridge.spawn w sm.mint.spawned size cwd command none true = .ok bridge := hspawn
  rw [createTab, createTabWithPaneId, if_neg hlen, hspawn']
  show ptyOf q (spawnDrainTask _ _ _) = _
  rw [ptyOf_spawnDrainTask]
  exact ptyOf_registerPane _ q sm.mint.countSpawn _ _ _

/-- A tab that is not made leaves the terminals as they are. -/
theorem ptyOf_createTab_of_failed (h : sm.layout.workspaces.length ≤ i ∨
    ∃ e, PtyBridge.spawn w sm.spawned size cwd command none true = .error e) :
    (sm.createTab w i cwd size command).1.ptyOf q = sm.ptyOf q := by
  rw [createTab, createTabWithPaneId]
  split_ifs with hi
  · rfl
  · rcases h with h | ⟨e, h⟩
    · exact absurd h hi
    · have h' : PtyBridge.spawn w sm.mint.spawned size cwd command none true = .error e := h
      rw [h']
      rfl

theorem ptyOf_createTab_cases {x : PtyProcess × UInt16 × UInt16}
    (h : (sm.createTab w i cwd size command).1.ptyOf q = some x) :
    sm.ptyOf q = some x ∨ ∃ bridge, PtyBridge.spawn w sm.spawned size cwd command none true =
      .ok bridge ∧ x = (bridge.pty, size.rows, size.cols) := by
  rcases Nat.lt_or_ge i sm.layout.workspaces.length with hi | hi
  · cases hspawn : PtyBridge.spawn w sm.spawned size cwd command none true with
    | error e =>
      rw [ptyOf_createTab_of_failed q (.inr ⟨e, hspawn⟩)] at h
      exact .inl h
    | ok bridge =>
      rw [ptyOf_createTab q hi hspawn] at h
      split_ifs at h
      · exact .inr ⟨bridge, rfl, (Option.some.inj h).symm⟩
      · exact .inl h
  · rw [ptyOf_createTab_of_failed q (.inl hi)] at h
    exact .inl h

end Create

section Split

variable {w p sm} {direction : String} {size : PtySize} {cwd : Option PathBuf}

theorem ptyOf_splitPane (hp : p ∈ sm.panes) {bridge : PtyBridge}
    (hspawn : PtyBridge.spawn w sm.spawned size cwd none none true = .ok bridge)
    {workspaces : List SessionWorkspace} {tabId : Uuid}
    (hleaf : replaceLeafInLayout p ⟨w.newV4 sm.minted⟩ direction (1 / 2) sm.layout.workspaces =
      (workspaces, some tabId)) :
    (sm.splitPane w p direction size cwd).1.ptyOf q =
      if q = ⟨w.newV4 sm.minted⟩ then some (bridge.pty, size.rows, size.cols) else sm.ptyOf q := by
  have hspawn' : PtyBridge.spawn w sm.mint.spawned size cwd none none true = .ok bridge := hspawn
  simp only [splitPane, if_pos hp, splitAt, hspawn', registerPane_layout, countSpawn_layout,
    mint_layout, hleaf]
  rw [ptyOf_spawnDrainTask]
  exact ptyOf_registerPane _ q sm.mint.countSpawn _ _ _

theorem ptyOf_splitPane_cases {x : PtyProcess × UInt16 × UInt16}
    (h : (sm.splitPane w p direction size cwd).1.ptyOf q = some x) :
    sm.ptyOf q = some x ∨ ∃ bridge, PtyBridge.spawn w sm.spawned size cwd none none true =
      .ok bridge ∧ x = (bridge.pty, size.rows, size.cols) := by
  by_cases hp : p ∈ sm.panes
  · cases hspawn : PtyBridge.spawn w sm.spawned size cwd none none true with
    | error e =>
      have hspawn' : PtyBridge.spawn w sm.mint.spawned size cwd none none true = .error e := hspawn
      simp only [splitPane, if_pos hp, splitAt, hspawn'] at h
      exact .inl h
    | ok bridge =>
      rcases hleaf : replaceLeafInLayout p ⟨w.newV4 sm.minted⟩ direction (1 / 2)
        sm.layout.workspaces with ⟨workspaces, _ | tabId⟩
      · -- the pane is in no tree, and the new terminal is dropped
        have hspawn' : PtyBridge.spawn w sm.mint.spawned size cwd none none true = .ok bridge :=
          hspawn
        simp only [splitPane, if_pos hp, splitAt, hspawn', registerPane_layout, countSpawn_layout,
          mint_layout, hleaf, ptyOf, PMap.get_erase] at h
        split_ifs at h with hq
        · cases h
        · have hother := ptyOf_registerPane ⟨w.newV4 sm.minted⟩ q sm.mint.countSpawn bridge
            (cwd.getD w.homeDirFallback) size
          rw [if_neg hq] at hother
          exact .inl (hother.symm.trans h)
      · rw [ptyOf_splitPane q hp hspawn hleaf] at h
        split_ifs at h
        · exact .inr ⟨bridge, rfl, (Option.some.inj h).symm⟩
        · exact .inl h
  · rw [splitPane, if_neg hp] at h
    exact .inl h

end Split

section Resize

variable {p sm} {size : PtySize} {resized : Except String Unit}

theorem ptyOf_resizePane {pane : PaneState} (hp : sm.panes.get p = some pane) :
    (sm.resizePane (.ok ()) p size).1.ptyOf q =
      if q = p then some (pane.ptyBridge.pty, size.rows, size.cols) else sm.ptyOf q := by
  simp only [resizePane, hp]
  rw [ptyOf, setPane_panes, PMap.get_insert]
  split_ifs <;> rfl

theorem ptyOf_resizePane_cases {x : PtyProcess × UInt16 × UInt16}
    (h : (sm.resizePane resized p size).1.ptyOf q = some x) :
    sm.ptyOf q = some x ∨ q = p ∧ resized = .ok () ∧ x.2 = (size.rows, size.cols) := by
  cases hp : sm.panes.get p with
  | none =>
    simp only [resizePane, hp] at h
    exact .inl h
  | some pane =>
    cases resized with
    | error e =>
      simp only [resizePane, hp] at h
      exact .inl h
    | ok =>
      rw [ptyOf_resizePane q hp] at h
      split_ifs at h with hq
      · cases h
        exact .inr ⟨hq, rfl, rfl⟩
      · exact .inl h

end Resize

end SessionManager

/-! ### Requests that are honoured -/

/-- Every terminal has the size it had before, or it was given a size that is what the request
asks for. -/
def SizesHonoured (req : Request) (rows cols : Option UInt16)
    (given : PaneId → PtyProcess → PtySize → Prop) (sm sm' : SessionManager) : Prop :=
  ∀ p pty r c, sm'.ptyOf p = some (pty, r, c) → sm.ptyOf p = some (pty, r, c) ∨
    given p pty ⟨r, c, 0, 0⟩ ∧ Asks req "rows" rows r ∧ Asks req "cols" cols c

/-- The terminal was started with the size. -/
def StartedWith (w : World) (_ : PaneId) (pty : PtyProcess) (size : PtySize) : Prop :=
  ∃ n dir command login, w.ptySpawn n size dir command login = .ok pty

theorem startedWith_of_spawn {w : World} {n : ℕ} {size : PtySize} {dir : Option PathBuf}
    {command : Option (List String)} {shell : Option String} {login : Bool} {bridge : PtyBridge}
    (h : PtyBridge.spawn w n size dir command shell login = .ok bridge) (p : PaneId) :
    StartedWith w p bridge.pty size := by
  rw [PtyBridge.spawn] at h
  split at h
  · cases h
  · rename_i pty hpty
    cases h
    exact ⟨n, dir, _, _, hpty⟩

section Honoured

variable (req : Request)

def NewTabHonoured : Prop := ∀ w isDir sm,
  SizesHonoured req (some defaultRows) (some defaultCols) (StartedWith w) sm
    (handleNewTab w isDir req sm).1

def SplitPaneHonoured : Prop := ∀ w isDir sm,
  SizesHonoured req (some defaultRows) (some defaultCols) (StartedWith w) sm
    (handleSplitPane w isDir req sm).1

def ResizePaneHonoured : Prop := ∀ resize sm,
  SizesHonoured req none none (fun p _ size => resize p size = .ok ()) sm
    (handleResizePane req sm resize).1

/-- The request names a pane, there or not. -/
def NamesPane : Prop := ∃ raw uuid, req.strParam "pane_id" = some raw ∧ Uuid.parseStr raw = some uuid

/-- The request names a pane and a direction in which it is to be split. -/
def NamesSplit : Prop := NamesPane req ∧
  (req.strParam "direction" = some "horizontal" ∨ req.strParam "direction" = some "vertical")

/-- The sizes can be taken as they are, with the default where there is none. -/
def NewSizeFits : Prop := Fits req "rows" defaultRows ∧ Fits req "cols" defaultCols

variable {req}

theorem honoured_of_started {w : World} {sm sm' : SessionManager} (h : NewSizeFits req)
    (hcases : ∀ p x, sm'.ptyOf p = some x → sm.ptyOf p = some x ∨
      ∃ n dir command shell login bridge,
        PtyBridge.spawn w n (newSize req) dir command shell login = .ok bridge ∧
          x = (bridge.pty, (newSize req).rows, (newSize req).cols)) :
    SizesHonoured req (some defaultRows) (some defaultCols) (StartedWith w) sm sm' := by
  intro p pty r c hx
  rcases hcases p _ hx with hold | ⟨n, dir, command, shell, login, bridge, hspawn, heq⟩
  · exact .inl hold
  · cases heq
    exact .inr ⟨startedWith_of_spawn hspawn p, (asks_sizeParam_iff _).mpr h.1,
      (asks_sizeParam_iff _).mpr h.2⟩

theorem newTabHonoured_of_fits (h : NewSizeFits req) : NewTabHonoured req := by
  intro w isDir sm
  apply honoured_of_started h
  intro p x hx
  rcases SessionManager.ptyOf_createTab_cases p hx with hold | ⟨bridge, hspawn, heq⟩
  · exact .inl hold
  · exact .inr ⟨_, _, _, _, _, bridge, hspawn, heq⟩

theorem requirePaneId_eq_ok_iff {sm : SessionManager} {p : PaneId} :
    requirePaneId req sm = .ok p ↔ ∃ raw, req.strParam "pane_id" = some raw ∧
      Uuid.parseStr raw = some p.uuid ∧ p ∈ sm.panes := by
  rw [requirePaneId, PMap.mem_def]
  cases hraw : req.strParam "pane_id" with
  | none => simp
  | some raw =>
    cases huuid : Uuid.parseStr raw with
    | none => simp [huuid]
    | some uuid =>
      simp only [huuid, Option.some.injEq, exists_eq_left']
      cases hget : sm.panes.get ⟨uuid⟩ with
      | none =>
        simp only [paneInfo, hget, Option.map_none, Option.isNone_none, if_true]
        constructor
        · intro h
          cases h
        · rintro ⟨rfl, h⟩
          rw [hget] at h
          cases h
      | some pane =>
        simp only [paneInfo, hget, Option.map_some, Option.isNone_some, Bool.false_eq_true, if_false]
        constructor
        · intro h
          cases h
          exact ⟨rfl, by rw [hget]; rfl⟩
        · rintro ⟨rfl, -⟩
          rfl

theorem handleSplitPane_eq {w : World} {isDir : PathBuf → Bool} {sm : SessionManager} {p : PaneId}
    {direction : String} (hp : requirePaneId req sm = .ok p)
    (hd : req.strParam "direction" = some direction)
    (hok : direction = "horizontal" ∨ direction = "vertical") :
    (handleSplitPane w isDir req sm).1 = (sm.splitPane w p direction (newSize req)
      ((cwdParam isDir req).or ((sm.paneInfo p).map (·.cwd)))).1 := by
  simp only [handleSplitPane, hp, hd]
  rw [if_neg (by tauto)]
  rfl

/-- A request that is turned down changes nothing. -/
theorem handleSplitPane_cases (w : World) (isDir : PathBuf → Bool) (sm : SessionManager) :
    (handleSplitPane w isDir req sm).1 = sm ∨ NamesSplit req ∧ ∃ p direction cwd,
      (handleSplitPane w isDir req sm).1 = (sm.splitPane w p direction (newSize req) cwd).1 := by
  cases hp : requirePaneId req sm with
  | error response =>
    left
    rw [handleSplitPane, hp]
  | ok p =>
    cases hd : req.strParam "direction" with
    | none =>
      left
      simp only [handleSplitPane, hp, hd]
    | some direction =>
      by_cases hok : direction = "horizontal" ∨ direction = "vertical"
      · right
        obtain ⟨raw, hraw, huuid, -⟩ := requirePaneId_eq_ok_iff.mp hp
        refine ⟨⟨⟨raw, p.uuid, hraw, huuid⟩, ?_⟩, p, direction, _, handleSplitPane_eq hp hd hok⟩
        rw [hd]
        simpa using hok
      · left
        simp only [handleSplitPane, hp, hd]
        rw [if_pos (by tauto)]

theorem splitPaneHonoured_of_fits (h : NamesSplit req → NewSizeFits req) :
    SplitPaneHonoured req := by
  intro w isDir sm
  rcases handleSplitPane_cases w isDir sm with hsame | ⟨hnames, p, direction, cwd, hsplit⟩
  · rw [hsame]
    exact fun _ _ _ _ hx => .inl hx
  · rw [hsplit]
    apply honoured_of_started (h hnames)
    intro q x hx
    rcases SessionManager.ptyOf_splitPane_cases q hx with hold | ⟨bridge, hspawn, heq⟩
    · exact .inl hold
    · exact .inr ⟨_, _, _, _, _, bridge, hspawn, heq⟩

/-- A size that can be given to a pane as it is. A request without one is turned down. -/
def GivenSizeFits (req : Request) : Prop :=
  ∀ rows cols, req.u64Param "rows" = some rows → req.u64Param "cols" = some cols →
    rows < 2 ^ 16 ∧ cols < 2 ^ 16

theorem handleResizePane_eq {resize : PaneId → PtySize → Except String Unit} {sm : SessionManager}
    {p : PaneId} {rows cols : ℕ} (hp : requirePaneId req sm = .ok p)
    (hr : req.u64Param "rows" = some rows) (hc : req.u64Param "cols" = some cols) :
    (handleResizePane req sm resize).1 =
      (sm.resizePane (resize p ⟨UInt16.ofNat rows, UInt16.ofNat cols, 0, 0⟩) p
        ⟨UInt16.ofNat rows, UInt16.ofNat cols, 0, 0⟩).1 := by
  simp only [handleResizePane, hp, hr, hc]
  rfl

theorem handleResizePane_cases (resize : PaneId → PtySize → Except String Unit)
    (sm : SessionManager) :
    (handleResizePane req sm resize).1 = sm ∨ ∃ p rows cols, requirePaneId req sm = .ok p ∧
      req.u64Param "rows" = some rows ∧ req.u64Param "cols" = some cols := by
  cases hp : requirePaneId req sm with
  | error response =>
    left
    rw [handleResizePane, hp]
  | ok p =>
    cases hr : req.u64Param "rows" with
    | none =>
      left
      simp only [handleResizePane, hp, hr]
    | some rows =>
      cases hc : req.u64Param "cols" with
      | none =>
        left
        simp only [handleResizePane, hp, hr, hc]
      | some cols => exact .inr ⟨p, rows, cols, rfl, rfl, rfl⟩

theorem resizePaneHonoured_of_fits (h : NamesPane req → GivenSizeFits req) :
    ResizePaneHonoured req := by
  intro resize sm
  rcases handleResizePane_cases resize sm with hsame | ⟨p, rows, cols, hp, hr, hc⟩
  · rw [hsame]
    exact fun _ _ _ _ hx => .inl hx
  · obtain ⟨raw, hraw, huuid, -⟩ := requirePaneId_eq_ok_iff.mp hp
    obtain ⟨hrows, hcols⟩ := h ⟨raw, p.uuid, hraw, huuid⟩ rows cols hr hc
    rw [handleResizePane_eq hp hr hc]
    intro q pty r c hx
    rcases SessionManager.ptyOf_resizePane_cases q hx with hold | ⟨rfl, hok, heq⟩
    · exact .inl hold
    · cases heq
      exact .inr ⟨hok, (asks_ofNat_iff hr _).mpr hrows, (asks_ofNat_iff hc _).mpr hcols⟩

end Honoured

/-! ### What is cut reaches a terminal -/

section Sample

/-- A session in which every workspace has one tab, with the pane in it. -/
def onePane (p : PaneId) (n : ℕ) (rows : UInt16) : SessionManager :=
  { SessionManager.new .counting .empty with
    panes := PMap.empty.insert p
      { id := p
        ptyBridge := { pty := { pid := none }, ptyRx := false }
        cwd := .ofString "/"
        title := ""
        rows := rows
        cols := 0 }
    paneOrder := [p]
    layout :=
      { workspaces := List.replicate (n + 1)
          { id := ⟨0⟩, name := "", tabs := [.ofLeaf ⟨0⟩ p], activeTab := 0, color := none }
        activeWorkspace := 0 }
    minted := p.uuid.bits + 1 }

variable {p : PaneId} {n : ℕ} {rows : UInt16} {req : Request}

theorem ptyOf_onePane : (onePane p n rows).ptyOf p = some ({ pid := none }, rows, 0) := by
  rw [ptyOf, onePane, PMap.get_insert_self]
  rfl

/-- The id of the next pane. -/
theorem ptyOf_onePane_next : (onePane p n rows).ptyOf ⟨⟨p.uuid.bits + 1⟩⟩ = none := by
  rw [ptyOf, onePane, PMap.get_insert_of_ne]
  · rfl
  · intro h
    have hbits := congrArg (fun q : PaneId => q.uuid.bits) h
    simp at hbits

theorem mem_onePane : p ∈ (onePane p n rows).panes := by
  rw [onePane, PMap.mem_insert]
  exact .inl rfl

theorem length_onePane : (onePane p n rows).layout.workspaces.length = n + 1 := by
  simp [onePane]

theorem fits_of_newTabHonoured (h : NewTabHonoured req) : NewSizeFits req := by
  have hidx : (req.u64Param "workspace_idx").getD 0 <
      (onePane ⟨⟨0⟩⟩ ((req.u64Param "workspace_idx").getD 0) 0).layout.workspaces.length := by
    rw [length_onePane]
    omega
  obtain ⟨bridge, hspawn⟩ := PtyBridge.spawn_ok World.counting_spawnsSucceed 0 (newSize req)
    (cwdParam (fun _ => true) req) (commandParam req) none true
  have hnew := SessionManager.ptyOf_createTab ⟨⟨1⟩⟩ hidx hspawn
  rcases h .counting (fun _ => true) _ _ _ _ _ hnew with hold | ⟨-, hrows, hcols⟩
  · cases (@ptyOf_onePane_next ⟨⟨0⟩⟩ _ 0).symm.trans hold
  · exact ⟨(asks_sizeParam_iff _).mp hrows, (asks_sizeParam_iff _).mp hcols⟩

theorem replaceLeafInLayout_onePane (q : PaneId) (direction : String) :
    ∃ workspaces, replaceLeafInLayout p q direction (1 / 2) (onePane p n rows).layout.workspaces =
      (workspaces, some ⟨0⟩) := by
  simp [onePane, List.replicate_succ, replaceLeafInLayout, replaceLeafInTabs, visit, visitFrom,
    SessionTab.ofLeaf, replaceLeafWithRatio]

theorem fits_of_splitPaneHonoured (h : SplitPaneHonoured req) (hnames : NamesSplit req) :
    NewSizeFits req := by
  obtain ⟨⟨raw, uuid, hraw, huuid⟩, hdirection⟩ := hnames
  have hp : requirePaneId req (onePane ⟨uuid⟩ 0 0) = .ok ⟨uuid⟩ :=
    requirePaneId_eq_ok_iff.mpr ⟨raw, hraw, huuid, mem_onePane⟩
  obtain ⟨direction, hd, hok⟩ : ∃ direction, req.strParam "direction" = some direction ∧
      (direction = "horizontal" ∨ direction = "vertical") := by
    rcases hdirection with hd | hd
    · exact ⟨_, hd, .inl rfl⟩
    · exact ⟨_, hd, .inr rfl⟩
  obtain ⟨bridge, hspawn⟩ := PtyBridge.spawn_ok World.counting_spawnsSucceed 0 (newSize req)
    ((cwdParam (fun _ => true) req).or (((onePane ⟨uuid⟩ 0 0).paneInfo ⟨uuid⟩).map (·.cwd))) none none
    true
  obtain ⟨workspaces, hleaf⟩ :=
    @replaceLeafInLayout_onePane ⟨uuid⟩ 0 0 ⟨⟨uuid.bits + 1⟩⟩ direction
  have hnew := SessionManager.ptyOf_splitPane ⟨⟨uuid.bits + 1⟩⟩ mem_onePane hspawn hleaf
  rw [← handleSplitPane_eq hp hd hok] at hnew
  rcases h .counting (fun _ => true) _ _ _ _ _ (hnew.trans (if_pos rfl)) with hold | ⟨-, hrows, hcols⟩
  · cases (@ptyOf_onePane_next ⟨uuid⟩ _ 0).symm.trans hold
  · exact ⟨(asks_sizeParam_iff _).mp hrows, (asks_sizeParam_iff _).mp hcols⟩

theorem fits_of_resizePaneHonoured (h : ResizePaneHonoured req) (hnames : NamesPane req) :
    GivenSizeFits req := by
  intro r c hr hc
  obtain ⟨raw, uuid, hraw, huuid⟩ := hnames
  have hp : requirePaneId req (onePane ⟨uuid⟩ 0 (UInt16.ofNat r + 1)) = .ok ⟨uuid⟩ :=
    requirePaneId_eq_ok_iff.mpr ⟨raw, hraw, huuid, mem_onePane⟩
  obtain ⟨pane, hpane⟩ := PMap.exists_get (@mem_onePane ⟨uuid⟩ 0 (UInt16.ofNat r + 1))
  have hnew := @SessionManager.ptyOf_resizePane ⟨uuid⟩ ⟨uuid⟩ _
    ⟨UInt16.ofNat r, UInt16.ofNat c, 0, 0⟩ _ hpane
  rw [if_pos rfl, ← @handleResizePane_eq req (fun _ _ => .ok ()) _ _ _ _ hp hr hc] at hnew
  rcases h (fun _ _ => .ok ()) _ _ _ _ _ hnew with hold | ⟨-, hrows, hcols⟩
  · -- the pane had another size before
    rw [ptyOf_onePane] at hold
    have hsame : UInt16.ofNat r + 1 = UInt16.ofNat r := congrArg (·.2.1) (Option.some.inj hold)
    have hnat := congrArg UInt16.toNat hsame
    rw [UInt16.toNat_add] at hnat
    have hlt := (UInt16.ofNat r).toNat_lt
    have hone : (1 : UInt16).toNat = 1 := rfl
    omega
  · exact ⟨(asks_ofNat_iff hr _).mp hrows, (asks_ofNat_iff hc _).mp hcols⟩

end Sample

/-- A request is honoured exactly if its sizes are numbers of sixteen bits, or it is turned down for
another reason. Where a size may be left out, it may also be another number that is the default. -/
theorem sizesHonoured_iff (req : Request) :
    (NewTabHonoured req ↔ NewSizeFits req) ∧
    (SplitPaneHonoured req ↔ (NamesSplit req → NewSizeFits req)) ∧
    (ResizePaneHonoured req ↔ (NamesPane req → GivenSizeFits req)) :=
  ⟨⟨fits_of_newTabHonoured, newTabHonoured_of_fits⟩,
    ⟨fits_of_splitPaneHonoured, splitPaneHonoured_of_fits⟩,
    ⟨fits_of_resizePaneHonoured, resizePaneHonoured_of_fits⟩⟩

/-- A tab with 65536 rows. -/
def tallTab : Request where
  method := "new_tab"
  params := .obj [("rows", .posInt 65536)]
  id := none

/-- The terminal of the tab is started with no row at all. -/
example : newSize tallTab = ⟨0, 80, 0, 0⟩ := by decide

theorem not_newTabHonoured_tall :
    ¬∀ req, NewTabHonoured req ∧ SplitPaneHonoured req ∧ ResizePaneHonoured req := by
  intro h
  have hfits := (fits_of_newTabHonoured (h tallTab).1).1
  have hlt : 65536 < 2 ^ 16 := hfits
  omega

end Forgetty
