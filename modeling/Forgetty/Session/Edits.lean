import Forgetty.Session.Closings

/-! What a call can do to the layout, said once, with the events that tell of it. Some
calls make a tab, some drop tabs, three move a focus; the others edit. -/

namespace Forgetty

open Lib

namespace SessionManager

/-- The edits of the layout, with what is told of them. -/
inductive Edit (w : World) (s t : SessionManager) : Prop
  | quiet (es : List SessionEvent) (output : ∀ e ∈ es, ∃ p bytes, e = .ptyOutput p bytes)
    (changed : Changed s.layout.workspaces s.layout.activeWorkspace es s t)
  | split (i : ℕ) (ws : SessionWorkspace) (j : ℕ) (tab : SessionTab) (p q : PaneId)
    (direction : String) (ratio : F32) (hws : s.layout.workspaces[i]? = some ws)
    (htab : ws.tabs[j]? = some tab) (hp : p ∈ tab.paneTree.leaves)
    (changed : Changed
      (s.layout.workspaces.modify i fun ws => { ws with tabs := ws.tabs.modify j fun tab =>
        { tab with paneTree := (replaceLeafWithRatio p q direction ratio tab.paneTree).1 } })
      s.layout.activeWorkspace [.paneCreated q, .paneSplit tab.id p q direction] s t)
  | tabMoved (i : ℕ) (ws : SessionWorkspace) (j k : ℕ) (tab : SessionTab)
    (hws : s.layout.workspaces[i]? = some ws) (htab : ws.tabs[j]? = some tab)
    (hk : k ≤ ws.tabs.length - 1)
    (changed : Changed (s.layout.workspaces.modify i (moveTabTo j k tab)) s.layout.activeWorkspace
      [.tabMoved i tab.id k] s t)
  | workspaceMade (name : String)
    (changed : Changed (s.layout.workspaces ++ [emptyWorkspace (w.newV4 s.minted) name])
      s.layout.activeWorkspace
      [.workspaceCreated s.layout.workspaces.length (w.newV4 s.minted) name] s t)
  | workspaceDeleted (i : ℕ) (ws : SessionWorkspace) (hws : s.layout.workspaces[i]? = some ws)
    (hlen : 1 < s.layout.workspaces.length)
    (changed : Changed (s.layout.workspaces.eraseIdx i)
      (if i < s.layout.activeWorkspace then s.layout.activeWorkspace - 1
        else if s.layout.workspaces.length - 1 ≤ s.layout.activeWorkspace then
          s.layout.workspaces.length - 2
        else s.layout.activeWorkspace)
      (ws.leaves.map .paneClosed ++ [.workspaceDeleted i ws.id]) s t)
  | duplicated (i n : ℕ) (dupName : String) (dupTabs : List DuplicatedTab)
    (hi : i < s.layout.workspaces.length) (hn : s.minted ≤ n)
    (changed : Changed (s.layout.workspaces.insertIdx (i + 1)
        { id := w.newV4 n
          name := dupName
          tabs := dupTabs.map fun dt => .ofLeaf dt.tabId dt.paneId
          activeTab := 0
          color := none })
      (if i + 1 ≤ s.layout.activeWorkspace then s.layout.activeWorkspace + 1
        else s.layout.activeWorkspace)
      (.workspaceCreated (i + 1) (w.newV4 n) dupName :: dupTabs.flatMap fun dt =>
        [.paneCreated dt.paneId, .tabCreated (i + 1) dt.tabId dt.paneId]) s t)
  | swapped (i j : ℕ) (u v : Uuid) (hi : i < s.layout.workspaces.length)
    (hj : j < s.layout.workspaces.length)
    (changed : Changed (swapIdx s.layout.workspaces i j) (follow i j s.layout.activeWorkspace)
      [.workspacesReordered i j u v] s t)
  | renamed (i : ℕ) (id : Uuid) (name : String)
    (changed : Changed (s.layout.workspaces.modify i fun ws => { ws with name := name })
      s.layout.activeWorkspace [.workspaceRenamed i id name] s t)
  | colored (i : ℕ) (id : Uuid) (color : Option String)
    (changed : Changed (s.layout.workspaces.modify i fun ws => { ws with color := color })
      s.layout.activeWorkspace [.workspaceColorChanged i id color] s t)
  | ratios (updates : List (PaneId × F32))
    (changed : Changed (s.layout.workspaces.map fun ws => { ws with tabs := ws.tabs.map fun tab =>
        { tab with paneTree := updateRatios updates tab.paneTree } })
      s.layout.activeWorkspace [] s t)

/-- The calls that only edit. -/
def Edits : Call → Prop
  | .op (.createPane ..) | .op (.createTab ..) | .op (.closePane _) | .op (.closeTab _)
  | .op (.setActiveTab ..) | .op (.setActiveWorkspace _) | .op (.setActivePane ..)
  | .createTabWithPaneId .. => False
  | _ => True

/-- The workspace a call makes a tab in. -/
def madeIn : Call → Option ℕ
  | .op (.createTab i ..) | .createTabWithPaneId i .. => some i
  | _ => none

/-- An edit drops no tabs. -/
theorem Edits.dropped {call : Call} (hc : Edits call) (s : SessionManager) :
    s.dropped call = none := by
  match call with
  | .createTabWithPaneId .. => exact absurd hc id
  | .splitPaneWithRatioAndPaneId .. => rfl
  | .op op =>
    cases op with
    | closePane p => exact absurd hc id
    | closeTab tabId => exact absurd hc id
    | _ => rfl

theorem dropped_of_madeIn {call : Call} {i : ℕ} (h : madeIn call = some i) (s : SessionManager) :
    s.dropped call = none := by
  match call with
  | .createTabWithPaneId .. => rfl
  | .splitPaneWithRatioAndPaneId .. => cases h
  | .op op =>
    cases op with
    | createTab i cwd size command => rfl
    | _ => cases h

section Edit

variable {w : World} {s t : SessionManager}

theorem Unchanged.edit (h : Unchanged s t) : Edit w s t := .quiet [] nofun h

/-- It does not matter how many ids were taken before. -/
theorem edit_splitAt (caller : String) (p : PaneId) (direction : String) (ratio : F32)
    (size : PtySize) (cwd : Option PathBuf) (q : PaneId) (ht : t.layout = s.layout)
    (hsent : t.eventTx.sent = s.eventTx.sent) :
    Edit w s (t.splitAt w caller p direction ratio size cwd q).1 := by
  have hu : Unchanged s t := .of_eq ht hsent
  rcases @changed_splitAt w t caller p direction ratio size cwd q with
    h | ⟨i, ws, j, tab, hws, htab, hp, h⟩
  · rw [Unchanged, ht] at h
    exact Unchanged.edit (h.after hu)
  · rw [ht] at hws h
    exact .split i ws j tab p q direction ratio hws htab hp (h.after hu)

theorem edit_moveTab (tabId : Uuid) (newIndex : ℕ) : Edit w s (s.moveTab tabId newIndex).1 := by
  rcases @changed_moveTab s tabId newIndex with h | ⟨i, ws, j, tab, hws, htab, rfl, h⟩
  · exact h.edit
  · exact .tabMoved i ws j _ tab hws htab (Nat.min_le_right _ _) h

theorem edit_deleteWorkspace (i : ℕ) : Edit w s (s.deleteWorkspace i).1 := by
  by_cases hrefused : s.layout.workspaces.length ≤ i ∨ s.layout.workspaces.length ≤ 1
  · obtain ⟨e, he⟩ := deleteWorkspace_refused hrefused
    rw [he]
    exact (Unchanged.refl s).edit
  · obtain ⟨hi, hlen⟩ := not_or.mp hrefused
    have hws := List.getElem?_eq_getElem (Nat.not_le.mp hi)
    obtain ⟨-, h⟩ := changed_deleteWorkspace hws (Nat.not_le.mp hlen)
    exact .workspaceDeleted i _ hws (Nat.not_le.mp hlen) h

theorem edit_moveWorkspace (i j : ℕ) : Edit w s (s.moveWorkspace i j).1 := by
  by_cases h : i < s.layout.workspaces.length ∧ j < s.layout.workspaces.length ∧ i ≠ j
  · obtain ⟨hi, hj, hne⟩ := h
    rw [moveWorkspace_of_ne (List.getElem?_eq_getElem hi) (List.getElem?_eq_getElem hj) hne]
    exact .swapped i j _ _ hi hj ⟨rfl, rfl, rfl⟩
  · rw [moveWorkspace_eq_self h]
    exact (Unchanged.refl s).edit

theorem edit_renameWorkspace (i : ℕ) (name : String) : Edit w s (s.renameWorkspace i name).1 := by
  unfold renameWorkspace
  split
  · exact (Unchanged.refl s).edit
  · split_ifs
    · exact (Unchanged.refl s).edit
    · exact .renamed i _ name ⟨rfl, rfl, rfl⟩

theorem edit_setWorkspaceColor (i : ℕ) (color : Option String) :
    Edit w s (s.setWorkspaceColor i color).1 := by
  unfold setWorkspaceColor
  split
  · exact (Unchanged.refl s).edit
  · split_ifs
    · exact (Unchanged.refl s).edit
    · exact .colored i _ color ⟨rfl, rfl, rfl⟩

theorem edit_invoke {call : Call} (hc : Edits call) : Edit w s (s.invoke w call) := by
  cases call with
  | createTabWithPaneId i cwd size command p => exact absurd hc id
  | splitPaneWithRatioAndPaneId p direction ratio size cwd q =>
    simp only [invoke, Call.exec, splitPaneWithRatioAndPaneId]
    split_ifs
    · exact edit_splitAt _ p direction ratio size cwd q rfl rfl
    · exact (Unchanged.refl s).edit
  | op op =>
    cases op with
    | splitPane p direction size cwd =>
      simp only [invoke, Call.exec, Op.exec, splitPane]
      split_ifs
      · exact edit_splitAt _ p direction _ size cwd _ rfl rfl
      · exact (Unchanged.refl s).edit
    | splitPaneWithRatio p direction ratio size cwd =>
      simp only [invoke, Call.exec, Op.exec, splitPaneWithRatio, splitPaneWithRatioAndPaneId]
      split_ifs
      · exact edit_splitAt _ p direction ratio size cwd _ rfl rfl
      · exact Unchanged.edit (.of_eq rfl rfl)
    | moveTab tabId newIndex => exact edit_moveTab tabId newIndex
    | createWorkspace name => exact .workspaceMade name (changed_createWorkspace name)
    | deleteWorkspace i => exact edit_deleteWorkspace i
    | duplicateWorkspace i name size =>
      rcases @changed_duplicateWorkspace_of w s i name size with
        h | ⟨n, dupName, dupTabs, hi, hn, h⟩
      · exact .quiet [] (by simp) h
      · exact .duplicated i n dupName dupTabs hi hn h
    | moveWorkspace i j => exact edit_moveWorkspace i j
    | renameWorkspace i name => exact edit_renameWorkspace i name
    | setWorkspaceColor i color => exact edit_setWorkspaceColor i color
    | updateSplitRatios updates => exact .ratios updates (changed_updateSplitRatios updates)
    | setPaneCwd p cwd => exact (unchanged_setPaneCwd p cwd).edit
    | setPinned pinned => exact Unchanged.edit (.of_eq rfl rfl)
    | resizePane resizeOk p size =>
      exact Unchanged.edit (unchanged_resizePane resizeOk p size)
    | processPaneBytes procCwd alive p bytes =>
      obtain ⟨es, hes, h⟩ := @changed_processPaneBytes s procCwd alive p bytes
      exact .quiet es (fun e he => ⟨p, bytes, hes e he⟩) h
    | createPane size cwd command shell login => exact absurd hc id
    | createTab i cwd size command => exact absurd hc id
    | closePane p => exact absurd hc id
    | closeTab tabId => exact absurd hc id
    | setActiveTab i j => exact absurd hc id
    | setActiveWorkspace i => exact absurd hc id
    | setActivePane i tabId p => exact absurd hc id

/-! ### All calls -/

/-- What a call does: nothing to the layout, an edit, a tab for a bare pane, closing, or
moving a focus. -/
inductive Outcome (w : World) (s t : SessionManager) : Call → Prop
  | unchanged (call : Call) (hd : s.dropped call = none) (h : Unchanged s t) : Outcome w s t call
  | edit (call : Call) (hc : Edits call) (h : Edit w s t) : Outcome w s t call
  | paneMade (size : PtySize) (cwd : Option PathBuf) (command : Option (List String))
    (shell : Option String) (login : Bool)
    (changed : Changed
      (s.layout.workspaces.modify 0 (addTab (w.newV4 (s.minted + 1)) ⟨w.newV4 s.minted⟩))
      s.layout.activeWorkspace [.paneCreated ⟨w.newV4 s.minted⟩] s t) :
    Outcome w s t (.op (.createPane size cwd command shell login))
  | tabMade (call : Call) (i : ℕ) (tabId : Uuid) (p : PaneId) (hcall : madeIn call = some i)
    (changed : Changed (s.layout.workspaces.modify i (addTab tabId p)) s.layout.activeWorkspace
      [.paneCreated p, .tabCreated i tabId p] s t) : Outcome w s t call
  | paneClosed (p : PaneId) (hp : p ∈ s.panes) (hd : s.dropped (.op (.closePane p)) = none)
    (changed : Changed s.layout.workspaces s.layout.activeWorkspace [.paneClosed p] s t)
    (panes : ∀ q, q ∈ t.panes ↔ q ∈ s.panes ∧ q ∉ [p]) :
    Outcome w s t (.op (.closePane p))
  | leafClosed (p : PaneId) (i : ℕ) (ws : SessionWorkspace)
    (hws : s.layout.workspaces[i]? = some ws) (hleaf : ∃ tab ∈ ws.tabs, tab.paneTree = .leaf p)
    (hd : s.dropped (.op (.closePane p)) =
      some (i, fun tab : SessionTab => decide (tab.paneTree = .leaf p)))
    (h : Closed w i (fun tab => tab.paneTree = .leaf p) [p] [.paneClosed p] s t) :
    Outcome w s t (.op (.closePane p))
  | tabClosed (i : ℕ) (ws : SessionWorkspace) (tab : SessionTab) (qs : List PaneId)
    (hws : s.layout.workspaces[i]? = some ws) (htab : tab ∈ ws.tabs)
    (hd : s.dropped (.op (.closeTab tab.id)) =
      some (i, fun t : SessionTab => decide (t.id = tab.id)))
    (h : Closed w i (fun t => t.id = tab.id) tab.paneTree.leaves
      (qs.map .paneClosed ++ [.tabClosed i tab.id]) s t) :
    Outcome w s t (.op (.closeTab tab.id))
  | tabActivated (i j : ℕ)
    (changed : Changed (s.layout.workspaces.modify i fun ws => { ws with activeTab := j })
      s.layout.activeWorkspace [.activeTabChanged i j] s t) :
    Outcome w s t (.op (.setActiveTab i j))
  | workspaceActivated (i : ℕ) (hi : i < s.layout.workspaces.length)
    (changed : Changed s.layout.workspaces i [.activeWorkspaceChanged i] s t) :
    Outcome w s t (.op (.setActiveWorkspace i))
  | paneActivated (i : ℕ) (tabId : Uuid) (p : Option PaneId) (ws : SessionWorkspace)
    (tab : SessionTab) (hws : s.layout.workspaces[i]? = some ws)
    (htab : ws.tabs.find? (·.id = tabId) = some tab)
    (hp : ∀ q, p = some q → q ∈ tab.paneTree.leaves)
    (changed : Changed (s.layout.workspaces.modify i (writeActivePane tabId p))
      s.layout.activeWorkspace [.activePaneChanged i tabId p] s t) :
    Outcome w s t (.op (.setActivePane i tabId p))

theorem outcome_createTab (call : Call) (i : ℕ) (cwd : Option PathBuf) (size : PtySize)
    (command : Option (List String)) (p : PaneId) (hcall : madeIn call = some i)
    (hd : s.dropped call = none) (ht : t.layout = s.layout)
    (hsent : t.eventTx.sent = s.eventTx.sent) :
    Outcome w s (t.createTabWithPaneId w i cwd size command p).1 call := by
  have hu : Unchanged s t := .of_eq ht hsent
  rcases @changed_createTabWithPaneId w t i cwd size command p with ⟨h, -⟩ | ⟨-, -, h⟩
  · rw [Unchanged, ht] at h
    exact .unchanged call hd (h.after hu)
  · rw [ht] at h
    exact .tabMade call i _ p hcall (h.after hu)

theorem outcome_closePane (p : PaneId) : Outcome w s (s.closePane w p).1 (.op (.closePane p)) := by
  by_cases hp : p ∈ s.panes
  · cases hfind : s.layout.workspaces.findIdx? fun ws =>
        ws.tabs.any fun tab => tab.paneTree = .leaf p with
    | none =>
      obtain ⟨changed, panes⟩ := changed_closePane_of_none (w := w) hp hfind
      refine .paneClosed p hp ?_ changed panes
      rw [dropped, if_pos hp, hfind]
      rfl
    | some i =>
      obtain ⟨ws, hws, hany, -, -⟩ := dropLeafTabs_of_findIdx? hfind
      refine .leafClosed p i ws hws ?_ ?_ (closed_closePane hp hfind)
      · simpa using hany
      · rw [dropped, if_pos hp, hfind]
        rfl
  · rw [closePane_of_not_mem hp]
    exact .unchanged _ (if_neg hp) (.refl s)

theorem outcome_closeTab (hs : Identified w s) (tabId : Uuid) :
    Outcome w s (s.closeTab w tabId).1 (.op (.closeTab tabId)) := by
  cases hfind : s.findTab tabId with
  | none =>
    simp only [closeTab, hfind]
    refine .unchanged _ ?_ (.refl s)
    rw [dropped, hfind]
    rfl
  | some place =>
    obtain ⟨ws, tab, hws, htab, rfl, qs, h⟩ := closed_closeTab (w := w) hs hfind
    refine .tabClosed place.1 ws tab qs hws htab ?_ h
    rw [dropped, hfind]
    rfl

/-- The inversion rule. -/
theorem outcome_invoke (hs : Identified w s) (call : Call) :
    Outcome w s (s.invoke w call) call := by
  by_cases hc : Edits call
  · exact .edit call hc (edit_invoke hc)
  · match call with
    | .splitPaneWithRatioAndPaneId .. => exact absurd trivial hc
    | .createTabWithPaneId i cwd size command p =>
      exact outcome_createTab _ i cwd size command p rfl rfl rfl rfl
    | .op op =>
      cases op with
      | createTab i cwd size command =>
        exact outcome_createTab _ i cwd size command _ rfl rfl rfl rfl
      | createPane size cwd command shell login =>
        cases h : PtyBridge.spawn w s.spawned size cwd command shell login with
        | error e => exact .unchanged _ rfl (createPane_refused h)
        | ok bridge => exact .paneMade size cwd command shell login (changed_createPane h)
      | closePane p => exact outcome_closePane p
      | closeTab tabId => exact outcome_closeTab hs tabId
      | setActivePane i tabId p =>
        rcases @changed_setActivePane s i tabId p with h | ⟨ws, tab, hws, htab, hp, h⟩
        · exact .unchanged _ rfl h
        · exact .paneActivated i tabId p ws tab hws htab hp h
      | setActiveTab i j =>
        rcases @changed_setActiveTab s i j with h | h
        · exact .unchanged _ rfl h
        · exact .tabActivated i j h
      | setActiveWorkspace i =>
        rcases @changed_setActiveWorkspace_of s i with h | ⟨hi, h⟩
        · exact .unchanged _ rfl h
        · exact .workspaceActivated i hi h
      | _ => exact absurd trivial hc

/-- Nothing that was told is taken back. -/
theorem Outcome.sent_grows {call : Call} (h : Outcome w s t call) :
    s.eventTx.sent <+: t.eventTx.sent := by
  have hchanged {wss : List SessionWorkspace} {i : ℕ} {es : List SessionEvent}
      (h : Changed wss i es s t) : s.eventTx.sent <+: t.eventTx.sent := ⟨es, h.sent.symm⟩
  have hclosed {i : ℕ} {drop : SessionTab → Bool} {gone : List PaneId} {told : List SessionEvent}
      (h : Closed w i drop gone told s t) : s.eventTx.sent <+: t.eventTx.sent := by
    cases h with
    | left changed => exact hchanged changed
    | seeded n minted emptied changed => exact hchanged changed
  cases h with
  | unchanged call hd h => exact hchanged h
  | edit call hc h => cases h <;> rename_i changed <;> exact hchanged changed
  | leafClosed p i ws hws hleaf hd h => exact hclosed h
  | tabClosed i ws tab qs hws htab hd h => exact hclosed h
  | _ => exact hchanged ‹_›

/-- The active workspace stays in bounds. -/
theorem Outcome.active_lt {call : Call} (h : Outcome w s t call)
    (hs : s.layout.activeWorkspace < s.layout.workspaces.length) :
    t.layout.activeWorkspace < t.layout.workspaces.length := by
  have hmodify {i : ℕ} {f : SessionWorkspace → SessionWorkspace} {es : List SessionEvent}
      (h : Changed (s.layout.workspaces.modify i f) s.layout.activeWorkspace es s t) :
      t.layout.activeWorkspace < t.layout.workspaces.length := by
    rw [h.active, h.workspaces, List.length_modify]
    exact hs
  have hsame {i : ℕ} (hi : i < s.layout.workspaces.length) {es : List SessionEvent}
      (h : Changed s.layout.workspaces i es s t) :
      t.layout.activeWorkspace < t.layout.workspaces.length := by
    rw [h.active, h.workspaces]
    exact hi
  have hclosed {i : ℕ} {drop : SessionTab → Bool} {gone : List PaneId} {told : List SessionEvent}
      (h : Closed w i drop gone told s t) :
      t.layout.activeWorkspace < t.layout.workspaces.length := by
    cases h with
    | left changed => exact hmodify changed
    | seeded n minted emptied changed => exact hmodify changed
  cases h with
  | unchanged call hd h => exact hsame hs h
  | paneMade size cwd command shell login changed => exact hmodify changed
  | tabMade call i tabId p hcall changed => exact hmodify changed
  | paneClosed p hp hd changed => exact hsame hs changed
  | leafClosed p i ws hws hleaf hd h => exact hclosed h
  | tabClosed i ws tab qs hws htab hd h => exact hclosed h
  | tabActivated i j changed => exact hmodify changed
  | workspaceActivated i hi changed => exact hsame hi changed
  | paneActivated i tabId p ws tab hws htab hp changed => exact hmodify changed
  | edit call hc h =>
    cases h with
    | quiet es output changed => exact hsame hs changed
    | split i ws j tab p q direction ratio hws htab hp changed => exact hmodify changed
    | tabMoved i ws j k tab hws htab hk changed => exact hmodify changed
    | workspaceMade name changed =>
      rw [changed.active, changed.workspaces, List.length_append]
      omega
    | workspaceDeleted i ws hws hlen changed =>
      obtain ⟨hi, -⟩ := List.getElem?_eq_some_iff.mp hws
      rw [changed.active, changed.workspaces, List.length_eraseIdx_of_lt hi]
      split_ifs <;> omega
    | duplicated i n dupName dupTabs hi hn changed =>
      rw [changed.active, changed.workspaces, List.length_insertIdx_of_le_length (by omega)]
      split_ifs <;> omega
    | swapped i j u v hi hj changed =>
      rw [changed.active, changed.workspaces, length_swapIdx, follow]
      split_ifs <;> omega
    | renamed i id name changed => exact hmodify changed
    | colored i id color changed => exact hmodify changed
    | ratios updates changed =>
      rw [changed.active, changed.workspaces, List.length_map]
      exact hs

end Edit

theorem Reached.active_lt {w : World} {s : SessionManager} (hw : Function.Injective w.newV4)
    (h : Reached w s) : s.layout.activeWorkspace < s.layout.workspaces.length := by
  have hboth := h.invariant (P := fun t =>
      Identified w t ∧ t.layout.activeWorkspace < t.layout.workspaces.length)
    (fun logFiles ringKb maxMb => ⟨identified_fresh hw logFiles ringKb maxMb, Nat.one_pos⟩)
    fun t call ht => ⟨(inherits_invoke call t).identified hw ht.1,
      (outcome_invoke ht.1 call).active_lt ht.2⟩
  exact hboth.2

end SessionManager

end Forgetty
