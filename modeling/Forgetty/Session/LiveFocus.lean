import Forgetty.Session.Ended

/-! The focus pointer of a tab. It is a leaf of the tab in every state; the pane of the leaf
is live as long as no call ends the pane in the focus of a tab that stays, or moves a focus to
a leaf whose pane was ended before. -/

namespace Forgetty

open Lib

namespace SessionManager

/-- The pane in the focus of a tab is a leaf of the tab, and live. -/
def FocusLive (s : SessionManager) : Prop :=
  ∀ ws ∈ s.layout.workspaces, ∀ tab ∈ ws.tabs, ∀ p, tab.activePaneId = some p →
    p ∈ tab.paneTree.leaves ∧ p ∈ s.panes

/-- No tab that stays loses the pane in its focus, and a focus moves to live panes only. -/
structure SparesFocus (s : SessionManager) (call : Call) : Prop where
  stays : ∀ k ws tab p, s.layout.workspaces[k]? = some ws → tab ∈ ws.tabs →
    s.takes k tab call = false → tab.activePaneId = some p → p ∉ s.ended call
  aims : ∀ i ws tabId tab p, call = .op (.setActivePane i tabId (some p)) →
    s.layout.workspaces[i]? = some ws → ws.tabs.find? (·.id = tabId) = some tab →
    p ∈ tab.paneTree.leaves → p ∈ s.panes

/-- Where a tab after a call comes from: it is without a focus, or a tab that stays, with
its leaves and its focus, or one that the focus was set in. -/
inductive TabOrigin (s : SessionManager) (call : Call) (tab' : SessionTab) : Prop
  | unfocused (focus : tab'.activePaneId = none)
  | stays (k : ℕ) (ws : SessionWorkspace) (tab : SessionTab)
    (hws : s.layout.workspaces[k]? = some ws) (htab : tab ∈ ws.tabs)
    (htakes : s.takes k tab call = false) (focus : tab'.activePaneId = tab.activePaneId)
    (leaves : tab.paneTree.leaves ⊆ tab'.paneTree.leaves)
  | aimed (i : ℕ) (ws : SessionWorkspace) (tabId : Uuid) (tab : SessionTab) (p : PaneId)
    (hcall : call = .op (.setActivePane i tabId (some p)))
    (hws : s.layout.workspaces[i]? = some ws) (htab : ws.tabs.find? (·.id = tabId) = some tab)
    (hp : p ∈ tab.paneTree.leaves) (focus : tab'.activePaneId = some p)
    (leaves : tab'.paneTree = tab.paneTree)

section Origin

variable {w : World} {s t : SessionManager} {call : Call}

/-- The tab of an edited workspace and the one it was. -/
def Kept (ws : SessionWorkspace) (tab' : SessionTab) : Prop :=
  tab'.activePaneId = none ∨ ∃ tab ∈ ws.tabs, tab'.activePaneId = tab.activePaneId ∧
    tab.paneTree.leaves ⊆ tab'.paneTree.leaves

theorem kept_of_mem {ws : SessionWorkspace} {tab : SessionTab} (h : tab ∈ ws.tabs) : Kept ws tab :=
  Or.inr ⟨tab, h, rfl, List.Subset.refl _⟩

theorem Kept.origin {k : ℕ} {ws : SessionWorkspace} {tab' : SessionTab} (h : Kept ws tab')
    (hws : s.layout.workspaces[k]? = some ws)
    (htakes : ∀ tab ∈ ws.tabs, s.takes k tab call = false) : TabOrigin s call tab' := by
  rcases h with h | ⟨tab, htab, hfocus, hleaves⟩
  · exact .unfocused h
  · exact .stays k ws tab hws htab (htakes tab htab) hfocus hleaves

theorem replaceLeafWithRatio_subset (p q : PaneId) (direction : String) (ratio : F32)
    (t : PaneTreeLayout) : t.leaves ⊆ (replaceLeafWithRatio p q direction ratio t).1.leaves := by
  by_cases hp : p ∈ t.leaves
  · intro r hr
    exact (replaceLeafWithRatio_leaves hp).symm.subset (List.mem_append_left _ hr)
  · rw [replaceLeafWithRatio_miss hp]
    exact List.Subset.refl _

theorem updateRatios_leaves (updates : List (PaneId × F32)) (t : PaneTreeLayout) :
    (updateRatios updates t).leaves = t.leaves := by
  unfold updateRatios
  induction updates generalizing t with
  | nil => rfl
  | cons u updates ih => rw [List.foldl_cons, ih, updateRatioForPane_leaves]

/-- Every tab of an edited layout was one, or is without a focus. -/
theorem Edit.kept (h : Edit w s t) {ws' : SessionWorkspace} (hws' : ws' ∈ t.layout.workspaces)
    {tab' : SessionTab} (htab' : tab' ∈ ws'.tabs) :
    tab'.activePaneId = none ∨ ∃ ws ∈ s.layout.workspaces, Kept ws tab' := by
  have hsame {ws : SessionWorkspace} (hws : ws ∈ s.layout.workspaces) (htab : tab' ∈ ws.tabs) :
      tab'.activePaneId = none ∨ ∃ ws ∈ s.layout.workspaces, Kept ws tab' :=
    Or.inr ⟨ws, hws, kept_of_mem htab⟩
  have hmodify {i : ℕ} {f : SessionWorkspace → SessionWorkspace} {es : List SessionEvent}
      {active : ℕ} (h : Changed (s.layout.workspaces.modify i f) active es s t)
      (hf : ∀ ws, s.layout.workspaces[i]? = some ws → ∀ tab ∈ (f ws).tabs, Kept ws tab) :
      tab'.activePaneId = none ∨ ∃ ws ∈ s.layout.workspaces, Kept ws tab' := by
    rw [h.workspaces] at hws'
    rcases mem_modify hws' with ⟨ws, hws, rfl⟩ | ⟨k, -, hws⟩
    · exact Or.inr ⟨ws, List.mem_of_getElem? hws, hf ws hws tab' htab'⟩
    · exact hsame (List.mem_of_getElem? hws) htab'
  cases h with
  | quiet es output changed => exact hsame (changed.workspaces ▸ hws') htab'
  | split i ws j tab p q direction ratio hws htab hp changed =>
    refine hmodify changed fun ws _ t ht => ?_
    rcases mem_modify ht with ⟨a, ha, rfl⟩ | ⟨k, -, ha⟩
    · exact Or.inr ⟨a, List.mem_of_getElem? ha, rfl,
        replaceLeafWithRatio_subset p q direction ratio a.paneTree⟩
    · exact kept_of_mem (List.mem_of_getElem? ha)
  | tabMoved i ws j k tab hws htab hk changed =>
    refine hmodify changed fun ws₀ hws₀ t ht => kept_of_mem ?_
    obtain rfl := Option.some.inj (hws.symm.trans hws₀)
    exact (insertIdx_eraseIdx_perm htab hk).subset ht
  | workspaceMade name changed =>
    rw [changed.workspaces] at hws'
    rcases List.mem_append.mp hws' with hws' | hws'
    · exact hsame hws' htab'
    · rw [List.mem_singleton.mp hws'] at htab'
      exact absurd htab' List.not_mem_nil
  | workspaceDeleted i ws hws hlen changed =>
    rw [changed.workspaces] at hws'
    exact hsame (List.mem_of_mem_eraseIdx hws') htab'
  | duplicated i n dupName dupTabs hi hn changed =>
    rw [changed.workspaces, List.mem_insertIdx (Nat.succ_le_of_lt hi)] at hws'
    rcases hws' with rfl | hws'
    · obtain ⟨dt, -, rfl⟩ := List.mem_map.mp htab'
      exact Or.inl rfl
    · exact hsame hws' htab'
  | swapped i j u v hi hj changed =>
    rw [changed.workspaces] at hws'
    exact hsame ((swapIdx_perm _ i j).subset hws') htab'
  | renamed i id name changed => exact hmodify changed fun ws _ tab ht => kept_of_mem ht
  | colored i id color changed => exact hmodify changed fun ws _ tab ht => kept_of_mem ht
  | ratios updates changed =>
    rw [changed.workspaces] at hws'
    obtain ⟨ws, hws, rfl⟩ := List.mem_map.mp hws'
    obtain ⟨tab, htab, rfl⟩ := List.mem_map.mp htab'
    refine Or.inr ⟨ws, hws, Or.inr ⟨tab, htab, rfl, ?_⟩⟩
    show tab.paneTree.leaves ⊆ (updateRatios updates tab.paneTree).leaves
    rw [updateRatios_leaves]
    exact List.Subset.refl _

theorem mem_addTab {tabId : Uuid} {p : PaneId} {ws : SessionWorkspace} {tab : SessionTab}
    (h : tab ∈ (addTab tabId p ws).tabs) : tab ∈ ws.tabs ∨ tab.activePaneId = none := by
  rcases List.mem_append.mp h with h | h
  · exact Or.inl h
  · rw [List.mem_singleton.mp h]
    exact Or.inr rfl

/-- The tabs of a workspace in which one focus was written. -/
theorem mem_writeActivePane {tabId : Uuid} {p : Option PaneId} {ws : SessionWorkspace}
    {tab tab' : SessionTab} (htab : ws.tabs.find? (·.id = tabId) = some tab)
    (h : tab' ∈ (writeActivePane tabId p ws).tabs) :
    tab' ∈ ws.tabs ∨ tab' = { tab with activePaneId := p } := by
  rcases mem_modify h with ⟨a, ha, rfl⟩ | ⟨k, -, ha⟩
  · have hfind : ws.tabs[ws.tabs.findIdx (·.id = tabId)]? = some tab := by
      rw [← htab, List.find?_eq_getElem?_findIdx]
    rw [Option.some.inj (ha.symm.trans hfind)]
    exact Or.inr rfl
  · exact Or.inl (List.mem_of_getElem? ha)

theorem tab_origin_deleteWorkspace {i : ℕ} {ws' : SessionWorkspace}
    (hws' : ws' ∈ (s.deleteWorkspace i).1.layout.workspaces) {tab' : SessionTab}
    (htab' : tab' ∈ ws'.tabs) : TabOrigin s (.op (.deleteWorkspace i)) tab' := by
  by_cases hrefused : s.layout.workspaces.length ≤ i ∨ s.layout.workspaces.length ≤ 1
  · obtain ⟨e, he⟩ := deleteWorkspace_refused hrefused
    rw [he] at hws'
    obtain ⟨k, hk⟩ : ∃ k, s.layout.workspaces[k]? = some ws' := List.mem_iff_getElem?.mp hws'
    refine (kept_of_mem htab').origin hk fun tab _ => ?_
    obtain ⟨hlt, -⟩ := List.getElem?_eq_some_iff.mp hk
    simp only [takes, Bool.and_eq_false_iff, decide_eq_false_iff_not]
    omega
  · obtain ⟨hi, hlen⟩ := not_or.mp hrefused
    have hws := List.getElem?_eq_getElem (Nat.not_le.mp hi)
    obtain ⟨-, h⟩ := changed_deleteWorkspace hws (Nat.not_le.mp hlen)
    rw [h.workspaces, List.mem_eraseIdx_iff_getElem?] at hws'
    obtain ⟨k, hne, hk⟩ := hws'
    refine (kept_of_mem htab').origin hk fun tab _ => ?_
    simp only [takes, Bool.and_eq_false_iff, decide_eq_false_iff_not]
    exact Or.inl fun h => hne h.symm

/-- What a closed tab leaves behind is where it was, or is the fresh tab of an emptied workspace. -/
theorem tab_origin_closed {call : Call} {i : ℕ} {drop : SessionTab → Bool} {gone : List PaneId}
    {told : List SessionEvent} (hd : s.dropped call = some (i, drop))
    (h : Closed w i drop gone told s t) {ws' : SessionWorkspace} (hws' : ws' ∈ t.layout.workspaces)
    {tab' : SessionTab} (htab' : tab' ∈ ws'.tabs) : TabOrigin s call tab' := by
  have hkept {ws : SessionWorkspace} (hws : s.layout.workspaces[i]? = some ws)
      (h : tab' ∈ (dropTabs drop ws).tabs) : TabOrigin s call tab' := by
    obtain ⟨htab, hdrop⟩ := mem_dropTabs.mp h
    refine .stays i ws tab' hws htab ?_ rfl (List.Subset.refl _)
    rw [takes_of_dropped hd, hdrop, Bool.and_false]
  have helse {k : ℕ} (hk : k ≠ i) (hws : s.layout.workspaces[k]? = some ws') :
      TabOrigin s call tab' := by
    refine (kept_of_mem htab').origin hws fun tab _ => ?_
    rw [takes_of_dropped hd, decide_eq_false fun h => hk h.symm, Bool.false_and]
  cases h with
  | left changed =>
    rw [changed.workspaces] at hws'
    rcases mem_modify hws' with ⟨ws, hws, rfl⟩ | ⟨k, hk, hws⟩
    · exact hkept hws htab'
    · exact helse hk hws
  | seeded n minted emptied changed =>
    rw [changed.workspaces] at hws'
    rcases mem_modify hws' with ⟨ws, hws, rfl⟩ | ⟨k, hk, hws⟩
    · rcases mem_addTab htab' with htab' | htab'
      · exact hkept hws htab'
      · exact .unfocused htab'
    · exact helse hk hws

/-- One case for each outcome of the call. -/
theorem tab_origin (hs : Identified w s) (call : Call) {ws' : SessionWorkspace}
    (hws' : ws' ∈ (s.invoke w call).layout.workspaces) {tab' : SessionTab}
    (htab' : tab' ∈ ws'.tabs) : TabOrigin s call tab' := by
  by_cases hdelete : ∃ i, call = .op (.deleteWorkspace i)
  · obtain ⟨i, rfl⟩ := hdelete
    exact tab_origin_deleteWorkspace hws' htab'
  have hout := outcome_invoke hs call
  generalize s.invoke w call = t at hws' hout
  have hnot : ∀ i, call ≠ .op (.deleteWorkspace i) := fun i h => hdelete ⟨i, h⟩
  have hsame (hd : s.dropped call = none) {ws : SessionWorkspace} {tab : SessionTab}
      (hws : ws ∈ s.layout.workspaces) (htab : Kept ws tab) : TabOrigin s call tab := by
    obtain ⟨k, hk⟩ := List.mem_iff_getElem?.mp hws
    exact htab.origin hk fun tab _ => takes_of_not_dropped hd hnot k tab
  have hmodify (hd : s.dropped call = none) {i : ℕ} {f : SessionWorkspace → SessionWorkspace}
      {es : List SessionEvent} {active : ℕ}
      (h : Changed (s.layout.workspaces.modify i f) active es s t)
      (hf : ∀ ws, s.layout.workspaces[i]? = some ws → tab' ∈ (f ws).tabs → TabOrigin s call tab') :
      TabOrigin s call tab' := by
    rw [h.workspaces] at hws'
    rcases mem_modify hws' with ⟨ws, hws, rfl⟩ | ⟨k, -, hws⟩
    · exact hf ws hws htab'
    · exact hsame hd (List.mem_of_getElem? hws) (kept_of_mem htab')
  cases hout with
  | unchanged _ hd h => exact hsame hd (h.workspaces ▸ hws') (kept_of_mem htab')
  | edit _ hc h =>
    rcases h.kept hws' htab' with h | ⟨ws, hws, h⟩
    · exact .unfocused h
    · exact hsame (hc.dropped s) hws h
  | paneMade size cwd command shell login changed =>
    refine hmodify rfl changed fun ws hws htab => ?_
    rcases mem_addTab htab with htab | htab
    · exact hsame rfl (List.mem_of_getElem? hws) (kept_of_mem htab)
    · exact .unfocused htab
  | tabMade _ i tabId p hcall changed =>
    have hd := dropped_of_madeIn hcall s
    refine hmodify hd changed fun ws hws htab => ?_
    rcases mem_addTab htab with htab | htab
    · exact hsame hd (List.mem_of_getElem? hws) (kept_of_mem htab)
    · exact .unfocused htab
  | paneClosed p hp hd changed panes => exact hsame hd (changed.workspaces ▸ hws') (kept_of_mem htab')
  | leafClosed p i ws hws hleaf hd h => exact tab_origin_closed hd h hws' htab'
  | tabClosed i ws tab qs hws htab hd h => exact tab_origin_closed hd h hws' htab'
  | tabActivated i j changed =>
    exact hmodify rfl changed fun ws hws htab =>
      hsame rfl (List.mem_of_getElem? hws) (kept_of_mem htab)
  | workspaceActivated i hi changed =>
    exact hsame rfl (changed.workspaces ▸ hws') (kept_of_mem htab')
  | paneActivated i tabId p ws tab hws htab hp changed =>
    refine hmodify rfl changed fun ws₀ hws₀ htab₀ => ?_
    obtain rfl := Option.some.inj (hws.symm.trans hws₀)
    rcases mem_writeActivePane htab htab₀ with htab₀ | rfl
    · exact hsame rfl (List.mem_of_getElem? hws) (kept_of_mem htab₀)
    · cases p with
      | none => exact .unfocused rfl
      | some p => exact .aimed i ws tabId tab p rfl hws htab (hp p rfl) rfl rfl

end Origin

/-! ### Steps -/

section Steps

variable {w : World} {s : SessionManager}

/-- The focus stays on live panes. -/
theorem focusLive_invoke (hw : Function.Injective w.newV4) (hs : Identified w s)
    (hl : LiveShown s) (h : FocusLive s) {call : Call} (hc : SparesFocus s call) :
    FocusLive (s.invoke w call) := by
  intro ws' hws' tab' htab' p hp
  cases tab_origin hs call hws' htab' with
  | unfocused focus =>
    rw [focus] at hp
    cases hp
  | stays k ws tab hws htab htakes focus leaves =>
    rw [focus] at hp
    obtain ⟨hleaf, hlive⟩ := h ws (List.mem_of_getElem? hws) tab htab p hp
    exact ⟨leaves hleaf, live_invoke hw hl hlive (hc.stays k ws tab p hws htab htakes hp)⟩
  | aimed i ws tabId tab q hcall hws htab hq focus leaves =>
    obtain rfl := Option.some.inj (focus.symm.trans hp)
    have hlive := hc.aims i ws tabId tab q hcall hws htab hq
    refine ⟨leaves ▸ hq, live_invoke hw hl hlive ?_⟩
    rw [hcall]
    exact List.not_mem_nil

end Steps

end SessionManager

end Forgetty
