import Forgetty.Session.ActiveFocus

/-! Moving a tab in its workspace. The tab is taken out and put back at its new place, and the
active index follows the active tab. -/

namespace Forgetty

open Lib

/-- The tabs of a workspace are the same ones with one of them moved, and the active index stands
for the same tab. -/
structure TabMoved (j k : ℕ) (tab : SessionTab) (ws ws' : SessionWorkspace) : Prop where
  perm : ws'.tabs.Perm ws.tabs
  moved : ws'.tabs[k]? = some tab
  others : ws'.tabs.eraseIdx k = ws.tabs.eraseIdx j
  active : (ws'.tabs[ws'.activeTab]?).map (·.id) = (ws.tabs[ws.activeTab]?).map (·.id)
  rest : { ws' with tabs := ws.tabs, activeTab := ws.activeTab } = ws

/-! ### Places of tabs -/

section Places

variable {l : SessionLayout} {i i' j j' : ℕ} {ws ws' : SessionWorkspace} {tab tab' : SessionTab}

/-- Where ids are distinct an id has one place. -/
theorem place_unique (hd : (l.tabs.map (·.id)).Nodup) (hws : l.workspaces[i]? = some ws)
    (htab : ws.tabs[j]? = some tab) (hws' : l.workspaces[i']? = some ws')
    (htab' : ws'.tabs[j']? = some tab') (hid : tab'.id = tab.id) : i' = i ∧ j' = j := by
  rw [SessionLayout.tabs, List.map_flatMap] at hd
  obtain ⟨hnodup, hdisjoint⟩ := List.nodup_flatMap.mp hd
  rw [List.pairwise_iff_getElem] at hdisjoint
  obtain ⟨hi, rfl⟩ := List.getElem?_eq_some_iff.mp hws
  obtain ⟨hi', rfl⟩ := List.getElem?_eq_some_iff.mp hws'
  have hmem := List.mem_map_of_mem (f := (·.id)) (List.mem_of_getElem? htab)
  have hmem' := List.mem_map_of_mem (f := (·.id)) (List.mem_of_getElem? htab')
  rcases Nat.lt_trichotomy i i' with hlt | rfl | hgt
  · exact (hdisjoint i i' hi hi' hlt hmem (hid ▸ hmem')).elim
  · obtain ⟨hj', -⟩ := List.getElem?_eq_some_iff.mp htab'
    refine ⟨rfl, (List.getElem?_inj ?_ (hnodup _ (List.getElem_mem hi))).mp ?_⟩
    · rwa [List.length_map]
    · rw [List.getElem?_map, List.getElem?_map, htab, htab', Option.map_some, Option.map_some, hid]
  · exact (hdisjoint i' i hi' hi hgt hmem' (hid ▸ hmem)).elim

/-- Taking the tab out of its new place and putting it back at the old one gives the old tabs. -/
theorem TabMoved.restores {k : ℕ} {ws'' : SessionWorkspace} (htab : ws.tabs[j]? = some tab)
    (there : TabMoved j k tab ws ws') (back : TabMoved k j tab ws' ws'') : ws''.tabs = ws.tabs := by
  have hlen : ws''.tabs.length = ws.tabs.length := (back.perm.trans there.perm).length_eq
  obtain ⟨hj, hget⟩ := List.getElem?_eq_some_iff.mp htab
  obtain ⟨hj', hget'⟩ := List.getElem?_eq_some_iff.mp back.moved
  calc ws''.tabs
      = (ws''.tabs.eraseIdx j).insertIdx j ws''.tabs[j] := (List.insertIdx_eraseIdx_getElem hj').symm
    _ = (ws.tabs.eraseIdx j).insertIdx j ws.tabs[j] := by
      rw [back.others, there.others, hget, hget']
    _ = ws.tabs := List.insertIdx_eraseIdx_getElem hj

end Places

namespace SessionManager

section Move

variable {s : SessionManager} {i j : ℕ} {ws : SessionWorkspace} {tab : SessionTab}

theorem findTab_of_nodup (hd : (s.layout.tabs.map (·.id)).Nodup)
    (hws : s.layout.workspaces[i]? = some ws) (htab : ws.tabs[j]? = some tab) :
    s.findTab tab.id = some (i, j) := by
  cases hfind : s.findTab tab.id with
  | none =>
    obtain ⟨-, hnone⟩ := visit_none (by intro i ws _; rfl) hfind
    obtain ⟨hi, rfl⟩ := List.getElem?_eq_some_iff.mp hws
    have hquiet := Option.map_eq_none_iff.mp (hnone i hi)
    have hne := List.findIdx?_eq_none_iff.mp hquiet tab (List.mem_of_getElem? htab)
    simp at hne
  | some place =>
    obtain ⟨i', j'⟩ := place
    obtain ⟨ws', tab', hws', htab', hid⟩ := findTab_spec hfind
    obtain ⟨rfl, rfl⟩ := place_unique hd hws htab hws' htab' hid
    rfl

theorem tabMoved_refl (htab : ws.tabs[j]? = some tab) : TabMoved j j tab ws ws where
  perm := .refl _
  moved := htab
  others := rfl
  active := rfl
  rest := rfl

theorem tabMoved_moveTabTo (htab : ws.tabs[j]? = some tab) {k : ℕ} (hk : k ≤ ws.tabs.length - 1) :
    TabMoved j k tab ws (moveTabTo j k tab ws) := by
  have hj : j < ws.tabs.length := (List.getElem?_eq_some_iff.mp htab).1
  have hlen : (ws.tabs.eraseIdx j).length = ws.tabs.length - 1 := List.length_eraseIdx_of_lt hj
  have hperm := insertIdx_eraseIdx_perm htab hk
  constructor
  case perm => exact hperm
  case moved => exact (List.getElem?_insertIdx_self).trans (if_pos (hlen ▸ hk))
  case others => exact List.eraseIdx_insertIdx_self tab
  case rest => rfl
  case active =>
    cases hactive : ws.tabs[ws.activeTab]? with
    | none =>
      have hout : ws.tabs.length ≤ ws.activeTab := List.getElem?_eq_none_iff.mp hactive
      have hsame : (moveTabTo j k tab ws).activeTab = ws.activeTab := by
        rw [moveTabTo, hactive]
        rfl
      rw [hsame, List.getElem?_eq_none (hperm.length_eq ▸ hout)]
    | some active =>
      have hmem : active.id ∈ (moveTabTo j k tab ws).tabs.map (·.id) :=
        List.mem_map_of_mem (hperm.mem_iff.mpr (List.mem_of_getElem? hactive))
      exact keepsActiveTab_moveTabTo j k tab ws active hactive hmem

/-- The call does this to the workspace of the tab, and nothing else to the layout. -/
theorem moveTab_moved (hd : (s.layout.tabs.map (·.id)).Nodup)
    (hws : s.layout.workspaces[i]? = some ws) (htab : ws.tabs[j]? = some tab) (newIndex : ℕ) :
    (s.moveTab tab.id newIndex).2 = .ok () ∧
      ∃ ws', TabMoved j (min newIndex (ws.tabs.length - 1)) tab ws ws' ∧
        (s.moveTab tab.id newIndex).1.layout =
          { s.layout with workspaces := s.layout.workspaces.set i ws' } := by
  have hk : min newIndex (ws.tabs.length - 1) ≤ ws.tabs.length - 1 := Nat.min_le_right _ _
  obtain ⟨hi, hget⟩ := List.getElem?_eq_some_iff.mp hws
  rw [moveTab, findTab_of_nodup hd hws htab]
  dsimp only
  rw [hws]
  dsimp only
  split_ifs with hsame
  · rw [← hsame]
    refine ⟨rfl, ws, tabMoved_refl htab, ?_⟩
    rw [← hget, List.set_getElem_self]
  · rw [htab]
    refine ⟨rfl, _, tabMoved_moveTabTo htab hk, ?_⟩
    have hset (f : SessionWorkspace → SessionWorkspace) :
        s.layout.workspaces.modify i f = s.layout.workspaces.set i (f ws) := by
      rw [← hget]
      exact List.modify_eq_set_get f hi
    exact congrArg (fun wss => { s.layout with workspaces := wss }) (hset _)

/-- Distinct tab ids stay distinct where the tabs of a workspace are put in another order. -/
theorem tabIds_nodup_set {ws' : SessionWorkspace} (hd : (s.layout.tabs.map (·.id)).Nodup)
    (hws : s.layout.workspaces[i]? = some ws) (hperm : ws'.tabs.Perm ws.tabs) :
    ((SessionLayout.tabs { s.layout with workspaces := s.layout.workspaces.set i ws' }).map
      (·.id)).Nodup := by
  obtain ⟨pre, post, hsplit, hlen, -, -⟩ := exists_split hws
  have hset : s.layout.workspaces.set i ws' = pre ++ ws' :: post := by
    rw [hsplit, ← hlen, List.set_append_right _ _ le_rfl, Nat.sub_self, List.set_cons_zero]
  unfold SessionLayout.tabs at hd ⊢
  rw [hsplit] at hd
  rw [hset]
  refine (List.Perm.nodup_iff (List.Perm.map _ ?_)).mp hd
  rw [List.flatMap_append, List.flatMap_append, List.flatMap_cons, List.flatMap_cons]
  exact (hperm.symm.append_right _).append_left _

/-- Moving a tab keeps the others in order and the active tab active, and it can be undone. -/
theorem moveTab_order (hd : (s.layout.tabs.map (·.id)).Nodup)
    (hws : s.layout.workspaces[i]? = some ws) (htab : ws.tabs[j]? = some tab) (newIndex : ℕ) :
    (s.moveTab tab.id newIndex).2 = .ok () ∧
      (∃ ws', TabMoved j (min newIndex (ws.tabs.length - 1)) tab ws ws' ∧
        (s.moveTab tab.id newIndex).1.layout =
          { s.layout with workspaces := s.layout.workspaces.set i ws' }) ∧
      ((s.moveTab tab.id newIndex).1.moveTab tab.id j).2 = .ok () ∧
      ∃ ws'', ws''.tabs = ws.tabs ∧
        ((s.moveTab tab.id newIndex).1.moveTab tab.id j).1.layout =
          { s.layout with workspaces := s.layout.workspaces.set i ws'' } := by
  obtain ⟨hok, ws', there, hlayout⟩ := moveTab_moved hd hws htab newIndex
  refine ⟨hok, ⟨ws', there, hlayout⟩, ?_⟩
  obtain ⟨hi, -⟩ := List.getElem?_eq_some_iff.mp hws
  obtain ⟨hj, -⟩ := List.getElem?_eq_some_iff.mp htab
  have hlen := there.perm.length_eq
  generalize (s.moveTab tab.id newIndex).1 = s' at hlayout ⊢
  have hd' : (s'.layout.tabs.map (·.id)).Nodup := hlayout ▸ tabIds_nodup_set hd hws there.perm
  have hws' : s'.layout.workspaces[i]? = some ws' := by
    rw [hlayout]
    exact List.getElem?_set_self hi
  obtain ⟨hok', ws'', back, hlayout'⟩ := moveTab_moved hd' hws' there.moved j
  have hmin : min j (ws'.tabs.length - 1) = j := by omega
  rw [hmin] at back
  refine ⟨hok', ws'', there.restores htab back, ?_⟩
  rw [hlayout', hlayout]
  dsimp only
  rw [List.set_set]

end Move

/-- The workspace with the three tabs. -/
def threeTabs : SessionWorkspace where
  id := ⟨0⟩
  name := "Default"
  color := none
  tabs := [.ofLeaf ⟨2⟩ ⟨⟨1⟩⟩, .ofLeaf ⟨4⟩ ⟨⟨3⟩⟩, .ofLeaf ⟨6⟩ ⟨⟨5⟩⟩]
  activeTab := 1

/-- The first of three tabs moves behind the second, the active one, to the end, and back. -/
theorem moveTab_firstOfThree :
    (secondOfThree.moveTab ⟨2⟩ 7).2 = .ok () ∧
      (∃ ws', TabMoved 0 2 (.ofLeaf ⟨2⟩ ⟨⟨1⟩⟩) threeTabs ws' ∧
        (secondOfThree.moveTab ⟨2⟩ 7).1.layout =
          { secondOfThree.layout with workspaces := secondOfThree.layout.workspaces.set 0 ws' }) ∧
      ((secondOfThree.moveTab ⟨2⟩ 7).1.moveTab ⟨2⟩ 0).2 = .ok () ∧
      ∃ ws'', ws''.tabs = threeTabs.tabs ∧
        ((secondOfThree.moveTab ⟨2⟩ 7).1.moveTab ⟨2⟩ 0).1.layout =
          { secondOfThree.layout with workspaces := secondOfThree.layout.workspaces.set 0 ws'' } :=
  @moveTab_order secondOfThree 0 0 threeTabs (.ofLeaf ⟨2⟩ ⟨⟨1⟩⟩) (by decide) rfl rfl 7

end SessionManager

end Forgetty
