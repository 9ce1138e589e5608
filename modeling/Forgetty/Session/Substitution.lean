import Forgetty.Session.Effect

/-! A tree put in the place of a leaf of the layout. A split of a pane is such a
substitution, and substitutions compose. -/

namespace Forgetty

open Lib

/-! ### Putting trees in the place of leaves -/

def SessionTab.subst (p : PaneId) (u : PaneTreeLayout) (tab : SessionTab) : SessionTab :=
  { tab with paneTree := tab.paneTree.subst p u }

def SessionWorkspace.subst (p : PaneId) (u : PaneTreeLayout) (ws : SessionWorkspace) :
    SessionWorkspace := { ws with tabs := ws.tabs.map (·.subst p u) }

/-- Put the tree `u` in the place of the leaf `p`, wherever it is. -/
def substLeaf (p : PaneId) (u : PaneTreeLayout) (wss : List SessionWorkspace) :
    List SessionWorkspace := wss.map (·.subst p u)

section Subst

variable {p q : PaneId} {u v : PaneTreeLayout} {wss : List SessionWorkspace}

theorem SessionWorkspace.subst_of_not_mem {ws : SessionWorkspace} (h : p ∉ ws.leaves) :
    ws.subst p u = ws := by
  have htabs : ws.tabs.map (·.subst p u) = ws.tabs := by
    conv_rhs => rw [← List.map_id ws.tabs]
    apply List.map_congr_left
    intro tab ht
    have hp : p ∉ tab.paneTree.leaves := fun hp => h (List.mem_flatMap.mpr ⟨tab, ht, hp⟩)
    simp [SessionTab.subst, LeafTree.subst_of_not_mem hp]
  simp [SessionWorkspace.subst, htabs]

theorem substLeaf_of_not_mem (h : p ∉ wss.flatMap SessionWorkspace.leaves) :
    substLeaf p u wss = wss := by
  conv_rhs => rw [← List.map_id wss]
  apply List.map_congr_left
  intro ws hws
  exact SessionWorkspace.subst_of_not_mem fun hp => h (List.mem_flatMap.mpr ⟨ws, hws, hp⟩)

theorem substLeaf_self (p : PaneId) (wss : List SessionWorkspace) :
    substLeaf p (.leaf p) wss = wss := by
  have htab : (SessionTab.subst p (.leaf p)) = id := by
    funext tab
    simp [SessionTab.subst]
  simp [substLeaf, SessionWorkspace.subst, htab]

/-- Two substitutions in one: the second goes into the tree of the first. -/
theorem substLeaf_substLeaf (h : q = p ∨ q ∉ wss.flatMap SessionWorkspace.leaves) :
    substLeaf q v (substLeaf p u wss) = substLeaf p (u.subst q v) wss := by
  simp only [substLeaf, List.map_map]
  apply List.map_congr_left
  intro ws hws
  simp only [Function.comp, SessionWorkspace.subst, List.map_map, SessionWorkspace.mk.injEq,
    true_and, and_true]
  apply List.map_congr_left
  intro tab ht
  simp only [Function.comp, SessionTab.subst, SessionTab.mk.injEq, true_and, and_true]
  apply LeafTree.subst_subst
  refine h.imp_right fun hq hmem => hq ?_
  exact List.mem_flatMap.mpr ⟨ws, hws, List.mem_flatMap.mpr ⟨tab, ht, hmem⟩⟩

theorem leaves_substLeaf (p : PaneId) (u : PaneTreeLayout) (wss : List SessionWorkspace) :
    (substLeaf p u wss).flatMap SessionWorkspace.leaves =
      LeafTree.fill p u.leaves (wss.flatMap SessionWorkspace.leaves) := by
  simp only [LeafTree.fill, substLeaf, SessionWorkspace.subst, SessionWorkspace.leaves, SessionTab.subst,
    LeafTree.subst, List.flatMap_map, List.flatMap_assoc, LeafTree.leaves_bind]
  congr! 7 with ws - tab - x
  split_ifs <;> rfl

/-- In a layout without repeated panes a split of a leaf is a substitution. -/
theorem replaceLeafInLayout_eq (newPane : PaneId) (direction : String) (ratio : F32)
    (hd : (wss.flatMap SessionWorkspace.leaves).Nodup)
    (hp : p ∈ wss.flatMap SessionWorkspace.leaves) :
    ∃ tabId, SessionManager.replaceLeafInLayout p newPane direction ratio wss =
      (substLeaf p (.node ⟨direction, ratio⟩ (.leaf p) (.leaf newPane)) wss, some tabId) := by
  cases hr : (SessionManager.replaceLeafInLayout p newPane direction ratio wss).2 with
  | none => exact absurd hp (SessionManager.replaceLeafInLayout_none hr)
  | some tabId =>
    refine ⟨tabId, Prod.ext ?_ hr⟩
    obtain ⟨pre, ws, post, rfl, hin, hout, hpre⟩ := SessionManager.replaceLeafInLayout_some hr
    obtain ⟨preT, tab, postT, htabs, hm, -, houtT, hpreT⟩ := SessionManager.replaceLeafInTabs_some hin
    rw [List.flatMap_append, List.flatMap_cons, List.nodup_append, List.nodup_append] at hd
    obtain ⟨-, ⟨hdws, -, hdis⟩, -⟩ := hd
    have hws : p ∈ ws.leaves := by
      rw [SessionWorkspace.leaves, htabs]
      exact List.mem_flatMap.mpr ⟨tab, by simp, hm⟩
    have hpost : p ∉ post.flatMap SessionWorkspace.leaves := fun h => hdis p hws p h rfl
    have hpre' : p ∉ pre.flatMap SessionWorkspace.leaves := by
      intro h
      obtain ⟨v, hv, hpv⟩ := List.mem_flatMap.mp h
      exact hpre v hv hpv
    rw [hout]
    show _ = (pre ++ ws :: post).map _
    rw [List.map_append, List.map_cons]
    have hsub := @substLeaf_of_not_mem p (.node ⟨direction, ratio⟩ (.leaf p) (.leaf newPane))
    rw [show pre.map _ = pre from hsub hpre', show post.map _ = post from hsub hpost]
    congr 2
    rw [SessionWorkspace.leaves, htabs, List.flatMap_append, List.flatMap_cons, List.nodup_append,
      List.nodup_append] at hdws
    obtain ⟨-, ⟨hdtab, -, hdisT⟩, -⟩ := hdws
    have htab (t : SessionTab) (ht : p ∉ t.paneTree.leaves) :
        t.subst p (.node ⟨direction, ratio⟩ (.leaf p) (.leaf newPane)) = t := by
      simp [SessionTab.subst, LeafTree.subst_of_not_mem ht]
    rw [SessionWorkspace.subst, houtT, htabs, List.map_append, List.map_cons]
    have hpreT' : preT.map (·.subst p (.node ⟨direction, ratio⟩ (.leaf p) (.leaf newPane))) = preT :=
      (List.map_congr_left fun t ht => htab t (hpreT t ht)).trans (List.map_id preT)
    have hpostT : postT.map (·.subst p (.node ⟨direction, ratio⟩ (.leaf p) (.leaf newPane))) = postT :=
      (List.map_congr_left fun t ht => htab t fun h =>
        hdisT p hm p (List.mem_flatMap.mpr ⟨t, ht, h⟩) rfl).trans (List.map_id postT)
    rw [hpreT', hpostT, replaceLeafWithRatio_eq_subst hdtab hm]
    rfl

end Subst

end Forgetty
