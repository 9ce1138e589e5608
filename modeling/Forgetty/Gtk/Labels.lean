import Forgetty.Gtk.Workspaces

/-! What a window shows of a workspace beside its pages: its id, its name and its
colour. Four kinds of layout events change the list of these labels. One of them
finds the workspace by its index, two by the id. -/

namespace Forgetty

open Lib

structure Label where
  id : Uuid
  name : String
  color : Option AccentColor
  deriving DecidableEq

namespace Label

def setName (name : String) (l : Label) : Label := { l with name := name }

def setColor (color : Option AccentColor) (l : Label) : Label := { l with color := color }

end Label

def WorkspaceView.label (ws : WorkspaceView) : Label where
  id := ws.id
  name := ws.name
  color := ws.color

@[simp] theorem WorkspaceView.label_id (ws : WorkspaceView) : ws.label.id = ws.id := rfl

/-- A colour of the daemon is shown if it can be read. -/
def SessionWorkspace.label (ws : SessionWorkspace) : Label where
  id := ws.id
  name := ws.name
  color := ws.color.bind hexToRgba

/-- The events that tell of the list of workspaces. -/
def SessionEvent.Relabels : SessionEvent → Prop
  | .workspaceRenamed .. | .workspaceDeleted .. => True
  | .workspaceColorChanged .. | .workspacesReordered .. => True
  | _ => False

namespace WorkspaceManagerInner

variable {term : Terminals} {mgr : WorkspaceManagerInner}

def labels (mgr : WorkspaceManagerInner) : List Label := mgr.workspaces.map (·.label)

theorem labels_ids (mgr : WorkspaceManagerInner) :
    mgr.labels.map (·.id) = mgr.workspaces.map (·.id) := List.map_map

theorem labels_modifyView {f : WorkspaceView → WorkspaceView} {g : Label → Label}
    (h : ∀ ws, (f ws).label = g ws.label) (idx : ℕ) (mgr : WorkspaceManagerInner) :
    (mgr.modifyView idx f).labels = mgr.labels.modify idx g := map_modify h mgr.workspaces idx

theorem labels_modifyView_of_eq {f : WorkspaceView → WorkspaceView}
    (h : ∀ ws, (f ws).label = ws.label) (idx : ℕ) (mgr : WorkspaceManagerInner) :
    (mgr.modifyView idx f).labels = mgr.labels := map_modify_of_eq h mgr.workspaces idx

theorem labels_appendTab (idx : ℕ) (tabId : Uuid) (p : PaneId) (mgr : WorkspaceManagerInner) :
    (mgr.appendTab idx tabId p).labels = mgr.labels := by
  apply labels_modifyView_of_eq
  exact fun _ => rfl

/-- The other events leave the labels where they are, and the active index. -/
theorem handleLayoutEvent_labels {e : SessionEvent} (he : ¬e.Relabels) :
    (mgr.handleLayoutEvent term e).labels = mgr.labels ∧
      (mgr.handleLayoutEvent term e).activeIndex = mgr.activeIndex := by
  cases e with
  | tabCreated idx tabId p =>
    simp only [handleLayoutEvent, onTabCreated]
    split
    · exact ⟨rfl, rfl⟩
    · split_ifs
      · exact ⟨rfl, rfl⟩
      · refine ⟨?_, rfl⟩
        rw [labels_modifyView_of_eq, labels_appendTab]
        exact fun _ => rfl
      · exact ⟨labels_appendTab idx tabId p mgr, rfl⟩
      · exact ⟨rfl, rfl⟩
  | activePaneChanged idx tabId p =>
    simp only [handleLayoutEvent, onActivePaneChanged]
    split_ifs
    · exact ⟨rfl, rfl⟩
    · split
      · refine ⟨?_, rfl⟩
        apply labels_modifyView_of_eq
        exact fun _ => rfl
      · exact ⟨rfl, rfl⟩
  | workspaceRenamed idx id name => exact absurd trivial he
  | workspaceDeleted idx id => exact absurd trivial he
  | workspaceColorChanged idx id color => exact absurd trivial he
  | workspacesReordered i j u v => exact absurd trivial he
  | _ => exact ⟨rfl, rfl⟩

/-- A renaming hits the workspace at its index. -/
theorem onWorkspaceRenamed_labels (idx : ℕ) (name : String) (mgr : WorkspaceManagerInner) :
    (mgr.onWorkspaceRenamed idx name).labels = mgr.labels.modify idx (·.setName name) ∧
      (mgr.onWorkspaceRenamed idx name).activeIndex = mgr.activeIndex := by
  unfold onWorkspaceRenamed
  split
  · rename_i hnone
    refine ⟨?_, rfl⟩
    rw [List.modify_eq_self]
    rw [labels, List.length_map]
    exact List.getElem?_eq_none_iff.mp hnone
  · rename_i ws hws
    split_ifs with hname
    · refine ⟨?_, rfl⟩
      obtain ⟨pre, post, hsplit, rfl, -, -⟩ := exists_split hws
      have hsame : ws.label.setName name = ws.label := by
        rw [← hname]
        rfl
      rw [labels, hsplit, List.map_append, List.map_cons,
        ← @List.length_map _ _ pre (·.label), modify_append_cons, hsame]
    · exact ⟨labels_modifyView (fun _ => rfl) idx mgr, rfl⟩

/-- A colour hits the workspace of its id. -/
theorem onWorkspaceColorChanged_labels (hd : (mgr.workspaces.map (·.id)).Nodup) (id : Uuid)
    (color : Option String) :
    (mgr.onWorkspaceColorChanged id color).labels =
        mgr.labels.map (fun l => if l.id = id then l.setColor (color.bind hexToRgba) else l) ∧
      (mgr.onWorkspaceColorChanged id color).activeIndex = mgr.activeIndex := by
  have hother (views : List WorkspaceView) (h : id ∉ views.map (·.id)) :
      (views.map (·.label)).map (fun l => if l.id = id then l.setColor (color.bind hexToRgba) else l) =
        views.map (·.label) := by
    rw [List.map_map]
    refine List.map_congr_left fun ws hws => if_neg fun heq => h ?_
    exact List.mem_map.mpr ⟨ws, hws, heq⟩
  unfold onWorkspaceColorChanged
  rcases findIdx?_split hd id with ⟨hnone, hid⟩ | ⟨pre, ws, post, hsplit, hsome, hid, hpre, hpost⟩
  · rw [hnone]
    exact ⟨(hother mgr.workspaces hid).symm, rfl⟩
  · rw [hsome]
    have hget : mgr.workspaces[pre.length]? = some ws := by
      rw [hsplit, List.getElem?_append_right le_rfl, Nat.sub_self, List.getElem?_cons_zero]
    dsimp only
    rw [hget, Option.bind_some]
    have hmap : mgr.labels.map (fun l => if l.id = id then l.setColor (color.bind hexToRgba) else l) =
        pre.map (·.label) ++ ws.label.setColor (color.bind hexToRgba) :: post.map (·.label) := by
      rw [labels, hsplit, List.map_append, List.map_cons, List.map_append, List.map_cons,
        hother pre hpre, hother post hpost, WorkspaceView.label_id, if_pos hid]
    rw [hmap]
    split_ifs with hcolor
    · refine ⟨?_, rfl⟩
      have hsame : ws.label.setColor (color.bind hexToRgba) = ws.label := by
        rw [← hcolor, bind_hexToRgba]
        rfl
      rw [hsame, labels, hsplit, List.map_append, List.map_cons]
    · refine ⟨?_, rfl⟩
      rw [labels, modifyView]
      dsimp only
      rw [hsplit, modify_append_cons, List.map_append, List.map_cons]
      rfl

/-- A deletion takes away the workspace of its id. -/
theorem onWorkspaceDeleted_labels (hd : (mgr.workspaces.map (·.id)).Nodup) (id : Uuid) :
    (mgr.onWorkspaceDeleted id).labels = mgr.labels.filter (·.id ≠ id) := by
  have hother (views : List WorkspaceView) (h : id ∉ views.map (·.id)) :
      (views.map (·.label)).filter (·.id ≠ id) = views.map (·.label) := by
    refine List.filter_eq_self.mpr fun l hl => ?_
    obtain ⟨ws, hws, rfl⟩ := List.mem_map.mp hl
    exact decide_eq_true fun heq => h (List.mem_map.mpr ⟨ws, hws, heq⟩)
  unfold onWorkspaceDeleted
  rcases findIdx?_split hd id with ⟨hnone, hid⟩ | ⟨pre, ws, post, hsplit, hsome, hid, hpre, hpost⟩
  · rw [hnone]
    exact (hother mgr.workspaces hid).symm
  · rw [hsome]
    dsimp only
    rw [labels, labels]
    dsimp only
    rw [hsplit, List.eraseIdx_append_of_length_le le_rfl, Nat.sub_self, List.eraseIdx_cons_zero,
      List.map_append, List.map_append, List.map_cons, List.filter_append, List.filter_cons_of_neg,
      hother pre hpre, hother post hpost]
    exact fun h => of_decide_eq_true h hid

/-- An exchange permutes the workspaces or leaves them. -/
theorem onWorkspacesReordered_labels (i j : ℕ) (mgr : WorkspaceManagerInner) :
    (mgr.onWorkspacesReordered i j).labels.Perm mgr.labels := by
  unfold onWorkspacesReordered
  dsimp only
  split_ifs
  · exact List.Perm.refl _
  · exact List.Perm.refl _
  · exact (swapIdx_perm mgr.workspaces i j).map _

end WorkspaceManagerInner

end Forgetty
