import Forgetty.Gtk.LockStep
import Forgetty.Lib.LastWrite

/-! The names and the colours a window shows. A call writes a label on both sides at
once, and the event that tells of it arrives later: until then the events on the way
lead from what is shown to what is stored. The event of a renaming is carried out at
its index, so it has to find its workspace there. -/

namespace Forgetty

open Lib SessionManager

/-- One of the two things a label says, and the events that write it. -/
structure Column (β : Type) where
  read : Label → β
  written : SessionEvent → Option (Uuid × β)

def nameColumn : Column String where
  read := Label.name
  written
    | .workspaceRenamed _ id name => some (id, name)
    | _ => none

def colorColumn : Column (Option AccentColor) where
  read := Label.color
  written
    | .workspaceColorChanged _ id color => some (id, color.bind hexToRgba)
    | _ => none

/-- The events that write neither. -/
def SessionEvent.Quiet : SessionEvent → Prop
  | .workspaceRenamed .. | .workspaceColorChanged .. => False
  | _ => True

theorem SessionEvent.Quiet.written {e : SessionEvent} (h : e.Quiet) :
    nameColumn.written e = none ∧ colorColumn.written e = none := by
  cases e <;> first | exact h.elim | exact ⟨rfl, rfl⟩

namespace Column

variable {β : Type} {c : Column β}

def entries (c : Column β) (ls : List Label) : List (Uuid × β) := ls.map fun l => (l.id, c.read l)

def writes (c : Column β) (es : List SessionEvent) : List (Uuid × β) := es.filterMap c.written

theorem entries_keys (c : Column β) (ls : List Label) :
    (c.entries ls).map (·.1) = ls.map (·.id) := List.map_map

theorem entries_subset {ls ls' : List Label} (h : ls ⊆ ls') : c.entries ls ⊆ c.entries ls' :=
  List.map_subset _ h

theorem getElem?_entries {ls : List Label} {i : ℕ} {l : Label} (h : ls[i]? = some l) :
    (c.entries ls)[i]? = some (l.id, c.read l) := by
  rw [entries, List.getElem?_map, h, Option.map_some]

theorem entries_modify {f : Label → Label} {v : β} (hf : ∀ l, (f l).id = l.id ∧ c.read (f l) = v)
    (ls : List Label) (i : ℕ) :
    c.entries (ls.modify i f) = (c.entries ls).modify i fun x => (x.1, v) := by
  apply map_modify
  intro l
  rw [(hf l).1, (hf l).2]

theorem entries_modify_of_eq {f : Label → Label} (hf : ∀ l, (f l).id = l.id ∧ c.read (f l) = c.read l)
    (ls : List Label) (i : ℕ) : c.entries (ls.modify i f) = c.entries ls := by
  apply map_modify_of_eq
  intro l
  rw [(hf l).1, (hf l).2]

theorem writes_eq_nil {es : List SessionEvent} (h : ∀ e ∈ es, c.written e = none) :
    c.writes es = [] := List.filterMap_eq_nil_iff.mpr h

end Column

namespace Attached

/-- The labels of the workspaces the daemon stores. -/
def storedLabels (a : Attached) : List Label := a.sm.layout.workspaces.map (·.label)

/-- Once nothing is on the way, every workspace that is shown has the name and the
colour that are stored under its id. -/
def LabelsConverge (a : Attached) : Prop := a.inFlight = [] → a.gtk.labels ⊆ a.storedLabels

/-- The steps considered: what the user does with workspaces that exist, and events
handled. -/
def OnWorkspaces : Action → Prop
  | .rename .. | .setColor .. | .moveUp _ | .moveDown _ | .switchTo _ => True
  | .deleteAt _ | .deleteCurrent | .duplicateWorkspace _ | .drain => True
  | _ => False

/-- An index means the same workspace on both sides, to a copy at least the same name;
and a renaming that arrives hits its own workspace alone, or does no harm: the name is
the same, or a later renaming is on the way. -/
def Meant (a : Attached) : Action → Prop
  | .rename idx _ | .setColor idx _ => a.viewIds[idx]? = a.layoutIds[idx]?
  | .duplicateWorkspace idx =>
    (a.gtk.workspaces[idx]?).map (·.name) = (a.sm.layout.workspaces[idx]?).map (·.name)
  | .drain => ∀ i id name es, a.inFlight = .workspaceRenamed i id name :: es →
      ∀ k view, a.gtk.workspaces[k]? = some view →
        (k = i ↔ view.id = id) ∨ view.name = name ∨
          ∃ j name', .workspaceRenamed j view.id name' ∈ es
  | _ => True

/-- What a column shows leads to what is stored, and no id that is still to come is
written. -/
structure Follows {β : Type} (w : World) (c : Column β) (a : Attached) : Prop where
  tracks : Tracks (c.entries a.gtk.labels) (c.entries a.storedLabels) (c.writes a.inFlight)
  old : ∀ x ∈ c.writes a.inFlight, ∀ n, a.sm.minted ≤ n → w.newV4 n ≠ x.1

/-- A workspace that is shown is stored, or its deletion is on the way. -/
structure Listed (w : World) (a : Attached) : Prop where
  next : a.next ≤ a.sm.eventTx.sent.length
  identified : Identified w a.sm
  nodup : a.viewIds.Nodup
  old : ∀ n, a.sm.minted ≤ n → w.newV4 n ∉ a.viewIds
  known : ∀ id ∈ a.viewIds, id ∈ a.layoutIds ∨ ∃ i, .workspaceDeleted i id ∈ a.inFlight

structure Converging (w : World) (a : Attached) : Prop extends Listed w a where
  names : Follows w nameColumn a
  colors : Follows w colorColumn a

/-- The daemon carried something out and sent events. -/
structure Called (w : World) (es : List SessionEvent) (a b : Attached) : Prop where
  next : b.next = a.next
  sent : b.sm.eventTx.sent = a.sm.eventTx.sent ++ es
  inherits : Inherits w a.sm b.sm

/-- A label is changed on both sides. -/
structure Relabelled (idx : ℕ) (f : Label → Label) (a b : Attached) : Prop where
  shown : b.gtk.labels = a.gtk.labels.modify idx f
  stored : b.storedLabels = a.storedLabels.modify idx f

section Rules

variable {w : World} {a b : Attached} {es : List SessionEvent} {β : Type} {c : Column β}

theorem storedLabels_ids (a : Attached) : a.storedLabels.map (·.id) = a.layoutIds := List.map_map

theorem viewIds_eq (a : Attached) : a.viewIds = a.gtk.labels.map (·.id) :=
  a.gtk.labels_ids.symm

theorem Converging.labelsConverge (h : Converging w a) : LabelsConverge a := by
  intro hnil l hl
  have hid : l.id ∈ a.viewIds := by
    rw [viewIds_eq]
    exact List.mem_map_of_mem hl
  rcases h.known l.id hid with hstored | ⟨i, hi⟩
  · rw [← storedLabels_ids] at hstored
    obtain ⟨m, hm, hml⟩ := List.mem_map.mp hstored
    have hagree {γ : Type} {d : Column γ} (hd : Follows w d a) : d.read l = d.read m := by
      have htracks := hd.tracks
      rw [hnil] at htracks
      exact htracks.eq (List.mem_map_of_mem hl) (List.mem_map_of_mem hm) hml
    have hsame : l = m := by
      obtain ⟨lid, lname, lcolor⟩ := l
      obtain ⟨mid, mname, mcolor⟩ := m
      obtain rfl : lname = mname := hagree h.names
      obtain rfl : lcolor = mcolor := hagree h.colors
      obtain rfl : mid = lid := hml
      rfl
    rwa [hsame]
  · rw [hnil] at hi
    cases hi

theorem Listed.call (hw : Function.Injective w.newV4) (h : Listed w a) (hc : Called w es a b)
    (hviews : b.viewIds.Subperm a.viewIds)
    (hknown : ∀ id ∈ a.layoutIds, id ∈ b.layoutIds ∨ ∃ i, .workspaceDeleted i id ∈ es) :
    Listed w b where
  next := next_le_append h.next hc.next hc.sent
  identified := hc.inherits.identified hw h.identified
  nodup := by
    obtain ⟨ids, hperm, hsub⟩ := hviews
    exact hperm.nodup_iff.mp (h.nodup.sublist hsub)
  old n hn hmem := h.old n (hc.inherits.minted.trans hn) (hviews.subset hmem)
  known id hid := by
    rw [inFlight_append h.next hc.next hc.sent]
    have hright : (∃ i, .workspaceDeleted i id ∈ es) →
        ∃ i, .workspaceDeleted i id ∈ a.inFlight ++ es :=
      fun ⟨i, hi⟩ => ⟨i, List.mem_append_right _ hi⟩
    rcases h.known id (hviews.subset hid) with hstored | ⟨i, hi⟩
    · exact (hknown id hstored).imp_right hright
    · exact Or.inr ⟨i, List.mem_append_left _ hi⟩

theorem Follows.old_append (h : Follows w c a) (hnext : a.next ≤ a.sm.eventTx.sent.length)
    (hc : Called w es a b) (hes : ∀ x ∈ c.writes es, ∀ n, b.sm.minted ≤ n → w.newV4 n ≠ x.1) :
    ∀ x ∈ c.writes b.inFlight, ∀ n, b.sm.minted ≤ n → w.newV4 n ≠ x.1 := by
  intro x hx n hn
  rw [inFlight_append hnext hc.next hc.sent, Column.writes, List.filterMap_append] at hx
  rcases List.mem_append.mp hx with hx | hx
  · exact h.old x hx n (hc.inherits.minted.trans hn)
  · exact hes x hx n hn

/-- A call that does not touch the column. -/
theorem Follows.quiet (h : Follows w c a) (hnext : a.next ≤ a.sm.eventTx.sent.length)
    (hc : Called w es a b) (hes : ∀ e ∈ es, c.written e = none)
    (hshown : c.entries b.gtk.labels ⊆ c.entries a.gtk.labels)
    (hstored : c.entries b.storedLabels ⊆ c.entries a.storedLabels) : Follows w c b where
  tracks := by
    rw [inFlight_append hnext hc.next hc.sent, Column.writes, List.filterMap_append,
      List.filterMap_eq_nil_iff.mpr hes, List.append_nil]
    exact h.tracks.mono hshown hstored
  old := by
    refine h.old_append hnext hc fun x hx => ?_
    rw [Column.writes_eq_nil hes] at hx
    cases hx

/-- Labels that keep their ids are listed as before. -/
theorem Listed.relabel (hw : Function.Injective w.newV4) (h : Listed w a) (hc : Called w es a b)
    {idx : ℕ} {f : Label → Label} (hr : Relabelled idx f a b) (hf : ∀ l, (f l).id = l.id) :
    Listed w b := by
  refine h.call hw hc ?_ fun id hid => Or.inl ?_
  · rw [viewIds_eq, viewIds_eq, hr.shown, map_modify_of_eq hf]
  · rwa [← storedLabels_ids, hr.stored, map_modify_of_eq hf, storedLabels_ids]

/-- A call that writes an entry of the column on both sides, and tells of it if the
daemon did not store the same already. -/
theorem Follows.write (h : Follows w c a) (hl : Listed w a) (hc : Called w es a b) {idx : ℕ}
    {f : Label → Label} {v : β} (hr : Relabelled idx f a b)
    (hf : ∀ l, (f l).id = l.id ∧ c.read (f l) = v) {l m : Label}
    (hshown : a.gtk.labels[idx]? = some l) (hstored : a.storedLabels[idx]? = some m)
    (hid : l.id = m.id) (hes : (es = [] ∧ c.read m = v) ∨ c.writes es = [(m.id, v)]) :
    Follows w c b := by
  have hl' := @Column.getElem?_entries _ c _ _ _ hshown
  have hm' := @Column.getElem?_entries _ c _ _ _ hstored
  rw [hid] at hl'
  have hds : ((c.entries a.gtk.labels).map (·.1)).Nodup := by
    rw [Column.entries_keys, ← viewIds_eq]
    exact hl.nodup
  have hdt : ((c.entries a.storedLabels).map (·.1)).Nodup := by
    rw [Column.entries_keys, storedLabels_ids]
    exact hl.identified.workspaceIds_nodup
  have hold : ∀ n, b.sm.minted ≤ n → w.newV4 n ≠ m.id := by
    intro n hn heq
    refine hl.identified.fresh n (hc.inherits.minted.trans hn) ?_
    obtain ⟨ws, hws, rfl⟩ := List.mem_map.mp (List.mem_of_getElem? hstored)
    rw [heq]
    exact SessionLayout.id_mem_ids hws
  have hshown' := Column.entries_modify hf a.gtk.labels idx
  have hstored' := Column.entries_modify hf a.storedLabels idx
  rw [← hr.shown] at hshown'
  rw [← hr.stored] at hstored'
  rcases hes with ⟨rfl, rfl⟩ | hes
  · refine ⟨?_, h.old_append hl.next hc nofun⟩
    rw [inFlight_append hl.next hc.next hc.sent, List.append_nil, hshown', hstored']
    refine (h.tracks.rewrite hds hdt hl' hm').mono (List.Subset.refl _) fun x hx => ?_
    rcases mem_modify_entry hdt hm' hx with rfl | ⟨hx, -⟩
    · exact List.mem_of_getElem? hm'
    · exact hx
  · refine ⟨?_, h.old_append hl.next hc fun x hx => ?_⟩
    · rw [inFlight_append hl.next hc.next hc.sent, Column.writes, List.filterMap_append, hshown',
        hstored']
      have htracks := h.tracks.write hds hdt hl' hm' v
      rwa [← hes] at htracks
    · rw [hes] at hx
      rw [List.mem_singleton.mp hx]
      exact hold

/-- The other column. -/
theorem Follows.relabel (h : Follows w c a) (hnext : a.next ≤ a.sm.eventTx.sent.length)
    (hc : Called w es a b) {idx : ℕ} {f : Label → Label} (hr : Relabelled idx f a b)
    (hf : ∀ l, (f l).id = l.id ∧ c.read (f l) = c.read l) (hes : ∀ e ∈ es, c.written e = none) :
    Follows w c b := by
  refine h.quiet hnext hc hes ?_ ?_
  · rw [hr.shown, Column.entries_modify_of_eq hf]
    exact List.Subset.refl _
  · rw [hr.stored, Column.entries_modify_of_eq hf]
    exact List.Subset.refl _

/-- A call that writes no label. -/
theorem Converging.quiet (hw : Function.Injective w.newV4) (h : Converging w a)
    (hc : Called w es a b) (hes : ∀ e ∈ es, e.Quiet) (hshown : b.gtk.labels.Subperm a.gtk.labels)
    (hstored : b.storedLabels ⊆ a.storedLabels)
    (hknown : ∀ id ∈ a.layoutIds, id ∈ b.layoutIds ∨ ∃ i, .workspaceDeleted i id ∈ es) :
    Converging w b where
  toListed := by
    refine h.toListed.call hw hc ?_ hknown
    obtain ⟨ls, hperm, hsub⟩ := hshown
    rw [viewIds_eq, viewIds_eq]
    exact ⟨ls.map (·.id), hperm.map _, hsub.map _⟩
  names := h.names.quiet h.next hc (fun e he => (hes e he).written.1)
    (Column.entries_subset hshown.subset) (Column.entries_subset hstored)
  colors := h.colors.quiet h.next hc (fun e he => (hes e he).written.2)
    (Column.entries_subset hshown.subset) (Column.entries_subset hstored)

/-- The label of a copy, which is new on both sides. -/
theorem Follows.add (h : Follows w c a) (hl : Listed w a) (hc : Called w es a b) {l : Label}
    (hnew : ∃ n, a.sm.minted ≤ n ∧ l.id = w.newV4 n) (hes : ∀ e ∈ es, c.written e = none)
    (hshown : b.gtk.labels ⊆ l :: a.gtk.labels) (hstored : b.storedLabels ⊆ l :: a.storedLabels) :
    Follows w c b where
  tracks := by
    obtain ⟨n, hn, hid⟩ := hnew
    have htracks : Tracks (c.entries b.gtk.labels) (c.entries b.storedLabels)
        (c.writes a.inFlight) := by
      refine @Tracks.add _ _ l.id (c.read l) _ _ _ _ _ _ h.tracks ?_ ?_ ?_
        (Column.entries_subset hshown) (Column.entries_subset hstored)
      · rw [Column.entries_keys, ← viewIds_eq, hid]
        exact hl.old n hn
      · rw [Column.entries_keys, storedLabels_ids, hid]
        intro hmem
        obtain ⟨ws, hws, heq⟩ := List.mem_map.mp hmem
        refine hl.identified.fresh n hn ?_
        rw [← heq]
        exact SessionLayout.id_mem_ids hws
      · intro hmem
        obtain ⟨x, hx, hxid⟩ := List.mem_map.mp hmem
        exact h.old x hx n hn (hid.symm.trans hxid.symm)
    rwa [inFlight_append hl.next hc.next hc.sent, Column.writes, List.filterMap_append,
      List.filterMap_eq_nil_iff.mpr hes, List.append_nil]
  old := by
    refine h.old_append hl.next hc fun x hx => ?_
    rw [Column.writes_eq_nil hes] at hx
    cases hx

theorem Converging.add (hw : Function.Injective w.newV4) (h : Converging w a) (hc : Called w es a b)
    (hes : ∀ e ∈ es, e.Quiet) {l : Label} (hnew : ∃ n, a.sm.minted ≤ n ∧ l.id = w.newV4 n)
    (hshown : b.gtk.labels.Perm (l :: a.gtk.labels))
    (hstored : b.storedLabels.Perm (l :: a.storedLabels)) : Converging w b where
  next := next_le_append h.next hc.next hc.sent
  identified := hc.inherits.identified hw h.identified
  nodup := by
    obtain ⟨n, hn, hid⟩ := hnew
    rw [viewIds_eq, (hshown.map _).nodup_iff, List.map_cons, List.nodup_cons, ← viewIds_eq, hid]
    exact ⟨h.old n hn, h.nodup⟩
  old n hn hmem := by
    have hb := hc.inherits.identified hw h.identified
    rw [viewIds_eq, (hshown.map _).mem_iff, List.map_cons, ← viewIds_eq] at hmem
    rcases List.mem_cons.mp hmem with hid | hmem
    · have hl : l ∈ b.storedLabels := hstored.symm.subset List.mem_cons_self
      obtain ⟨ws, hws, rfl⟩ := List.mem_map.mp hl
      refine hb.fresh n hn ?_
      rw [hid]
      exact SessionLayout.id_mem_ids hws
    · exact h.old n (hc.inherits.minted.trans hn) hmem
  known id hid := by
    have hkept : b.layoutIds.Perm (l.id :: a.layoutIds) := by
      rw [← storedLabels_ids, ← storedLabels_ids]
      exact hstored.map _
    rw [viewIds_eq, (hshown.map _).mem_iff, List.map_cons, ← viewIds_eq] at hid
    rw [hkept.mem_iff, List.mem_cons, inFlight_append h.next hc.next hc.sent]
    rcases List.mem_cons.mp hid with rfl | hid
    · exact Or.inl (Or.inl rfl)
    · rcases h.known id hid with hold | ⟨i, hi⟩
      · exact Or.inl (Or.inr hold)
      · exact Or.inr ⟨i, List.mem_append_left _ hi⟩
  names := h.names.add h.toListed hc hnew (fun e he => (hes e he).written.1) hshown.subset
    hstored.subset
  colors := h.colors.add h.toListed hc hnew (fun e he => (hes e he).written.2) hshown.subset
    hstored.subset

end Rules

section Steps

variable {w : World} {term : Terminals} {a : Attached}

/-- The label of a workspace reads its heading. -/
theorem labels_of_headings {wss wss' : List SessionWorkspace}
    (h : wss.map (·.heading) = wss'.map (·.heading)) : wss.map (·.label) = wss'.map (·.label) := by
  have hread (vs : List SessionWorkspace) : vs.map (·.label) = (vs.map (·.heading)).map fun x =>
      ({ id := x.1, name := x.2.1, color := x.2.2.bind hexToRgba } : Label) := by
    rw [List.map_map]
    rfl
  rw [hread, h, ← hread]

/-- Both sides of an index that means the same. -/
theorem exists_both {idx : ℕ} {ws : SessionWorkspace} (hg : a.viewIds[idx]? = a.layoutIds[idx]?)
    (hws : a.sm.layout.workspaces[idx]? = some ws) :
    ∃ l, a.gtk.labels[idx]? = some l ∧ a.storedLabels[idx]? = some ws.label ∧ l.id = ws.id := by
  rw [viewIds_eq, layoutIds, List.getElem?_map, List.getElem?_map, hws] at hg
  obtain ⟨l, hl, hid⟩ := Option.map_eq_some_iff.mp hg
  refine ⟨l, hl, ?_, hid⟩
  rw [storedLabels, List.getElem?_map, hws]
  rfl

theorem Converging.rename (hw : Function.Injective w.newV4) (h : Converging w a) (idx : ℕ)
    (newName : String) (hg : a.viewIds[idx]? = a.layoutIds[idx]?) :
    Converging w (a.renameWorkspace idx newName) := by
  unfold renameWorkspace
  split_ifs
  · exact h
  · cases hws : a.sm.layout.workspaces[idx]? with
    | none =>
      rw [SessionManager.renameWorkspace, hws, call_of_error rfl]
      exact h
    | some ws =>
      obtain ⟨l, hl, hm, hid⟩ := exists_both hg hws
      obtain ⟨hok, hchanged⟩ := changed_renameWorkspace newName hws
      have hinh := @inherits_renameWorkspace w idx newName a.sm
      rw [call_of_ok hok]
      generalize (a.sm.renameWorkspace idx newName).1 = sm at hchanged hinh ⊢
      set b : Attached := { a with sm := sm, gtk := _ }
      have hc : Called w _ a b := ⟨rfl, hchanged.sent, hinh⟩
      have hr : Relabelled idx (·.setName newName) a b := by
        constructor
        · exact WorkspaceManagerInner.labels_modifyView (fun _ => rfl) idx a.gtk
        · rw [storedLabels, hchanged.workspaces]
          apply map_modify
          exact fun _ => rfl
      refine ⟨h.relabel hw hc hr fun _ => rfl, ?_, ?_⟩
      · refine h.names.write h.toListed hc hr (fun _ => ⟨rfl, rfl⟩) hl hm hid ?_
        split_ifs with hname
        · exact Or.inl ⟨rfl, hname⟩
        · exact Or.inr rfl
      · refine h.colors.relabel h.next hc hr (fun _ => ⟨rfl, rfl⟩) ?_
        split_ifs <;> simp [colorColumn]

theorem Converging.setColor (hw : Function.Injective w.newV4) (h : Converging w a) (idx : ℕ)
    (color : Option AccentColor) (hg : a.viewIds[idx]? = a.layoutIds[idx]?) :
    Converging w (a.applyWorkspaceColor idx color) := by
  unfold applyWorkspaceColor
  split_ifs
  · exact h
  · cases hws : a.sm.layout.workspaces[idx]? with
    | none =>
      rw [SessionManager.setWorkspaceColor, hws, call_of_error rfl]
      exact h
    | some ws =>
      obtain ⟨l, hl, hm, hid⟩ := exists_both hg hws
      obtain ⟨hok, hchanged⟩ := changed_setWorkspaceColor (color.map rgbaToHex) hws
      have hinh := @inherits_setWorkspaceColor w idx (color.map rgbaToHex) a.sm
      rw [call_of_ok hok]
      generalize (a.sm.setWorkspaceColor idx (color.map rgbaToHex)).1 = sm at hchanged hinh ⊢
      set b : Attached := { a with sm := sm, gtk := _ }
      have hc : Called w _ a b := ⟨rfl, hchanged.sent, hinh⟩
      have hr : Relabelled idx (·.setColor color) a b := by
        constructor
        · exact WorkspaceManagerInner.labels_modifyView (fun _ => rfl) idx a.gtk
        · rw [storedLabels, hchanged.workspaces]
          apply map_modify
          exact fun ws => congrArg (Label.mk ws.id ws.name) (bind_hexToRgba color)
      refine ⟨h.relabel hw hc hr fun _ => rfl, ?_, ?_⟩
      · refine h.names.relabel h.next hc hr (fun _ => ⟨rfl, rfl⟩) ?_
        split_ifs <;> simp [nameColumn]
      · refine h.colors.write h.toListed hc hr (fun _ => ⟨rfl, rfl⟩) hl hm hid ?_
        split_ifs with hcolor
        · refine Or.inl ⟨rfl, ?_⟩
          show ws.color.bind hexToRgba = color
          rw [hcolor, bind_hexToRgba]
        · refine Or.inr ?_
          show [(ws.id, (color.map rgbaToHex).bind hexToRgba)] = _
          rw [bind_hexToRgba]
          rfl

theorem Converging.switchWorkspace (hw : Function.Injective w.newV4) (h : Converging w a)
    (target : ℕ) : Converging w (a.switchWorkspace target) := by
  unfold Attached.switchWorkspace
  split_ifs
  · exact h
  · obtain ⟨active, es, hes, -, hchanged⟩ := changed_setActiveWorkspace target a.sm
    have hinh := @inherits_setActiveWorkspace w target a.sm
    refine h.quiet hw ⟨rfl, hchanged.sent, hinh⟩ (fun e he => ?_) (List.Subperm.refl _) ?_ ?_
    · rw [hes e he]
      trivial
    · rw [storedLabels, hchanged.workspaces]
      exact List.Subset.refl _
    · intro id hid
      rw [layoutIds, hchanged.workspaces]
      exact Or.inl hid

theorem Converging.moveWorkspace (hw : Function.Injective w.newV4) (h : Converging w a) (i j : ℕ) :
    Converging w (a.moveWorkspace i j) := by
  obtain ⟨active, es, hes, hchanged⟩ := changed_moveWorkspace i j a.sm
  have hinh := @inherits_moveWorkspace w i j a.sm
  have hmoved (gtk : WorkspaceManagerInner) (hgtk : gtk.labels.Perm a.gtk.labels) :
      Converging w { a with sm := (a.sm.moveWorkspace i j).1, gtk := gtk } := by
    refine h.quiet hw ⟨rfl, hchanged.sent, hinh⟩ (fun e he => ?_) hgtk.subperm ?_ ?_
    · obtain ⟨u, v, rfl⟩ := hes e he
      trivial
    · rw [storedLabels, hchanged.workspaces]
      exact ((swapIdx_perm _ i j).map _).subset
    · intro id hid
      rw [layoutIds, hchanged.workspaces]
      exact Or.inl (((swapIdx_perm _ i j).map _).symm.subset hid)
  unfold Attached.moveWorkspace call
  split
  · exact hmoved _ ((swapIdx_perm a.gtk.workspaces i j).map _)
  · exact hmoved a.gtk (List.Perm.refl _)

theorem Converging.deleteWorkspace (hw : Function.Injective w.newV4) (h : Converging w a)
    (target : ℕ) : Converging w (a.doDeleteWorkspaceAtIndex target) := by
  unfold doDeleteWorkspaceAtIndex
  split_ifs
  · exact h
  · by_cases hrefused : a.sm.layout.workspaces.length ≤ target ∨ a.sm.layout.workspaces.length ≤ 1
    · obtain ⟨e, he⟩ := deleteWorkspace_refused hrefused
      rw [he, call_of_error rfl]
      exact h
    · rw [not_or, Nat.not_le, Nat.not_le] at hrefused
      have hget := List.getElem?_eq_getElem hrefused.1
      obtain ⟨pre, post, hsplit, -, -, herase⟩ := exists_split hget
      obtain ⟨hok, hchanged⟩ := changed_deleteWorkspace hget hrefused.2
      rw [call_of_ok hok]
      have hinh := @inherits_deleteWorkspace w target a.sm
      refine h.quiet hw ⟨rfl, hchanged.sent, hinh⟩ (fun e he => ?_) ?_ ?_ ?_
      · rcases List.mem_append.mp he with he | he
        · obtain ⟨p, -, rfl⟩ := List.mem_map.mp he
          trivial
        · rw [List.mem_singleton.mp he]
          trivial
      · exact ((List.eraseIdx_sublist a.gtk.workspaces target).map _).subperm
      · rw [storedLabels, hchanged.workspaces]
        exact ((List.eraseIdx_sublist _ target).map _).subset
      · intro id hid
        rw [layoutIds, hchanged.workspaces, herase]
        rw [layoutIds, hsplit, List.map_append, List.map_cons] at hid
        rcases List.mem_append.mp hid with hid | hid
        · exact Or.inl (by rw [List.map_append]; exact List.mem_append_left _ hid)
        · rcases List.mem_cons.mp hid with rfl | hid
          · exact Or.inr ⟨target, List.mem_append_right _ (List.mem_singleton.mpr rfl)⟩
          · exact Or.inl (by rw [List.map_append]; exact List.mem_append_right _ hid)

theorem inherits_closeTabByPaneId (p : PaneId) (sm : SessionManager) :
    Inherits w sm (DaemonClient.closeTabByPaneId w p sm) := by
  unfold DaemonClient.closeTabByPaneId closeTabByPaneRpc
  split_ifs
  · split
    · exact inherits_closeTab _ sm
    · exact inherits_closePane p sm
  · exact .refl w sm

theorem inherits_foldl_closeTabByPaneId (panes : List PaneId) (sm : SessionManager) :
    Inherits w sm (panes.foldl (fun sm p => DaemonClient.closeTabByPaneId w p sm) sm) := by
  induction panes generalizing sm with
  | nil => exact .refl w sm
  | cons p panes ih => exact (inherits_closeTabByPaneId p sm).trans (ih _)

/-- The daemon keeps the workspace, so nothing that is shown is missed. -/
theorem Converging.deleteCurrent (hw : Function.Injective w.newV4) (h : Converging w a) :
    Converging w (a.deleteCurrentWorkspace w) := by
  unfold deleteCurrentWorkspace
  split_ifs
  · exact h
  · dsimp only
    generalize ((a.gtk.workspaces[a.gtk.activeIndex]?).map (·.panes)).getD [] = panes
    have htabs := @tabsOnly_foldl_closeTabByPaneId w panes a.sm
    obtain ⟨es, hsent, hes⟩ := htabs.sent
    have hinh := @inherits_foldl_closeTabByPaneId w panes a.sm
    refine h.quiet hw ⟨rfl, hsent, hinh⟩ (fun e he => ?_) ?_ ?_ ?_
    · have hof := hes e he
      cases e <;> first | exact hof.elim | trivial
    · exact ((List.eraseIdx_sublist a.gtk.workspaces _).map _).subperm
    · rw [storedLabels, labels_of_headings htabs.headings]
      exact List.Subset.refl _
    · intro id hid
      rw [← storedLabels_ids, storedLabels, labels_of_headings htabs.headings]
      rw [← storedLabels_ids] at hid
      exact Or.inl hid

theorem Converging.duplicateWorkspace (hw : Function.Injective w.newV4) (h : Converging w a)
    (idx : ℕ) (hg : (a.gtk.workspaces[idx]?).map (·.name) =
      (a.sm.layout.workspaces[idx]?).map (·.name)) :
    Converging w (a.duplicateWorkspace w term idx) := by
  unfold Attached.duplicateWorkspace
  split
  · exact h
  · rename_i source hsource
    rw [hsource, Option.map_some] at hg
    obtain ⟨stored, hstored, hname⟩ := Option.map_eq_some_iff.mp hg.symm
    have hinh := @inherits_duplicateWorkspace w idx none .default a.sm
    have hdup := @changed_duplicateWorkspace w a.sm idx .default _ hstored
    dsimp only
    generalize a.sm.duplicateWorkspace w idx none .default = rpc at hinh hdup ⊢
    obtain ⟨sm, r⟩ := rpc
    rcases hdup with ⟨e, rfl, hu⟩ | ⟨id, insertAt, dupTabs, rfl, hd⟩
    · refine h.quiet hw ⟨rfl, hu.sent, hinh⟩ nofun (List.Subperm.refl _) ?_ fun id hid => ?_
      · rw [storedLabels, hu.workspaces]
        exact List.Subset.refl _
      · rw [layoutIds, hu.workspaces]
        exact Or.inl hid
    · dsimp only
      have hle : min insertAt a.gtk.workspaces.length ≤ a.gtk.workspaces.length :=
        Nat.min_le_right _ _
      generalize min insertAt a.gtk.workspaces.length = clamped at hle ⊢
      obtain ⟨active, es, hes, -, hchanged⟩ := changed_setActiveWorkspace clamped sm
      have hall := hd.changed.trans hchanged
      have hinh' := hinh.trans (@inherits_setActiveWorkspace w clamped sm)
      generalize (sm.setActiveWorkspace clamped).1 = sm' at hall hinh' ⊢
      have hbuilt := @buildPages_rest term (dupTabs.map fun dt => (dt.tabId, [dt.paneId]))
        a.gtk.nextPage (.new id s!"{source.name} (copy)")
      generalize buildPages term (dupTabs.map fun dt => (dt.tabId, [dt.paneId])) a.gtk.nextPage
        (.new id s!"{source.name} (copy)") = built at hbuilt ⊢
      obtain ⟨hid, hcopy, hcolor, -⟩ := hbuilt
      set l : Label := { id := id, name := s!"{source.name} (copy)", color := none }
      set view : WorkspaceView := { built.1 with selected := built.1.pages.head?.map (·.key) }
      set b : Attached := { a with
        sm := sm'
        gtk := { a.gtk with
          workspaces := a.gtk.workspaces.insertIdx clamped view
          activeIndex := clamped
          nextPage := built.2 } }
      have hlabel : view.label = l := by
        show Label.mk built.1.id built.1.name built.1.color = l
        rw [hid, hcopy, hcolor]
        rfl
      have hshown : b.gtk.labels.Perm (l :: a.gtk.labels) := by
        have hperm := (List.perm_insertIdx view a.gtk.workspaces hle).map WorkspaceView.label
        rwa [List.map_cons, hlabel] at hperm
      have hkept : b.storedLabels.Perm (l :: a.storedLabels) := by
        obtain ⟨hidx, -⟩ := List.getElem?_eq_some_iff.mp hstored
        rw [storedLabels, hall.workspaces, hd.changed.workspaces, hname]
        exact (List.perm_insertIdx _ _ hidx).map _
      refine h.add hw ⟨rfl, hall.sent, hinh'⟩ (fun e he => ?_) hd.minted hshown hkept
      rcases List.mem_append.mp he with he | he
      · rcases mem_duplicated_sent he with rfl | ⟨dt, -, rfl | rfl⟩ <;> trivial
      · rw [hes e he]
        trivial

end Steps

/-! ### Handling an event -/

section Handle

variable {w : World} {term : Terminals} {a : Attached} {e : SessionEvent} {es : List SessionEvent}
  {β : Type} {c : Column β}

theorem gtk_drain (hin : a.inFlight = e :: es) :
    (a.drain term).gtk = a.gtk.handleLayoutEvent term e := by
  rw [drain_of_cons hin]

theorem storedLabels_drain (a : Attached) : (a.drain term).storedLabels = a.storedLabels := by
  rw [storedLabels, sm_drain, storedLabels]

theorem Listed.drain (h : Listed w a) (hin : a.inFlight = e :: es)
    (hsub : ((a.gtk.handleLayoutEvent term e).labels.map (·.id)).Subperm (a.gtk.labels.map (·.id)))
    (hdel : ∀ i id, e = .workspaceDeleted i id →
      id ∉ (a.gtk.handleLayoutEvent term e).labels.map (·.id)) : Listed w (a.drain term) := by
  have hviews : (a.drain term).viewIds = (a.gtk.handleLayoutEvent term e).labels.map (·.id) := by
    rw [viewIds_eq, gtk_drain hin]
  rw [← viewIds_eq] at hsub
  refine ⟨next_drain_le h.next, ?_, ?_, ?_, ?_⟩
  · rw [sm_drain]
    exact h.identified
  · obtain ⟨ids, hperm, hids⟩ := hsub
    rw [hviews]
    exact hperm.nodup_iff.mp (h.nodup.sublist hids)
  · intro n hn
    rw [sm_drain] at hn
    rw [hviews]
    exact fun hmem => h.old n hn (hsub.subset hmem)
  · intro id hid
    rw [hviews] at hid
    rw [layoutIds, sm_drain, inFlight_drain, hin, List.tail_cons]
    refine (h.known id (hsub.subset hid)).imp_right ?_
    rintro ⟨i, hi⟩
    refine ⟨i, ?_⟩
    rw [hin] at hi
    rcases List.mem_cons.mp hi with rfl | hi
    · exact absurd hid (hdel i id rfl)
    · exact hi

/-- An event that does not touch the column. -/
theorem Follows.skip (h : Follows w c a) (hin : a.inFlight = e :: es) (he : c.written e = none)
    (hsub : c.entries (a.gtk.handleLayoutEvent term e).labels ⊆ c.entries a.gtk.labels) :
    Follows w c (a.drain term) := by
  have hwrites : c.writes a.inFlight = c.writes es := by
    rw [hin, Column.writes, List.filterMap_cons_none he, Column.writes]
  constructor
  · rw [gtk_drain hin, storedLabels_drain, inFlight_drain, hin, List.tail_cons, ← hwrites]
    exact h.tracks.mono hsub (List.Subset.refl _)
  · rw [sm_drain, inFlight_drain, hin, List.tail_cons, ← hwrites]
    exact h.old

/-- An event that writes an entry of the column. -/
theorem Follows.arrive (h : Follows w c a) (hin : a.inFlight = e :: es) {id : Uuid} {v : β}
    (he : c.written e = some (id, v))
    (hs : ∀ x ∈ c.entries (a.gtk.handleLayoutEvent term e).labels,
      ∃ y ∈ c.entries a.gtk.labels, y.1 = x.1 ∧
        (x.2 = (if y.1 = id then v else y.2) ∨ ∃ d, (y.1, d) ∈ c.writes es)) :
    Follows w c (a.drain term) := by
  have hwrites : c.writes a.inFlight = (id, v) :: c.writes es := by
    rw [hin, Column.writes, List.filterMap_cons_some he, Column.writes]
  constructor
  · rw [gtk_drain hin, storedLabels_drain, inFlight_drain, hin, List.tail_cons]
    have htracks := h.tracks
    rw [hwrites] at htracks
    exact htracks.arrive hs
  · intro x hx
    rw [sm_drain]
    rw [inFlight_drain, hin, List.tail_cons] at hx
    refine h.old x ?_
    rw [hwrites]
    exact List.mem_cons_of_mem _ hx

/-- A renaming that arrives, given what its index may hit. -/
theorem Converging.drain_renamed (h : Converging w a) {i : ℕ} {id : Uuid} {name : String}
    (hin : a.inFlight = .workspaceRenamed i id name :: es) (hg : Meant a .drain) :
    Converging w (a.drain term) := by
  have hlabels : (a.gtk.handleLayoutEvent term (.workspaceRenamed i id name)).labels =
      a.gtk.labels.modify i (·.setName name) := (a.gtk.onWorkspaceRenamed_labels i name).1
  refine ⟨h.toListed.drain hin ?_ nofun, h.names.arrive hin rfl ?_, h.colors.skip hin rfl ?_⟩
  · rw [hlabels, map_modify_of_eq]
    exact fun _ => rfl
  · intro x hx
    rw [hlabels] at hx
    obtain ⟨l, hl, rfl⟩ := List.mem_map.mp hx
    obtain ⟨k, hk⟩ := List.mem_iff_getElem?.mp hl
    rw [List.getElem?_modify] at hk
    obtain ⟨m, hm, rfl⟩ := Option.map_eq_some_iff.mp hk
    obtain ⟨view, hview, rfl⟩ : ∃ view, a.gtk.workspaces[k]? = some view ∧ view.label = m := by
      rw [WorkspaceManagerInner.labels, List.getElem?_map] at hm
      exact Option.map_eq_some_iff.mp hm
    refine ⟨(view.id, view.name), List.mem_map_of_mem (List.mem_of_getElem? hm), ?_, ?_⟩
    · split_ifs <;> rfl
    · rcases hg i id name es hin k view hview with hiff | hsame | ⟨j, name', hlater⟩
      · refine Or.inl ?_
        by_cases hki : k = i
        · rw [if_pos hki.symm, if_pos (hiff.mp hki)]
          rfl
        · rw [if_neg (Ne.symm hki), if_neg fun hid => hki (hiff.mpr hid)]
          rfl
      · refine Or.inl ?_
        rw [hsame]
        split_ifs
        · rfl
        · rfl
        · exact hsame
        · exact hsame
      · exact Or.inr ⟨name', List.mem_filterMap.mpr ⟨_, hlater, rfl⟩⟩
  · rw [hlabels, Column.entries_modify_of_eq]
    · exact List.Subset.refl _
    · exact fun _ => ⟨rfl, rfl⟩

/-- A colour that arrives. -/
theorem Converging.drain_color (h : Converging w a) {i : ℕ} {id : Uuid} {color : Option String}
    (hin : a.inFlight = .workspaceColorChanged i id color :: es) :
    Converging w (a.drain term) := by
  have hlabels : (a.gtk.handleLayoutEvent term (.workspaceColorChanged i id color)).labels =
      a.gtk.labels.map fun l => if l.id = id then l.setColor (color.bind hexToRgba) else l :=
    (a.gtk.onWorkspaceColorChanged_labels h.nodup id color).1
  have hkept {γ : Type} (f : Label → γ) (hf : ∀ l c, f (l.setColor c) = f l) :
      (a.gtk.labels.map fun l => if l.id = id then l.setColor (color.bind hexToRgba) else l).map f =
        a.gtk.labels.map f := by
    rw [List.map_map]
    refine List.map_congr_left fun l _ => ?_
    rw [Function.comp_apply]
    split_ifs
    · exact hf l _
    · rfl
  refine ⟨h.toListed.drain hin ?_ nofun, h.names.skip hin rfl ?_, h.colors.arrive hin rfl ?_⟩
  · rw [hlabels, hkept (·.id) fun _ _ => rfl]
  · rw [hlabels, Column.entries, hkept (fun l => (l.id, nameColumn.read l)) fun _ _ => rfl]
    exact List.Subset.refl _
  · intro x hx
    rw [hlabels] at hx
    obtain ⟨l, hl, rfl⟩ := List.mem_map.mp hx
    obtain ⟨m, hm, rfl⟩ := List.mem_map.mp hl
    refine ⟨(m.id, m.color), List.mem_map_of_mem hm, ?_, Or.inl ?_⟩
    · split_ifs <;> rfl
    · dsimp only
      split_ifs <;> rfl

/-- An event that leaves a part of the labels, in some order. -/
theorem Converging.drain_quiet (h : Converging w a) (hin : a.inFlight = e :: es) (he : e.Quiet)
    (hsub : (a.gtk.handleLayoutEvent term e).labels.Subperm a.gtk.labels)
    (hdel : ∀ i id, e = .workspaceDeleted i id →
      id ∉ (a.gtk.handleLayoutEvent term e).labels.map (·.id)) : Converging w (a.drain term) := by
  refine ⟨h.toListed.drain hin ?_ hdel, h.names.skip hin he.written.1 ?_,
    h.colors.skip hin he.written.2 ?_⟩
  · obtain ⟨ls, hperm, hls⟩ := hsub
    exact ⟨ls.map (·.id), hperm.map _, hls.map _⟩
  · exact Column.entries_subset hsub.subset
  · exact Column.entries_subset hsub.subset

theorem Converging.drain (h : Converging w a) (hg : Meant a .drain) :
    Converging w (a.drain term) := by
  cases hin : a.inFlight with
  | nil =>
    rw [drain_of_nil hin]
    exact h
  | cons e es =>
    by_cases he : e.Relabels
    · cases e with
      | workspaceRenamed i id name => exact h.drain_renamed hin hg
      | workspaceColorChanged i id color => exact h.drain_color hin
      | workspaceDeleted i id =>
        have hlabels : (a.gtk.handleLayoutEvent term (.workspaceDeleted i id)).labels =
            a.gtk.labels.filter (·.id ≠ id) := a.gtk.onWorkspaceDeleted_labels h.nodup id
        refine h.drain_quiet hin trivial ?_ fun i' id' heq hmem => ?_
        · rw [hlabels]
          exact List.filter_sublist.subperm
        · obtain ⟨rfl, rfl⟩ := SessionEvent.workspaceDeleted.inj heq
          rw [hlabels] at hmem
          obtain ⟨l, hl, rfl⟩ := List.mem_map.mp hmem
          simp at hl
      | workspacesReordered i j u v =>
        exact h.drain_quiet hin trivial (a.gtk.onWorkspacesReordered_labels i j).subperm nofun
      | _ => exact absurd he not_false
    · have hsame := (@WorkspaceManagerInner.handleLayoutEvent_labels term a.gtk e he).1
      refine h.drain_quiet hin ?_ ?_ ?_
      · cases e <;> first | trivial | exact absurd trivial he
      · rw [hsame]
      · rintro i id rfl
        exact absurd trivial he

end Handle

section Runs

variable {w : World} {term : Terminals} {a : Attached}

theorem Converging.step (hw : Function.Injective w.newV4) (h : Converging w a) {i : Action}
    (hi : OnWorkspaces i) (hg : Meant a i) : Converging w (a.step w term i) := by
  cases i with
  | rename idx newName => exact h.rename hw idx newName hg
  | setColor idx color => exact h.setColor hw idx color hg
  | moveUp idx =>
    show Converging w (a.moveWorkspaceUp idx)
    unfold moveWorkspaceUp
    split_ifs
    · exact h
    · exact h.moveWorkspace hw _ _
  | moveDown idx =>
    show Converging w (a.moveWorkspaceDown idx)
    unfold moveWorkspaceDown
    split_ifs
    · exact h
    · exact h.moveWorkspace hw _ _
  | switchTo target => exact h.switchWorkspace hw target
  | deleteAt target => exact h.deleteWorkspace hw target
  | deleteCurrent => exact h.deleteCurrent hw
  | duplicateWorkspace idx => exact h.duplicateWorkspace hw idx hg
  | drain => exact h.drain hg
  | _ => exact hi.elim

/-- A window that shows what is stored, and nothing on the way. -/
theorem Converging.initial (hsm : Identified w a.sm) (hnext : a.next = a.sm.eventTx.sent.length)
    (hd : a.viewIds.Nodup) (hl : a.gtk.labels ⊆ a.storedLabels) : Converging w a := by
  have hids : a.viewIds ⊆ a.layoutIds := by
    rw [viewIds_eq, ← storedLabels_ids]
    exact List.map_subset _ hl
  have hfollows {β : Type} (c : Column β) : Follows w c a := by
    constructor
    · rw [inFlight_of_next_eq hnext]
      refine Tracks.of_subset ?_ (Column.entries_subset hl)
      rw [Column.entries_keys, storedLabels_ids]
      exact hsm.workspaceIds_nodup
    · rw [inFlight_of_next_eq hnext]
      exact nofun
  refine ⟨⟨hnext.le, hsm, hd, fun n hn hmem => ?_, fun id hid => Or.inl (hids hid)⟩,
    hfollows nameColumn, hfollows colorColumn⟩
  obtain ⟨ws, hws, heq⟩ := List.mem_map.mp (hids hmem)
  refine hsm.fresh n hn ?_
  rw [← heq]
  exact SessionLayout.id_mem_ids hws

end Runs

/-- Names and colours converge in every run in which an index means the same workspace
on both sides and a renaming arrives where its workspace is. -/
theorem labelsConverge_along (w : World) (hw : Function.Injective w.newV4) (term : Terminals)
    (a : Attached) (is : List Action) (hsm : SessionState w a.sm)
    (hnext : a.next = a.sm.eventTx.sent.length) (hd : a.viewIds.Nodup)
    (hl : a.gtk.labels ⊆ a.storedLabels) (hr : ∀ i ∈ is, OnWorkspaces i)
    (hg : Meets (step w term) Meant a is) : Along (step w term) LabelsConverge a is := by
  have h0 : Converging w a := .initial (hsm.identified hw) hnext hd hl
  exact along_of_invariant (J := fun t i => OnWorkspaces i ∧ Meant t i)
    (fun _ _ ht hi => ht.step hw hi.1 hi.2) (fun _ ht => ht.labelsConverge) h0
    (meets_and.mpr ⟨meets_of_mem hr, hg⟩)

/-- A workspace is renamed and moved down, and then its renaming arrives. -/
theorem not_labelsConverge_renamedAndMoved :
    SessionState .counting twoTabs ∧
      (attach .all ⟨100⟩ twoTabs).gtk.labels ⊆ (attach .all ⟨100⟩ twoTabs).storedLabels ∧
      ¬Along (step .counting .all) LabelsConverge (attach .all ⟨100⟩ twoTabs)
        [.rename 0 "x", .moveDown 0, .drain, .drain] := by
  refine ⟨sessionState_twoTabs, by decide, fun h => ?_⟩
  exact absurd (h.last (by decide)) (by decide)

/-- The renaming arrives before the workspace moves, and its colour after that. -/
theorem labelsConverge_renamedThenMoved :
    Along (step .counting .all) LabelsConverge (attach .all ⟨100⟩ twoTabs)
      [.rename 0 "x", .drain, .setColor 0 (some (.rgb 255 0 0)), .moveDown 0, .drain, .drain,
        .duplicateWorkspace 1] := by
  refine labelsConverge_along .counting World.counting_injective .all (attach .all ⟨100⟩ twoTabs) _
    sessionState_twoTabs rfl (by decide) (by decide) (by simp [OnWorkspaces]) ?_
  refine ⟨rfl, fun i id name es heq k view hview => Or.inl ?_, rfl, trivial,
    fun i id name es heq => ?_, fun i id name es heq => ?_, rfl, trivial⟩
  · obtain ⟨rfl, rfl, -⟩ :=
      SessionEvent.workspaceRenamed.inj (Option.some.inj (congrArg List.head? heq))
    match k with
    | 0 =>
      obtain rfl := Option.some.inj hview
      decide
    | 1 =>
      obtain rfl := Option.some.inj hview
      decide
    | k + 2 => cases hview
  · cases Option.some.inj (congrArg List.head? heq)
  · cases Option.some.inj (congrArg List.head? heq)

end Attached

end Forgetty
