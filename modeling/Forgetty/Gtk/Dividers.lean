import Forgetty.Gtk.Navigation
import Forgetty.Gtk.Ratios
import Forgetty.Lib.TreePath

/-! Growing the focused pane by a key: the walk up from its drawing area to the paned whose
divider the key moves. Where another pane is that way, the wall to it goes outwards by a step;
where none is, the opposite wall follows. The toolkit may place the dividers below the moved
one anew. -/

namespace Forgetty

open Lib

/-! ### The key -/

/-- By how many pixels a key moves a divider. -/
def dividerStep : ℤ := 20

def Direction.targetOrientation : Direction → Orientation
  | .left | .right => .horizontal
  | .up | .down => .vertical

/-- Growing to the right or down takes a divider behind the pane. -/
def Direction.wantStartSlot : Direction → Bool
  | .right | .down => true
  | .left | .up => false

/-- The paneds around the end of a path from the inside out, each with its own place and
whether the path goes through its start child. -/
def panedsAbove : List Bool → PaneWidget → List (List Bool × Paned × Bool)
  | second :: path, .node p start stop =>
    (panedsAbove path (if second then stop else start)).map (fun e => (second :: e.1, e.2)) ++
      [([], p, !second)]
  | _, _ => []

/-- The loop from parent to parent: the paned found, and the nearest one. -/
def walkUp (targetOrientation : Orientation) (wantStartSlot : Bool) :
    List (List Bool × Paned × Bool) → Option (List Bool) → Option (List Bool) × Option (List Bool)
  | [], nearestPaned => (none, nearestPaned)
  | (place, paned, inStart) :: above, nearestPaned =>
    if paned.orientation = targetOrientation then
      let nearestPaned := if nearestPaned.isNone then some place else nearestPaned
      if inStart = wantStartSlot then (some place, nearestPaned)
      else walkUp targetOrientation wantStartSlot above nearestPaned
    else walkUp targetOrientation wantStartSlot above nearestPaned

/-- Set the position of the paned, within its size. -/
def moveDivider (delta : ℤ) : PaneWidget → PaneWidget
  | .leaf name => .leaf name
  | .node p start stop =>
    .node { p with position := max 0 (min (p.position + delta) p.size) } start stop

/-- The content of the selected page after the key. -/
def resizePane (content : Option PaneWidget) (focusTracker : Option PaneName)
    (direction : Direction) : Option PaneWidget :=
  match focusTracker, content with
  | some focusedName, some rootContent =>
    match rootContent.pathTo focusedName with
    | none => content
    | some path =>
      let delta := if direction.wantStartSlot then dividerStep else -dividerStep
      let (found, nearestPaned) := walkUp direction.targetOrientation direction.wantStartSlot
        (panedsAbove path rootContent) none
      match found.or nearestPaned with
      | some place => some (rootContent.modifyAt (moveDivider delta) place)
      | none => content
  | _, _ => content

/-! ### The toolkit -/

/-- The paneds before the key, with the position it set, and after the toolkit has placed them
again. Below a divider that was moved the others may be anywhere. -/
def SettlesAs : PaneWidget → PaneWidget → PaneWidget → Prop
  | .node p start stop, .node q start' stop', after =>
    ∃ start'' stop'', after = .node q start'' stop'' ∧
      if p.position = q.position then SettlesAs start start' start'' ∧ SettlesAs stop stop' stop''
      else start'.relabel Paned.orientation = start''.relabel Paned.orientation ∧
        stop'.relabel Paned.orientation = stop''.relabel Paned.orientation
  | _, set, after => after = set

/-- A page where every pane is larger than a handle, and no divider is within a step of the
ends of its paned. -/
structure Roomy (handle : ℤ) (cell : PaneName → Box Orientation) (root : PaneWidget)
    (area : Box Orientation) : Prop where
  handle_nonneg : 0 ≤ handle
  allocated : Allocated handle cell root area
  wide : ∀ name ∈ root.leaves, ∀ i, (cell name i).start + handle < (cell name i).stop
  room : ∀ p ∈ root.labels, dividerStep ≤ p.position ∧ p.position + dividerStep ≤ p.size

/-- How far a box goes in a direction. -/
def wall (d : Orientation × Bool) (b : Box Orientation) : ℤ :=
  if d.2 then (b d.1).stop else -(b d.1).start

/-- The other way along the axis. -/
def opposite (d : Orientation × Bool) : Orientation × Bool := (d.1, !d.2)

/-! ### Which divider -/

/-- No paned on the path has its divider on the side of the path. -/
def Clear (d : Orientation × Bool) : List Bool → PaneWidget → Prop
  | second :: path, .node p start stop =>
    ¬(p.orientation = d.1 ∧ (!second) = d.2) ∧ Clear d path (if second then stop else start)
  | _, _ => True

/-- The paned at a place is the innermost one with its divider on that side of the path. -/
def Divides (d : Orientation × Bool) : List Bool → List Bool → PaneWidget → Prop
  | [], second :: path, .node p start stop =>
    (p.orientation = d.1 ∧ (!second) = d.2) ∧ Clear d path (if second then stop else start)
  | s :: place, second :: path, .node _ start stop =>
    s = second ∧ Divides d place path (if second then stop else start)
  | _, _, _ => False

def onSide (d : Orientation × Bool) (e : List Bool × Paned × Bool) : Bool :=
  decide (e.2.1.orientation = d.1) && decide (e.2.2 = d.2)

section Walk

variable {d : Orientation × Bool} {path place : List Bool} {t : PaneWidget}

theorem find_panedsAbove (second : Bool) (path : List Bool) (p : Paned) (start stop : PaneWidget) :
    (panedsAbove (second :: path) (.node p start stop)).find? (onSide d) =
      (((panedsAbove path (if second then stop else start)).find? (onSide d)).map
        fun e => (second :: e.1, e.2)).or
        (if p.orientation = d.1 ∧ (!second) = d.2 then some ([], p, !second) else none) := by
  rw [panedsAbove, List.find?_append, List.find?_map, List.find?_singleton]
  congr 1
  simp [onSide]

theorem clear_of_find (h : (panedsAbove path t).find? (onSide d) = none) : Clear d path t := by
  induction t generalizing path with
  | leaf name => cases path <;> trivial
  | node p start stop hstart hstop =>
    cases path with
    | nil => trivial
    | cons second path =>
      rw [find_panedsAbove, Option.or_eq_none_iff, Option.map_eq_none_iff] at h
      refine ⟨fun hp => ?_, ?_⟩
      · simp [hp] at h
      · cases second
        · exact hstart h.1
        · exact hstop h.1

theorem divides_of_find {e : List Bool × Paned × Bool}
    (h : (panedsAbove path t).find? (onSide d) = some e) : Divides d e.1 path t := by
  induction t generalizing path e with
  | leaf name => cases path <;> simp [panedsAbove] at h
  | node p start stop hstart hstop =>
    cases path with
    | nil => simp [panedsAbove] at h
    | cons second path =>
      rw [find_panedsAbove] at h
      cases hin : (panedsAbove path (if second then stop else start)).find? (onSide d) with
      | some e' =>
        rw [hin] at h
        obtain rfl : (second :: e'.1, e'.2) = e := by simpa using h
        refine ⟨rfl, ?_⟩
        cases second
        · exact hstart hin
        · exact hstop hin
      | none =>
        rw [hin] at h
        by_cases hp : p.orientation = d.1 ∧ (!second) = d.2
        · rw [if_pos hp] at h
          obtain rfl : ([], p, !second) = e := by simpa using h
          exact ⟨hp, clear_of_find hin⟩
        · rw [if_neg hp] at h
          cases h

/-- The walk finds the innermost divider on the side, or else remembers the innermost one on
the other side. -/
theorem walkUp_eq (above : List (List Bool × Paned × Bool)) (nearest : Option (List Bool)) :
    (walkUp d.1 d.2 above nearest).1.or (walkUp d.1 d.2 above nearest).2 =
      ((above.find? (onSide d)).map (·.1)).or
        (nearest.or ((above.find? (onSide (opposite d))).map (·.1))) := by
  induction above generalizing nearest with
  | nil => cases nearest <;> rfl
  | cons e above ih =>
    obtain ⟨place, paned, inStart⟩ := e
    rw [walkUp]
    by_cases ho : paned.orientation = d.1
    · by_cases hs : inStart = d.2
      · simp [ho, hs, onSide]
      · have hs' : inStart = !d.2 := by
          cases inStart <;> cases hd : d.2 <;> simp_all
        rw [if_pos ho]
        dsimp only
        rw [if_neg hs, ih]
        cases nearest <;> simp [ho, hs', onSide, opposite]
    · rw [if_neg ho, ih]
      simp [ho, onSide, opposite]

end Walk

/-! ### Where the walls are -/

/-- The side of a divider that the pane is on who grows in the direction. -/
def edge (d : Orientation × Bool) (handle : ℤ) (p : Paned) (area : Box Orientation) : ℤ :=
  if d.2 then (area d.1).start + p.position else -((area d.1).start + p.position + handle)

def childArea (handle : ℤ) (p : Paned) (second : Bool) (area : Box Orientation) : Box Orientation :=
  if second then area.back p.orientation ((area p.orientation).start + p.position + handle)
  else area.front p.orientation ((area p.orientation).start + p.position)

section Walls

variable {d : Orientation × Bool} {handle : ℤ} {cell cell' : PaneName → Box Orientation}
  {area : Box Orientation} {path place : List Bool} {t t' start stop : PaneWidget} {p : Paned}
  {a : PaneName}

theorem Allocated.child (h : Allocated handle cell (.node p start stop) area) (second : Bool) :
    Allocated handle cell (if second then stop else start) (childArea handle p second area) := by
  cases second
  · exact h.1
  · exact h.2

theorem wall_childArea_of_side {second : Bool} (h : p.orientation = d.1 ∧ (!second) = d.2) :
    wall d (childArea handle p second area) = edge d handle p area := by
  obtain ⟨ho, hs⟩ := h
  rw [wall, edge, ← ho, ← hs]
  cases second <;> simp [childArea]

theorem wall_childArea_of_not_side {second : Bool} (h : ¬(p.orientation = d.1 ∧ (!second) = d.2)) :
    wall d (childArea handle p second area) = wall d area := by
  rw [wall, wall]
  by_cases ho : p.orientation = d.1
  · have hs : d.2 = second := by
      have := fun hs => h ⟨ho, hs⟩
      cases second <;> cases hd : d.2 <;> simp_all
    rw [hs, ← ho]
    cases second <;> simp [childArea]
  · cases second
    · simp [childArea, Box.front_of_ne area (Ne.symm ho)]
    · simp [childArea, Box.back_of_ne area (Ne.symm ho)]

/-- With no divider on the side of the path the pane goes as far as the area. -/
theorem wall_of_clear (h : Allocated handle cell t area) (hc : Clear d path t)
    (ha : t.subtreeAt path = some (.leaf a)) : wall d (cell a) = wall d area := by
  induction t generalizing path area with
  | leaf name =>
    cases path with
    | nil =>
      obtain rfl : name = a := by simpa [LeafTree.subtreeAt] using ha
      exact congrArg (wall d) h
    | cons second path => cases ha
  | node p start stop hstart hstop =>
    cases path with
    | nil => cases ha
    | cons second path =>
      obtain ⟨hp, hc⟩ := hc
      have hchild := h.child second
      have hwall := @wall_childArea_of_not_side d handle area p second hp
      cases second
      · exact (hstart hchild hc ha).trans hwall
      · exact (hstop hchild hc ha).trans hwall

theorem Clear.of_relabel (h : Clear d path t)
    (ht : t.relabel Paned.orientation = t'.relabel Paned.orientation) : Clear d path t' := by
  induction t generalizing path t' with
  | leaf name => cases t' <;> simp_all [LeafTree.relabel, Clear]
  | node p start stop hstart hstop =>
    cases t' with
    | leaf name => cases path <;> trivial
    | node p' start' stop' =>
      cases path with
      | nil => trivial
      | cons second path =>
        simp only [LeafTree.relabel, LeafTree.node.injEq] at ht
        obtain ⟨ho, hts, htt⟩ := ht
        refine ⟨ho ▸ h.1, ?_⟩
        cases second
        · exact hstart h.2 hts
        · exact hstop h.2 htt

theorem subtreeAt_of_relabel (h : t.subtreeAt path = some (.leaf a))
    (ht : t.relabel Paned.orientation = t'.relabel Paned.orientation) :
    t'.subtreeAt path = some (.leaf a) := by
  induction t generalizing path t' with
  | leaf name =>
    cases t' with
    | leaf name' =>
      obtain rfl : name = name' := by simpa [LeafTree.relabel] using ht
      exact h
    | node p' start' stop' => cases ht
  | node p start stop hstart hstop =>
    cases t' with
    | leaf name => cases ht
    | node p' start' stop' =>
      cases path with
      | nil => cases h
      | cons second path =>
        simp only [LeafTree.relabel, LeafTree.node.injEq] at ht
        obtain ⟨-, hts, htt⟩ := ht
        cases second
        · show start'.subtreeAt path = some (.leaf a)
          exact hstart h hts
        · show stop'.subtreeAt path = some (.leaf a)
          exact hstop h htt

/-- The wall of the pane goes with the divider on its side. -/
theorem wall_of_settled {delta : ℤ} (hdelta : delta = dividerStep ∨ delta = -dividerStep)
    (hroom : ∀ p ∈ t.labels, dividerStep ≤ p.position ∧ p.position + dividerStep ≤ p.size)
    (h : Allocated handle cell t area) (h' : Allocated handle cell' t' area)
    (hp : Divides d place path t) (ha : t.subtreeAt path = some (.leaf a))
    (hs : SettlesAs t (t.modifyAt (moveDivider delta) place) t') :
    wall d (cell' a) = wall d (cell a) + if d.2 then delta else -delta := by
  induction t generalizing place path area t' with
  | leaf name => cases place <;> cases path <;> cases hp
  | node p start stop hstart hstop =>
    cases path with
    | nil => cases ha
    | cons second path =>
      cases place with
      | nil =>
        obtain ⟨hside, hclear⟩ := hp
        obtain ⟨start'', stop'', rfl, hrest⟩ := hs
        have hpos : max 0 (min (p.position + delta) p.size) = p.position + delta := by
          have := hroom p (by simp [LeafTree.labels])
          simp only [dividerStep] at this hdelta
          omega
        have hne : p.position ≠ max 0 (min (p.position + delta) p.size) := by
          rw [hpos]
          simp only [dividerStep] at hdelta
          omega
        rw [if_neg hne] at hrest
        have hsame : (if second then stop else start).relabel Paned.orientation =
            (if second then stop'' else start'').relabel Paned.orientation := by
          cases second
          · exact hrest.1
          · exact hrest.2
        have hleaf : (if second then stop else start).subtreeAt path = some (.leaf a) := by
          cases second
          · exact ha
          · exact ha
        rw [wall_of_clear (h.child second) hclear hleaf,
          wall_of_clear (h'.child second) (hclear.of_relabel hsame)
            (subtreeAt_of_relabel hleaf hsame),
          wall_childArea_of_side hside,
          wall_childArea_of_side
            (p := { p with position := max 0 (min (p.position + delta) p.size) }) hside]
        simp only [edge, hpos]
        split_ifs <;> omega
      | cons s place =>
        obtain ⟨rfl, hp⟩ := hp
        cases s
        · obtain ⟨start'', stop'', rfl, hrest⟩ := hs
          rw [if_pos rfl] at hrest
          exact hstart (fun p hp => hroom p (by simp [LeafTree.labels, hp])) h.1 h'.1 hp ha hrest.1
        · obtain ⟨start'', stop'', rfl, hrest⟩ := hs
          rw [if_pos rfl] at hrest
          exact hstop (fun p hp => hroom p (by simp [LeafTree.labels, hp])) h.2 h'.2 hp ha hrest.2

/-- Cells larger than a handle make an area larger than one. -/
theorem Allocated.area_wide (hgap : 0 ≤ handle) (h : Allocated handle cell t area)
    (hw : ∀ name ∈ t.leaves, ∀ i, (cell name i).start + handle < (cell name i).stop)
    (i : Orientation) : (area i).start + handle < (area i).stop := by
  induction t generalizing area with
  | leaf name => exact h ▸ hw name (by simp) i
  | node p start stop hstart hstop =>
    have hfront := hstart h.1 fun name hn => hw name (List.mem_append_left _ hn)
    have hback := hstop h.2 fun name hn => hw name (List.mem_append_right _ hn)
    by_cases hi : i = p.orientation
    · subst hi
      rw [Box.front_self] at hfront
      rw [Box.back_self] at hback
      dsimp only at hfront hback
      omega
    · rwa [Box.front_of_ne area hi] at hfront

/-- A divider leaves room for what is on its other side. -/
theorem wall_lt_of_divides (hgap : 0 ≤ handle) (h : Allocated handle cell t area)
    (hw : ∀ name ∈ t.leaves, ∀ i, (cell name i).start + handle < (cell name i).stop)
    (hp : Divides d place path t) (ha : t.subtreeAt path = some (.leaf a)) :
    wall d (cell a) < wall d area := by
  induction t generalizing place path area with
  | leaf name => cases place <;> cases path <;> cases hp
  | node p start stop hstart hstop =>
    cases path with
    | nil => cases ha
    | cons second path =>
      have hws : ∀ name ∈ start.leaves, ∀ i, (cell name i).start + handle < (cell name i).stop :=
        fun name hn => hw name (List.mem_append_left _ hn)
      have hwt : ∀ name ∈ stop.leaves, ∀ i, (cell name i).start + handle < (cell name i).stop :=
        fun name hn => hw name (List.mem_append_right _ hn)
      have hfront := h.1.area_wide hgap hws p.orientation
      have hback := h.2.area_wide hgap hwt p.orientation
      rw [Box.front_self] at hfront
      rw [Box.back_self] at hback
      dsimp only at hfront hback
      cases place with
      | nil =>
        obtain ⟨hside, hclear⟩ := hp
        have hleaf : (if second then stop else start).subtreeAt path = some (.leaf a) := by
          cases second
          · exact ha
          · exact ha
        rw [wall_of_clear (h.child second) hclear hleaf, wall_childArea_of_side hside, wall, edge,
          ← hside.1]
        split_ifs <;> omega
      | cons s place =>
        obtain ⟨rfl, hp⟩ := hp
        have hle : wall d (childArea handle p s area) ≤ wall d area := by
          by_cases hside : p.orientation = d.1 ∧ (!s) = d.2
          · rw [wall_childArea_of_side hside, wall, edge, ← hside.1]
            split_ifs <;> omega
          · rw [wall_childArea_of_not_side hside]
        cases s
        · exact (hstart h.1 hws hp ha).trans_le hle
        · exact (hstop h.2 hwt hp ha).trans_le hle

theorem eq_of_settlesAs_self (h : SettlesAs t t t') : t' = t := by
  induction t generalizing t' with
  | leaf name => exact h
  | node p start stop hstart hstop =>
    obtain ⟨start'', stop'', rfl, hrest⟩ := h
    rw [if_pos rfl] at hrest
    rw [hstart hrest.1, hstop hrest.2]

theorem Allocated.eq (h : Allocated handle cell t area) (h' : Allocated handle cell' t area)
    (ha : a ∈ t.leaves) : cell' a = cell a := by
  induction t generalizing area with
  | leaf name =>
    obtain rfl : a = name := by simpa using ha
    exact h'.trans h.symm
  | node p start stop hstart hstop =>
    rcases List.mem_append.mp ha with ha | ha
    · exact hstart h.1 h'.1 ha
    · exact hstop h.2 h'.2 ha

end Walls

/-! ### What the key does -/

theorem targetOrientation_along (d : Orientation × Bool) :
    (Direction.along d).targetOrientation = d.1 := by
  obtain ⟨_ | _, _ | _⟩ := d <;> rfl

theorem wantStartSlot_along (d : Orientation × Bool) : (Direction.along d).wantStartSlot = d.2 := by
  obtain ⟨_ | _, _ | _⟩ := d <;> rfl

namespace Roomy

variable {handle : ℤ} {cell cell' : PaneName → Box Orientation} {area : Box Orientation}
  {root set after : PaneWidget} {a : PaneName} {d : Orientation × Bool}

/-- Where another pane is in the direction, the wall of the focused pane to it moves out by a
step. Where none is, the opposite wall moves in by a step, and where the pane has the whole
length to itself, every pane stays as it is. -/
theorem walls_resizePane (h : Roomy handle cell root area) (ha : a ∈ root.leaves)
    (hset : resizePane (some root) (some a) (.along d) = some set) (hs : SettlesAs root set after)
    (h' : Allocated handle cell' after area) :
    (wall d (cell a) < wall d area → wall d (cell' a) = wall d (cell a) + dividerStep) ∧
    (wall d (cell a) = wall d area →
      wall (opposite d) (cell a) < wall (opposite d) area →
        wall (opposite d) (cell' a) = wall (opposite d) (cell a) - dividerStep) ∧
    (wall d (cell a) = wall d area → wall (opposite d) (cell a) = wall (opposite d) area →
      ∀ b ∈ root.leaves, cell' b = cell b) := by
  obtain ⟨path, hpath⟩ : ∃ path, root.pathTo a = some path :=
    Option.ne_none_iff_exists'.mp fun hn => LeafTree.pathTo_eq_none_iff.mp hn ha
  have hleaf := LeafTree.subtreeAt_pathTo hpath
  have hwalk := walkUp_eq (d := d) (panedsAbove path root) none
  simp only [resizePane, hpath, targetOrientation_along, wantStartSlot_along, hwalk,
    Option.none_or] at hset
  cases hfound : (panedsAbove path root).find? (onSide d) with
  | some e =>
    have hp := divides_of_find hfound
    have hlt := wall_lt_of_divides h.handle_nonneg h.allocated h.wide hp hleaf
    rw [hfound] at hset
    obtain rfl := Option.some.inj hset
    refine ⟨fun _ => ?_, fun heq => absurd heq hlt.ne, fun heq => absurd heq hlt.ne⟩
    rw [wall_of_settled (by split_ifs <;> simp) h.room h.allocated h' hp hleaf hs]
    cases d.2 <;> simp
  | none =>
    have heq := wall_of_clear h.allocated (clear_of_find hfound) hleaf
    rw [hfound] at hset
    refine ⟨fun hlt => absurd heq hlt.ne, fun _ hlt => ?_, fun _ heq' => ?_⟩
    · cases hnearest : (panedsAbove path root).find? (onSide (opposite d)) with
      | none => exact absurd (wall_of_clear h.allocated (clear_of_find hnearest) hleaf) hlt.ne
      | some e =>
        rw [hnearest] at hset
        obtain rfl := Option.some.inj hset
        rw [wall_of_settled (by split_ifs <;> simp) h.room h.allocated h'
          (divides_of_find hnearest) hleaf hs]
        cases hd : d.2 <;> simp [opposite, hd] <;> omega
    · cases hnearest : (panedsAbove path root).find? (onSide (opposite d)) with
      | some e =>
        exact absurd heq' (wall_lt_of_divides h.handle_nonneg h.allocated h.wide
          (divides_of_find hnearest) hleaf).ne
      | none =>
        rw [hnearest] at hset
        obtain rfl := Option.some.inj hset
        rw [eq_of_settlesAs_self hs] at h'
        exact fun b hb => h.allocated.eq h' hb

end Roomy

theorem roomy_threePanes : Roomy 5 threeCells threePanes
    (fun i => if i = .horizontal then ⟨0, 205⟩ else ⟨0, 105⟩) where
  handle_nonneg := by decide
  allocated := onScreen_threePanes.allocated
  wide name _ i := by
    cases i <;> simp only [threeCells] <;> split_ifs <;> decide
  room := by decide

/-- The pane on the left is wider, and the two on the right are narrower. -/
def widerPanes : PaneWidget :=
  .node { orientation := .horizontal, width := 205, height := 105, position := 120 } (.leaf 0)
    (.node { orientation := .vertical, width := 80, height := 105, position := 50 } (.leaf 1) (.leaf 2))

def widerCells (name : PaneName) : Box Orientation
  | .horizontal => if name = 0 then ⟨0, 120⟩ else ⟨125, 205⟩
  | .vertical => if name = 0 then ⟨0, 105⟩ else if name = 1 then ⟨0, 50⟩ else ⟨55, 105⟩

theorem walls_resizePane_threePanes :
    wall (.horizontal, true) (widerCells 0) =
      wall (.horizontal, true) (threeCells 0) + dividerStep := by
  have hset : resizePane (some threePanes) (some 0) (.along (.horizontal, true)) =
      some (.node { orientation := .horizontal, width := 205, height := 105, position := 120 }
        (.leaf 0) (.node { orientation := .vertical, width := 100, height := 105, position := 50 }
          (.leaf 1) (.leaf 2))) := by decide
  have hsettles : SettlesAs threePanes (.node
      { orientation := .horizontal, width := 205, height := 105, position := 120 } (.leaf 0)
      (.node { orientation := .vertical, width := 100, height := 105, position := 50 }
        (.leaf 1) (.leaf 2))) widerPanes := ⟨_, _, rfl, by simp [LeafTree.relabel]⟩
  have hallocated : Allocated 5 widerCells widerPanes
      (fun i => if i = .horizontal then ⟨0, 205⟩ else ⟨0, 105⟩) := by
    refine ⟨funext fun i => ?_, funext fun i => ?_, funext fun i => ?_⟩ <;> cases i <;> rfl
  exact (roomy_threePanes.walls_resizePane (by decide) hset hsettles hallocated).1 (by decide)

end Forgetty
