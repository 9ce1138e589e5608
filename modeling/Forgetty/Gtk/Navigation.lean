import Forgetty.Gtk.PaneTree
import Forgetty.Lib.Tiling

/-! Moving the focus between the panes of a tab by direction keys: the nearest pane that way,
among those that overlap the focused one across it. The panes are where the paneds put them,
and each shows its terminal beside a scrollbar and below a search bar. -/

namespace Forgetty

open Lib

/-! ### The keys -/

inductive Direction where
  | left
  | right
  | up
  | down
  deriving DecidableEq, Repr

/-- Where a drawing area is in the container, in pixels. -/
structure Bounds where
  x : ℤ
  y : ℤ
  width : ℤ
  height : ℤ
  deriving DecidableEq, Repr

/-- Each range is `[start, stop)`. -/
def rangesOverlap (aStart aEnd bStart bEnd : ℤ) : Bool := aStart < bEnd && bStart < aEnd

def collectLeavesRecursive : PaneWidget → List PaneName → List PaneName
  | .leaf name, result => result ++ [name]
  | .node _ start stop, result => collectLeavesRecursive stop (collectLeavesRecursive start result)

def collectLeafDrawingAreas (widget : PaneWidget) : List PaneName :=
  collectLeavesRecursive widget []

/-- Whether a candidate is in the direction and overlaps across it, and how far it is. -/
def judge (focused bounds : Bounds) : Direction → Bool × ℤ
  | .left =>
    (decide (bounds.x + bounds.width ≤ focused.x) &&
      rangesOverlap bounds.y (bounds.y + bounds.height) focused.y (focused.y + focused.height),
      focused.x - (bounds.x + bounds.width))
  | .right =>
    (decide (focused.x + focused.width ≤ bounds.x) &&
      rangesOverlap bounds.y (bounds.y + bounds.height) focused.y (focused.y + focused.height),
      bounds.x - (focused.x + focused.width))
  | .up =>
    (decide (bounds.y + bounds.height ≤ focused.y) &&
      rangesOverlap bounds.x (bounds.x + bounds.width) focused.x (focused.x + focused.width),
      focused.y - (bounds.y + bounds.height))
  | .down =>
    (decide (focused.y + focused.height ≤ bounds.y) &&
      rangesOverlap bounds.x (bounds.x + bounds.width) focused.x (focused.x + focused.width),
      bounds.y - (focused.y + focused.height))

section Navigate

variable (computeBounds : PaneName → Option Bounds)

/-- One round of the loop over the candidates. -/
def consider (focusedName : PaneName) (focusedBounds : Bounds) (direction : Direction)
    (best : Option (PaneName × ℤ)) (candidate : PaneName) : Option (PaneName × ℤ) :=
  if candidate = focusedName then best
  else
    match computeBounds candidate with
    | none => best
    | some bounds =>
      let (isValid, distance) := judge focusedBounds bounds direction
      if isValid && best.all (fun b => distance < b.2) then some (candidate, distance) else best

/-- The focused pane after the key. The content is that of the selected page; no pane is
focused while the tracker holds no name. -/
def navigatePane (content : Option PaneWidget) (focusTracker : Option PaneName)
    (direction : Direction) : Option PaneName :=
  match focusTracker, content with
  | some focusedName, some rootContent =>
    let leaves := collectLeafDrawingAreas rootContent
    if leaves.length < 2 then focusTracker
    else if focusedName ∉ leaves then focusTracker
    else
      match computeBounds focusedName with
      | none => focusTracker
      | some focusedBounds =>
        match leaves.foldl (consider computeBounds focusedName focusedBounds direction) none with
        | some (target, _) => some target
        | none => focusTracker
  | _, _ => focusTracker

end Navigate

/-! ### Where the panes are -/

/-- What of the room of a pane its search bar and its scrollbar take, if they are there. -/
structure Chrome where
  searchBar : ℤ
  scrollbar : ℤ

/-- The cells of the panes: every paned gives its start child the room up to its position, and
its stop child the room behind the handle. -/
def Allocated (handle : ℤ) (cell : PaneName → Box Orientation) : PaneWidget → Box Orientation → Prop
  | .leaf name, area => cell name = area
  | .node p start stop, area =>
    Allocated handle cell start
        (area.front p.orientation ((area p.orientation).start + p.position)) ∧
      Allocated handle cell stop
        (area.back p.orientation ((area p.orientation).start + p.position + handle))

/-- The drawing area in its cell. -/
def Chrome.drawn (c : Chrome) (cell : Box Orientation) : Bounds where
  x := (cell .horizontal).start
  y := (cell .vertical).start + c.searchBar
  width := (cell .horizontal).stop - (cell .horizontal).start - c.scrollbar
  height := (cell .vertical).stop - (cell .vertical).start - c.searchBar

/-- A page on the screen: no search bar is higher than `searchBar` and no scrollbar wider than
`scrollbar`, and every terminal is larger than a handle next to one of them. -/
structure OnScreen (handle searchBar scrollbar : ℤ) (cell : PaneName → Box Orientation)
    (chrome : PaneName → Chrome) (computeBounds : PaneName → Option Bounds) (root : PaneWidget)
    (area : Box Orientation) : Prop where
  handle_nonneg : 0 ≤ handle
  allocated : Allocated handle cell root area
  bounds : ∀ name ∈ root.leaves, computeBounds name = some ((chrome name).drawn (cell name))
  searchBar_mem : ∀ name ∈ root.leaves, 0 ≤ (chrome name).searchBar ∧
    (chrome name).searchBar ≤ searchBar
  scrollbar_mem : ∀ name ∈ root.leaves, 0 ≤ (chrome name).scrollbar ∧
    (chrome name).scrollbar ≤ scrollbar
  wide : ∀ name ∈ root.leaves, handle + scrollbar < ((chrome name).drawn (cell name)).width
  high : ∀ name ∈ root.leaves, handle + searchBar < ((chrome name).drawn (cell name)).height

/-- The keys by the axis they move along and whether forwards. -/
def Direction.along : Orientation × Bool → Direction
  | (.horizontal, true) => .right
  | (.horizontal, false) => .left
  | (.vertical, true) => .down
  | (.vertical, false) => .up

/-- What a drawing area covers. -/
def Bounds.box (b : Bounds) : Box Orientation
  | .horizontal => { start := b.x, stop := b.x + b.width }
  | .vertical => { start := b.y, stop := b.y + b.height }

/-! ### The nearest candidate -/

theorem collectLeavesRecursive_eq (t : PaneWidget) (result : List PaneName) :
    collectLeavesRecursive t result = result ++ t.leaves := by
  induction t generalizing result with
  | leaf name => rfl
  | node p start stop hstart hstop =>
    rw [collectLeavesRecursive, hstart, hstop, List.append_assoc, LeafTree.leaves_node]

@[simp] theorem collectLeafDrawingAreas_eq (t : PaneWidget) :
    collectLeafDrawingAreas t = t.leaves := collectLeavesRecursive_eq t []

/-- The key looks for who is ahead, as one sees it who looks that way. -/
theorem judge_along (focused bounds : Bounds) (d : Orientation × Bool) :
    (judge focused bounds (.along d)).1 = true ↔
      ((focused.box.facing d) d.1).stop ≤ ((bounds.box.facing d) d.1).start ∧
        ∀ j, j ≠ d.1 → ((focused.box.facing d) j).Meets ((bounds.box.facing d) j) := by
  have hother (P : Orientation → Prop) (i : Orientation) :
      (∀ j, j ≠ i → P j) ↔ (i ≠ .horizontal → P .horizontal) ∧ (i ≠ .vertical → P .vertical) :=
    ⟨fun h => ⟨fun hi => h _ hi.symm, fun hi => h _ hi.symm⟩, fun h j hj => by
      cases j with
      | horizontal => exact h.1 hj.symm
      | vertical => exact h.2 hj.symm⟩
  rw [hother]
  obtain ⟨_ | _, _ | _⟩ := d <;>
    simp [Direction.along, judge, rangesOverlap, Box.facing, Box.turned, Bounds.box, Span.turned,
      Span.Meets, Function.update] <;>
    tauto

/-- And how far it is. -/
theorem judge_along_snd (focused bounds : Bounds) (d : Orientation × Bool) :
    (judge focused bounds (.along d)).2 =
      ((bounds.box.facing d) d.1).start - ((focused.box.facing d) d.1).stop := by
  obtain ⟨_ | _, _ | _⟩ := d <;>
    simp [Direction.along, judge, Box.facing, Bounds.box] <;>
    omega

section Search

variable {computeBounds : PaneName → Option Bounds} {focused : PaneName} {bounds : Bounds}
  {direction : Direction}

/-- How far a candidate is, if it is one at all. -/
def rank (computeBounds : PaneName → Option Bounds) (focused : PaneName) (bounds : Bounds)
    (direction : Direction) (candidate : PaneName) : Option ℤ :=
  if candidate = focused then none
  else
    match computeBounds candidate with
    | none => none
    | some b => if (judge bounds b direction).1 then some (judge bounds b direction).2 else none

theorem consider_eq (best : Option (PaneName × ℤ)) (candidate : PaneName) :
    consider computeBounds focused bounds direction best candidate =
      match rank computeBounds focused bounds direction candidate with
      | none => best
      | some d => if best.all (fun b => d < b.2) then some (candidate, d) else best := by
  rw [consider, rank]
  by_cases hc : candidate = focused
  · rw [if_pos hc, if_pos hc]
  · rw [if_neg hc, if_neg hc]
    cases computeBounds candidate with
    | none => rfl
    | some b =>
      dsimp only
      cases (judge bounds b direction).1 with
      | false => rfl
      | true => rfl

/-- The best of the candidates seen so far. -/
def BestOf (r : PaneName → Option ℤ) (seen : List PaneName) : Option (PaneName × ℤ) → Prop
  | none => ∀ c ∈ seen, r c = none
  | some (b, d) => b ∈ seen ∧ r b = some d ∧ ∀ c ∈ seen, ∀ e, r c = some e → d ≤ e

theorem BestOf.consider {seen : List PaneName} {best : Option (PaneName × ℤ)}
    (h : BestOf (rank computeBounds focused bounds direction) seen best) (candidate : PaneName) :
    BestOf (rank computeBounds focused bounds direction) (seen ++ [candidate])
      (Forgetty.consider computeBounds focused bounds direction best candidate) := by
  rw [consider_eq]
  cases hr : rank computeBounds focused bounds direction candidate with
  | none =>
    cases best with
    | none =>
      intro c hc
      rcases List.mem_append.mp hc with hc | hc
      · exact h c hc
      · obtain rfl : c = candidate := by simpa using hc
        exact hr
    | some best =>
      obtain ⟨hmem, hbest, hle⟩ := h
      refine ⟨List.mem_append_left _ hmem, hbest, fun c hc e he => ?_⟩
      rcases List.mem_append.mp hc with hc | hc
      · exact hle c hc e he
      · obtain rfl : c = candidate := by simpa using hc
        cases hr.symm.trans he
  | some d =>
    have hself (e : ℤ) (he : rank computeBounds focused bounds direction candidate = some e) :
        d = e := Option.some.inj (hr.symm.trans he)
    cases best with
    | none =>
      refine ⟨by simp, hr, fun c hc e he => ?_⟩
      rcases List.mem_append.mp hc with hc | hc
      · cases (h c hc).symm.trans he
      · obtain rfl : c = candidate := by simpa using hc
        exact (hself e he).le
    | some best =>
      obtain ⟨hmem, hbest, hle⟩ := h
      by_cases hlt : d < best.2
      · have hall : (some best).all (fun b => decide (d < b.2)) = true := by simpa using hlt
        dsimp only
        rw [if_pos hall]
        refine ⟨by simp, hr, fun c hc e he => ?_⟩
        rcases List.mem_append.mp hc with hc | hc
        · exact hlt.le.trans (hle c hc e he)
        · obtain rfl : c = candidate := by simpa using hc
          exact (hself e he).le
      · have hall : ¬(some best).all (fun b => decide (d < b.2)) = true := by simpa using hlt
        dsimp only
        rw [if_neg hall]
        refine ⟨List.mem_append_left _ hmem, hbest, fun c hc e he => ?_⟩
        rcases List.mem_append.mp hc with hc | hc
        · exact hle c hc e he
        · obtain rfl : c = candidate := by simpa using hc
          have := hself e he
          omega

theorem bestOf_foldl (leaves : List PaneName) :
    BestOf (rank computeBounds focused bounds direction) leaves
      (leaves.foldl (Forgetty.consider computeBounds focused bounds direction) none) := by
  have hfold (rest seen : List PaneName) (best : Option (PaneName × ℤ))
      (h : BestOf (rank computeBounds focused bounds direction) seen best) :
      BestOf (rank computeBounds focused bounds direction) (seen ++ rest)
        (rest.foldl (Forgetty.consider computeBounds focused bounds direction) best) := by
    induction rest generalizing seen best with
    | nil => simpa using h
    | cons c rest ih =>
      have := ih (seen ++ [c]) _ (h.consider c)
      rwa [List.append_assoc] at this
  exact hfold leaves [] none (fun c hc => absurd hc (by simp))

end Search

/-! ### Every pane is reached -/

namespace OnScreen

variable {handle searchBar scrollbar : ℤ} {cell : PaneName → Box Orientation}
  {chrome : PaneName → Chrome} {computeBounds : PaneName → Option Bounds} {root : PaneWidget}
  {area : Box Orientation} {a b : PaneName}

/-- How much is hidden at the start of a cell, -/
def lead (searchBar : ℤ) : Orientation → ℤ
  | .horizontal => 0
  | .vertical => searchBar

/-- and at its end. -/
def trail (scrollbar : ℤ) : Orientation → ℤ
  | .horizontal => scrollbar
  | .vertical => 0

theorem placed (h : Allocated handle cell root area) :
    Placed handle cell (root.relabel Paned.orientation) area := by
  induction root generalizing area with
  | leaf name => exact h
  | node p start stop hstart hstop => exact ⟨_, hstart h.1, hstop h.2⟩

/-- The drawing areas show what the search bars and the scrollbars leave of the cells. -/
theorem showing (h : OnScreen handle searchBar scrollbar cell chrome computeBounds root area) :
    Showing handle (lead searchBar) (trail scrollbar) cell
      (fun name => ((chrome name).drawn (cell name)).box) root.leaves := by
  have hall (a : PaneName) (ha : a ∈ root.leaves) (i : Orientation) :
      (cell a i).start ≤ (((chrome a).drawn (cell a)).box i).start ∧
      (((chrome a).drawn (cell a)).box i).start ≤ (cell a i).start + lead searchBar i ∧
      (((chrome a).drawn (cell a)).box i).stop ≤ (cell a i).stop ∧
      (cell a i).stop - trail scrollbar i ≤ (((chrome a).drawn (cell a)).box i).stop ∧
      (((chrome a).drawn (cell a)).box i).start + lead searchBar i + handle + trail scrollbar i <
        (((chrome a).drawn (cell a)).box i).stop := by
    have h1 := h.searchBar_mem a ha
    have h2 := h.scrollbar_mem a ha
    have h3 := h.wide a ha
    have h4 := h.high a ha
    cases i with
    | horizontal =>
      simp only [Chrome.drawn, Bounds.box, lead, trail] at h3 ⊢
      omega
    | vertical =>
      simp only [Chrome.drawn, Bounds.box, lead, trail] at h4 ⊢
      omega
  exact {
    gap_nonneg := h.handle_nonneg
    start_le := fun a ha i => (hall a ha i).1
    le_start := fun a ha i => (hall a ha i).2.1
    stop_le := fun a ha i => (hall a ha i).2.2.1
    le_stop := fun a ha i => (hall a ha i).2.2.2.1
    wide := fun a ha i => (hall a ha i).2.2.2.2 }

/-- The pane that a key leads to, as a step from pane to pane. -/
def go (computeBounds : PaneName → Option Bounds) (root : PaneWidget) (a : PaneName)
    (d : Orientation × Bool) : PaneName :=
  (navigatePane computeBounds (some root) (some a) (.along d)).getD a

/-- Some pane stays focused. -/
theorem navigatePane_some (computeBounds : PaneName → Option Bounds) (root : PaneWidget)
    (a : PaneName) (d : Orientation × Bool) :
    navigatePane computeBounds (some root) (some a) (.along d) = some (go computeBounds root a d) := by
  have hsome : ∃ b, navigatePane computeBounds (some root) (some a) (.along d) = some b := by
    simp only [navigatePane]
    split_ifs
    · exact ⟨_, rfl⟩
    · split
      · exact ⟨_, rfl⟩
      · split <;> exact ⟨_, rfl⟩
    · exact ⟨_, rfl⟩
  obtain ⟨b, hb⟩ := hsome
  rw [go, hb, Option.getD_some]

theorem run_navigatePane (computeBounds : PaneName → Option Bounds) (root : PaneWidget)
    (a : PaneName) (ds : List (Orientation × Bool)) :
    run (navigatePane computeBounds (some root)) (some a) (ds.map Direction.along) =
      some (run (go computeBounds root) a ds) := by
  induction ds generalizing a with
  | nil => rfl
  | cons d ds ih => rw [List.map_cons, run_cons, run_cons, navigatePane_some, ih]

/-- A candidate is ranked exactly if it is ahead for who looks in the direction. -/
theorem rank_eq_some_iff (h : OnScreen handle searchBar scrollbar cell chrome computeBounds root area)
    {c : PaneName} (ha : a ∈ root.leaves) (hc : c ∈ root.leaves) (d : Orientation × Bool) (e : ℤ) :
    rank computeBounds a ((chrome a).drawn (cell a)) (.along d) c = some e ↔
      Ahead (fun name => (((chrome name).drawn (cell name)).box).facing d) d.1 a c ∧
        e = ((((chrome c).drawn (cell c)).box).facing d d.1).start -
          ((((chrome a).drawn (cell a)).box).facing d d.1).stop := by
  have hne : Ahead (fun name => (((chrome name).drawn (cell name)).box).facing d) d.1 a c → c ≠ a := by
    rintro hac rfl
    have h1 := h.wide c hc
    have h2 := h.high c hc
    have h3 := h.searchBar_mem c hc
    have h4 := h.scrollbar_mem c hc
    have h5 := h.handle_nonneg
    have hstop := hac.1
    obtain ⟨_ | _, _ | _⟩ := d <;> simp [Box.facing, Bounds.box] at hstop <;> omega
  rw [rank, h.bounds c hc]
  by_cases hself : c = a
  · rw [if_pos hself]
    exact iff_of_false (Option.some_ne_none e).symm fun hac => hne hac.1 hself
  · have hahead := judge_along ((chrome a).drawn (cell a)) ((chrome c).drawn (cell c)) d
    rw [if_neg hself]
    by_cases hv : (judge ((chrome a).drawn (cell a)) ((chrome c).drawn (cell c)) (.along d)).1 = true
    · dsimp only
      rw [if_pos hv, Option.some.injEq, judge_along_snd]
      exact ⟨fun he => ⟨hahead.mp hv, he.symm⟩, fun hac => hac.2.symm⟩
    · dsimp only
      rw [if_neg hv]
      exact iff_of_false (Option.some_ne_none e).symm fun hac => hv (hahead.mpr hac.1)

/-- A key leads to a nearest pane in its direction, where there is one. -/
theorem goesToNearest (h : OnScreen handle searchBar scrollbar cell chrome computeBounds root area) :
    GoesToNearest (fun name => ((chrome name).drawn (cell name)).box) root.leaves
      (go computeBounds root) := by
  intro d a ha hex
  obtain ⟨c, hc, hac⟩ := hex
  have hrank := (h.rank_eq_some_iff ha hc d _).mpr ⟨hac, rfl⟩
  have hne : c ≠ a := by
    rintro rfl
    rw [rank, if_pos rfl] at hrank
    cases hrank
  have hlen : ¬root.leaves.length < 2 := by
    intro hlt
    obtain hleaf := LeafTree.eq_leaf_of_length (Nat.le_of_lt_succ hlt)
    rw [hleaf] at ha hc
    simp only [LeafTree.leaves_leaf, List.mem_singleton] at ha hc
    exact hne (hc.trans ha.symm)
  have hbest := @bestOf_foldl computeBounds a ((chrome a).drawn (cell a)) (.along d) root.leaves
  rw [go, navigatePane]
  simp only [collectLeafDrawingAreas_eq, hlen, ha, not_true_eq_false, if_false, h.bounds a ha]
  cases hfold : root.leaves.foldl
      (consider computeBounds a ((chrome a).drawn (cell a)) (.along d)) none with
  | none =>
    rw [hfold] at hbest
    cases (hbest c hc).symm.trans hrank
  | some best =>
    rw [hfold] at hbest
    obtain ⟨hmem, hr, hle⟩ := hbest
    obtain ⟨hahead, hdist⟩ := (h.rank_eq_some_iff ha hmem d _).mp hr
    refine ⟨hmem, hahead, fun c' hc' hac' => ?_⟩
    have hmin := hle c' hc' _ ((h.rank_eq_some_iff ha hc' d _).mpr ⟨hac', rfl⟩)
    rw [hdist] at hmin
    dsimp only [Option.getD_some]
    omega

/-- By the four keys the focus comes from every pane of a tab to every other, with fewer
presses than there are panes. -/
theorem exists_presses (h : OnScreen handle searchBar scrollbar cell chrome computeBounds root area)
    (ha : a ∈ root.leaves) (hb : b ∈ root.leaves) :
    ∃ directions : List Direction, directions.length < root.leaves.length ∧
      run (navigatePane computeBounds (some root)) (some a) directions = some b := by
  have hleaves : (root.relabel Paned.orientation).leaves = root.leaves := LeafTree.leaves_relabel ..
  have hs := h.showing
  have hgo := h.goesToNearest
  rw [← hleaves] at hs hgo ha hb
  obtain ⟨ds, hlen, hrun⟩ := exists_walk (placed h.allocated) hs hgo ha hb
  refine ⟨ds.map Direction.along, ?_, ?_⟩
  · rw [List.length_map, ← hleaves]
    exact hlen
  · rw [run_navigatePane, hrun]

end OnScreen

/-- A pane beside two panes that are on top of one another. -/
def threePanes : PaneWidget :=
  .node { orientation := .horizontal, width := 205, height := 105, position := 100 } (.leaf 0)
    (.node { orientation := .vertical, width := 100, height := 105, position := 50 } (.leaf 1) (.leaf 2))

def threeCells (name : PaneName) : Box Orientation
  | .horizontal => if name = 0 then ⟨0, 100⟩ else ⟨105, 205⟩
  | .vertical => if name = 0 then ⟨0, 105⟩ else if name = 1 then ⟨0, 50⟩ else ⟨55, 105⟩

/-- The search bar of the pane at the top is open. -/
def searching (name : PaneName) : Chrome := { searchBar := if name = 1 then 20 else 0, scrollbar := 8 }

theorem onScreen_threePanes : OnScreen 5 20 8 threeCells searching
    (fun name => some ((searching name).drawn (threeCells name))) threePanes
    (fun i => if i = .horizontal then ⟨0, 205⟩ else ⟨0, 105⟩) where
  handle_nonneg := by decide
  allocated := by
    refine ⟨funext fun i => ?_, funext fun i => ?_, funext fun i => ?_⟩ <;> cases i <;> rfl
  bounds _ _ := rfl
  searchBar_mem := by decide
  scrollbar_mem := by decide
  wide := by decide
  high := by decide

theorem exists_presses_threePanes : ∃ directions : List Direction,
    directions.length < threePanes.leaves.length ∧
      run (navigatePane (fun name => some ((searching name).drawn (threeCells name)))
        (some threePanes)) (some 0) directions = some 2 :=
  onScreen_threePanes.exists_presses (by decide) (by decide)

end Forgetty
