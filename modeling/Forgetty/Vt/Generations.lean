import Forgetty.Lib.Moments
import Forgetty.Vt.Mutators

/-! What the generations tell of a screen. A change of its dimensions has to be told by the screen,
and a change of a row by the row. `ensure_capacity` tells nothing of what it cuts off or adds, and
`resize` nothing of the rows. -/

namespace Forgetty.Screen

open Lib

inductive Mutation where
  | setCell (row col : ℕ) (cell : Cell)
  | resize (rows cols : ℕ)
  | ensureCapacity (rows cols : ℕ)
  | updateCellInPlace (row col : ℕ) (grapheme : Text) (attrs : CellAttributes)
  | clear
  | scrollUp (n top bottom : ℕ)
  | scrollDown (n top bottom : ℕ)
  | markDirty (row : ℕ)
  deriving DecidableEq, Repr

def step (s : Screen) : Mutation → Screen
  | .setCell row col cell => s.setCell row col cell
  | .resize rows cols => s.resize rows cols
  | .ensureCapacity rows cols => s.ensureCapacity rows cols
  | .updateCellInPlace row col grapheme attrs => s.updateCellInPlace row col grapheme attrs
  | .clear => s.clear
  | .scrollUp n top bottom => (s.scrollUp n top bottom).1
  | .scrollDown n top bottom => s.scrollDown n top bottom
  | .markDirty row => s.markDirty row

/-- What is written is on the screen. -/
def InRange (s : Screen) : Mutation → Prop
  | .setCell row col _ | .updateCellInPlace row col _ _ => row < s.rows ∧ col < s.cols
  | .scrollUp _ top bottom | .scrollDown _ top bottom => top ≤ bottom ∧ bottom < s.rows
  | .markDirty row => row < s.rows
  | .resize _ _ | .ensureCapacity _ _ | .clear => True

/-! ### What is to hold -/

/-- The dimensions are others, or a row that both have is. -/
def Differ (s t : Screen) : Prop :=
  s.rows ≠ t.rows ∨ s.cols ≠ t.cols ∨ ∃ i, i < s.rows ∧ i < t.rows ∧ s.row i ≠ t.row i

/-- What the generations of a later screen tell somebody who looked at an earlier one. -/
structure Tells (s t : Screen) : Prop where
  generation : Differ s t → s.generation < t.generation
  row : ∀ i, i < s.rows → i < t.rows → s.row i ≠ t.row i →
    t.rowDirtySince i s.generation = true

/-- The moments of a run: each of them is in shape, and tells of every change since another. -/
structure Tracked (seen : ℕ → Screen) : Prop where
  kept : ∀ k, (seen k).Kept
  tells : ∀ j k, j ≤ k → Tells (seen j) (seen k)

/-- The step tells of all that it changes. `ensure_capacity` changes nothing, and `resize` leaves
the columns alone as long as rows stay; the rows that it adds have never been other than blank. -/
def Unhidden (seen : ℕ → Screen) (k : ℕ) : Mutation → Prop
  | .ensureCapacity rows cols => rows = (seen k).rows ∧ cols = (seen k).cols
  | .resize rows cols =>
    (0 < (seen k).rows → 0 < rows → cols = (seen k).cols) ∧
      ∀ j ≤ k, ∀ i, (seen k).rows ≤ i → i < rows → i < (seen j).rows →
        (seen j).row i = blankRow cols
  | _ => True

/-! ### From one moment to the next -/

section Step

variable {s t u : Screen} {op : Mutation}

theorem sound_new (rows cols : ℕ) : (new rows cols).Sound where
  toShaped := shaped_new rows cols
  generations := List.length_replicate
  wraps := List.length_replicate
  latest _ hg := Nat.le_of_eq (List.eq_of_mem_replicate hg)

theorem sound_resize (h : s.Sound) (rows cols : ℕ) : (s.resize rows cols).Sound :=
  (sound_ensureCapacity h rows cols).nextGeneration

theorem sound_step (h : s.Sound) (hop : s.InRange op) : (s.step op).Sound := by
  cases op with
  | setCell row col cell => exact sound_setCell h row col cell
  | resize rows cols => exact sound_resize h rows cols
  | ensureCapacity rows cols => exact sound_ensureCapacity h rows cols
  | updateCellInPlace row col grapheme attrs => exact sound_updateCellInPlace h row col grapheme attrs
  | clear => exact (drawing_clear h).sound
  | scrollUp n top bottom => exact (drawing_scrollUp h n hop.2).sound
  | scrollDown n top bottom => exact (drawing_scrollDown h n hop.2).sound
  | markDirty row => exact sound_markDirty h row

/-- What is kept between an earlier moment and every later one. -/
structure Tracks (s t : Screen) : Prop where
  le : s.generation ≤ t.generation
  resized : s.rows ≠ t.rows ∨ s.cols ≠ t.cols → s.generation < t.generation
  row : ∀ i, i < s.rows → i < t.rows → t.row i = s.row i ∨ s.generation < t.rowGeneration i

theorem Tracks.refl (s : Screen) : Tracks s s where
  le := Nat.le_refl _
  resized h := by simp at h
  row _ _ _ := .inl rfl

theorem Tracks.tells (h : Tracks s t) (ht : t.Sound) : Tells s t where
  generation hdiffer := by
    rcases hdiffer with hrows | hcols | ⟨i, hs, ht', hrow⟩
    · exact h.resized (.inl hrows)
    · exact h.resized (.inr hcols)
    · rcases h.row i hs ht' with hsame | hlt
      · exact absurd hsame.symm hrow
      · exact Nat.lt_of_lt_of_le hlt (ht.rowGeneration_le i)
  row i hs ht' hrow := by
    rcases h.row i hs ht' with hsame | hlt
    · exact absurd hsame.symm hrow
    · exact decide_eq_true hlt

/-- A screen that is drawn anew still tells of what was before. -/
theorem Tracks.redrawn (h : Tracks s t) (ht : Redrawn t u) : Tracks s u where
  le := Nat.le_trans h.le ht.le
  resized hdim := by
    rw [ht.rows, ht.cols] at hdim
    exact Nat.lt_of_lt_of_le (h.resized hdim) ht.le
  row i hs hu := by
    rw [ht.rows] at hu
    rcases ht.row i hu with ⟨hrow, hgen⟩ | hlt
    · rw [hrow, hgen]
      exact h.row i hs hu
    · exact .inr (Nat.lt_of_le_of_lt h.le hlt)

/-- The rows that stay are those from before, and those that are added are told to be nothing
new. -/
theorem Tracks.resize (h : Tracks s t) (ht : t.Sound) {rows cols : ℕ}
    (hcols : 0 < t.rows → 0 < rows → cols = t.cols)
    (hadded : ∀ i, t.rows ≤ i → i < rows → i < s.rows → s.row i = blankRow cols) :
    Tracks s (t.resize rows cols) where
  le := Nat.le_succ_of_le h.le
  resized _ := Nat.lt_succ_of_le h.le
  row i hs hi := by
    replace hi : i < rows := hi
    have hrow : (t.resize rows cols).row i = (t.ensureCapacity rows cols).row i := rfl
    have hgen : (t.resize rows cols).rowGeneration i = t.rowGeneration i :=
      @rowGeneration_ensureCapacity t rows cols i hi
    rw [hrow, hgen, row_ensureCapacity hi, ht.rows]
    split_ifs with hstays
    · rw [hcols (Nat.zero_lt_of_lt hstays) (Nat.zero_lt_of_lt hi), ← ht.length_row hstays,
        resizeList_length]
      exact h.row i hs hstays
    · exact .inl (hadded i (Nat.not_lt.mp hstays) hi hs).symm

/-- A mutator that leaves the dimensions alone draws rows anew. -/
theorem redrawn_step (h : s.Sound) (hop : s.InRange op) (hresize : ∀ rows cols, op ≠ .resize rows cols)
    (hcapacity : ∀ rows cols, op ≠ .ensureCapacity rows cols) : Redrawn s (s.step op) := by
  cases op with
  | setCell row col cell => exact redrawn_setCell h.toKept row col cell
  | resize rows cols => exact absurd rfl (hresize rows cols)
  | ensureCapacity rows cols => exact absurd rfl (hcapacity rows cols)
  | updateCellInPlace row col grapheme attrs =>
    exact redrawn_updateCellInPlace h.toKept row col grapheme attrs
  | clear => exact (drawing_clear h).redrawn
  | scrollUp n top bottom => exact (drawing_scrollUp h n hop.2).redrawn
  | scrollDown n top bottom => exact (drawing_scrollDown h n hop.2).redrawn
  | markDirty row => exact redrawn_markDirty h.toKept row

end Step

/-! ### Runs -/

section Runs

variable {seen : ℕ → Screen} {j k : ℕ} {op : Mutation}

theorem tracks_step (h : Tracks (seen j) (seen k)) (hjk : j ≤ k) (hsound : (seen k).Sound)
    (hop : (seen k).InRange op) (hunhidden : Unhidden seen k op) :
    Tracks (seen j) ((seen k).step op) := by
  by_cases hresize : ∃ rows cols, op = .resize rows cols
  · obtain ⟨rows, cols, rfl⟩ := hresize
    exact h.resize hsound hunhidden.1 (hunhidden.2 j hjk)
  by_cases hcapacity : ∃ rows cols, op = .ensureCapacity rows cols
  · obtain ⟨rows, cols, rfl⟩ := hcapacity
    obtain ⟨rfl, rfl⟩ := hunhidden
    rwa [step, ensureCapacity_self hsound.toKept]
  · exact h.redrawn (redrawn_step hsound hop (fun rows cols heq => hresize ⟨rows, cols, heq⟩)
      fun rows cols heq => hcapacity ⟨rows, cols, heq⟩)

/-- Dimensions that `ensure_capacity` changes are not told of. -/
theorem eq_of_tells_ensureCapacity {s : Screen} {rows cols : ℕ}
    (h : Tells s (s.ensureCapacity rows cols)) : rows = s.rows ∧ cols = s.cols := by
  have hsame : ¬Differ s (s.ensureCapacity rows cols) := fun hdiffer =>
    Nat.lt_irrefl _ (h.generation hdiffer)
  rw [Differ, not_or, not_or, not_not, not_not] at hsame
  exact ⟨hsame.1.symm, hsame.2.1.symm⟩

/-- A row whose generation `resize` takes along is told of by nothing. -/
theorem row_eq_of_tells_resize {s t : Screen} {rows cols i : ℕ} (h : Tells s (t.resize rows cols))
    (hs : i < s.rows) (hi : i < rows) (hold : t.rowGeneration i ≤ s.generation) :
    s.row i = (t.ensureCapacity rows cols).row i := by
  by_contra hrow
  have hdirty := of_decide_eq_true (h.row i hs hi hrow)
  have hgen : (t.resize rows cols).rowGeneration i = t.rowGeneration i :=
    @rowGeneration_ensureCapacity t rows cols i hi
  omega

theorem unhidden_of_tells (hsound : (seen k).Sound)
    (h : ∀ j ≤ k, Tells (seen j) ((seen k).step op)) : Unhidden seen k op := by
  cases op with
  | ensureCapacity rows cols => exact eq_of_tells_ensureCapacity (h k (Nat.le_refl k))
  | resize rows cols =>
    refine ⟨fun hold hnew => ?_, fun j hjk i hi hrows hj => ?_⟩
    · have hrow := row_eq_of_tells_resize (h k (Nat.le_refl k)) hold hnew
        (hsound.rowGeneration_le 0)
      have hlen := congrArg List.length hrow
      rw [hsound.length_row hold, (shaped_ensureCapacity rows cols (seen k)).length_row hnew] at hlen
      exact hlen.symm
    · have hnone : (seen k).rowGeneration i = 0 := by
        rw [rowGeneration, List.getElem?_eq_none (hsound.generations ▸ hi), Option.getD_none]
      rw [row_eq_of_tells_resize (h j hjk) hj hrows (hnone ▸ Nat.zero_le _),
        row_ensureCapacity hrows, hsound.rows, if_neg (Nat.not_lt.mpr hi)]
  | _ => trivial

/-- The moments of a run are in shape and tell of every change exactly if every step of it does. -/
theorem tracked_iff (rows cols : ℕ) (ops : List Mutation)
    (hops : Meets step InRange (new rows cols) ops) :
    Tracked (moment step (new rows cols) ops) ↔
      ∀ k op, ops[k]? = some op → Unhidden (moment step (new rows cols) ops) k op := by
  rw [meets_iff_moment] at hops
  have hsound : ∀ k, (moment step (new rows cols) ops k).Sound :=
    forall_moments (sound_new rows cols) fun k op hop hk => sound_step hk (hops k op hop)
  constructor
  · intro h k op hop
    have hnext : moment step (new rows cols) ops (k + 1) =
        (moment step (new rows cols) ops k).step op := moment_succ hop
    refine unhidden_of_tells (hsound k) fun j hjk => ?_
    rw [← hnext]
    exact h.tells j (k + 1) (Nat.le_succ_of_le hjk)
  · intro h
    refine ⟨fun k => (hsound k).toKept, fun j k hjk => ?_⟩
    refine Tracks.tells (forall_pairs (fun _ => .refl _) (fun j k op hle hop hjk => ?_) hjk) (hsound k)
    exact tracks_step hjk hle (hsound k) (hops k op hop) (h k op hop)

/-- A screen that is written to, scrolled and made higher. -/
theorem tracked_heightened : Tracked (moment step (new 2 2)
    [.setCell 0 1 ⟨['x'], {}⟩, .scrollUp 1 0 1, .resize 3 2]) := by
  have hops : Meets step InRange (new 2 2)
      [.setCell 0 1 ⟨['x'], {}⟩, .scrollUp 1 0 1, .resize 3 2] :=
    ⟨show 0 < 2 ∧ 1 < 2 by decide, show 0 ≤ 1 ∧ 1 < 2 by decide, trivial, trivial⟩
  refine (tracked_iff 2 2 _ hops).mpr ?_
  rintro (_ | _ | _ | k) op hop
  · obtain rfl := Option.some.inj hop
    trivial
  · obtain rfl := Option.some.inj hop
    trivial
  · obtain rfl := Option.some.inj hop
    refine ⟨fun _ _ => rfl, fun j hj i hi _ hold => ?_⟩
    have hrows : ∀ j ≤ 2, (moment step (new 2 2)
        [.setCell 0 1 ⟨['x'], {}⟩, .scrollUp 1 0 1, .resize 3 2] j).rows = 2 := by decide
    rw [hrows j hj] at hold
    exact absurd hold (Nat.not_lt.mpr hi)
  · cases hop

/-- A row is cut off, and neither a `resize` tells of it nor an `ensure_capacity`. -/
theorem not_tracked_narrowed :
    (Meets step InRange (new 1 2) [.setCell 0 1 ⟨['x'], {}⟩, .resize 1 1] ∧
      ¬Tracked (moment step (new 1 2) [.setCell 0 1 ⟨['x'], {}⟩, .resize 1 1])) ∧
    (Meets step InRange (new 1 2) [.ensureCapacity 1 1] ∧
      ¬Tracked (moment step (new 1 2) [.ensureCapacity 1 1])) := by
  refine ⟨⟨⟨show 0 < 1 ∧ 1 < 2 by decide, trivial, trivial⟩, fun h => ?_⟩,
    ⟨trivial, trivial⟩, fun h => ?_⟩
  · have hdirty := (h.tells 1 2 (by decide)).row 0 (by decide) (by decide) (by decide)
    exact absurd hdirty (by decide)
  · have hlt := (h.tells 0 1 (by decide)).generation (.inr (.inl (by decide)))
    exact absurd hlt (by decide)

end Runs

end Forgetty.Screen
