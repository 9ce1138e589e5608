import Forgetty.Lib.LeafTree
import Forgetty.Lib.Run
import Mathlib.Data.Int.Order.Basic
import Mathlib.Data.List.Count
import Mathlib.Logic.Function.Iterate

/-! Boxes cut into smaller boxes, in any number of dimensions: a tree of cuts with a gap at
each of them, and the boxes of its leaves. Of every cell a part is shown, which is wider than
what can be hidden between two neighbours. Who always goes from a cell to the nearest one
ahead along some axis comes from any cell to any other. -/

namespace Forgetty.Lib

/-- What a box covers of an axis. -/
structure Span where
  start : ℤ
  stop : ℤ
  deriving DecidableEq, Repr

namespace Span

def Meets (a b : Span) : Prop := a.start < b.stop ∧ b.start < a.stop

instance (a b : Span) : Decidable (a.Meets b) := inferInstanceAs (Decidable (_ ∧ _))

/-- The axis the other way round. -/
def turned (a : Span) : Span := { start := -a.stop, stop := -a.start }

@[simp] theorem turned_start (a : Span) : a.turned.start = -a.stop := rfl

@[simp] theorem turned_stop (a : Span) : a.turned.stop = -a.start := rfl

end Span

/-- A box by what it covers of each axis. -/
abbrev Box (ι : Type*) := ι → Span

/-! ### What is shown -/

section Showing

variable {ι α : Type*}

/-- What is shown of the cells: up to `lead` is hidden at the start of a cell and up to
`trail` at its end, and every cell shows more than what is hidden between two of them. -/
structure Showing (gap : ℤ) (lead trail : ι → ℤ) (cell shown : α → Box ι) (leaves : List α) :
    Prop where
  gap_nonneg : 0 ≤ gap
  start_le : ∀ a ∈ leaves, ∀ i, (cell a i).start ≤ (shown a i).start
  le_start : ∀ a ∈ leaves, ∀ i, (shown a i).start ≤ (cell a i).start + lead i
  stop_le : ∀ a ∈ leaves, ∀ i, (shown a i).stop ≤ (cell a i).stop
  le_stop : ∀ a ∈ leaves, ∀ i, (cell a i).stop - trail i ≤ (shown a i).stop
  wide : ∀ a ∈ leaves, ∀ i, (shown a i).start + lead i + gap + trail i < (shown a i).stop

/-- What is shown of `b` is ahead of what is shown of `a` along an axis, and beside it on no
other. -/
def Ahead (shown : α → Box ι) (i : ι) (a b : α) : Prop :=
  (shown a i).stop ≤ (shown b i).start ∧ ∀ j, j ≠ i → (shown a j).Meets (shown b j)

/-- None is ahead by less. -/
structure Nearest (shown : α → Box ι) (whole : List α) (i : ι) (a b : α) : Prop where
  mem : b ∈ whole
  ahead : Ahead shown i a b
  le : ∀ c ∈ whole, Ahead shown i a c → (shown b i).start ≤ (shown c i).start

/-- What is ahead of a leaf of the tree without being one is behind the area of the tree. -/
def Apart (gap : ℤ) (cell shown : α → Box ι) (whole : List α) (i : ι) (t : LeafTree ι α)
    (area : Box ι) : Prop :=
  ∀ a ∈ t.leaves, ∀ c ∈ whole, c ∉ t.leaves → Ahead shown i a c →
    (area i).stop + gap ≤ (cell c i).start

variable {gap : ℤ} {lead trail : ι → ℤ} {cell shown : α → Box ι} {whole : List α} {i : ι}
  {first second : LeafTree ι α} {a : α}

namespace Showing

theorem mono {leaves : List α} (h : Showing gap lead trail cell shown whole)
    (hsub : ∀ a ∈ leaves, a ∈ whole) : Showing gap lead trail cell shown leaves where
  gap_nonneg := h.gap_nonneg
  start_le a ha := h.start_le a (hsub a ha)
  le_start a ha := h.le_start a (hsub a ha)
  stop_le a ha := h.stop_le a (hsub a ha)
  le_stop a ha := h.le_stop a (hsub a ha)
  wide a ha := h.wide a (hsub a ha)

theorem ofFirst (h : Showing gap lead trail cell shown (LeafTree.node i first second).leaves) :
    Showing gap lead trail cell shown first.leaves :=
  h.mono fun _ ha => List.mem_append_left _ ha

theorem ofSecond (h : Showing gap lead trail cell shown (LeafTree.node i first second).leaves) :
    Showing gap lead trail cell shown second.leaves :=
  h.mono fun _ ha => List.mem_append_right _ ha

theorem lead_nonneg (h : Showing gap lead trail cell shown whole) (ha : a ∈ whole) (i : ι) :
    0 ≤ lead i := by
  have h1 := h.start_le a ha i
  have h2 := h.le_start a ha i
  omega

theorem trail_nonneg (h : Showing gap lead trail cell shown whole) (ha : a ∈ whole) (i : ι) :
    0 ≤ trail i := by
  have h1 := h.stop_le a ha i
  have h2 := h.le_stop a ha i
  omega

end Showing

end Showing

/-! ### Cells -/

section Cells

variable {ι α : Type*} [DecidableEq ι]

/-- The part of a box in front of a cut across an axis. -/
def Box.front (area : Box ι) (i : ι) (cut : ℤ) : Box ι :=
  Function.update area i { start := (area i).start, stop := cut }

/-- The part behind it. -/
def Box.back (area : Box ι) (i : ι) (cut : ℤ) : Box ι :=
  Function.update area i { start := cut, stop := (area i).stop }

/-- The leaves have the cells that the cuts leave of the area. A node cuts across its axis. -/
def Placed (gap : ℤ) (cell : α → Box ι) : LeafTree ι α → Box ι → Prop
  | .leaf a, area => cell a = area
  | .node i first second, area =>
    ∃ cut, Placed gap cell first (area.front i cut) ∧
      Placed gap cell second (area.back i (cut + gap))

variable {gap : ℤ} {lead trail : ι → ℤ} {cell shown : α → Box ι} {whole : List α} {i : ι}
  {t first second : LeafTree ι α} {area : Box ι} {a b c : α}

@[simp] theorem Box.front_self (area : Box ι) (i : ι) (cut : ℤ) :
    area.front i cut i = { start := (area i).start, stop := cut } := Function.update_self ..

@[simp] theorem Box.back_self (area : Box ι) (i : ι) (cut : ℤ) :
    area.back i cut i = { start := cut, stop := (area i).stop } := Function.update_self ..

theorem Box.front_of_ne (area : Box ι) {i j : ι} (h : j ≠ i) (cut : ℤ) :
    area.front i cut j = area j := Function.update_of_ne h ..

theorem Box.back_of_ne (area : Box ι) {i j : ι} (h : j ≠ i) (cut : ℤ) :
    area.back i cut j = area j := Function.update_of_ne h ..

namespace Placed

/-- An area is wider than what can be hidden between two cells. -/
theorem area_wide (h : Placed gap cell t area) (hs : Showing gap lead trail cell shown t.leaves)
    (j : ι) : (area j).start + lead j + gap + trail j < (area j).stop := by
  induction t generalizing area with
  | leaf a =>
    have ha : a ∈ (LeafTree.leaf a : LeafTree ι α).leaves := by simp
    have hcell : cell a = area := h
    have h1 := hs.start_le a ha j
    have h2 := hs.stop_le a ha j
    have h3 := hs.wide a ha j
    rw [hcell] at h1 h2
    omega
  | node k first second hfirst hsecond =>
    obtain ⟨cut, hf, hb⟩ := h
    have h1 := hfirst hf hs.ofFirst
    have h2 := hsecond hb hs.ofSecond
    by_cases hj : j = k
    · subst hj
      rw [Box.front_self] at h1
      rw [Box.back_self] at h2
      have hlead := hs.lead_nonneg (List.mem_append_left _ first.leftmost_mem) j
      have htrail := hs.trail_nonneg (List.mem_append_left _ first.leftmost_mem) j
      have hgap := hs.gap_nonneg
      dsimp only at h1 h2
      omega
    · rwa [Box.front_of_ne area hj] at h1

/-- A cell is in the area. -/
theorem within (h : Placed gap cell t area) (hs : Showing gap lead trail cell shown t.leaves)
    (ha : a ∈ t.leaves) (j : ι) :
    (area j).start ≤ (cell a j).start ∧ (cell a j).stop ≤ (area j).stop := by
  induction t generalizing area with
  | leaf b =>
    obtain rfl : a = b := by simpa using ha
    have hcell : cell a = area := h
    rw [hcell]
    exact ⟨le_rfl, le_rfl⟩
  | node k first second hfirst hsecond =>
    obtain ⟨cut, hf, hb⟩ := h
    have hgap := hs.gap_nonneg
    have hlead := hs.lead_nonneg ha k
    have htrail := hs.trail_nonneg ha k
    have hwf := hf.area_wide hs.ofFirst k
    have hwb := hb.area_wide hs.ofSecond k
    rw [Box.front_self] at hwf
    rw [Box.back_self] at hwb
    dsimp only at hwf hwb
    by_cases hj : j = k
    · subst hj
      rcases List.mem_append.mp ha with ha | ha
      · have hin := hfirst hf hs.ofFirst ha
        rw [Box.front_self] at hin
        dsimp only at hin
        omega
      · have hin := hsecond hb hs.ofSecond ha
        rw [Box.back_self] at hin
        dsimp only at hin
        omega
    · rcases List.mem_append.mp ha with ha | ha
      · have hin := hfirst hf hs.ofFirst ha
        rwa [Box.front_of_ne area hj] at hin
      · have hin := hsecond hb hs.ofSecond ha
        rwa [Box.back_of_ne area hj] at hin

/-- A cell starts where the area does, or far behind that. -/
theorem start_eq_or (h : Placed gap cell t area)
    (hs : Showing gap lead trail cell shown t.leaves) (ha : a ∈ t.leaves) (j : ι) :
    (cell a j).start = (area j).start ∨ (area j).start + gap + lead j < (cell a j).start := by
  induction t generalizing area with
  | leaf b =>
    obtain rfl : a = b := by simpa using ha
    have hcell : cell a = area := h
    exact .inl (by rw [hcell])
  | node k first second hfirst hsecond =>
    obtain ⟨cut, hf, hb⟩ := h
    by_cases hj : j = k
    · subst hj
      rcases List.mem_append.mp ha with ha | ha
      · simpa using hfirst hf hs.ofFirst ha
      · have hin := (hb.within hs.ofSecond ha j).1
        have hwide := hf.area_wide hs.ofFirst j
        have htrail := hs.trail_nonneg (List.mem_append_right _ ha) j
        have hgap := hs.gap_nonneg
        rw [Box.back_self] at hin
        rw [Box.front_self] at hwide
        dsimp only at hin hwide
        omega
    · rcases List.mem_append.mp ha with ha | ha
      · simpa [Box.front_of_ne area hj] using hfirst hf hs.ofFirst ha
      · simpa [Box.back_of_ne area hj] using hsecond hb hs.ofSecond ha

/-- A cell stops where the area does, or far in front of that. -/
theorem stop_eq_or (h : Placed gap cell t area)
    (hs : Showing gap lead trail cell shown t.leaves) (ha : a ∈ t.leaves) (j : ι) :
    (cell a j).stop = (area j).stop ∨ (cell a j).stop + gap + lead j < (area j).stop := by
  induction t generalizing area with
  | leaf b =>
    obtain rfl : a = b := by simpa using ha
    have hcell : cell a = area := h
    exact .inl (by rw [hcell])
  | node k first second hfirst hsecond =>
    obtain ⟨cut, hf, hb⟩ := h
    by_cases hj : j = k
    · subst hj
      rcases List.mem_append.mp ha with ha | ha
      · have hin := (hf.within hs.ofFirst ha j).2
        have hwide := hb.area_wide hs.ofSecond j
        have htrail := hs.trail_nonneg (List.mem_append_left _ ha) j
        have hgap := hs.gap_nonneg
        rw [Box.front_self] at hin
        rw [Box.back_self] at hwide
        dsimp only at hin hwide
        omega
      · simpa using hsecond hb hs.ofSecond ha
    · rcases List.mem_append.mp ha with ha | ha
      · simpa [Box.front_of_ne area hj] using hfirst hf hs.ofFirst ha
      · simpa [Box.back_of_ne area hj] using hsecond hb hs.ofSecond ha

/-! ### Who is ahead -/

/-- Of two cells on the two sides of a cut, the one behind it is ahead, and only along the axis
of the cut. -/
theorem axis_of_ahead {cut : ℤ} (hf : Placed gap cell first (area.front i cut))
    (hb : Placed gap cell second (area.back i (cut + gap)))
    (hsf : Showing gap lead trail cell shown first.leaves)
    (hsb : Showing gap lead trail cell shown second.leaves) (ha : a ∈ first.leaves)
    (hc : c ∈ second.leaves) {j : ι} (h : Ahead shown j a c ∨ Ahead shown j c a) :
    j = i ∧ Ahead shown j a c := by
  have h1 := (hf.within hsf ha i).2
  have h2 := (hb.within hsb hc i).1
  have h3 := hsf.stop_le a ha i
  have h4 := hsb.start_le c hc i
  have hgap := hsf.gap_nonneg
  rw [Box.front_self] at h1
  rw [Box.back_self] at h2
  dsimp only at h1 h2
  by_cases hj : j = i
  · subst hj
    refine ⟨rfl, h.resolve_right fun hca => ?_⟩
    have hwa := hsf.wide a ha j
    have hwc := hsb.wide c hc j
    have hlead := hsf.lead_nonneg ha j
    have htrail := hsf.trail_nonneg ha j
    have := hca.1
    omega
  · exfalso
    rcases h with h | h
    · have := (h.2 i (Ne.symm hj)).2
      omega
    · have := (h.2 i (Ne.symm hj)).1
      omega

/-- Who is ahead starts behind the gap, or far behind it. -/
theorem start_of_ahead (h : Placed gap cell t area)
    (hs : Showing gap lead trail cell shown t.leaves) (ha : a ∈ t.leaves) (hc : c ∈ t.leaves)
    (hac : Ahead shown i a c) : (cell c i).start = (cell a i).stop + gap ∨
      (cell a i).stop + gap + lead i < (cell c i).start := by
  induction t generalizing area with
  | leaf b =>
    obtain rfl : a = b := by simpa using ha
    obtain rfl : c = a := by simpa using hc
    have hwide := hs.wide c ha i
    have hlead := hs.lead_nonneg ha i
    have htrail := hs.trail_nonneg ha i
    have hgap := hs.gap_nonneg
    have := hac.1
    omega
  | node k first second hfirst hsecond =>
    obtain ⟨cut, hf, hb⟩ := h
    rcases List.mem_append.mp ha with haf | hab <;> rcases List.mem_append.mp hc with hcf | hcb
    · exact hfirst hf hs.ofFirst haf hcf
    · obtain ⟨rfl, -⟩ := axis_of_ahead hf hb hs.ofFirst hs.ofSecond haf hcb (.inl hac)
      have hstop := hf.stop_eq_or hs.ofFirst haf i
      have hstart := hb.start_eq_or hs.ofSecond hcb i
      have hlead := hs.ofFirst.lead_nonneg haf i
      have hgap := hs.gap_nonneg
      rw [Box.front_self] at hstop
      rw [Box.back_self] at hstart
      dsimp only at hstop hstart
      omega
    · obtain ⟨rfl, hca⟩ := axis_of_ahead hf hb hs.ofFirst hs.ofSecond hcf hab (.inr hac)
      have h1 := hs.ofSecond.wide a hab i
      have h2 := hs.ofFirst.wide c hcf i
      have hlead := hs.ofFirst.lead_nonneg hcf i
      have htrail := hs.ofFirst.trail_nonneg hcf i
      have hgap := hs.gap_nonneg
      have h3 := hca.1
      have h4 := hac.1
      omega
    · exact hsecond hb hs.ofSecond hab hcb

/-- Something wide that comes to an area along an axis is beside one of the cells where the
area starts. -/
theorem exists_touching (h : Placed gap cell t area)
    (hs : Showing gap lead trail cell shown t.leaves) {p : Box ι}
    (hp : ∀ j, (p j).start + lead j + gap + trail j < (p j).stop)
    (hmeets : ∀ j, j ≠ i → (p j).start + trail j < (area j).stop ∧
      (area j).start + lead j < (p j).stop) :
    ∃ c ∈ t.leaves, (cell c i).start = (area i).start ∧ ∀ j, j ≠ i → (p j).Meets (shown c j) := by
  induction t generalizing area with
  | leaf a =>
    have ha : a ∈ (LeafTree.leaf a : LeafTree ι α).leaves := by simp
    have hcell : cell a = area := h
    refine ⟨a, ha, by rw [hcell], fun j hj => ?_⟩
    have h1 := hs.le_start a ha j
    have h2 := hs.le_stop a ha j
    have h3 := hmeets j hj
    rw [hcell] at h1 h2
    exact ⟨by omega, by omega⟩
  | node k first second hfirst hsecond =>
    obtain ⟨cut, hf, hb⟩ := h
    -- Across the axis of the walk one of the parts is met: the walker is wider than what both
    -- hide where they meet.
    have hpart : k = i ∨ (k ≠ i ∧ (p k).start + trail k < cut) ∨
        (k ≠ i ∧ cut + gap + lead k < (p k).stop) := by
      by_cases hk : k = i
      · exact .inl hk
      · have := hp k
        have := hmeets k hk
        by_cases hcut : (p k).start + trail k < cut
        · exact .inr (.inl ⟨hk, hcut⟩)
        · exact .inr (.inr ⟨hk, by omega⟩)
    have hback : (cut + gap + lead k < (p k).stop ∧ k ≠ i) →
        ∃ c ∈ second.leaves, (cell c i).start = (area i).start ∧
          ∀ j, j ≠ i → (p j).Meets (shown c j) := by
      rintro ⟨hcut, hk⟩
      have hmeets' (j : ι) (hj : j ≠ i) : (p j).start + trail j < (area.back k (cut + gap) j).stop ∧
          (area.back k (cut + gap) j).start + lead j < (p j).stop := by
        by_cases hjk : j = k
        · subst hjk
          rw [Box.back_self]
          exact ⟨(hmeets j hj).1, hcut⟩
        · rw [Box.back_of_ne area hjk]
          exact hmeets j hj
      have hc := hsecond hb hs.ofSecond hmeets'
      rwa [Box.back_of_ne area (Ne.symm hk)] at hc
    have hfront : (k = i ∨ (p k).start + trail k < cut) →
        ∃ c ∈ first.leaves, (cell c i).start = (area i).start ∧
          ∀ j, j ≠ i → (p j).Meets (shown c j) := by
      intro hcut
      have hmeets' (j : ι) (hj : j ≠ i) : (p j).start + trail j < (area.front k cut j).stop ∧
          (area.front k cut j).start + lead j < (p j).stop := by
        by_cases hjk : j = k
        · subst hjk
          rw [Box.front_self]
          exact ⟨hcut.resolve_left hj, (hmeets j hj).2⟩
        · rw [Box.front_of_ne area hjk]
          exact hmeets j hj
      have hc := hfirst hf hs.ofFirst hmeets'
      by_cases hk : i = k
      · subst hk
        simpa using hc
      · rwa [Box.front_of_ne area hk] at hc
    rcases hpart with hk | ⟨hk, hcut⟩ | ⟨hk, hcut⟩
    · obtain ⟨c, hc, hcc⟩ := hfront (.inl hk)
      exact ⟨c, List.mem_append_left _ hc, hcc⟩
    · obtain ⟨c, hc, hcc⟩ := hfront (.inr hcut)
      exact ⟨c, List.mem_append_left _ hc, hcc⟩
    · obtain ⟨c, hc, hcc⟩ := hback ⟨hcut, hk⟩
      exact ⟨c, List.mem_append_right _ hc, hcc⟩

/-- A cell that stops in front of the end of the area has one ahead, right behind the gap. -/
theorem exists_ahead (h : Placed gap cell t area)
    (hs : Showing gap lead trail cell shown t.leaves) (ha : a ∈ t.leaves)
    (hstop : (cell a i).stop < (area i).stop) :
    ∃ c ∈ t.leaves, (cell c i).start = (cell a i).stop + gap ∧ Ahead shown i a c := by
  induction t generalizing area with
  | leaf b =>
    obtain rfl : a = b := by simpa using ha
    have hcell : cell a = area := h
    rw [hcell] at hstop
    exact absurd hstop (lt_irrefl _)
  | node k first second hfirst hsecond =>
    obtain ⟨cut, hf, hb⟩ := h
    rcases List.mem_append.mp ha with ha | ha
    · by_cases hin : (cell a i).stop < (area.front k cut i).stop
      · obtain ⟨c, hc, hcc⟩ := hfirst hf hs.ofFirst ha hin
        exact ⟨c, List.mem_append_left _ hc, hcc⟩
      · -- The cell reaches the cut, which is then across the axis of the walk.
        obtain rfl : k = i := by
          by_contra hk
          rw [Box.front_of_ne area (Ne.symm hk)] at hin
          exact hin hstop
        have hle := (hf.within hs.ofFirst ha k).2
        rw [Box.front_self] at hin hle
        dsimp only at hin hle
        have hmeets (j : ι) (hj : j ≠ k) :
            (shown a j).start + trail j < (area.back k (cut + gap) j).stop ∧
              (area.back k (cut + gap) j).start + lead j < (shown a j).stop := by
          rw [Box.back_of_ne area hj]
          have h1 := hf.within hs.ofFirst ha j
          rw [Box.front_of_ne area hj] at h1
          have h2 := hs.ofFirst.start_le a ha j
          have h3 := hs.ofFirst.stop_le a ha j
          have h4 := hs.ofFirst.wide a ha j
          have h5 := hs.ofFirst.lead_nonneg ha j
          have h6 := hs.ofFirst.trail_nonneg ha j
          have h7 := hs.gap_nonneg
          omega
        obtain ⟨c, hc, hstart, hbeside⟩ := exists_touching hb hs.ofSecond (hs.ofFirst.wide a ha) hmeets
        have hcell : (cell c k).start = (cell a k).stop + gap := by
          rw [hstart, Box.back_self]
          dsimp only
          omega
        have h1 := hs.ofFirst.stop_le a ha k
        have h2 := hs.ofSecond.start_le c hc k
        have h3 := hs.gap_nonneg
        exact ⟨c, List.mem_append_right _ hc, hcell, by omega, hbeside⟩
    · have hin : (cell a i).stop < (area.back k (cut + gap) i).stop := by
        by_cases hk : i = k
        · subst hk
          rwa [Box.back_self]
        · rwa [Box.back_of_ne area hk]
      obtain ⟨c, hc, hcc⟩ := hsecond hb hs.ofSecond ha hin
      exact ⟨c, List.mem_append_right _ hc, hcc⟩

end Placed

namespace Apart

omit [DecidableEq ι] in
/-- Nothing is outside a tree of all leaves. -/
theorem ofLeaves (h : ∀ c ∈ whole, c ∈ t.leaves) : Apart gap cell shown whole i t area :=
  fun _ _ c hc hnot _ => absurd (h c hc) hnot

/-- What is apart from a tree is apart from its parts, and they are from one another. -/
theorem children {cut : ℤ} {k : ι} (h : Apart gap cell shown whole i (.node k first second) area)
    (hf : Placed gap cell first (area.front k cut))
    (hb : Placed gap cell second (area.back k (cut + gap)))
    (hs : Showing gap lead trail cell shown (LeafTree.node k first second).leaves) :
    Apart gap cell shown whole i first (area.front k cut) ∧
      Apart gap cell shown whole i second (area.back k (cut + gap)) := by
  have hcut : cut ≤ (area k).stop := by
    have hwide := hb.area_wide hs.ofSecond k
    have hlead := hs.ofSecond.lead_nonneg second.leftmost_mem k
    have htrail := hs.ofSecond.trail_nonneg second.leftmost_mem k
    have hgap := hs.gap_nonneg
    rw [Box.back_self] at hwide
    dsimp only at hwide
    omega
  refine ⟨fun a ha c hc hnot hac => ?_, fun a ha c hc hnot hac => ?_⟩
  · by_cases hin : c ∈ second.leaves
    · obtain ⟨rfl, -⟩ := Placed.axis_of_ahead hf hb hs.ofFirst hs.ofSecond ha hin (.inl hac)
      have := (hb.within hs.ofSecond hin i).1
      rw [Box.back_self] at this
      rwa [Box.front_self]
    · have hout := h a (List.mem_append_left _ ha) c hc
        (fun hmem => (List.mem_append.mp hmem).elim hnot hin) hac
      by_cases hk : i = k
      · subst hk
        rw [Box.front_self]
        dsimp only
        omega
      · rwa [Box.front_of_ne area hk]
  · by_cases hin : c ∈ first.leaves
    · obtain ⟨rfl, hca⟩ := Placed.axis_of_ahead hf hb hs.ofFirst hs.ofSecond hin ha (.inr hac)
      have h1 := hs.ofSecond.wide a ha i
      have h2 := hs.ofFirst.wide c hin i
      have hlead := hs.ofFirst.lead_nonneg hin i
      have htrail := hs.ofFirst.trail_nonneg hin i
      have hgap := hs.gap_nonneg
      have h3 := hca.1
      have h4 := hac.1
      omega
    · have hout := h a (List.mem_append_right _ ha) c hc
        (fun hmem => (List.mem_append.mp hmem).elim hin hnot) hac
      by_cases hk : i = k
      · subst hk
        rwa [Box.back_self]
      · rwa [Box.back_of_ne area hk]

end Apart

/-- The nearest cell ahead of one that stops in front of the end of an area is in the area. -/
theorem Nearest.mem_leaves (h : Placed gap cell t area)
    (hs : Showing gap lead trail cell shown whole) (hsub : ∀ a ∈ t.leaves, a ∈ whole)
    (happ : Apart gap cell shown whole i t area) (ha : a ∈ t.leaves)
    (hstop : (cell a i).stop < (area i).stop) (hb : Nearest shown whole i a b) :
    b ∈ t.leaves ∧ (cell b i).start = (cell a i).stop + gap := by
  have hst := hs.mono hsub
  obtain ⟨c, hc, hstart, hac⟩ := h.exists_ahead hst ha hstop
  have hle := hb.le c (hsub c hc) hac
  have h1 := hs.le_start c (hsub c hc) i
  have h2 := hs.start_le b hb.mem i
  have hin : b ∈ t.leaves := by
    by_contra hnot
    have h3 := happ a ha b hb.mem hnot hb.ahead
    have h4 := h.stop_eq_or hst ha i
    have h5 := hs.gap_nonneg
    omega
  refine ⟨hin, (h.start_of_ahead hst ha hin hb.ahead).resolve_right fun hfar => ?_⟩
  omega

/-! ### Walks -/

/-- With one more counted, there are more. -/
theorem countP_lt_of_imp {l : List α} {p q : α → Bool} (h : ∀ x ∈ l, q x → p x) (ha : a ∈ l)
    (hp : p a) (hq : ¬q a) : l.countP q < l.countP p := by
  obtain ⟨s, t, rfl⟩ := List.append_of_mem ha
  have hs : s.countP q ≤ s.countP p := List.countP_mono_left fun x hx => h x (by simp [hx])
  have ht : t.countP q ≤ t.countP p := List.countP_mono_left fun x hx => h x (by simp [hx])
  rw [List.countP_append, List.countP_append, List.countP_cons_of_pos hp, List.countP_cons_of_neg hq]
  omega

/-- Who goes to the nearest ahead comes to the other side of a cut: on this side the cells
start further and further ahead. -/
theorem exists_crossing {go : α → α} (h : Placed gap cell (.node i first second) area)
    (hs : Showing gap lead trail cell shown whole)
    (hsub : ∀ a ∈ (LeafTree.node i first second).leaves, a ∈ whole)
    (happ : Apart gap cell shown whole i (.node i first second) area)
    (hgo : ∀ a ∈ whole, (∃ c ∈ whole, Ahead shown i a c) → Nearest shown whole i a (go a))
    (ha : a ∈ first.leaves) : ∃ n ≤ first.leaves.length, go^[n] a ∈ second.leaves := by
  have hst := hs.mono hsub
  have hnode := h
  obtain ⟨cut, hf, hb⟩ := h
  have hgap := hs.gap_nonneg
  have hnext (a : α) (ha : a ∈ first.leaves) : go a ∈ (LeafTree.node i first second).leaves ∧
      (cell a i).start < (cell (go a) i).start := by
    have hmem : a ∈ (LeafTree.node i first second).leaves := List.mem_append_left _ ha
    have hwide := hb.area_wide hst.ofSecond i
    have hlead := hst.lead_nonneg hmem i
    have htrail := hst.trail_nonneg hmem i
    have hin := (hf.within hst.ofFirst ha i).2
    rw [Box.back_self] at hwide
    rw [Box.front_self] at hin
    dsimp only at hwide hin
    have hstop : (cell a i).stop < (area i).stop := by omega
    obtain ⟨c, hc, -, hac⟩ := hnode.exists_ahead hst hmem hstop
    have hnear := hgo a (hsub a hmem) ⟨c, hsub c hc, hac⟩
    obtain ⟨hgmem, hstart⟩ := hnear.mem_leaves hnode hs hsub happ hmem hstop
    have h1 := hst.start_le a hmem i
    have h2 := hst.stop_le a hmem i
    have h3 := hst.wide a hmem i
    exact ⟨hgmem, by omega⟩
  have hwalk (m : ℕ) (a : α) (ha : a ∈ first.leaves)
      (hm : first.leaves.countP (fun c => (cell a i).start < (cell c i).start) ≤ m) :
      ∃ n ≤ m + 1, go^[n] a ∈ second.leaves := by
    induction m generalizing a with
    | zero =>
      obtain ⟨hg, hlt⟩ := hnext a ha
      refine ⟨1, Nat.le_refl _, (List.mem_append.mp hg).resolve_left fun hin => ?_⟩
      have hpos : 0 < first.leaves.countP (fun c => (cell a i).start < (cell c i).start) :=
        List.countP_pos_iff.mpr ⟨go a, hin, decide_eq_true hlt⟩
      omega
    | succ m ih =>
      obtain ⟨hg, hlt⟩ := hnext a ha
      rcases List.mem_append.mp hg with hin | hin
      · have hless : first.leaves.countP (fun c => (cell (go a) i).start < (cell c i).start) <
            first.leaves.countP (fun c => (cell a i).start < (cell c i).start) :=
          countP_lt_of_imp
            (fun c _ hc => decide_eq_true (lt_trans hlt (of_decide_eq_true hc))) hin
            (decide_eq_true hlt) (by simp)
        obtain ⟨n, hn, hmem⟩ := ih (go a) hin (by omega)
        exact ⟨n + 1, by omega, hmem⟩
      · exact ⟨1, by omega, hin⟩
  have hcount : first.leaves.countP (fun c => (cell a i).start < (cell c i).start) <
      first.leaves.length := List.countP_lt_length_iff.mpr ⟨a, ha, by simp⟩
  obtain ⟨n, hn, hmem⟩ := hwalk _ a ha (Nat.le_refl _)
  exact ⟨n, by omega, hmem⟩

/-! ### The other way round -/

/-- The box with one axis the other way round. -/
def Box.turned (area : Box ι) (i : ι) : Box ι := Function.update area i (area i).turned

@[simp] theorem Box.turned_self (area : Box ι) (i : ι) : area.turned i i = (area i).turned :=
  Function.update_self ..

theorem Box.turned_of_ne (area : Box ι) {i j : ι} (h : j ≠ i) : area.turned i j = area j :=
  Function.update_of_ne h ..

/-- The same cuts with one axis the other way round. -/
def mirror (i : ι) : LeafTree ι α → LeafTree ι α
  | .leaf a => .leaf a
  | .node k first second =>
    if k = i then .node k (mirror i second) (mirror i first)
    else .node k (mirror i first) (mirror i second)

theorem mem_mirror {i : ι} {t : LeafTree ι α} : a ∈ (mirror i t).leaves ↔ a ∈ t.leaves := by
  induction t with
  | leaf b => rfl
  | node k first second hfirst hsecond =>
    rw [mirror]
    split_ifs
    · rw [LeafTree.leaves_node, List.mem_append, hfirst, hsecond, or_comm, ← List.mem_append]
      rfl
    · rw [LeafTree.leaves_node, List.mem_append, hfirst, hsecond, ← List.mem_append]
      rfl

theorem length_mirror (i : ι) (t : LeafTree ι α) :
    (mirror i t).leaves.length = t.leaves.length := by
  induction t with
  | leaf b => rfl
  | node k first second hfirst hsecond =>
    rw [mirror]
    split_ifs <;> simp only [LeafTree.leaves_node, List.length_append, hfirst, hsecond, Nat.add_comm]

theorem Box.turned_front (area : Box ι) (i : ι) (cut gap : ℤ) :
    (area.turned i).front i (-(cut + gap)) = (area.back i (cut + gap)).turned i := by
  funext j
  by_cases hj : j = i
  · subst hj
    simp [Span.turned]
  · rw [Box.front_of_ne _ hj, Box.turned_of_ne _ hj, Box.turned_of_ne _ hj, Box.back_of_ne _ hj]

theorem Box.turned_back (area : Box ι) (i : ι) (cut gap : ℤ) :
    (area.turned i).back i (-(cut + gap) + gap) = (area.front i cut).turned i := by
  funext j
  by_cases hj : j = i
  · subst hj
    have hcut : -(cut + gap) + gap = -cut := by omega
    rw [hcut, Box.back_self, Box.turned_self, Box.turned_self, Box.front_self]
    rfl
  · rw [Box.back_of_ne _ hj, Box.turned_of_ne _ hj, Box.turned_of_ne _ hj, Box.front_of_ne _ hj]

theorem Box.turned_front_of_ne (area : Box ι) {k : ι} (hk : k ≠ i) (cut : ℤ) :
    (area.turned i).front k cut = (area.front k cut).turned i := by
  rw [Box.front, Box.turned_of_ne area hk, Box.turned, Box.turned,
    Box.front_of_ne area (Ne.symm hk), Box.front, Function.update_comm (Ne.symm hk)]

theorem Box.turned_back_of_ne (area : Box ι) {k : ι} (hk : k ≠ i) (cut : ℤ) :
    (area.turned i).back k cut = (area.back k cut).turned i := by
  rw [Box.back, Box.turned_of_ne area hk, Box.turned, Box.turned,
    Box.back_of_ne area (Ne.symm hk), Box.back, Function.update_comm (Ne.symm hk)]

theorem Placed.turned (h : Placed gap cell t area) (i : ι) :
    Placed gap (fun a => (cell a).turned i) (mirror i t) (area.turned i) := by
  induction t generalizing area with
  | leaf a =>
    have hcell : cell a = area := h
    exact congrArg (fun b : Box ι => b.turned i) hcell
  | node k first second hfirst hsecond =>
    obtain ⟨cut, hf, hb⟩ := h
    rw [mirror]
    split_ifs with hk
    · subst hk
      refine ⟨-(cut + gap), ?_, ?_⟩
      · rw [Box.turned_front]
        exact hsecond hb
      · rw [Box.turned_back]
        exact hfirst hf
    · exact ⟨cut, Box.turned_front_of_ne area hk cut ▸ hfirst hf,
        Box.turned_back_of_ne area hk (cut + gap) ▸ hsecond hb⟩

theorem Showing.turned (h : Showing gap lead trail cell shown whole) (i : ι) :
    Showing gap (Function.update lead i (trail i)) (Function.update trail i (lead i))
      (fun a => (cell a).turned i) (fun a => (shown a).turned i) whole := by
  have hall (a : α) (ha : a ∈ whole) (j : ι) :
      ((cell a).turned i j).start ≤ ((shown a).turned i j).start ∧
      ((shown a).turned i j).start ≤
        ((cell a).turned i j).start + Function.update lead i (trail i) j ∧
      ((shown a).turned i j).stop ≤ ((cell a).turned i j).stop ∧
      ((cell a).turned i j).stop - Function.update trail i (lead i) j ≤
        ((shown a).turned i j).stop ∧
      ((shown a).turned i j).start + Function.update lead i (trail i) j + gap +
        Function.update trail i (lead i) j < ((shown a).turned i j).stop := by
    have h1 := h.start_le a ha j
    have h2 := h.le_start a ha j
    have h3 := h.stop_le a ha j
    have h4 := h.le_stop a ha j
    have h5 := h.wide a ha j
    by_cases hj : j = i
    · subst hj
      simp only [Box.turned_self, Span.turned_start, Span.turned_stop, Function.update_self]
      omega
    · simp only [Box.turned_of_ne _ hj, Function.update_of_ne hj]
      omega
  exact {
    gap_nonneg := h.gap_nonneg
    start_le := fun a ha j => (hall a ha j).1
    le_start := fun a ha j => (hall a ha j).2.1
    stop_le := fun a ha j => (hall a ha j).2.2.1
    le_stop := fun a ha j => (hall a ha j).2.2.2.1
    wide := fun a ha j => (hall a ha j).2.2.2.2 }

/-- What is apart from a mirrored tree is apart from its mirrored parts. -/
theorem Apart.children_turned {cut : ℤ} {k : ι}
    (h : Apart gap (fun a => (cell a).turned i) (fun a => (shown a).turned i) whole i
      (mirror i (.node k first second)) (area.turned i))
    (hf : Placed gap cell first (area.front k cut))
    (hb : Placed gap cell second (area.back k (cut + gap)))
    (hs : Showing gap lead trail cell shown (LeafTree.node k first second).leaves) :
    Apart gap (fun a => (cell a).turned i) (fun a => (shown a).turned i) whole i
        (mirror i first) ((area.front k cut).turned i) ∧
      Apart gap (fun a => (cell a).turned i) (fun a => (shown a).turned i) whole i
        (mirror i second) ((area.back k (cut + gap)).turned i) := by
  have hst : Showing gap (Function.update lead i (trail i)) (Function.update trail i (lead i))
      (fun a => (cell a).turned i) (fun a => (shown a).turned i)
      (mirror i (.node k first second)).leaves :=
    (hs.turned i).mono fun _ ha => mem_mirror.mp ha
  rw [mirror] at h hst
  split_ifs at h hst with hk
  · subst hk
    have hf' : Placed gap (fun a => (cell a).turned k) (mirror k second)
        ((area.turned k).front k (-(cut + gap))) := Box.turned_front area k cut gap ▸ hb.turned k
    have hb' : Placed gap (fun a => (cell a).turned k) (mirror k first)
        ((area.turned k).back k (-(cut + gap) + gap)) := Box.turned_back area k cut gap ▸ hf.turned k
    obtain ⟨h1, h2⟩ := h.children hf' hb' hst
    rw [Box.turned_front] at h1
    rw [Box.turned_back] at h2
    exact ⟨h2, h1⟩
  · have hf' : Placed gap (fun a => (cell a).turned i) (mirror i first)
        ((area.turned i).front k cut) := Box.turned_front_of_ne area hk cut ▸ hf.turned i
    have hb' : Placed gap (fun a => (cell a).turned i) (mirror i second)
        ((area.turned i).back k (cut + gap)) :=
      Box.turned_back_of_ne area hk (cut + gap) ▸ hb.turned i
    obtain ⟨h1, h2⟩ := h.children hf' hb' hst
    rw [Box.turned_front_of_ne area hk] at h1
    rw [Box.turned_back_of_ne area hk] at h2
    exact ⟨h1, h2⟩

/-! ### Anywhere -/

/-- The box for one who looks along an axis, forwards or backwards. -/
def Box.facing (b : Box ι) (d : ι × Bool) : Box ι := if d.2 then b else b.turned d.1

/-- Each step goes to a nearest cell that way, where there is one. -/
def GoesToNearest (shown : α → Box ι) (whole : List α) (go : α → ι × Bool → α) : Prop :=
  ∀ d, ∀ a ∈ whole, (∃ c ∈ whole, Ahead (fun a => (shown a).facing d) d.1 a c) →
    Nearest (fun a => (shown a).facing d) whole d.1 a (go a d)

omit [DecidableEq ι] in
theorem run_replicate (go : α → ι × Bool → α) (d : ι × Bool) (a : α) (n : ℕ) :
    run go a (List.replicate n d) = (fun a => go a d)^[n] a := by
  induction n generalizing a with
  | zero => rfl
  | succ n ih => exact ih (go a d)

/-- From every leaf of a tree to every other. -/
theorem exists_walk_of_apart {go : α → ι × Bool → α} (h : Placed gap cell t area)
    (hs : Showing gap lead trail cell shown whole) (hsub : ∀ a ∈ t.leaves, a ∈ whole)
    (happ : ∀ i, Apart gap cell shown whole i t area)
    (hturned : ∀ i, Apart gap (fun a => (cell a).turned i) (fun a => (shown a).turned i) whole i
      (mirror i t) (area.turned i))
    (hgo : GoesToNearest shown whole go) (ha : a ∈ t.leaves) (hb : b ∈ t.leaves) :
    ∃ ds, ds.length < t.leaves.length ∧ run go a ds = b := by
  induction t generalizing area a with
  | leaf c =>
    obtain rfl : a = c := by simpa using ha
    obtain rfl : b = a := by simpa using hb
    exact ⟨[], by simp, rfl⟩
  | node k first second hfirst hsecond =>
    have hst := hs.mono hsub
    have hnode := h
    obtain ⟨cut, hpf, hpb⟩ := h
    have hsubf (a : α) (ha : a ∈ first.leaves) : a ∈ whole := hsub a (List.mem_append_left _ ha)
    have hsubb (a : α) (ha : a ∈ second.leaves) : a ∈ whole := hsub a (List.mem_append_right _ ha)
    have hinf {a : α} (ha : a ∈ first.leaves) (hb : b ∈ first.leaves) :=
      hfirst hpf hsubf (fun i => ((happ i).children hpf hpb hst).1)
        (fun i => ((hturned i).children_turned hpf hpb hst).1) ha hb
    have hinb {a : α} (ha : a ∈ second.leaves) (hb : b ∈ second.leaves) :=
      hsecond hpb hsubb (fun i => ((happ i).children hpf hpb hst).2)
        (fun i => ((hturned i).children_turned hpf hpb hst).2) ha hb
    rw [LeafTree.leaves_node, List.length_append]
    rcases List.mem_append.mp ha with haf | hab <;> rcases List.mem_append.mp hb with hbf | hbb
    · obtain ⟨ds, hlen, hrun⟩ := hinf haf hbf
      exact ⟨ds, by omega, hrun⟩
    · have hforward := fun a ha => hgo (k, true) a ha
      obtain ⟨n, hn, hmem⟩ := exists_crossing hnode hs hsub (happ k) hforward haf
      obtain ⟨ds, hlen, hrun⟩ := hinb hmem hbb
      refine ⟨List.replicate n (k, true) ++ ds, ?_, ?_⟩
      · rw [List.length_append, List.length_replicate]
        omega
      · rw [run_append, run_replicate, hrun]
    · have hmirror : mirror k (.node k first second) = .node k (mirror k second) (mirror k first) :=
        if_pos rfl
      have hbackward := fun a ha => hgo (k, false) a ha
      have hnode' := hnode.turned k
      have happ' := hturned k
      rw [hmirror] at hnode' happ'
      have hsub' (a : α) (ha : a ∈ (LeafTree.node k (mirror k second) (mirror k first)).leaves) :
          a ∈ whole := hsub a (mem_mirror.mp (hmirror ▸ ha))
      obtain ⟨n, hn, hmem⟩ := exists_crossing hnode' (hs.turned k) hsub' happ' hbackward
        (mem_mirror.mpr hab)
      rw [length_mirror] at hn
      obtain ⟨ds, hlen, hrun⟩ := hinf (mem_mirror.mp hmem) hbf
      refine ⟨List.replicate n (k, false) ++ ds, ?_, ?_⟩
      · rw [List.length_append, List.length_replicate]
        omega
      · rw [run_append, run_replicate, hrun]
    · obtain ⟨ds, hlen, hrun⟩ := hinb hab hbb
      exact ⟨ds, by omega, hrun⟩

/-- From every cell to every other, in fewer steps than there are cells. -/
theorem exists_walk {go : α → ι × Bool → α} (h : Placed gap cell t area)
    (hs : Showing gap lead trail cell shown t.leaves) (hgo : GoesToNearest shown t.leaves go)
    (ha : a ∈ t.leaves) (hb : b ∈ t.leaves) :
    ∃ ds, ds.length < t.leaves.length ∧ run go a ds = b :=
  exists_walk_of_apart h hs (fun _ ha => ha) (fun _ => .ofLeaves fun _ hc => hc)
    (fun _ => .ofLeaves fun _ hc => mem_mirror.mpr hc) hgo ha hb

end Cells

end Forgetty.Lib
