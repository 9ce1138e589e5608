import Forgetty.Gtk.CopySelection
import Forgetty.Gtk.SearchSpans
import Forgetty.Lib.SortDedup
import Mathlib.Data.List.Flatten
import Mathlib.Data.List.Rotate

/-! Searching all rows of a terminal. The screen is scrolled page by page over the rows, and the
last page can have rows that the page before it had already. Their matches are collected twice,
and what is found twice is dropped after the matches are sorted by row and column. -/

namespace Forgetty.Search

open Lib Vt CopySelection

structure SearchState where
  query : Text
  allMatches : List Match
  /-- `matches`, relative to the screen. -/
  viewportMatches : List Match
  currentIndex : ℕ
  currentViewportIndex : Option ℕ

/-- A pane with its terminal and its search. -/
structure SearchedPane where
  terminal : Scrollback
  viewportOffset : ℕ
  rows : ℕ
  cols : ℕ
  search : SearchState

/-- The grid of the pane is the screen of its terminal. Both get their dimensions together. -/
structure SearchedPane.Fitted (s : SearchedPane) : Prop where
  rows : s.rows = s.terminal.len
  cols : s.cols = s.terminal.cols

/-! ### The matches on the screen -/

/-- One match: it is put down if its row is shown. -/
def filterMatch (vpStart vpEnd currentIndex : ℕ) (currentAbs : Option Match)
    (shown : List Match × Option ℕ) (entry : Match × ℕ) : List Match × Option ℕ :=
  let absRow := entry.1.1
  if vpStart ≤ absRow ∧ absRow < vpEnd then
    (shown.1 ++ [(absRow - vpStart, entry.1.2)],
      if entry.2 = currentIndex ∧ currentAbs = some entry.1 then some shown.1.length else shown.2)
  else shown

def filterViewportMatches (s : SearchedPane) : SearchedPane :=
  let vpStart := s.terminal.offset
  let vpEnd := vpStart + s.terminal.len
  let currentAbs := s.search.allMatches[s.search.currentIndex]?
  let shown := s.search.allMatches.zipIdx.foldl
    (filterMatch vpStart vpEnd s.search.currentIndex currentAbs) ([], none)
  { s with search := { s.search with viewportMatches := shown.1, currentViewportIndex := shown.2 } }

section Filter

variable (s : SearchedPane)

@[simp] theorem terminal_filterViewportMatches :
    (filterViewportMatches s).terminal = s.terminal := rfl

@[simp] theorem query_filterViewportMatches :
    (filterViewportMatches s).search.query = s.search.query := rfl

@[simp] theorem allMatches_filterViewportMatches :
    (filterViewportMatches s).search.allMatches = s.search.allMatches := rfl

@[simp] theorem currentIndex_filterViewportMatches :
    (filterViewportMatches s).search.currentIndex = s.search.currentIndex := rfl

end Filter

/-! ### The matches of all rows -/

/-- The loop over the pages. Without a result it has panicked, or not ended within the given
number of rounds. -/
def scanPages (u : CaseTables) (query : Text) (rows cols pageSize maxOffset rounds : ℕ) :
    ℕ → ℕ → Scrollback → List Match → Option (Scrollback × List Match)
  | 0, _, _, _ => none
  | pages + 1, currentOffset, t, all =>
    (collectMatchesFromViewport u t.screen query currentOffset rows cols rounds all).bind fun all =>
      if maxOffset ≤ currentOffset then some (t, all)
      else
        let remaining := maxOffset - currentOffset
        let step := min pageSize remaining
        if step = 0 then some (t, all)
        else
          let t := t.scrollViewportDelta (asIsize step)
          scanPages u query rows cols pageSize maxOffset rounds pages t.offset t all

/-- The row and the column, by which the matches are sorted. -/
def sortKey (m : Match) : ℕ ×ₗ ℕ := toLex (m.1, m.2.1)

def recomputeAllSearchMatches (u : CaseTables) (rounds pages : ℕ) (s : SearchedPane) :
    Option SearchedPane :=
  let cleared := { s.search with allMatches := [], viewportMatches := [] }
  if s.search.query.isEmpty then some { s with search := { cleared with currentIndex := 0 } }
  else
    let t := s.terminal
    if t.rows.length = 0 ∨ t.len = 0 then some { s with search := cleared }
    else
      let maxOffset := if t.rows.length > t.len then t.rows.length - t.len else 0
      let top := if 0 < t.offset then t.scrollViewportDelta (-asIsize t.offset) else t
      (scanPages u s.search.query s.rows s.cols t.len maxOffset rounds pages 0 top []).map
        fun (after, all) =>
          let all := dedupNeighbours (sortByKey sortKey all)
          let restored := scrollTo t.offset after
          filterViewportMatches
            { s with
              terminal := restored
              viewportOffset := restored.offset
              search :=
                { cleared with
                  allMatches := all
                  currentIndex :=
                    if all.isEmpty ∨ all.length ≤ s.search.currentIndex then 0
                    else s.search.currentIndex } }

/-! ### Going from match to match -/

/-- The offset with which a row is at a third of the screen, or as near to it as there are rows. -/
def matchOffset (absRow : ℕ) (t : Scrollback) : ℕ :=
  let viewportRows := t.len
  let targetOffset := if absRow > viewportRows / 3 then absRow - viewportRows / 3 else 0
  let maxOffset := if t.rows.length > t.len then t.rows.length - t.len else 0
  min targetOffset maxOffset

/-- The row of the current match comes to that place. An index behind the last match panics. -/
def scrollToCurrentMatch (s : SearchedPane) : SearchedPane :=
  match s.search.allMatches[s.search.currentIndex]? with
  | none => s
  | some (absRow, _) =>
    let targetOffset := matchOffset absRow s.terminal
    let t := scrollTo targetOffset s.terminal
    filterViewportMatches
      { s with
        terminal := t
        viewportOffset :=
          if rowDelta targetOffset s.terminal.offset ≠ 0 then t.offset else s.viewportOffset }

def navigateSearchForward (s : SearchedPane) : SearchedPane :=
  if s.search.query.isEmpty ∨ s.search.allMatches.isEmpty then s
  else
    scrollToCurrentMatch { s with search := { s.search with
      currentIndex :=
        if s.search.currentIndex + 1 < s.search.allMatches.length then s.search.currentIndex + 1
        else 0 } }

def navigateSearchBackward (s : SearchedPane) : SearchedPane :=
  if s.search.query.isEmpty ∨ s.search.allMatches.isEmpty then s
  else
    scrollToCurrentMatch { s with search := { s.search with
      currentIndex :=
        if 0 < s.search.currentIndex then s.search.currentIndex - 1
        else s.search.allMatches.length - 1 } }

/-! ### What is to hold -/

/-- A row of the terminal as it is searched. -/
def lineAt (u : CaseTables) (t : Scrollback) (r : ℕ) : Line :=
  lowerLine u ((t.rows[r]?.map (·.cells)).getD [])

/-- The matches are those of all rows, each once and sorted, and the terminal is as it was. -/
structure FindsAll (u : CaseTables) (s s' : SearchedPane) : Prop where
  once : s'.search.allMatches.Nodup
  found : ∀ m, m ∈ s'.search.allMatches ↔
    m.1 < s.terminal.rows.length ∧ IsSpan s.search.query (lineAt u s.terminal m.1) m.2
  sorted : s'.search.allMatches.Pairwise fun m m' => sortKey m ≤ sortKey m'
  rows : s'.terminal.rows = s.terminal.rows
  offset : s'.terminal.offset = s.terminal.offset

/-- Going forward as often as there are matches comes to each of them and back to the current
one. Going back undoes going forward, and the other way round. -/
structure Navigates (s : SearchedPane) : Prop where
  matches_same : ∀ k, (navigateSearchForward^[k] s).search.allMatches = s.search.allMatches
  visits : ((List.range s.search.allMatches.length).map fun k =>
    (navigateSearchForward^[k + 1] s).search.currentIndex).Perm
      (List.range s.search.allMatches.length)
  returns : (navigateSearchForward^[s.search.allMatches.length] s).search.currentIndex =
    s.search.currentIndex
  back : (navigateSearchBackward (navigateSearchForward s)).search.currentIndex =
    s.search.currentIndex
  forth : (navigateSearchForward (navigateSearchBackward s)).search.currentIndex =
    s.search.currentIndex

/-- The search ends, with all matches, and one can go from each to the next. -/
def SearchesAll (u : CaseTables) (s : SearchedPane) : Prop :=
  ∃ rounds pages s', recomputeAllSearchMatches u rounds pages s = some s' ∧ FindsAll u s s' ∧
    Navigates s'

/-- The rows of the last page that the page before it has already. -/
def ReadTwice (t : Scrollback) (r : ℕ) : Prop :=
  ¬t.len ∣ t.maxOffset ∧ t.maxOffset ≤ r ∧ r < (t.maxOffset / t.len + 1) * t.len

/-- Nothing is sliced inside a character, and in a row that is read twice no two matches begin in
one cell and end in different ones. -/
def Searchable (u : CaseTables) (s : SearchedPane) : Prop :=
  s.search.query = [] ∨
    (∀ r < s.terminal.rows.length, Sliceable s.search.query (lineAt u s.terminal r)) ∧
      ∀ r, ReadTwice s.terminal r → ∀ p p', IsSpan s.search.query (lineAt u s.terminal r) p →
        IsSpan s.search.query (lineAt u s.terminal r) p' → p.1 = p'.1 → p = p'

/-! ### Pages -/

section Pages

variable {u : CaseTables} {t t' : Scrollback} {query : Text} {rounds pages : ℕ}

def rowSpans (u : CaseTables) (query : Text) (t : Scrollback) (r : ℕ) : List Match :=
  (spans query (lineAt u t r)).map (r, ·)

/-- The rows that are read from a page on. -/
def rowsRead (t : Scrollback) (offset : ℕ) : List ℕ :=
  List.range' offset (((t.maxOffset - offset) / t.len + 1) * t.len) ++
    if t.len ∣ t.maxOffset - offset then [] else List.range' t.maxOffset t.len

theorem rowsRead_last {offset : ℕ} (h : t.maxOffset ≤ offset) :
    rowsRead t offset = List.range' offset t.len := by
  rw [rowsRead, Nat.sub_eq_zero_of_le h, Nat.zero_div, Nat.zero_add, Nat.one_mul,
    if_pos (Nat.dvd_zero _), List.append_nil]

theorem rowsRead_step {offset : ℕ} (h : offset < t.maxOffset) : rowsRead t offset =
    List.range' offset t.len ++ rowsRead t (offset + min t.len (t.maxOffset - offset)) := by
  have hpos := t.len_pos
  rcases Nat.lt_or_ge (t.maxOffset - offset) t.len with hlt | hle
  · have hnot : ¬t.len ∣ t.maxOffset - offset := fun hdvd =>
      absurd (Nat.le_of_dvd (Nat.sub_pos_of_lt h) hdvd) (Nat.not_le.mpr hlt)
    rw [rowsRead, if_neg hnot, Nat.div_eq_of_lt hlt, Nat.zero_add, Nat.one_mul,
      Nat.min_eq_right hlt.le, rowsRead_last (by omega), Nat.add_sub_cancel' h.le]
  · have hsub : t.maxOffset - offset = t.maxOffset - (offset + t.len) + t.len := by omega
    rw [Nat.min_eq_left hle, rowsRead, rowsRead, hsub, Nat.add_div_right _ hpos]
    simp only [Nat.dvd_add_self_right]
    rw [← List.append_assoc, List.range'_append_1]
    congr 2
    rw [Nat.succ_mul, Nat.add_comm]

/-- A row on the screen is a row of the terminal. -/
theorem rowLine_screen {i : ℕ} (hi : i < t.len) :
    rowLine u t.screen t.cols i = lineAt u t (t.offset + i) := by
  have hlt : t.offset + i < t.rows.length := by
    have := t.offset_le
    have := t.len_le
    omega
  have hcols := t.length_cells _ (List.getElem_mem hlt)
  rw [rowLine, lineAt, t.row_screen hi, List.getElem?_eq_getElem hlt, Option.map_some,
    Option.getD_some]
  congr 1
  exact List.take_of_length_le (by rw [hcols]; exact Nat.le_of_eq (Nat.min_self _).symm)

theorem forall_rowsOnScreen {P : ℕ → Prop} :
    (∀ i ∈ List.range t.len, P (t.offset + i)) ↔ ∀ r ∈ List.range' t.offset t.len, P r := by
  rw [List.range'_eq_map_range]
  simp only [List.forall_mem_map]

theorem rowMatches_screen : rowMatches u t.screen query t.offset t.cols (List.range t.len) =
    (List.range' t.offset t.len).flatMap (rowSpans u query t) := by
  rw [rowMatches, List.range'_eq_map_range, List.flatMap_map]
  refine List.flatMap_congr fun i hi => ?_
  rw [rowLine_screen (List.mem_range.mp hi)]
  rfl

theorem collectPage_some {out ms : List Match} (hq : query ≠ [])
    (h : collectMatchesFromViewport u t.screen query t.offset t.len t.cols rounds out = some ms) :
    (∀ r ∈ List.range' t.offset t.len, Sliceable query (lineAt u t r)) ∧
      ms = out ++ (List.range' t.offset t.len).flatMap (rowSpans u query t) := by
  rw [collectMatchesFromViewport, show min t.screen.rows t.len = t.len from Nat.min_self _] at h
  obtain ⟨hslice, rfl⟩ := foldlM_searchLine_some hq h
  refine ⟨forall_rowsOnScreen.mp fun i hi => ?_, by rw [rowMatches_screen]⟩
  rw [← rowLine_screen (List.mem_range.mp hi)]
  exact hslice i hi

theorem collectPage_eq {out : List Match} (hq : query ≠ [])
    (hrounds : ∀ r, (lineAt u t r).length < rounds)
    (hslice : ∀ r ∈ List.range' t.offset t.len, Sliceable query (lineAt u t r)) :
    collectMatchesFromViewport u t.screen query t.offset t.len t.cols rounds out =
      some (out ++ (List.range' t.offset t.len).flatMap (rowSpans u query t)) := by
  rw [collectMatchesFromViewport, show min t.screen.rows t.len = t.len from Nat.min_self _,
    ← rowMatches_screen]
  refine foldlM_searchLine hq (fun i hi => ?_) (fun i hi => ?_) out
  · rw [rowLine_screen (List.mem_range.mp hi)]
    exact hrounds _
  · rw [rowLine_screen (List.mem_range.mp hi)]
    exact forall_rowsOnScreen.mpr hslice i hi

/-- The terminal is scrolled to another page, and nothing else is different. -/
structure Paged (offset : ℕ) (t next : Scrollback) : Prop where
  rows : next.rows = t.rows
  cols : next.cols = t.cols
  len : next.len = t.len
  offset : next.offset = offset

namespace Paged

variable {next : Scrollback} {offset : ℕ} (h : Paged offset t next)

include h

theorem maxOffset : next.maxOffset = t.maxOffset := by
  rw [Scrollback.maxOffset, Scrollback.maxOffset, h.rows, h.len]

theorem lineAt : lineAt u next = lineAt u t := by
  funext r
  rw [Search.lineAt, Search.lineAt, h.rows]

theorem rowSpans : rowSpans u query next = rowSpans u query t := by
  funext r
  rw [Search.rowSpans, Search.rowSpans, h.lineAt]

theorem rowsRead : rowsRead next = rowsRead t := by
  funext offset
  rw [Search.rowsRead, Search.rowsRead, h.maxOffset, h.len]

end Paged

/-- A step of the loop comes to the next page, or to the last one. -/
theorem exists_step (h : t.offset < t.maxOffset) :
    ∃ next, next = t.scrollViewportDelta (asIsize (min t.len (t.maxOffset - t.offset))) ∧
      Paged (t.offset + min t.len (t.maxOffset - t.offset)) t next := by
  have hlt := t.rows_lt
  have hle := t.len_le
  have hmax : t.maxOffset ≤ t.rows.length := Nat.sub_le _ _
  refine ⟨t.scrollViewportDelta (asIsize (min t.len (t.maxOffset - t.offset))), rfl,
    ⟨t.rows_scrollViewportDelta _, t.cols_scrollViewportDelta _, t.len_scrollViewportDelta _, ?_⟩⟩
  rw [Scrollback.offset_scrollViewportDelta, asIsize_of_lt (by omega)]
  omega

section Scan

variable {rows cols pageSize maxOffset offset : ℕ} {all ms : List Match}

/-- From a page on the loop collects the matches of the rows that it reads. -/
theorem scanPages_some (hq : query ≠ []) (hrows : rows = t.len) (hcols : cols = t.cols)
    (hsize : pageSize = t.len) (hmax : maxOffset = t.maxOffset) (hoff : offset = t.offset)
    (h : scanPages u query rows cols pageSize maxOffset rounds pages offset t all = some (t', ms)) :
    (∀ r ∈ rowsRead t offset, Sliceable query (lineAt u t r)) ∧
      ms = all ++ (rowsRead t offset).flatMap (rowSpans u query t) ∧
      t'.rows = t.rows ∧ t'.len = t.len := by
  induction pages generalizing offset t all with
  | zero => cases h
  | succ pages ih =>
    subst hrows hcols hsize hmax hoff
    rw [scanPages] at h
    obtain ⟨page, hpage, h⟩ := Option.bind_eq_some_iff.mp h
    obtain ⟨hslice, rfl⟩ := collectPage_some hq hpage
    dsimp only at h
    split_ifs at h with hlast hstep
    · obtain ⟨rfl, rfl⟩ := Prod.mk.inj (Option.some.inj h)
      rw [rowsRead_last hlast]
      exact ⟨hslice, rfl, rfl, rfl⟩
    · have hpos := t.len_pos
      omega
    · have hlt := Nat.lt_of_not_le hlast
      obtain ⟨next, hnext, hstep⟩ := exists_step hlt
      rw [← hnext] at h
      obtain ⟨hrest, rfl, hrows, hlen⟩ := ih hstep.len.symm hstep.cols.symm hstep.len.symm
        hstep.maxOffset.symm rfl h
      rw [hstep.offset, hstep.lineAt, hstep.rowsRead] at hrest
      rw [hstep.offset, hstep.rowSpans, hstep.rowsRead, rowsRead_step hlt]
      refine ⟨List.forall_mem_append.mpr ⟨hslice, hrest⟩, ?_, hrows.trans hstep.rows,
        hlen.trans hstep.len⟩
      rw [List.flatMap_append, List.append_assoc]

/-- With enough rounds it does, where nothing is sliced inside a character. -/
theorem scanPages_eq (hq : query ≠ []) (hrows : rows = t.len) (hcols : cols = t.cols)
    (hsize : pageSize = t.len) (hmax : maxOffset = t.maxOffset) (hoff : offset = t.offset)
    (hrounds : ∀ r, (lineAt u t r).length < rounds) (hpages : t.maxOffset - offset < pages)
    (hslice : ∀ r ∈ rowsRead t offset, Sliceable query (lineAt u t r)) :
    ∃ result, scanPages u query rows cols pageSize maxOffset rounds pages offset t all =
      some result := by
  induction pages generalizing offset t all with
  | zero => omega
  | succ pages ih =>
    subst hrows hcols hsize hmax hoff
    rcases Nat.lt_or_ge t.offset t.maxOffset with hlt | hlast
    · have hpos := t.len_pos
      rw [rowsRead_step hlt, List.forall_mem_append] at hslice
      rw [scanPages, collectPage_eq hq hrounds hslice.1, Option.bind_some,
        if_neg (Nat.not_le.mpr hlt)]
      dsimp only
      rw [if_neg (by omega)]
      obtain ⟨next, hnext, hstep⟩ := exists_step hlt
      rw [← hnext]
      refine ih hstep.len.symm hstep.cols.symm hstep.len.symm hstep.maxOffset.symm rfl ?_ ?_ ?_
      · rw [hstep.lineAt]
        exact hrounds
      · rw [hstep.offset, hstep.maxOffset]
        omega
      · rw [hstep.offset, hstep.lineAt, hstep.rowsRead]
        exact hslice.2
    · rw [rowsRead_last hlast] at hslice
      rw [scanPages, collectPage_eq hq hrounds hslice, Option.bind_some, if_pos hlast]
      exact ⟨_, rfl⟩

end Scan

end Pages

/-! ### Rows that are read twice -/

section Twice

variable {u : CaseTables} {t : Scrollback} {query : Text} {r : ℕ}

theorem rowsRead_zero : rowsRead t 0 = List.range' 0 ((t.maxOffset / t.len + 1) * t.len) ++
    if t.len ∣ t.maxOffset then [] else List.range' t.maxOffset t.len := by
  rw [rowsRead, Nat.sub_zero]

theorem div_bounds : t.maxOffset / t.len * t.len ≤ t.maxOffset ∧
    t.maxOffset < (t.maxOffset / t.len + 1) * t.len ∧
    (t.len ∣ t.maxOffset → t.maxOffset / t.len * t.len = t.maxOffset) :=
  ⟨Nat.div_mul_le_self _ _, Nat.lt_mul_of_div_lt (Nat.lt_succ_self _) t.len_pos,
    Nat.div_mul_cancel⟩

theorem mem_rowsRead : r ∈ rowsRead t 0 ↔ r < t.rows.length := by
  obtain ⟨hle, hlt, hdvd⟩ := @div_bounds t
  have hadd := t.add_maxOffset
  rw [Nat.succ_mul] at hlt
  rw [rowsRead_zero, List.mem_append, List.mem_range'_1, Nat.succ_mul]
  split_ifs with h
  · have heq := hdvd h
    rw [or_iff_left List.not_mem_nil]
    omega
  · rw [List.mem_range'_1]
    omega

theorem ReadTwice.sublist (h : ReadTwice t r) : [r, r].Sublist (rowsRead t 0) := by
  obtain ⟨hdvd, hle, hlt⟩ := h
  obtain ⟨hdiv, -⟩ := @div_bounds t
  rw [Nat.succ_mul] at hlt
  rw [rowsRead_zero, if_neg hdvd, ← List.singleton_append]
  refine List.Sublist.append (List.singleton_sublist.mpr ?_) (List.singleton_sublist.mpr ?_)
  · rw [List.mem_range'_1, Nat.succ_mul]
    omega
  · rw [List.mem_range'_1]
    omega

theorem count_rowsRead_le (h : ¬ReadTwice t r) : (rowsRead t 0).count r ≤ 1 := by
  have hone (a k : ℕ) : (List.range' a k).count r ≤ 1 :=
    List.nodup_iff_count_le_one.mp (List.nodup_range' ..) r
  rw [rowsRead_zero]
  split_ifs with hdvd
  · rw [List.append_nil]
    exact hone _ _
  · rw [List.count_append]
    by_cases hfirst : r ∈ List.range' 0 ((t.maxOffset / t.len + 1) * t.len)
    · have hlast : r ∉ List.range' t.maxOffset t.len := by
        rw [List.mem_range'_1] at hfirst ⊢
        exact fun hlast => h ⟨hdvd, hlast.1, by omega⟩
      rw [List.count_eq_zero.mpr hlast]
      exact hone _ _
    · rw [List.count_eq_zero.mpr hfirst, Nat.zero_add]
      exact hone _ _

theorem fst_of_mem_rowSpans {m : Match} (h : m ∈ rowSpans u query t r) : m.1 = r := by
  obtain ⟨p, -, rfl⟩ := List.mem_map.mp h
  rfl

/-- The matches collected for a row. -/
theorem filter_flatMap_rowSpans (rows : List ℕ) :
    (rows.flatMap (rowSpans u query t)).filter (·.1 = r) =
      (rows.filter (· = r)).flatMap (rowSpans u query t) := by
  induction rows with
  | nil => rfl
  | cons row rows ih =>
    rw [List.flatMap_cons, List.filter_append, ih, List.filter_cons]
    by_cases hrow : row = r
    · have hall : (rowSpans u query t row).filter (·.1 = r) = rowSpans u query t row :=
        List.filter_eq_self.mpr fun m hm => decide_eq_true ((fst_of_mem_rowSpans hm).trans hrow)
      rw [hall, decide_eq_true hrow, if_pos rfl, List.flatMap_cons]
    · have hnone : (rowSpans u query t row).filter (·.1 = r) = [] := by
        refine List.filter_eq_nil_iff.mpr fun m hm hr => hrow ?_
        exact (fst_of_mem_rowSpans hm).symm.trans (of_decide_eq_true hr)
      rw [hnone, decide_eq_false hrow, List.nil_append]
      rfl

theorem rowSpans_ascending (hq : query ≠ []) (r : ℕ) :
    (rowSpans u query t r).Pairwise fun m m' => toLex m.2 ≤ toLex m'.2 := by
  rw [rowSpans, List.pairwise_map]
  exact spans_ascending hq (inOrder_lowerLine u _)

/-- Of two members of a list one comes first. -/
theorem pair_sublist {α : Type} {as : List α} {a b : α} (ha : a ∈ as) (hb : b ∈ as)
    (hne : a ≠ b) :
    [a, b].Sublist as ∨ [b, a].Sublist as := by
  obtain ⟨front, back, rfl⟩ := List.append_of_mem ha
  rcases List.mem_append.mp hb with hfront | hback
  · exact Or.inr ((List.singleton_sublist.mpr hfront).append
      ((List.nil_sublist back).cons_cons a))
  · have hmem := (List.mem_cons.mp hback).resolve_left (Ne.symm hne)
    exact Or.inl (((List.singleton_sublist.mpr hmem).cons_cons a).trans
      (List.sublist_append_right front _))

/-- After the rows are sorted and repetitions dropped every match is there once, unless a row was
read twice and has two matches that begin in one cell. -/
theorem nodup_matches_iff (hq : query ≠ []) :
    (dedupNeighbours (sortByKey sortKey ((rowsRead t 0).flatMap (rowSpans u query t)))).Nodup ↔
      ∀ r, ReadTwice t r → ∀ p p', IsSpan query (lineAt u t r) p → IsSpan query (lineAt u t r) p' →
        p.1 = p'.1 → p = p' := by
  rw [nodup_dedup_sortByKey]
  constructor
  · intro h r htwice p p' hp hp' hcol
    by_contra hne
    have hmem {p : ℕ × ℕ} (hp : IsSpan query (lineAt u t r) p) : (r, p) ∈ rowSpans u query t r :=
      List.mem_map_of_mem ((mem_spans hq).mpr hp)
    have hboth : (rowSpans u query t r ++ rowSpans u query t r).Sublist
        ((rowsRead t 0).flatMap (rowSpans u query t)) := by
      have hsub := htwice.sublist.flatMap (rowSpans u query t)
      rwa [List.flatMap_cons, List.flatMap_singleton] at hsub
    have hkey : sortKey (r, p) = sortKey (r, p') := by rw [sortKey, sortKey, hcol]
    refine hne (congrArg Prod.snd (h (r, p) (r, p') hkey (List.Sublist.trans ?_ hboth)))
    rcases pair_sublist (hmem hp) (hmem hp') (fun heq => hne (congrArg Prod.snd heq)) with hpair | hpair
    · exact hpair.append (List.singleton_sublist.mpr (hmem hp))
    · exact (List.singleton_sublist.mpr (hmem hp)).append hpair
  · intro h a b hkey hsub
    have hfst : a.1 = b.1 := congrArg (fun k => (ofLex k).1) hkey
    have hcol : a.2.1 = b.2.1 := congrArg (fun k => (ofLex k).2) hkey
    have hrow : [a, b, a].Sublist (((rowsRead t 0).filter (· = a.1)).flatMap (rowSpans u query t)) := by
      rw [← filter_flatMap_rowSpans]
      have hkept : [a, b, a].filter (·.1 = a.1) = [a, b, a] := by simp [hfst]
      have hfilter := hsub.filter (·.1 = a.1)
      rwa [hkept] at hfilter
    refine Prod.ext hfst ?_
    by_cases htwice : ReadTwice t a.1
    · have hspan {m : Match} (hm : m ∈ [a, b, a]) : IsSpan query (lineAt u t a.1) m.2 := by
        obtain ⟨row, hrowmem, hm⟩ := List.mem_flatMap.mp (hrow.subset hm)
        obtain rfl : row = a.1 := of_decide_eq_true (List.mem_filter.mp hrowmem).2
        obtain ⟨p, hp, rfl⟩ := List.mem_map.mp hm
        exact (mem_spans hq).mp hp
      exact h a.1 htwice a.2 b.2 (hspan (by simp)) (hspan (by simp)) hcol
    · have hcount := count_rowsRead_le htwice
      rw [List.filter_eq] at hrow
      obtain hzero | hone := Nat.le_one_iff_eq_zero_or_eq_one.mp hcount
      · rw [hzero] at hrow
        exact absurd (List.sublist_nil.mp hrow) (List.cons_ne_nil _ _)
      · rw [hone, List.replicate_one, List.flatMap_singleton] at hrow
        have hpairs := (rowSpans_ascending hq a.1).sublist hrow
        have hab := List.rel_of_pairwise_cons hpairs (List.mem_cons_self ..)
        have hba := List.rel_of_pairwise_cons (List.pairwise_cons.mp hpairs).2 (List.mem_cons_self ..)
        exact toLex.injective (le_antisymm hab hba)

end Twice

/-! ### All matches -/

section Recompute

variable {u : CaseTables} {s s' : SearchedPane} {rounds pages : ℕ}

/-- What the search leaves behind. -/
def matchesOf (u : CaseTables) (s : SearchedPane) : List Match :=
  dedupNeighbours (sortByKey sortKey
    ((rowsRead s.terminal 0).flatMap (rowSpans u s.search.query s.terminal)))

/-- The first page is the one at the top. -/
theorem paged_top (t : Scrollback) :
    Paged 0 t (if 0 < t.offset then t.scrollViewportDelta (-asIsize t.offset) else t) := by
  split_ifs with hpos
  · refine ⟨t.rows_scrollViewportDelta _, t.cols_scrollViewportDelta _, t.len_scrollViewportDelta _, ?_⟩
    rw [Scrollback.offset_scrollViewportDelta, asIsize_of_lt t.offset_lt]
    omega
  · exact ⟨rfl, rfl, rfl, Nat.eq_zero_of_not_pos hpos⟩

/-- The current match is one of those there are. -/
def Focused (s : SearchedPane) : Prop :=
  s.search.allMatches = [] ∨
    s.search.query ≠ [] ∧ s.search.currentIndex < s.search.allMatches.length

/-- A search that ends has gone over all rows, and the terminal is as it was. -/
theorem recompute_some (hs : s.Fitted) (hq : s.search.query ≠ [])
    (h : recomputeAllSearchMatches u rounds pages s = some s') :
    (∀ r < s.terminal.rows.length, Sliceable s.search.query (lineAt u s.terminal r)) ∧
      s'.search.allMatches = matchesOf u s ∧ Focused s' ∧ s'.terminal.rows = s.terminal.rows ∧
      s'.terminal.offset = s.terminal.offset := by
  have htop := paged_top s.terminal
  have hlen := s.terminal.len_pos
  have hrows := s.terminal.len_le
  unfold recomputeAllSearchMatches at h
  rw [if_neg (by simpa using hq)] at h
  dsimp only at h
  rw [if_neg (by omega)] at h
  generalize (if 0 < s.terminal.offset then s.terminal.scrollViewportDelta (-asIsize s.terminal.offset)
    else s.terminal) = top at h htop
  obtain ⟨⟨after, all⟩, hscan, hs'⟩ := Option.map_eq_some_iff.mp h
  have hmax : (if s.terminal.rows.length > s.terminal.len then
      s.terminal.rows.length - s.terminal.len else 0) = top.maxOffset := by
    rw [htop.maxOffset, Scrollback.maxOffset]
    split_ifs <;> omega
  obtain ⟨hslice, hall, hafter, hafterLen⟩ := scanPages_some hq (hs.rows.trans htop.len.symm)
    (hs.cols.trans htop.cols.symm) htop.len.symm hmax htop.offset.symm hscan
  rw [htop.rowsRead, htop.lineAt] at hslice
  rw [htop.rowsRead, htop.rowSpans, List.nil_append] at hall
  have hoff := s.terminal.offset_le
  have hback : (scrollTo s.terminal.offset after).offset = s.terminal.offset := by
    rw [offset_scrollTo s.terminal.offset_lt, Scrollback.maxOffset, hafter, hafterLen, htop.rows,
      htop.len]
    exact min_eq_left hoff
  have hmatches : s'.search.allMatches = dedupNeighbours (sortByKey sortKey all) := by
    rw [← hs']
    rfl
  have hterminal : s'.terminal = scrollTo s.terminal.offset after := by
    rw [← hs', terminal_filterViewportMatches]
  have hquery : s'.search.query = s.search.query := by
    rw [← hs']
    rfl
  have hindex : s'.search.currentIndex = if s'.search.allMatches.isEmpty ∨
      s'.search.allMatches.length ≤ s.search.currentIndex then 0 else s.search.currentIndex := by
    rw [hmatches, ← hs']
    rfl
  refine ⟨fun r hr => hslice r (mem_rowsRead.mpr hr), ?_, ?_, ?_, ?_⟩
  · rw [hmatches, hall]
    rfl
  · rw [Focused, hquery, hindex]
    split_ifs with hclamp
    · rcases Nat.eq_zero_or_pos s'.search.allMatches.length with hzero | hpos
      · exact Or.inl (List.length_eq_zero_iff.mp hzero)
      · exact Or.inr ⟨hq, hpos⟩
    · rw [not_or] at hclamp
      exact Or.inr ⟨hq, Nat.lt_of_not_le hclamp.2⟩
  · rw [hterminal, rows_scrollTo, hafter, htop.rows]
  · rw [hterminal, hback]

/-- No line is longer than this. -/
theorem exists_rounds (u : CaseTables) (t : Scrollback) :
    ∃ rounds, ∀ r, (lineAt u t r).length < rounds := by
  set lengths := (List.range t.rows.length).map fun r => (lineAt u t r).length with hl
  refine ⟨lengths.sum + 1, fun r => ?_⟩
  rcases Nat.lt_or_ge r t.rows.length with hr | hr
  · have hmem : (lineAt u t r).length ∈ lengths :=
      List.mem_map_of_mem (List.mem_range.mpr hr)
    exact Nat.lt_succ_of_le (List.le_sum_of_mem hmem)
  · have hnone : lineAt u t r = [] := by
      rw [lineAt, List.getElem?_eq_none hr]
      rfl
    rw [hnone]
    exact Nat.succ_pos _

/-- Where nothing is sliced inside a character, the search ends. -/
theorem exists_recompute (hs : s.Fitted) (hq : s.search.query ≠ [])
    (hslice : ∀ r < s.terminal.rows.length, Sliceable s.search.query (lineAt u s.terminal r)) :
    ∃ rounds pages s', recomputeAllSearchMatches u rounds pages s = some s' := by
  have htop := paged_top s.terminal
  have hlen := s.terminal.len_pos
  have hrows := s.terminal.len_le
  obtain ⟨rounds, hrounds⟩ := exists_rounds u s.terminal
  refine ⟨rounds, s.terminal.maxOffset + 1, ?_⟩
  unfold recomputeAllSearchMatches
  rw [if_neg (by simpa using hq)]
  dsimp only
  rw [if_neg (by omega)]
  generalize (if 0 < s.terminal.offset then s.terminal.scrollViewportDelta (-asIsize s.terminal.offset)
    else s.terminal) = top at htop
  have hmax : (if s.terminal.rows.length > s.terminal.len then
      s.terminal.rows.length - s.terminal.len else 0) = top.maxOffset := by
    rw [htop.maxOffset, Scrollback.maxOffset]
    split_ifs <;> omega
  rw [← htop.lineAt] at hrounds
  have hpages : top.maxOffset - 0 < s.terminal.maxOffset + 1 := by
    rw [htop.maxOffset]
    exact Nat.lt_succ_self _
  have hrows : ∀ r ∈ rowsRead top 0, Sliceable s.search.query (lineAt u top r) := by
    rw [htop.rowsRead, htop.lineAt]
    exact fun r hr => hslice r (mem_rowsRead.mp hr)
  obtain ⟨result, hresult⟩ : ∃ result, scanPages u s.search.query s.rows s.cols s.terminal.len _
      rounds (s.terminal.maxOffset + 1) 0 top [] = some result :=
    scanPages_eq hq (hs.rows.trans htop.len.symm) (hs.cols.trans htop.cols.symm) htop.len.symm
      hmax htop.offset.symm hrounds hpages hrows
  rw [hresult]
  exact ⟨_, rfl⟩

theorem mem_matchesOf (hq : s.search.query ≠ []) (m : Match) : m ∈ matchesOf u s ↔
    m.1 < s.terminal.rows.length ∧ IsSpan s.search.query (lineAt u s.terminal m.1) m.2 := by
  rw [matchesOf, mem_dedupNeighbours, (sortByKey_perm _ _).mem_iff, List.mem_flatMap, ← mem_spans hq]
  constructor
  · rintro ⟨r, hr, hm⟩
    obtain rfl := fst_of_mem_rowSpans hm
    obtain ⟨p, hp, hpm⟩ := List.mem_map.mp hm
    rw [← hpm]
    exact ⟨mem_rowsRead.mp hr, hp⟩
  · rintro ⟨hr, hp⟩
    exact ⟨m.1, mem_rowsRead.mpr hr, List.mem_map_of_mem hp⟩

theorem matchesOf_sorted : (matchesOf u s).Pairwise fun m m' => sortKey m ≤ sortKey m' :=
  (sortByKey_pairwise _ _).sublist (dedupNeighbours_sublist _)

/-- An empty query has no matches. -/
theorem not_isSpan_nil {line : Line} {p : ℕ × ℕ} : ¬IsSpan [] line p := by
  rintro ⟨before, part, after, q, -, -, hpart, hq, -⟩
  rw [List.map_eq_nil_iff.mp hpart] at hq
  cases hq

end Recompute

/-! ### From match to match -/

section Navigate

variable {s : SearchedPane}

theorem search_scrollToCurrentMatch (s : SearchedPane) :
    (scrollToCurrentMatch s).search.query = s.search.query ∧
      (scrollToCurrentMatch s).search.allMatches = s.search.allMatches ∧
      (scrollToCurrentMatch s).search.currentIndex = s.search.currentIndex := by
  unfold scrollToCurrentMatch
  split
  · exact ⟨rfl, rfl, rfl⟩
  · dsimp only
    rw [query_filterViewportMatches, allMatches_filterViewportMatches,
      currentIndex_filterViewportMatches]
    exact ⟨rfl, rfl, rfl⟩

/-- One step forward. -/
theorem forward_spec (hq : s.search.query ≠ [])
    (hi : s.search.currentIndex < s.search.allMatches.length) :
    (navigateSearchForward s).search.query = s.search.query ∧
      (navigateSearchForward s).search.allMatches = s.search.allMatches ∧
      (navigateSearchForward s).search.currentIndex =
        (s.search.currentIndex + 1) % s.search.allMatches.length := by
  have hne : s.search.allMatches ≠ [] := List.ne_nil_of_length_pos (Nat.zero_lt_of_lt hi)
  rw [navigateSearchForward, if_neg (by simp [hq, hne])]
  obtain ⟨hquery, hmatches, hindex⟩ := search_scrollToCurrentMatch { s with search := { s.search with
    currentIndex :=
      if s.search.currentIndex + 1 < s.search.allMatches.length then s.search.currentIndex + 1
      else 0 } }
  refine ⟨hquery, hmatches, hindex.trans ?_⟩
  dsimp only
  split_ifs with hlast
  · exact (Nat.mod_eq_of_lt hlast).symm
  · rw [show s.search.currentIndex + 1 = s.search.allMatches.length by omega, Nat.mod_self]

/-- One step back. -/
theorem backward_spec (hq : s.search.query ≠ [])
    (hi : s.search.currentIndex < s.search.allMatches.length) :
    (navigateSearchBackward s).search.query = s.search.query ∧
      (navigateSearchBackward s).search.allMatches = s.search.allMatches ∧
      (navigateSearchBackward s).search.currentIndex =
        if 0 < s.search.currentIndex then s.search.currentIndex - 1
        else s.search.allMatches.length - 1 := by
  have hne : s.search.allMatches ≠ [] := List.ne_nil_of_length_pos (Nat.zero_lt_of_lt hi)
  rw [navigateSearchBackward, if_neg (by simp [hq, hne])]
  exact search_scrollToCurrentMatch _

/-- Some steps forward. -/
theorem iterate_forward (hq : s.search.query ≠ [])
    (hi : s.search.currentIndex < s.search.allMatches.length) (k : ℕ) :
    (navigateSearchForward^[k] s).search.query = s.search.query ∧
      (navigateSearchForward^[k] s).search.allMatches = s.search.allMatches ∧
      (navigateSearchForward^[k] s).search.currentIndex =
        (s.search.currentIndex + k) % s.search.allMatches.length := by
  induction k with
  | zero => exact ⟨rfl, rfl, (Nat.mod_eq_of_lt hi).symm⟩
  | succ k ih =>
    obtain ⟨hquery, hmatches, hindex⟩ := ih
    rw [Function.iterate_succ_apply']
    have hlt := Nat.mod_lt (s.search.currentIndex + k) (Nat.zero_lt_of_lt hi)
    rw [← hindex, ← hmatches] at hlt
    obtain ⟨hquery', hmatches', hindex'⟩ := forward_spec (by rwa [hquery]) hlt
    refine ⟨hquery'.trans hquery, hmatches'.trans hmatches, ?_⟩
    rw [hindex', hindex, hmatches, Nat.mod_add_mod, Nat.add_assoc]

theorem backward_forward (hq : s.search.query ≠ [])
    (hi : s.search.currentIndex < s.search.allMatches.length) :
    (navigateSearchBackward (navigateSearchForward s)).search.currentIndex =
      s.search.currentIndex := by
  obtain ⟨hquery, hmatches, hindex⟩ := forward_spec hq hi
  have hlt := Nat.mod_lt (s.search.currentIndex + 1) (Nat.zero_lt_of_lt hi)
  rw [← hindex, ← hmatches] at hlt
  rw [(backward_spec (by rwa [hquery]) hlt).2.2, hindex, hmatches]
  rcases Nat.lt_or_ge (s.search.currentIndex + 1) s.search.allMatches.length with hnext | hlast
  · rw [Nat.mod_eq_of_lt hnext, if_pos (Nat.succ_pos _), Nat.add_sub_cancel]
  · rw [show s.search.currentIndex + 1 = s.search.allMatches.length by omega, Nat.mod_self,
      if_neg (Nat.lt_irrefl 0)]
    omega

theorem forward_backward (hq : s.search.query ≠ [])
    (hi : s.search.currentIndex < s.search.allMatches.length) :
    (navigateSearchForward (navigateSearchBackward s)).search.currentIndex =
      s.search.currentIndex := by
  obtain ⟨hquery, hmatches, hindex⟩ := backward_spec hq hi
  have hlt : (navigateSearchBackward s).search.currentIndex <
      (navigateSearchBackward s).search.allMatches.length := by
    rw [hindex, hmatches]
    split_ifs <;> omega
  rw [(forward_spec (by rwa [hquery]) hlt).2.2, hindex, hmatches]
  split_ifs with hpos
  · rw [Nat.sub_add_cancel hpos, Nat.mod_eq_of_lt hi]
  · rw [Nat.sub_add_cancel (Nat.zero_lt_of_lt hi), Nat.mod_self]
    omega

/-- From a match that is there one can go from each to the next. -/
theorem Focused.navigates (h : Focused s) : Navigates s := by
  rcases h with hnone | ⟨hq, hi⟩
  · have hforward : navigateSearchForward s = s := by
      rw [navigateSearchForward, if_pos (by simp [hnone])]
    have hbackward : navigateSearchBackward s = s := by
      rw [navigateSearchBackward, if_pos (by simp [hnone])]
    have hiterate (k : ℕ) : navigateSearchForward^[k] s = s := Function.iterate_fixed hforward k
    constructor
    · intro k
      rw [hiterate]
    · rw [hnone]
      exact .refl _
    · rw [hiterate]
    · rw [hforward, hbackward]
    · rw [hbackward, hforward]
  · constructor
    case matches_same => exact fun k => (iterate_forward hq hi k).2.1
    case visits =>
      have hrotate : (List.range s.search.allMatches.length).map (fun k =>
          (navigateSearchForward^[k + 1] s).search.currentIndex) =
            (List.range s.search.allMatches.length).rotate (s.search.currentIndex + 1) := by
        refine List.ext_getElem (by rw [List.length_map, List.length_rotate]) fun k hk hk' => ?_
        rw [List.getElem_map, List.getElem_range, List.getElem_rotate, List.getElem_range,
          (iterate_forward hq hi _).2.2, List.length_range]
        congr 1
        omega
      rw [hrotate]
      exact List.rotate_perm _ _
    case returns =>
      rw [(iterate_forward hq hi _).2.2, Nat.add_mod_right, Nat.mod_eq_of_lt hi]
    case back => exact backward_forward hq hi
    case forth => exact forward_backward hq hi

end Navigate

/-- The search finds all matches exactly if nothing is sliced inside a character and no row that
is read twice has two matches that begin in one cell and end in different ones. -/
theorem searchesAll_iff (u : CaseTables) {s : SearchedPane} (hs : s.Fitted) :
    SearchesAll u s ↔ Searchable u s := by
  by_cases hq : s.search.query = []
  · refine iff_of_true ?_ (Or.inl hq)
    refine ⟨0, 0, { s with search := { s.search with
      allMatches := [], viewportMatches := [], currentIndex := 0 } }, ?_, ?_, ?_⟩
    · rw [recomputeAllSearchMatches, if_pos (by simp [hq])]
    · refine ⟨List.nodup_nil, fun m => ?_, .nil, rfl, rfl⟩
      rw [hq]
      exact iff_of_false List.not_mem_nil fun h => not_isSpan_nil h.2
    · exact Focused.navigates (Or.inl rfl)
  · rw [Searchable, or_iff_right hq, ← nodup_matches_iff hq]
    constructor
    · rintro ⟨rounds, pages, s', hs', hfinds, -⟩
      obtain ⟨hslice, hmatches, -⟩ := recompute_some hs hq hs'
      have honce := hfinds.once
      rw [hmatches] at honce
      exact ⟨hslice, honce⟩
    · rintro ⟨hslice, honce⟩
      obtain ⟨rounds, pages, s', hs'⟩ := exists_recompute hs hq hslice
      obtain ⟨-, hmatches, hfocused, hrows, hoffset⟩ := recompute_some hs hq hs'
      refine ⟨rounds, pages, s', hs', ⟨?_, fun m => ?_, ?_, hrows, hoffset⟩, hfocused.navigates⟩
      · rw [hmatches]
        exact honce
      · rw [hmatches, mem_matchesOf hq]
      · rw [hmatches]
        exact matchesOf_sorted

/-- A pane with one row that is searched. -/
def paneOf (codepoints : List Text) (query : Text) : SearchedPane where
  terminal := Grapheme.rowOf codepoints
  viewportOffset := 0
  rows := 1
  cols := codepoints.length
  search :=
    { query := query, allMatches := [], viewportMatches := [], currentIndex := 0,
      currentViewportIndex := none }

theorem fitted_paneOf (codepoints : List Text) (query : Text) : (paneOf codepoints query).Fitted where
  rows := rfl
  cols := rfl

theorem searchesAll_letters : SearchesAll Grapheme.latinCases (paneOf [['A'], ['A']] ['a']) := by
  refine (searchesAll_iff _ (fitted_paneOf _ _)).mpr (Or.inr ⟨fun r _ => ?_, fun r h => ?_⟩)
  · exact sliceable_iff.mpr fun _ => rfl
  · exact absurd (Nat.one_dvd _) h.1

theorem not_searchesAll_accented :
    ¬SearchesAll Grapheme.latinCases (paneOf [['é']] ['é']) := by
  rintro ⟨rounds, pages, s', hs', -, -⟩
  obtain ⟨hslice, -⟩ := recompute_some (fitted_paneOf _ _) (List.cons_ne_nil _ _) hs'
  exact absurd (hslice 0 Nat.one_pos [('é', 0)] (by decide) ('é', 0) rfl) (by decide)

end Forgetty.Search
