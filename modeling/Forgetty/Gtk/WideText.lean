import Forgetty.Gtk.CopiedText
import Forgetty.Gtk.Search
import Forgetty.Vt.ScreenCache
import Mathlib.Data.List.Infix

/-! Rows of narrow and wide graphemes. The library has a spacer behind a wide grapheme, and the
cached screen has a blank for it, like the blanks that were typed. -/

namespace Forgetty

open Vt Clipboard CopySelection Search

/-- A grapheme without blanks. -/
structure Grapheme where
  codepoints : Text
  wide : Bool
  codepoints_ne_nil : codepoints ≠ []
  not_blank : ∀ c ∈ codepoints, isWhitespace c = false

namespace Grapheme

def width (g : Grapheme) : ℕ := if g.wide then 2 else 1

/-- The code points of its cells in the library. -/
def reported (g : Grapheme) : List Text := g.codepoints :: if g.wide then [[]] else []

/-- The texts of its cells on the cached screen. -/
def cached (g : Grapheme) : List Text :=
  g.codepoints.take maxCodepoints :: if g.wide then [[' ']] else []

/-- All code points, each with the first and the last column of its grapheme. -/
def placed : ℕ → List Grapheme → List (Char × ℕ × ℕ)
  | _, [] => []
  | col, g :: gs =>
    g.codepoints.map (fun c => (c, col, col + g.width - 1)) ++ placed (col + g.width) gs

/-- A row of the terminal that is on the screen, converted from the graphemes. -/
structure Shown (t : Scrollback) (r : ℕ) (gs : List Grapheme) : Prop where
  offset_le : t.offset ≤ r
  lt_offset_add_len : r < t.offset + t.len
  converted : ∃ palette grid row wrapped,
    t.rows[r]? = some { cells := convertRow palette grid row, wrapped := wrapped } ∧
      row.cells.length = grid.cols ∧ row.cells.map (·.codepoints) = gs.flatMap reported

/-! ### What is to hold -/

/-- The whole row is selected, and nothing else. -/
structure SelectsRow (sel : Selection) (t : Scrollback) (r : ℕ) : Prop where
  startRow : sel.startRow = r
  endRow : sel.endRow = r
  contains : ∀ col < t.cols, sel.contains r col = true

/-- The copy of a selection of the whole row reads the text. -/
def Copied (t : Scrollback) (r : ℕ) (text : Text) : Prop :=
  ∀ sel, SelectsRow sel t r → ∃ rounds t' lines, copyRows sel rounds t = some (t', lines) ∧
    lines.map (·.line) = [text]

/-- Every piece of the row is found, however its case was typed, in the columns of its
graphemes. -/
def Found (u : CaseTables) (t : Scrollback) (r : ℕ) (gs : List Grapheme) : Prop :=
  ∀ piece, piece <:+: placed 0 gs → ∀ h : piece ≠ [],
    ∀ typed, u.toLowercase typed = u.toLowercase (piece.map (·.1)) →
      ∃ rounds ms, collectMatchesFromViewport u t.screen (u.toLowercase typed) t.offset t.len
          t.cols rounds [] = some ms ∧
        (r, (piece.head h).2.1, (piece.getLast h).2.2 - (piece.head h).2.1 + 1) ∈ ms

/-- A narrow grapheme that fits into the buffer, in which the lower case of every code point
begins with a character of one byte. -/
structure Plain (u : CaseTables) (g : Grapheme) : Prop where
  narrow : g.wide = false
  length_le : g.codepoints.length ≤ maxCodepoints
  one_byte : ∀ c ∈ g.codepoints, ∀ l ∈ (u.lower c).head?, l.utf8Size = 1

/-! ### The row on the screen -/

section Shown

variable {t : Scrollback} {r : ℕ} {gs : List Grapheme}

theorem map_graphemeStr_reported (g : Grapheme) :
    g.reported.map (fun codepoints => graphemeStr (codepoints.take maxCodepoints)) = g.cached := by
  have htake : g.codepoints.take maxCodepoints ≠ [] := by
    simp [maxCodepoints, g.codepoints_ne_nil]
  have hfirst : graphemeStr (g.codepoints.take maxCodepoints) = g.codepoints.take maxCodepoints := by
    rw [graphemeStr, if_neg (by simpa using htake)]
  rw [reported, cached, List.map_cons, hfirst]
  split_ifs <;> rfl

/-- The cells of the row have the texts of the graphemes. -/
theorem Shown.graphemes (h : Shown t r gs) : ∃ cells wrapped,
    t.rows[r]? = some { cells := cells, wrapped := wrapped } ∧ cells.length = t.cols ∧
      cells.map (·.grapheme) = gs.flatMap cached := by
  obtain ⟨palette, grid, row, wrapped, hrow, hlen, hcells⟩ := h.converted
  refine ⟨_, wrapped, hrow, t.length_cells _ (List.mem_of_getElem? hrow), ?_⟩
  rw [convertRow, resizeList, List.length_map, hlen, Nat.sub_self, List.replicate_zero,
    List.append_nil, List.take_of_length_le (by rw [List.length_map, hlen]), List.map_map]
  have htexts := congrArg (List.map fun codepoints => graphemeStr (codepoints.take maxCodepoints)) hcells
  rw [List.map_map, List.map_flatMap] at htexts
  simp only [map_graphemeStr_reported] at htexts
  exact htexts

theorem Shown.lt_length (h : Shown t r gs) : r < t.rows.length := by
  have hlen := t.len_le
  have hoff := t.offset_le
  have hr := h.lt_offset_add_len
  omega

end Shown

/-! ### Copying -/

section Copy

variable {t : Scrollback} {r : ℕ} {gs : List Grapheme}

/-- The text of the row's cells. -/
def cellsText (gs : List Grapheme) : Text := (gs.flatMap cached).flatten

theorem cellsText_eq (gs : List Grapheme) : cellsText gs = gs.flatMap fun g => g.cached.flatten := by
  rw [cellsText, ← List.flatMap_id, List.flatMap_assoc]
  simp only [List.flatMap_id]

theorem not_mem_cellsText (gs : List Grapheme) {c : Char} (hc : isWhitespace c = true)
    (hne : c ≠ ' ') : c ∉ cellsText gs := by
  intro h
  obtain ⟨text, htext, hmem⟩ := List.mem_flatten.mp h
  obtain ⟨g, -, hg⟩ := List.mem_flatMap.mp htext
  rcases List.mem_cons.mp hg with rfl | hg
  · rw [g.not_blank c (List.mem_of_mem_take hmem)] at hc
    cases hc
  · split_ifs at hg
    · rw [List.mem_singleton.mp hg] at hmem
      exact hne (List.mem_singleton.mp hmem)
    · cases hg

/-- A selection of the whole row has the text of all cells. -/
theorem Shown.selectedRows_eq (h : Shown t r gs) {sel : Selection} (hsel : SelectsRow sel t r) :
    ∃ flag, selectedRows sel t = [{ absRow := r, line := cellsText gs, isWrapped := flag }] := by
  obtain ⟨cells, wrapped, hrow, hlen, hcells⟩ := h.graphemes
  have hfilter : (cells.zipIdx.filter fun x => sel.contains r x.2) = cells.zipIdx := by
    rw [List.filter_eq_self]
    intro x hx
    refine hsel.contains x.2 ?_
    have := List.snd_lt_of_mem_zipIdx hx
    omega
  have hline : selectedText sel r cells = cellsText gs := by
    change (cells.zipIdx.filter fun x => sel.contains r x.2).flatMap (fun x => x.1.grapheme) = _
    rw [hfilter, ← List.flatMap_map, List.zipIdx_map_fst, cellsText, ← hcells, List.flatMap_def]
  refine ⟨isWrapped sel t.cols r cells wrapped, ?_⟩
  rw [selectedRows, hsel.startRow, hsel.endRow, Nat.add_sub_cancel_left, List.range'_one,
    List.map_singleton, selectedRow, hrow]
  simp only [Option.map_some, Option.getD_some, hline]

theorem Shown.endRow_lt (h : Shown t r gs) {sel : Selection} (hsel : SelectsRow sel t r) :
    sel.endRow < t.rows.length := by
  rw [hsel.endRow]
  exact h.lt_length

theorem exists_selectsRow (t : Scrollback) (r : ℕ) : ∃ sel, SelectsRow sel t r := by
  refine ⟨{ start := (r, 0), stop := (r, 0), mode := .line }, ?_⟩
  constructor <;> simp [Selection.startRow, Selection.endRow, Selection.ordered, Selection.contains]

/-- The copy reads the text of all cells. -/
theorem copied_iff_cellsText (h : Shown t r gs) (text : Text) :
    Copied t r text ↔ cellsText gs = text := by
  have hcopy : ∀ sel, SelectsRow sel t r → ∃ rounds t' lines,
      copyRows sel rounds t = some (t', lines) ∧ lines.map (·.line) = [cellsText gs] := by
    intro sel hsel
    obtain ⟨flag, hrows⟩ := h.selectedRows_eq hsel
    obtain ⟨rounds, u, hpages⟩ := readPages_selectedRows (h.endRow_lt hsel)
    refine ⟨rounds, scrollTo t.offset u, selectedRows sel t, ?_, ?_⟩
    · rw [copyRows, hpages]
      rfl
    · rw [hrows, List.map_singleton]
  constructor
  · intro hcopied
    obtain ⟨sel, hsel⟩ := exists_selectsRow t r
    obtain ⟨rounds, t', lines, hc, hl⟩ := hcopied sel hsel
    obtain ⟨rounds', u, lines', hc', hl'⟩ := hcopy sel hsel
    obtain ⟨-, rfl⟩ := Prod.mk.inj (copyRows_unique hc hc')
    exact List.head_eq_of_cons_eq (hl'.symm.trans hl)
  · rintro rfl
    exact hcopy

/-- On the clipboard the blanks at the end of the row are gone, and only those. Box-drawing is
stripped as everywhere. -/
theorem copySelection_row (h : Shown t r gs) {sel : Selection} (hsel : SelectsRow sel t r) :
    ∃ rounds t' copied, copySelection sel rounds t = some (t', copied) ∧
      copied.getD [] = trimEnd (stripBoxDrawing (cellsText gs)) := by
  obtain ⟨flag, hrows⟩ := h.selectedRows_eq hsel
  obtain ⟨rounds, t', hcopy⟩ := copySelection_some (h.endRow_lt hsel)
  refine ⟨rounds, t', _, hcopy, ?_⟩
  rw [hrows]
  exact getD_clipboardText_row (not_mem_cellsText gs (by decide) (by decide))
    (not_mem_cellsText gs (by decide) (by decide))

/-- The cells of narrow graphemes that fit have their code points. -/
theorem flatMap_cached {gs : List Grapheme}
    (h : ∀ g ∈ gs, g.wide = false ∧ g.codepoints.length ≤ maxCodepoints) :
    gs.flatMap cached = gs.map (·.codepoints) := by
  induction gs with
  | nil => rfl
  | cons g gs ih =>
    rw [List.forall_mem_cons] at h
    rw [List.flatMap_cons, ih h.2, cached, h.1.1, List.take_of_length_le h.1.2]
    rfl

theorem length_flatMap_le {α β : Type*} {f g : α → List β} {l : List α}
    (hsub : ∀ a ∈ l, (f a).Sublist (g a)) : (l.flatMap f).length ≤ (l.flatMap g).length := by
  induction l with
  | nil => exact Nat.le_refl 0
  | cons a l ih =>
    rw [List.forall_mem_cons] at hsub
    have hle := hsub.1.length_le
    have hles := ih hsub.2
    simp only [List.flatMap_cons, List.length_append]
    omega

/-- Parts of the members of a list that together are the whole are each the whole. -/
theorem eq_of_flatMap_eq {α β : Type*} {f g : α → List β} {l : List α}
    (hsub : ∀ a ∈ l, (f a).Sublist (g a)) (h : l.flatMap f = l.flatMap g) : ∀ a ∈ l, f a = g a := by
  induction l with
  | nil => exact fun a ha => absurd ha List.not_mem_nil
  | cons a l ih =>
    rw [List.forall_mem_cons] at hsub ⊢
    have hlen := congrArg List.length h
    have hle := hsub.1.length_le
    have hles := length_flatMap_le hsub.2
    simp only [List.flatMap_cons, List.length_append] at hlen
    have hfirst : f a = g a := hsub.1.eq_of_length (by omega)
    rw [List.flatMap_cons, List.flatMap_cons, hfirst] at h
    exact ⟨hfirst, ih hsub.2 (List.append_cancel_left h)⟩

/-- The row is copied exactly if its graphemes are narrow and fit into the buffer. -/
theorem copied_iff (h : Shown t r gs) : Copied t r (gs.flatMap (·.codepoints)) ↔
    ∀ g ∈ gs, g.wide = false ∧ g.codepoints.length ≤ maxCodepoints := by
  rw [copied_iff_cellsText h]
  constructor
  · intro htext
    have hnarrow : ∀ g ∈ gs, g.wide = false := by
      intro g hg
      by_contra hwide
      rw [Bool.not_eq_false] at hwide
      have hspacer : ' ' ∈ cellsText gs := by
        refine List.mem_flatten.mpr ⟨[' '], List.mem_flatMap.mpr ⟨g, hg, ?_⟩, List.mem_singleton_self _⟩
        rw [cached, hwide]
        exact List.mem_cons_of_mem _ (List.mem_singleton_self _)
      rw [htext] at hspacer
      obtain ⟨g', -, hblank⟩ := List.mem_flatMap.mp hspacer
      exact absurd (g'.not_blank ' ' hblank) (by decide)
    have hwhole : gs.flatMap (fun g => g.codepoints.take maxCodepoints) =
        gs.flatMap (·.codepoints) := by
      rw [← htext, cellsText_eq]
      refine List.flatMap_congr fun g hg => ?_
      rw [cached, hnarrow g hg]
      exact (List.append_nil _).symm
    intro g hg
    refine ⟨hnarrow g hg, ?_⟩
    have htake := eq_of_flatMap_eq (fun g _ => List.take_sublist maxCodepoints g.codepoints) hwhole
    exact (List.take_eq_self_iff _).mp (htake g hg)
  · intro hfits
    rw [cellsText, flatMap_cached hfits, ← List.flatMap_def]

end Copy

/-! ### Searching -/

section Search

variable {u : CaseTables} {t : Scrollback} {r : ℕ} {gs : List Grapheme}

theorem rowLine_eq {cells : List Cell} {wrapped : Bool} (h : Shown t r gs)
    (hrow : t.rows[r]? = some { cells := cells, wrapped := wrapped }) (hlen : cells.length = t.cols) :
    rowLine u t.screen t.cols (r - t.offset) = lowerLine u cells := by
  have hlt := h.lt_offset_add_len
  have hle := h.offset_le
  rw [rowLine, t.row_screen (by omega), Nat.add_sub_cancel' hle, hrow]
  simp only [Option.map_some, Option.getD_some]
  rw [show min t.screen.cols t.cols = t.cols from Nat.min_self _, ← hlen, List.take_length]

/-- A span of the row is found if the search does not panic. -/
theorem search_iff {cells : List Cell} {wrapped : Bool} (h : Shown t r gs)
    (hrow : t.rows[r]? = some { cells := cells, wrapped := wrapped }) (hlen : cells.length = t.cols)
    {query : Text} (hq : query ≠ []) {s : ℕ × ℕ} :
    (∃ rounds ms, collectMatchesFromViewport u t.screen query t.offset t.len t.cols rounds [] =
        some ms ∧ (r, s) ∈ ms) ↔
      (∀ row < t.len, Sliceable query (rowLine u t.screen t.cols row)) ∧
        s ∈ spans query (lowerLine u cells) := by
  have hlt := h.lt_offset_add_len
  have hle := h.offset_le
  have hmin : min t.screen.rows t.len = t.len := Nat.min_self _
  have hmem : (r, s) ∈ rowMatches u t.screen query t.offset t.cols (List.range t.len) ↔
      s ∈ spans query (lowerLine u cells) := by
    rw [← rowLine_eq h hrow hlen, rowMatches]
    constructor
    · intro hm
      obtain ⟨row, -, hm⟩ := List.mem_flatMap.mp hm
      obtain ⟨s', hs, heq⟩ := List.mem_map.mp hm
      obtain ⟨rfl, rfl⟩ := Prod.mk.inj heq
      rwa [Nat.add_sub_cancel_left]
    · intro hs
      refine List.mem_flatMap.mpr ⟨r - t.offset, List.mem_range.mpr (by omega), ?_⟩
      refine List.mem_map.mpr ⟨s, hs, ?_⟩
      rw [Nat.add_sub_cancel' hle]
  constructor
  · rintro ⟨rounds, ms, hms, hm⟩
    obtain ⟨hslice, rfl⟩ := (collectMatches_iff hq).mp ⟨rounds, hms⟩
    rw [hmin] at hslice hm
    exact ⟨hslice, hmem.mp hm⟩
  · rintro ⟨hslice, hs⟩
    have hms : ∃ rounds, collectMatchesFromViewport u t.screen query t.offset t.len t.cols rounds [] =
        some ([] ++ rowMatches u t.screen query t.offset t.cols
          (List.range (min t.screen.rows t.len))) :=
      (collectMatches_iff hq).mpr ⟨by rwa [hmin], rfl⟩
    obtain ⟨rounds, hms⟩ := hms
    rw [hmin] at hms
    exact ⟨rounds, _, hms, hmem.mpr hs⟩

/-- A code point in lower case, in the first column of its grapheme. -/
def lowered (u : CaseTables) (x : Char × ℕ × ℕ) : Line := (u.lower x.1).map (·, x.2.1)

/-- The searched line has the code points where they were placed. -/
theorem lowerLine_placed {cells : List Cell} (hcells : cells.map (·.grapheme) = gs.map (·.codepoints))
    (hnarrow : ∀ g ∈ gs, g.wide = false) :
    lowerLine u cells = (placed 0 gs).flatMap (lowered u) := by
  suffices ∀ k, ((cells.zipIdx k).flatMap fun x => (lowerCell u x.1).map (·, x.2)) =
      (placed k gs).flatMap (lowered u) from this 0
  induction gs generalizing cells with
  | nil =>
    obtain rfl := List.map_eq_nil_iff.mp hcells
    exact fun _ => rfl
  | cons g gs ih =>
    intro k
    obtain ⟨cell, cells, rfl, hcell, hrest⟩ := List.map_eq_cons_iff.mp hcells
    rw [List.forall_mem_cons] at hnarrow
    have hwidth : g.width = 1 := by rw [width, hnarrow.1]; rfl
    have hlower : lowerCell u cell = g.codepoints.flatMap u.lower := by
      rw [lowerCell, hcell, if_neg (by simpa using g.codepoints_ne_nil)]
    have hfirst : (lowerCell u cell).map (·, k) =
        (g.codepoints.map fun c => (c, k, k + 1 - 1)).flatMap (lowered u) := by
      rw [hlower, List.map_flatMap, List.flatMap_map]
      rfl
    rw [List.zipIdx_cons, List.flatMap_cons, ih hrest hnarrow.2, placed, List.flatMap_append, hwidth,
      ← hfirst]

/-- The columns of a piece are those of its first and of its last code point. -/
theorem span_lowered {piece : List (Char × ℕ × ℕ)} (h : piece ≠ []) (after : Line) :
    span (text (piece.flatMap (lowered u))) (piece.flatMap (lowered u) ++ after) =
      ((piece.head h).2.1, (piece.getLast h).2.1 - (piece.head h).2.1 + 1) := by
  have hends : ∀ x, ∃ l l', (lowered u x).head? = some (l, x.2.1) ∧
      (lowered u x).getLast? = some (l', x.2.1) := by
    intro x
    have hne := u.lower_ne_nil x.1
    refine ⟨(u.lower x.1).head hne, (u.lower x.1).getLast hne, ?_, ?_⟩
    · rw [lowered, List.head?_map, List.head?_eq_some_head hne, Option.map_some]
    · rw [lowered, List.getLast?_map, List.getLast?_eq_some_getLast hne, Option.map_some]
  obtain ⟨l, -, hl, -⟩ := hends (piece.head h)
  obtain ⟨-, l', -, hl'⟩ := hends (piece.getLast h)
  refine span_text (p := (l, _)) (q := (l', _)) ?_ ?_ after
  · conv_lhs => rw [← List.cons_head_tail h]
    rw [List.flatMap_cons, List.head?_append, hl]
    rfl
  · conv_lhs => rw [← List.dropLast_append_getLast h]
    rw [List.flatMap_append, List.getLast?_append, List.flatMap_singleton, hl']
    rfl

theorem text_lowered (u : CaseTables) (piece : List (Char × ℕ × ℕ)) :
    text (piece.flatMap (lowered u)) = (piece.map (·.1)).flatMap u.lower := by
  rw [text, List.map_flatMap, List.flatMap_map]
  refine List.flatMap_congr fun x _ => ?_
  rw [lowered, List.map_map]
  exact List.map_id _

theorem mem_placed {k : ℕ} {x : Char × ℕ × ℕ} (h : x ∈ placed k gs) :
    ∃ g ∈ gs, x.1 ∈ g.codepoints ∧ x.2.2 = x.2.1 + g.width - 1 := by
  induction gs generalizing k with
  | nil => cases h
  | cons g gs ih =>
    rcases List.mem_append.mp h with h | h
    · obtain ⟨c, hc, rfl⟩ := List.mem_map.mp h
      exact ⟨g, List.mem_cons_self, hc, rfl⟩
    · obtain ⟨g', hg', hx⟩ := ih h
      exact ⟨g', List.mem_cons_of_mem g hg', hx⟩

theorem not_plain_sigma {g : Grapheme} (h : Plain u g) : 'Σ' ∉ g.codepoints := by
  intro hc
  have hbyte := h.one_byte _ hc 'σ' (by rw [u.lower_capitalSigma]; rfl)
  exact absurd hbyte (by decide)

/-- In a row of plain graphemes all pieces are found. -/
theorem found_of_plain (h : Shown t r gs) (hplain : ∀ g ∈ gs, Plain u g) : Found u t r gs := by
  intro piece hpiece hne typed htyped
  obtain ⟨cells, wrapped, hrow, hlen, hcells⟩ := h.graphemes
  rw [flatMap_cached fun g hg => ⟨(hplain g hg).narrow, (hplain g hg).length_le⟩] at hcells
  have hmem : ∀ x ∈ piece, ∃ g, Plain u g ∧ x.1 ∈ g.codepoints ∧ x.2.2 = x.2.1 := by
    intro x hx
    obtain ⟨g, hg, hc, hcol⟩ := mem_placed (hpiece.subset hx)
    refine ⟨g, hplain g hg, hc, ?_⟩
    rw [hcol, width, (hplain g hg).narrow]
    rfl
  have hquery : u.toLowercase typed = text (piece.flatMap (lowered u)) := by
    rw [htyped, text_lowered, u.toLowercase_eq]
    intro hs
    obtain ⟨x, hx, hsigma⟩ := List.mem_map.mp hs
    obtain ⟨g, hg, hc, -⟩ := hmem x hx
    exact not_plain_sigma hg (hsigma ▸ hc)
  have hhead : ∃ q qs, u.toLowercase typed = q :: qs ∧ q.utf8Size = 1 := by
    obtain ⟨x, piece, rfl⟩ := List.exists_cons_of_ne_nil hne
    obtain ⟨l, ls, hl⟩ := List.exists_cons_of_ne_nil (u.lower_ne_nil x.1)
    obtain ⟨g, hg, hc, -⟩ := hmem x List.mem_cons_self
    refine ⟨l, ls ++ text (piece.flatMap (lowered u)), ?_, hg.one_byte x.1 hc l (by rw [hl]; rfl)⟩
    rw [hquery, text_lowered, text_lowered, List.map_cons, List.flatMap_cons, hl, List.cons_append]
  obtain ⟨q, qs, hqs, hbyte⟩ := hhead
  have hq : u.toLowercase typed ≠ [] := by rw [hqs]; exact List.cons_ne_nil q qs
  have hslice : ∀ line, Sliceable (u.toLowercase typed) line := by
    intro line
    rw [hqs]
    exact sliceable_iff.mpr fun _ => hbyte
  obtain ⟨before, after, hsplit⟩ := hpiece
  have hline : lowerLine u cells = before.flatMap (lowered u) ++
      (piece.flatMap (lowered u) ++ after.flatMap (lowered u)) := by
    rw [lowerLine_placed hcells fun g hg => (hplain g hg).narrow, ← hsplit, List.append_assoc,
      List.flatMap_append, List.flatMap_append]
  have hlast : (piece.getLast hne).2.2 = (piece.getLast hne).2.1 := by
    obtain ⟨g, -, -, hcol⟩ := hmem _ (List.getLast_mem hne)
    exact hcol
  refine (search_iff h hrow hlen hq).mpr ⟨fun row _ => hslice _, ?_⟩
  rw [spans, List.mem_map]
  refine ⟨piece.flatMap (lowered u) ++ after.flatMap (lowered u), ?_, ?_⟩
  · rw [mem_occurrences hq, hline, hquery]
    refine ⟨List.suffix_append _ _, ?_⟩
    rw [text_append]
    exact List.prefix_append _ _
  · rw [hquery, span_lowered hne, hlast]

/-! ### What a code point that is found is like -/

/-- The first code point of a wide grapheme, and the blank in its second column. -/
theorem exists_placed_wide {g : Grapheme} (hg : g ∈ gs) (hwide : g.wide = true) (k : ℕ) :
    ∃ c ∈ g.codepoints, ∃ col, (c, k + col, k + col + 1) ∈ placed k gs ∧
      (gs.flatMap cached)[col + 1]? = some [' '] := by
  induction gs generalizing k with
  | nil => cases hg
  | cons g' gs ih =>
    rcases List.mem_cons.mp hg with rfl | hg
    · refine ⟨g.codepoints.head g.codepoints_ne_nil, List.head_mem _, 0, ?_, ?_⟩
      · refine List.mem_append_left _ (List.mem_map.mpr ⟨_, List.head_mem g.codepoints_ne_nil, ?_⟩)
        rw [width, hwide]
        rfl
      · rw [List.flatMap_cons, cached, hwide]
        rfl
    · obtain ⟨c, hc, col, hplaced, hblank⟩ := ih hg (k + g'.width)
      have hlen : g'.cached.length = g'.width := by
        rw [cached, width]
        split_ifs <;> rfl
      refine ⟨c, hc, g'.width + col, ?_, ?_⟩
      · rw [← Nat.add_assoc]
        exact List.mem_append_right _ hplaced
      · rw [List.flatMap_cons, Nat.add_assoc, ← hlen, List.getElem?_append_right (Nat.le_add_right _ _),
          Nat.add_sub_cancel_left, hblank]

theorem exists_placed {g : Grapheme} (hg : g ∈ gs) {c : Char} (hc : c ∈ g.codepoints) (k : ℕ) :
    ∃ x ∈ placed k gs, x.1 = c := by
  induction gs generalizing k with
  | nil => cases hg
  | cons g' gs ih =>
    rcases List.mem_cons.mp hg with rfl | hg
    · exact ⟨_, List.mem_append_left _ (List.mem_map_of_mem hc), rfl⟩
    · obtain ⟨x, hx, hxc⟩ := ih hg (k + g'.width)
      exact ⟨x, List.mem_append_right _ hx, hxc⟩

/-- A match with a span that ends in the next column ends with a character of that column. -/
theorem mem_of_span {query : Text} (hq : query ≠ []) {line : Line} {col : ℕ}
    (h : (col, 2) ∈ spans query line) : ∃ c ∈ query, (c, col + 1) ∈ line := by
  obtain ⟨found, hfound, hspan⟩ := List.mem_map.mp h
  obtain ⟨hsuffix, hpre⟩ := (mem_occurrences hq).mp hfound
  obtain ⟨front, last, rest, rfl, rfl⟩ := exists_last hq hpre
  refine ⟨last.1, by simp, hsuffix.subset ?_⟩
  have hlast : (front ++ last :: rest)[(text front ++ [last.1]).length - 1]? = some last := by
    simp [text]
  rw [span, hlast] at hspan
  obtain ⟨hcol, hcount⟩ := Prod.mk.inj hspan
  simp only [Option.map_some, Option.getD_some] at hcount
  rw [hcol] at hcount
  have hnext : last.2 = col + 1 := by omega
  rw [← hnext]
  exact List.mem_append_right _ List.mem_cons_self

/-- In a row of graphemes that fit, all pieces are found only if the graphemes are plain. -/
theorem plain_of_found (h : Shown t r gs) (hfound : Found u t r gs)
    (hfits : ∀ g ∈ gs, g.codepoints.length ≤ maxCodepoints) : ∀ g ∈ gs, Plain u g := by
  obtain ⟨cells, wrapped, hrow, hlen, hcells⟩ := h.graphemes
  have hline := rowLine_eq (u := u) h hrow hlen
  have hchar : ∀ x ∈ placed 0 gs, Sliceable (u.lower x.1) (lowerLine u cells) ∧
      (x.2.1, x.2.2 - x.2.1 + 1) ∈ spans (u.lower x.1) (lowerLine u cells) := by
    intro x hx
    have hsearch := hfound [x] ((List.singleton_infix_iff x _).mpr hx) (List.cons_ne_nil x []) [x.1] rfl
    rw [u.toLowercase_singleton, List.head_singleton, List.getLast_singleton] at hsearch
    obtain ⟨hslice, hspan⟩ := (search_iff h hrow hlen (u.lower_ne_nil x.1)).mp hsearch
    refine ⟨?_, hspan⟩
    have hlt := h.lt_offset_add_len
    have hle := h.offset_le
    rw [← hline]
    exact hslice _ (by omega)
  intro g hg
  refine ⟨?_, hfits g hg, ?_⟩
  · -- The match would end with the blank in the second column.
    by_contra hwide
    rw [Bool.not_eq_false] at hwide
    obtain ⟨c, hc, col, hplaced, hblank⟩ := exists_placed_wide hg hwide 0
    obtain ⟨-, hspan⟩ := hchar _ hplaced
    simp only [Nat.zero_add, Nat.add_sub_cancel_left] at hspan
    obtain ⟨l, hl, hmem⟩ := mem_of_span (u.lower_ne_nil c) hspan
    obtain ⟨cell, hcell, hlower⟩ := mem_lowerLine hmem
    have hgrapheme : cell.grapheme = [' '] := by
      rw [← hcells, List.getElem?_map, hcell] at hblank
      exact Option.some.inj hblank
    have hlb : l = ' ' := by
      rw [lowerCell, hgrapheme] at hlower
      simpa [u.lower_blank] using hlower
    have hcb := u.blank_of_lower c (hlb ▸ hl)
    exact absurd (g.not_blank c hc) (by rw [hcb]; decide)
  · -- One byte behind the match another slice begins.
    intro c hc l hl
    obtain ⟨x, hx, rfl⟩ := exists_placed hg hc 0
    obtain ⟨hslice, -⟩ := hchar x hx
    obtain ⟨ls, hlower⟩ := List.head?_eq_some_iff.mp hl
    rw [hlower] at hslice
    refine sliceable_iff.mp hslice ?_
    rw [← hlower, text_lowerLine, List.flatMap_def]
    have hcached : g.codepoints ∈ cells.map (·.grapheme) := by
      rw [hcells, List.mem_flatMap]
      refine ⟨g, hg, ?_⟩
      rw [cached, List.take_of_length_le (hfits g hg)]
      exact List.mem_cons_self
    obtain ⟨cell, hcell, hgrapheme⟩ := List.mem_map.mp hcached
    refine List.IsInfix.trans ?_ (List.infix_of_mem_flatten (List.mem_map_of_mem hcell))
    rw [lowerCell, hgrapheme, if_neg (by simpa using g.codepoints_ne_nil), List.flatMap_def]
    exact List.infix_of_mem_flatten (List.mem_map_of_mem hc)

end Search

/-- A row is copied and searched without gaps exactly if its graphemes are narrow ones that fit
into the buffer, in which the lower case of every code point begins with a character of one
byte. -/
theorem copied_found_iff {u : CaseTables} {t : Scrollback} {r : ℕ} {gs : List Grapheme}
    (h : Shown t r gs) : Copied t r (gs.flatMap (·.codepoints)) ∧ Found u t r gs ↔
      ∀ g ∈ gs, Plain u g := by
  rw [copied_iff h]
  constructor
  · rintro ⟨hfits, hfound⟩
    exact plain_of_found h hfound fun g hg => (hfits g hg).2
  · intro hplain
    exact ⟨fun g hg => ⟨(hplain g hg).narrow, (hplain g hg).length_le⟩, found_of_plain h hplain⟩

/-! ### Two rows -/

/-- A terminal with one row, as the library has it. -/
def rowOf (codepoints : List Text) : Scrollback where
  rows :=
    let black : Rgb := ⟨0, 0, 0⟩
    let plain : Style := { fgColor := .none, bgColor := .none, bold := false, italic := false,
                           faint := false, inverse := false, strikethrough := false, underline := 0 }
    let row : RenderRow :=
      { cells := codepoints.map fun text => { codepoints := text, style := plain, background := none }
        wrap := false }
    let grid : RenderGrid :=
      { rows := [row], cols := codepoints.length, foreground := ⟨255, 255, 255⟩, background := black }
    [{ cells := convertRow (fun _ => black) grid row, wrapped := false }]
  cols := codepoints.length
  offset := 0
  len := 1
  len_pos := Nat.one_pos
  len_le := by simp
  offset_le := by simp
  rows_lt := by simp
  length_cells := by simp [convertRow]
  grapheme_ne_nil row hrow cell hcell := by
    rw [List.mem_singleton.mp hrow] at hcell
    exact grapheme_ne_nil_of_mem_convertRow hcell

theorem shown_rowOf (gs : List Grapheme) : Shown (rowOf (gs.flatMap reported)) 0 gs := by
  refine ⟨Nat.le_refl 0, Nat.one_pos, _, _, _, _, rfl, ?_, ?_⟩
  · exact List.length_map _
  · rw [List.map_map]
    exact List.map_id _

def letterA : Grapheme where
  codepoints := ['A']
  wide := false
  codepoints_ne_nil := by decide
  not_blank c hc := by
    rw [List.mem_singleton.mp hc]
    rfl

def ideograph : Grapheme where
  codepoints := ['世']
  wide := true
  codepoints_ne_nil := by decide
  not_blank c hc := by
    rw [List.mem_singleton.mp hc]
    rfl

theorem copied_found_letters : Copied (rowOf [['A'], ['A']]) 0 ['A', 'A'] ∧
    Found latinCases (rowOf [['A'], ['A']]) 0 [letterA, letterA] := by
  refine (copied_found_iff (shown_rowOf [letterA, letterA])).mpr fun g hg => ?_
  have hletter : g = letterA := by simpa using hg
  rw [hletter]
  refine ⟨rfl, by decide, fun c hc l hl => ?_⟩
  obtain rfl : c = 'A' := List.mem_singleton.mp hc
  obtain rfl : 'a' = l := Option.some.inj hl
  rfl

/-- The spacer behind the ideograph is copied as a blank. -/
theorem not_copied_found_ideograph : ¬ ∀ u t r gs, Shown t r gs →
    Copied t r (gs.flatMap (·.codepoints)) ∧ Found u t r gs := by
  intro h
  have hshown := shown_rowOf [ideograph, letterA]
  have hcopied := (copied_iff_cellsText hshown _).mp (h latinCases _ _ _ hshown).1
  exact absurd hcopied (by decide)

end Grapheme

end Forgetty
