import Forgetty.Gtk.WideText
import Mathlib.Data.Prod.Lex

/-! The matches of a screen against the places where the query stands in its rows. The rows
are searched from left to right, so matches come in order. Two of them that begin and end
in the same cells are noted twice. -/

namespace Forgetty.Search

open String (utf8Len)

/-- A span of cells with the query in it. -/
def IsSpan (query : Text) (line : Line) (s : ℕ × ℕ) : Prop :=
  ∃ before part after p q, line = before ++ part ++ after ∧ text part = query ∧
    part.head? = some p ∧ part.getLast? = some q ∧ s = (p.2, q.2 - p.2 + 1)

/-- Matches are ordered by row, then by column, then by the number of columns. -/
def place (m : Match) : ℕ ×ₗ ℕ ×ₗ ℕ := toLex (m.1, toLex m.2)

/-- The search does not panic and notes the span of every occurrence in the rows once, in
ascending order. -/
def CollectsSpans (u : CaseTables) (screen : Screen) (query : Text) (rowOffset rows cols : ℕ)
    (out : List Match) : Prop :=
  ∃ rounds ms, collectMatchesFromViewport u screen query rowOffset rows cols rounds out =
      some (out ++ ms) ∧
    ms.Pairwise (fun m m' => place m < place m') ∧
    ∀ m, m ∈ ms ↔ ∃ row < min screen.rows rows, m.1 = rowOffset + row ∧
      IsSpan query (rowLine u screen cols row) m.2

/-- No two occurrences of the query begin in one cell and end in one cell. -/
def Distinct (query : Text) (line : Line) : Prop :=
  (occurrences query line).Pairwise fun found found' => span query found ≠ span query found'

/-! ### Spans -/

section Spans

variable {query : Text} {chars : Line}

theorem mem_spans (hq : query ≠ []) {s : ℕ × ℕ} : s ∈ spans query chars ↔ IsSpan query chars s := by
  constructor
  · intro h
    obtain ⟨found, hfound, rfl⟩ := List.mem_map.mp h
    obtain ⟨⟨before, rfl⟩, hpre⟩ := (mem_occurrences hq).mp hfound
    obtain ⟨front, last, rest, rfl, rfl⟩ := exists_last hq hpre
    obtain ⟨p, tail, hpart⟩ := List.exists_cons_of_ne_nil
      (List.append_ne_nil_of_right_ne_nil front (List.cons_ne_nil last []))
    have hhead : (front ++ [last]).head? = some p := by rw [hpart, List.head?_cons]
    refine ⟨before, front ++ [last], rest, p, last, ?_, text_append .., hhead,
      List.getLast?_concat .., ?_⟩
    · rw [List.append_assoc, List.append_assoc, List.singleton_append]
    · have hspan := span_text hhead (List.getLast?_concat ..) rest
      rwa [text_append, List.append_assoc, List.singleton_append] at hspan
  · rintro ⟨before, part, after, p, q, rfl, rfl, hp, hlast, rfl⟩
    rw [spans, ← span_text hp hlast after]
    refine List.mem_map_of_mem ((mem_occurrences hq).mpr ⟨⟨before, ?_⟩, text after, ?_⟩)
    · rw [List.append_assoc]
    · rw [text_append]

/-- The columns of a line do not go back. -/
def InOrder (chars : Line) : Prop := chars.Pairwise fun p q => p.2 ≤ q.2

theorem InOrder.le (hline : InOrder chars) {i j : ℕ} (hij : i ≤ j) {p q : Char × ℕ}
    (hp : chars[i]? = some p) (hq : chars[j]? = some q) : p.2 ≤ q.2 := by
  obtain ⟨hi, rfl⟩ := List.getElem?_eq_some_iff.mp hp
  obtain ⟨hj, rfl⟩ := List.getElem?_eq_some_iff.mp hq
  rcases Nat.eq_or_lt_of_le hij with rfl | hlt
  · exact Nat.le_refl _
  · exact List.pairwise_iff_getElem.mp hline i j hi hj hlt

theorem inOrder_lowerLine (u : CaseTables) (cells : List Cell) : InOrder (lowerLine u cells) := by
  rw [InOrder, lowerLine, List.pairwise_flatMap]
  constructor
  · intro x _
    rw [List.pairwise_map]
    exact List.pairwise_of_forall fun _ _ => Nat.le_refl _
  · have hlt : (cells.zipIdx.map (·.2)).Pairwise (· < ·) := by
      rw [List.zipIdx_map_snd]
      exact List.pairwise_lt_range'
    rw [List.pairwise_map] at hlt
    refine hlt.imp fun hcols p hp q hq => ?_
    obtain ⟨c, -, rfl⟩ := List.mem_map.mp hp
    obtain ⟨d, -, rfl⟩ := List.mem_map.mp hq
    exact Nat.le_of_lt hcols

/-- A later occurrence begins and ends no earlier. -/
theorem span_le (hq : query ≠ []) (hline : InOrder chars) {found : Line} (hsuffix : found <:+ chars)
    (hpre : query <+: text found) : toLex (span query chars) ≤ toLex (span query found) := by
  obtain ⟨before, hsplit⟩ := hsuffix
  have hlen : query.length ≤ found.length := hpre.length_le.trans_eq (List.length_map ..)
  have hpos := List.length_pos_of_ne_nil hq
  have hget {i : ℕ} (hi : i < found.length) : ∃ p q, chars[i]? = some p ∧ found[i]? = some q ∧
      p.2 ≤ q.2 := by
    have hfound := List.getElem?_eq_getElem hi
    have hbehind : chars[before.length + i]? = some found[i] := by
      rw [← hsplit, List.getElem?_append_right (Nat.le_add_right _ _), Nat.add_sub_cancel_left, hfound]
    have hlt : i < chars.length := by
      rw [← hsplit, List.length_append]
      omega
    have hp := List.getElem?_eq_getElem hlt
    exact ⟨_, _, hp, hfound, hline.le (Nat.le_add_left _ _) hp hbehind⟩
  obtain ⟨p, q, hfirst, hfirst', hstart⟩ := hget (i := 0) (by omega)
  obtain ⟨p', q', hlast, hlast', hend⟩ := hget (i := query.length - 1) (by omega)
  rw [Prod.Lex.toLex_le_toLex, span, span, List.head?_eq_getElem?, List.head?_eq_getElem?, hfirst,
    hfirst', hlast, hlast']
  simp only [Option.map_some, Option.getD_some]
  omega

theorem spans_ascending (hq : query ≠ []) (hline : InOrder chars) :
    (spans query chars).Pairwise fun s s' => toLex s ≤ toLex s' := by
  induction chars with
  | nil => exact .nil
  | cons p chars ih =>
    have hrest := ih (List.pairwise_cons.mp hline).2
    rw [spans, occurrences]
    split_ifs with hpre
    · rw [List.map_cons, List.pairwise_cons]
      refine ⟨fun s hs => ?_, hrest⟩
      obtain ⟨found, hfound, rfl⟩ := List.mem_map.mp hs
      obtain ⟨hsuffix, hpre'⟩ := (mem_occurrences hq).mp hfound
      exact span_le hq hline (hsuffix.trans (List.suffix_cons p chars)) hpre'
    · exact hrest

/-- Distinct spans come in strictly ascending order. -/
theorem spans_strict (hq : query ≠ []) (hline : InOrder chars) :
    ((spans query chars).Pairwise fun s s' => toLex s < toLex s') ↔ Distinct query chars := by
  rw [Distinct, ← List.pairwise_map (R := (· ≠ ·))]
  constructor
  · intro h
    refine h.imp fun hlt heq => ?_
    rw [heq] at hlt
    exact lt_irrefl _ hlt
  · intro h
    refine List.Pairwise.imp₂ (fun s s' hne hle => ?_) h (spans_ascending hq hline)
    exact lt_of_le_of_ne hle fun heq => hne (toLex.injective heq)

end Spans

/-! ### Matches -/

section Matches

variable {u : CaseTables} {screen : Screen} {query : Text} {rowOffset cols : ℕ}

theorem mem_rowMatches (hq : query ≠ []) {rows : List ℕ} {m : Match} :
    m ∈ rowMatches u screen query rowOffset cols rows ↔
      ∃ row ∈ rows, m.1 = rowOffset + row ∧ IsSpan query (rowLine u screen cols row) m.2 := by
  simp only [rowMatches, List.mem_flatMap, List.mem_map, ← mem_spans hq]
  constructor
  · rintro ⟨row, hrow, s, hs, rfl⟩
    exact ⟨row, hrow, rfl, hs⟩
  · rintro ⟨row, hrow, hfst, hs⟩
    exact ⟨row, hrow, m.2, hs, Prod.ext hfst.symm rfl⟩

/-- The matches of rows one below the other are in ascending order where those of each row
are. -/
theorem rowMatches_ascending {r : ℕ ×ₗ ℕ → ℕ ×ₗ ℕ → Prop} {r' : ℕ ×ₗ ℕ ×ₗ ℕ → ℕ ×ₗ ℕ ×ₗ ℕ → Prop}
    (hrow : ∀ row s s', r' (toLex (row, s)) (toLex (row, s')) ↔ r s s')
    (hrows : ∀ row row' s s', row < row' → r' (toLex (row, s)) (toLex (row', s'))) (n : ℕ) :
    ((rowMatches u screen query rowOffset cols (List.range n)).Pairwise
        fun m m' => r' (place m) (place m')) ↔
      ∀ row < n, (spans query (rowLine u screen cols row)).Pairwise
        fun s s' => r (toLex s) (toLex s') := by
  rw [rowMatches, List.pairwise_flatMap]
  constructor
  · rintro ⟨h, -⟩ row hlt
    have hspans := h row (List.mem_range.mpr hlt)
    rw [List.pairwise_map] at hspans
    exact hspans.imp fun hr => (hrow _ _ _).mp hr
  · intro h
    constructor
    · intro row hmem
      rw [List.pairwise_map]
      exact (h row (List.mem_range.mp hmem)).imp fun hr => (hrow _ _ _).mpr hr
    · refine List.pairwise_lt_range.imp fun hlt m hm m' hm' => ?_
      obtain ⟨s, -, rfl⟩ := List.mem_map.mp hm
      obtain ⟨s', -, rfl⟩ := List.mem_map.mp hm'
      exact hrows _ _ _ _ (Nat.add_lt_add_left hlt rowOffset)

/-- The search notes exactly the spans of the occurrences if it never slices inside a character
and no two occurrences have one span. -/
theorem collectsSpans_iff (hq : query ≠ []) {rows : ℕ} {out : List Match} :
    CollectsSpans u screen query rowOffset rows cols out ↔
      ∀ row < min screen.rows rows, Sliceable query (rowLine u screen cols row) ∧
        Distinct query (rowLine u screen cols row) := by
  have hstrict := @rowMatches_ascending u screen query rowOffset cols (· < ·) (· < ·)
    (fun row s s' => by simp [Prod.Lex.toLex_lt_toLex])
    (fun row row' s s' hlt => Prod.Lex.toLex_lt_toLex.mpr (Or.inl hlt)) (min screen.rows rows)
  have hdistinct (row : ℕ) :=
    spans_strict hq (inOrder_lowerLine u ((screen.row row).take (min screen.cols cols)))
  constructor
  · rintro ⟨rounds, ms, hms, hasc, -⟩ row hrow
    obtain ⟨hslice, heq⟩ := (collectMatches_iff hq).mp ⟨rounds, hms⟩
    obtain rfl := List.append_cancel_left heq
    exact ⟨hslice row hrow, (hdistinct row).mp (hstrict.mp hasc row hrow)⟩
  · intro h
    obtain ⟨rounds, hms⟩ := (collectMatches_iff hq).mpr ⟨fun row hrow => (h row hrow).1, rfl⟩
    refine ⟨rounds, _, hms, hstrict.mpr fun row hrow => (hdistinct row).mpr (h row hrow).2, ?_⟩
    intro m
    rw [mem_rowMatches hq]
    simp only [List.mem_range]

end Matches

/-- Two letters, both of them found. -/
theorem collectsSpans_letters :
    CollectsSpans Grapheme.latinCases (Grapheme.rowOf [['A'], ['A']]).screen ['a'] 0 1 2 [] := by
  refine (collectsSpans_iff (by decide)).mpr fun row hrow => ?_
  obtain rfl : row = 0 := Nat.lt_one_iff.mp hrow
  refine ⟨sliceable_iff.mpr fun _ => rfl, ?_⟩
  unfold Distinct
  decide

/-- The loop goes on inside the accented letter. -/
theorem not_collectsSpans_accented :
    ¬CollectsSpans Grapheme.latinCases (Grapheme.rowOf [['é']]).screen ['é'] 0 1 1 [] := by
  rintro ⟨rounds, ms, hms, -, -⟩
  have hslice := ((collectMatches_iff (by decide)).mp ⟨rounds, hms⟩).1 0 (by decide)
  exact absurd (hslice [('é', 0)] (by decide) ('é', 0) rfl) (by decide)

end Forgetty.Search
