import Forgetty.Core.Case
import Forgetty.Core.Text
import Mathlib.Algebra.Order.BigOperators.Group.List

/-! Searching a screen. A row is searched as a lower-cased text in which every byte knows its
column. The search goes on one byte behind the beginning of a match, and a slice that does not
begin with a character panics. -/

namespace Forgetty

open String (utf8Len)

/-- `str::find`. -/
def findText (query : Text) : Text → Option ℕ
  | [] => if query.isEmpty then some 0 else none
  | c :: cs =>
    if query.isPrefixOf (c :: cs) then some 0
    else (findText query cs).map (c.utf8Size + ·)

namespace Search

/-- A match: its row, its first column and how many columns it has. -/
abbrev Match := ℕ × ℕ × ℕ

/-- Characters of a row with their columns. -/
abbrev Line := List (Char × ℕ)

def text (line : Line) : Text := line.map (·.1)

/-- `byte_to_col`. -/
def byteToCol (line : Line) : List ℕ := line.flatMap fun (c, col) => List.replicate c.utf8Size col

/-- An empty cell counts as a blank. -/
def lowerCell (u : CaseTables) (cell : Cell) : Text :=
  if cell.grapheme.isEmpty then [' '] else cell.grapheme.flatMap u.lower

/-- The lower-cased row. -/
def lowerLine (u : CaseTables) (cells : List Cell) : Line :=
  cells.zipIdx.flatMap fun (cell, col) => (lowerCell u cell).map (·, col)

/-- A match is noted with the columns of its first and its last byte. -/
def pushMatch (query : Text) (line : Line) (absRow absBytePos : ℕ) (out : List Match) : List Match :=
  let endBytePos := absBytePos + utf8Len query
  let cols := byteToCol line
  if absBytePos < cols.length ∧ 0 < endBytePos then
    let startCol := cols.getD absBytePos 0
    let endCol :=
      if endBytePos ≤ cols.length then cols.getD (endBytePos - 1) 0
      else cols.getD (cols.length - 1) 0
    out ++ [(absRow, startCol, endCol - startCol + 1)]
  else out

/-- The loop over the matches of a row. Without a result it has panicked, or not ended within
the given number of rounds. -/
def searchLine (query : Text) (line : Line) (absRow : ℕ) : ℕ → ℕ → List Match → Option (List Match)
  | 0, _, _ => none
  | rounds + 1, searchStart, out =>
    match dropBytes searchStart (text line) with
    | none => none
    | some rest =>
      match findText query rest with
      | none => some out
      | some bytePos =>
        let absBytePos := searchStart + bytePos
        let out := pushMatch query line absRow absBytePos out
        if absBytePos + 1 ≥ utf8Len (text line) then some out
        else searchLine query line absRow rounds (absBytePos + 1) out

def rowLine (u : CaseTables) (screen : Screen) (cols row : ℕ) : Line :=
  lowerLine u ((screen.row row).take (min screen.cols cols))

def collectMatchesFromViewport (u : CaseTables) (screen : Screen) (query : Text)
    (rowOffset rows cols rounds : ℕ) (out : List Match) : Option (List Match) :=
  (List.range (min screen.rows rows)).foldlM (fun out row =>
    searchLine query (rowLine u screen cols row) (rowOffset + row) rounds 0 out) out

/-! ### The matches of a row -/

theorem text_append (line line' : Line) : text (line ++ line') = text line ++ text line' :=
  List.map_append

theorem text_cons (p : Char × ℕ) (line : Line) : text (p :: line) = p.1 :: text line := rfl

/-- The first column and the number of columns of a match at the beginning of a line. -/
def span (query : Text) (found : Line) : ℕ × ℕ :=
  let startCol := (found.head?.map (·.2)).getD 0
  let endCol := (found[query.length - 1]?.map (·.2)).getD 0
  (startCol, endCol - startCol + 1)

/-- The ends of a line that begin with a query. -/
def occurrences (query : Text) : Line → List Line
  | [] => []
  | p :: line =>
    if query.isPrefixOf (text (p :: line)) then (p :: line) :: occurrences query line
    else occurrences query line

/-- One byte behind the beginning of a match another character begins. -/
def Sliceable (query : Text) (line : Line) : Prop :=
  ∀ found ∈ occurrences query line, ∀ p ∈ found.head?, p.1.utf8Size = 1

def spans (query : Text) (line : Line) : List (ℕ × ℕ) := (occurrences query line).map (span query)

/-- A character stands in the cell of its column. -/
theorem mem_lowerLine {u : CaseTables} {cells : List Cell} {p : Char × ℕ} (h : p ∈ lowerLine u cells) :
    ∃ cell, cells[p.2]? = some cell ∧ p.1 ∈ lowerCell u cell := by
  obtain ⟨x, hx, hp⟩ := List.mem_flatMap.mp h
  obtain ⟨c, hc, rfl⟩ := List.mem_map.mp hp
  exact ⟨x.1, List.mem_zipIdx_iff_getElem?.mp hx, hc⟩

theorem text_lowerLine (u : CaseTables) (cells : List Cell) :
    text (lowerLine u cells) = cells.flatMap (lowerCell u) := by
  rw [text, lowerLine, List.map_flatMap]
  simp only [List.map_map, Function.comp_def, List.map_id']
  rw [← List.flatMap_map, List.zipIdx_map_fst]

theorem mem_occurrences {query : Text} (hq : query ≠ []) {line found : Line} :
    found ∈ occurrences query line ↔ found <:+ line ∧ query <+: text found := by
  induction line with
  | nil =>
    simp only [occurrences, List.not_mem_nil, List.suffix_nil, false_iff, not_and]
    rintro rfl hpre
    exact hq (List.prefix_nil.mp hpre)
  | cons p line ih =>
    rw [occurrences, List.suffix_cons_iff, or_and_right, ← ih]
    split_ifs with hp
    · rw [List.isPrefixOf_iff_prefix] at hp
      rw [List.mem_cons, and_iff_left_of_imp]
      rintro rfl
      exact hp
    · rw [List.isPrefixOf_iff_prefix] at hp
      rw [or_iff_right]
      rintro ⟨rfl, hpre⟩
      exact hp hpre

/-- A text that a line has somewhere occurs in it. -/
theorem exists_mem_occurrences {query : Text} (hq : query ≠ []) {line : Line}
    (h : query <:+: text line) : ∃ found, found ∈ occurrences query line := by
  obtain ⟨before, after, h⟩ := h
  rw [List.append_assoc] at h
  obtain ⟨skipped, found, rfl, -, hfound⟩ := List.map_eq_append_iff.mp h.symm
  exact ⟨found, (mem_occurrences hq).mpr ⟨List.suffix_append _ _, after, hfound.symm⟩⟩

/-- All matches begin with the first character of the query. -/
theorem sliceable_iff {q : Char} {qs : Text} {line : Line} :
    Sliceable (q :: qs) line ↔ (q :: qs <:+: text line → q.utf8Size = 1) := by
  have hhead : ∀ {found : Line} {p : Char × ℕ}, found ∈ occurrences (q :: qs) line →
      found.head? = some p → p.1 = q := by
    intro found p hfound hp
    obtain ⟨tail, rfl⟩ := List.head?_eq_some_iff.mp hp
    obtain ⟨-, rest, hrest⟩ := (mem_occurrences (List.cons_ne_nil q qs)).mp hfound
    exact (List.cons.inj hrest).1.symm
  constructor
  · intro h hin
    obtain ⟨found, hfound⟩ := exists_mem_occurrences (List.cons_ne_nil q qs) hin
    obtain ⟨-, rest, hrest⟩ := (mem_occurrences (List.cons_ne_nil q qs)).mp hfound
    obtain ⟨p, tail, rfl, -⟩ := List.map_eq_cons_iff.mp hrest.symm
    rw [← hhead hfound rfl]
    exact h _ hfound p rfl
  · intro h found hfound p hp
    obtain ⟨⟨before, hbefore⟩, rest, hrest⟩ :=
      (mem_occurrences (List.cons_ne_nil q qs)).mp hfound
    rw [hhead hfound hp]
    refine h ⟨text before, rest, ?_⟩
    rw [List.append_assoc, hrest, ← text_append, hbefore]

/-- The span of a part that is searched for as it is. -/
theorem span_text {line : Line} {p q : Char × ℕ} (hp : line.head? = some p)
    (hq : line.getLast? = some q) (after : Line) :
    span (text line) (line ++ after) = (p.2, q.2 - p.2 + 1) := by
  obtain ⟨tail, rfl⟩ := List.head?_eq_some_iff.mp hp
  rw [List.getLast?_eq_getElem?] at hq
  have hlast : (p :: tail ++ after)[(text (p :: tail)).length - 1]? = some q := by
    rw [text, List.length_map, List.getElem?_append_left (by simp), hq]
  rw [span, hlast]
  rfl

/-! ### Bytes and columns -/

theorem length_byteToCol (line : Line) : (byteToCol line).length = utf8Len (text line) := by
  induction line with
  | nil => rfl
  | cons p line ih =>
    have hcons : byteToCol (p :: line) = List.replicate p.1.utf8Size p.2 ++ byteToCol line := rfl
    have htext : text (p :: line) = p.1 :: text line := rfl
    rw [hcons, htext, List.length_append, ih, List.length_replicate, String.utf8Len_cons,
      Nat.add_comm]

/-- Every byte of a character has its column. -/
theorem byteToCol_getElem? (before : Line) (p : Char × ℕ) (line : Line) {k : ℕ}
    (hk : k < p.1.utf8Size) :
    (byteToCol (before ++ p :: line))[utf8Len (text before) + k]? = some p.2 := by
  have hsplit : byteToCol (before ++ p :: line) =
      byteToCol before ++ (List.replicate p.1.utf8Size p.2 ++ byteToCol line) := by
    simp [byteToCol]
  rw [hsplit, ← length_byteToCol, List.getElem?_append_right (Nat.le_add_right _ _),
    Nat.add_sub_cancel_left, List.getElem?_append_left (by simpa using hk),
    List.getElem?_replicate, if_pos hk]

/-! ### The loop -/

theorem occurrences_of_findText_none {query : Text} {line : Line}
    (h : findText query (text line) = none) : occurrences query line = [] := by
  induction line with
  | nil => rfl
  | cons p line ih =>
    rw [text_cons, findText] at h
    split_ifs at h with hp
    rw [occurrences, text_cons, if_neg hp]
    exact ih (Option.map_eq_none_iff.mp h)

/-- Before the first match nothing matches. -/
theorem occurrences_of_findText_some {query : Text} (hq : query ≠ []) {line : Line} {bytePos : ℕ}
    (h : findText query (text line) = some bytePos) :
    ∃ skipped found, line = skipped ++ found ∧ utf8Len (text skipped) = bytePos ∧
      query <+: text found ∧ occurrences query line = occurrences query found := by
  induction line generalizing bytePos with
  | nil =>
    have hempty : query.isEmpty = false := by simpa using hq
    simp [text, findText, hempty] at h
  | cons p line ih =>
    rw [text_cons, findText] at h
    split_ifs at h with hp
    · obtain rfl := Option.some.inj h
      exact ⟨[], p :: line, rfl, rfl, List.isPrefixOf_iff_prefix.mp hp, rfl⟩
    · obtain ⟨n, hn, rfl⟩ := Option.map_eq_some_iff.mp h
      obtain ⟨skipped, found, rfl, rfl, hpre, hocc⟩ := ih hn
      refine ⟨p :: skipped, found, rfl, ?_, hpre, ?_⟩
      · rw [text_cons, String.utf8Len_cons, Nat.add_comm]
      · rw [occurrences, text_cons, if_neg hp, hocc]

/-- A line that begins with a query, up to the last character of it. -/
theorem exists_last {query : Text} (hq : query ≠ []) {line : Line} (hpre : query <+: text line) :
    ∃ front last rest, line = front ++ last :: rest ∧ query = text front ++ [last.1] := by
  obtain ⟨front, z, rfl⟩ := List.eq_nil_or_concat' query |>.resolve_left hq
  obtain ⟨rest, hrest⟩ := hpre
  obtain ⟨a, b, rfl, rfl, hb⟩ := List.map_eq_append_iff.mp
    (hrest.symm.trans (List.append_assoc front [z] rest))
  obtain ⟨last, rest, rfl, rfl, -⟩ := List.map_eq_cons_iff.mp hb
  exact ⟨a, last, rest, rfl, rfl⟩

/-- What is noted for a match is its span. -/
theorem pushMatch_eq {query : Text} (hq : query ≠ []) (before : Line) {line : Line}
    (hpre : query <+: text line) (absRow : ℕ) (out : List Match) :
    pushMatch query (before ++ line) absRow (utf8Len (text before)) out =
      out ++ [(absRow, span query line)] := by
  obtain ⟨front, last, rest, rfl, rfl⟩ := exists_last hq hpre
  have hpos := last.1.utf8Size_pos
  have hlen : utf8Len (text front ++ [last.1]) = utf8Len (text front) + last.1.utf8Size := by
    rw [String.utf8Len_append, String.utf8Len_cons, String.utf8Len_nil, Nat.zero_add]
  have hend : (byteToCol (before ++ (front ++ last :: rest)))[utf8Len (text before) +
      utf8Len (text front ++ [last.1]) - 1]? = some last.2 := by
    have h := byteToCol_getElem? (before ++ front) last rest (Nat.sub_lt hpos Nat.one_pos)
    rw [text_append, String.utf8Len_append, List.append_assoc] at h
    rw [hlen, Nat.add_sub_assoc (by omega), Nat.add_sub_assoc hpos, ← Nat.add_assoc]
    exact h
  obtain ⟨c, col, line, hline⟩ : ∃ c col line, front ++ last :: rest = (c, col) :: line := by
    cases front with
    | nil => exact ⟨last.1, last.2, rest, rfl⟩
    | cons p front => exact ⟨p.1, p.2, front ++ last :: rest, rfl⟩
  have hstart : (byteToCol (before ++ (front ++ last :: rest)))[utf8Len (text before)]? =
      some col := by
    rw [hline]
    exact byteToCol_getElem? before (c, col) line c.utf8Size_pos
  have hlast : (front ++ last :: rest)[(text front ++ [last.1]).length - 1]? = some last := by
    simp [text]
  have hbytes : utf8Len (text before) + utf8Len (text front ++ [last.1]) ≤
      (byteToCol (before ++ (front ++ last :: rest))).length := by
    rw [hlen, length_byteToCol, text_append, text_append, text_cons, String.utf8Len_append,
      String.utf8Len_append, String.utf8Len_cons]
    omega
  simp only [pushMatch, List.getD_eq_getElem?_getD]
  rw [if_pos ⟨by omega, by omega⟩, if_pos hbytes, hstart, hend, span, hlast, hline]
  rfl

/-- One byte behind the beginning of a longer character the loop panics. -/
theorem searchLine_inside {query : Text} {absRow : ℕ} (rounds : ℕ) (before : Line) {p : Char × ℕ}
    {line : Line} (out : List Match) (hp : 1 < p.1.utf8Size) :
    searchLine query (before ++ p :: line) absRow rounds (utf8Len (text before) + 1) out = none := by
  cases rounds with
  | zero => rfl
  | succ rounds =>
    have hdrop : dropBytes (utf8Len (text before) + 1) (text (before ++ p :: line)) = none := by
      rw [text_append, text_cons]
      exact dropBytes_inside _ _ Nat.one_pos hp
    simp only [searchLine, hdrop]

/-- The loop, begun behind a part of the line, ends with the matches in the rest. -/
theorem searchLine_iff {query : Text} (hq : query ≠ []) {absRow rounds : ℕ} (before : Line)
    {line : Line} (hr : line.length < rounds) (out : List Match) {ms : List Match} :
    searchLine query (before ++ line) absRow rounds (utf8Len (text before)) out = some ms ↔
      Sliceable query line ∧ ms = out ++ (spans query line).map (absRow, ·) := by
  induction rounds generalizing before line out with
  | zero => omega
  | succ rounds ih =>
    have hdrop : dropBytes (utf8Len (text before)) (text (before ++ line)) = some (text line) := by
      rw [text_append, dropBytes_utf8Len]
    simp only [searchLine, hdrop]
    cases hfind : findText query (text line) with
    | none =>
      have hocc := occurrences_of_findText_none hfind
      simp [Sliceable, spans, hocc, eq_comm]
    | some bytePos =>
      obtain ⟨skipped, found, rfl, rfl, hpre, hocc⟩ := occurrences_of_findText_some hq hfind
      have hat : utf8Len (text before) + utf8Len (text skipped) = utf8Len (text (before ++ skipped)) := by
        rw [text_append, String.utf8Len_append]
      simp only [Sliceable, spans, hat, hocc, ← List.append_assoc]
      -- From here on the loop has gone past `front`.
      generalize before ++ skipped = front
      rw [pushMatch_eq hq front hpre]
      cases found with
      | nil => exact absurd (List.prefix_nil.mp hpre) hq
      | cons p rest =>
        rw [List.length_append, List.length_cons] at hr
        have hall : utf8Len (text (front ++ p :: rest)) =
            utf8Len (text front) + (utf8Len (text rest) + p.1.utf8Size) := by
          rw [text_append, text_cons, String.utf8Len_append, String.utf8Len_cons]
        have hcons : occurrences query (p :: rest) = (p :: rest) :: occurrences query rest := by
          rw [occurrences, if_pos (List.isPrefixOf_iff_prefix.mpr hpre)]
        rw [hall, hcons, List.forall_mem_cons]
        by_cases hp : p.1.utf8Size = 1
        · have hnext : utf8Len (text (front ++ [p])) = utf8Len (text front) + 1 := by
            rw [text_append, text_cons, String.utf8Len_append, String.utf8Len_cons, hp]
            rfl
          have hrest := ih (front ++ [p]) (show rest.length < rounds by omega)
            (out ++ [(absRow, span query (p :: rest))])
          rw [List.append_assoc, List.singleton_append, hnext] at hrest
          rw [hp]
          cases rest with
          | nil => simp [text, occurrences, hp, eq_comm]
          | cons q rest =>
            have hq := q.1.utf8Size_pos
            rw [text_cons, String.utf8Len_cons, if_neg (by omega), hrest]
            simp [Sliceable, spans, hp]
        · have hlong : 1 < p.1.utf8Size := by
            have := p.1.utf8Size_pos
            omega
          rw [if_neg (by omega), searchLine_inside rounds _ _ hlong]
          simp [hp]

/-- More rounds do not change what the loop ends with. -/
theorem searchLine_le {query : Text} {line : Line} {absRow rounds rounds' searchStart : ℕ}
    {out ms : List Match} (hle : rounds ≤ rounds')
    (h : searchLine query line absRow rounds searchStart out = some ms) :
    searchLine query line absRow rounds' searchStart out = some ms := by
  induction rounds generalizing rounds' searchStart out with
  | zero => cases h
  | succ rounds ih =>
    obtain ⟨rounds', rfl⟩ : ∃ n, rounds' = n + 1 := ⟨rounds' - 1, by omega⟩
    rw [searchLine] at h ⊢
    cases hdrop : dropBytes searchStart (text line) with
    | none => simp [hdrop] at h
    | some rest =>
      cases hfind : findText query rest with
      | none => simpa [hdrop, hfind] using h
      | some bytePos =>
        simp only [hdrop, hfind] at h ⊢
        split_ifs at h ⊢ with hend
        · exact h
        · exact ih (Nat.le_of_succ_le_succ hle) h

theorem searchLine_some {query : Text} (hq : query ≠ []) {line : Line} {absRow rounds : ℕ}
    {out ms : List Match} (h : searchLine query line absRow rounds 0 out = some ms) :
    Sliceable query line ∧ ms = out ++ (spans query line).map (absRow, ·) := by
  have hmore := searchLine_le (Nat.le_max_left rounds (line.length + 1)) h
  exact (searchLine_iff hq [] (Nat.le_max_right _ _) out).mp hmore

/-! ### The matches of a screen -/

section Viewport

variable {u : CaseTables} {screen : Screen} {query : Text} {rowOffset cols : ℕ}

/-- The matches of some of the rows. -/
def rowMatches (u : CaseTables) (screen : Screen) (query : Text) (rowOffset cols : ℕ)
    (rows : List ℕ) : List Match :=
  rows.flatMap fun row => (spans query (rowLine u screen cols row)).map (rowOffset + row, ·)

theorem foldlM_searchLine_some (hq : query ≠ []) {rounds : ℕ} {rows : List ℕ} {out ms : List Match}
    (h : rows.foldlM (fun out row => searchLine query (rowLine u screen cols row)
      (rowOffset + row) rounds 0 out) out = some ms) :
    (∀ row ∈ rows, Sliceable query (rowLine u screen cols row)) ∧
      ms = out ++ rowMatches u screen query rowOffset cols rows := by
  induction rows generalizing out with
  | nil =>
    obtain rfl := Option.some.inj h
    simp [rowMatches]
  | cons row rows ih =>
    rw [List.foldlM_cons, Option.bind_eq_bind, Option.bind_eq_some_iff] at h
    obtain ⟨out', hrow, hrest⟩ := h
    obtain ⟨hslice, rfl⟩ := searchLine_some hq hrow
    obtain ⟨hslices, rfl⟩ := ih hrest
    refine ⟨List.forall_mem_cons.mpr ⟨hslice, hslices⟩, ?_⟩
    rw [rowMatches, rowMatches, List.flatMap_cons, List.append_assoc]

theorem foldlM_searchLine (hq : query ≠ []) {rounds : ℕ} {rows : List ℕ}
    (hr : ∀ row ∈ rows, (rowLine u screen cols row).length < rounds)
    (hslice : ∀ row ∈ rows, Sliceable query (rowLine u screen cols row)) (out : List Match) :
    rows.foldlM (fun out row => searchLine query (rowLine u screen cols row)
      (rowOffset + row) rounds 0 out) out =
        some (out ++ rowMatches u screen query rowOffset cols rows) := by
  induction rows generalizing out with
  | nil => simp [rowMatches]
  | cons row rows ih =>
    rw [List.forall_mem_cons] at hr hslice
    have hrow : searchLine query (rowLine u screen cols row) (rowOffset + row) rounds 0 out =
        some (out ++ (spans query (rowLine u screen cols row)).map (rowOffset + row, ·)) :=
      (searchLine_iff hq [] hr.1 out).mpr ⟨hslice.1, rfl⟩
    rw [List.foldlM_cons, hrow, Option.bind_eq_bind, Option.bind_some, ih hr.2 hslice.2, rowMatches,
      rowMatches, List.flatMap_cons, List.append_assoc]

/-- A screen is searched without a panic exactly if every slice begins with a character, and
then the result is the matches of its rows. -/
theorem collectMatches_iff (hq : query ≠ []) {rows : ℕ} {out ms : List Match} :
    (∃ rounds, collectMatchesFromViewport u screen query rowOffset rows cols rounds out = some ms) ↔
      (∀ row < min screen.rows rows, Sliceable query (rowLine u screen cols row)) ∧
        ms = out ++ rowMatches u screen query rowOffset cols (List.range (min screen.rows rows)) := by
  have hmem : ∀ {p : ℕ → Prop}, (∀ row ∈ List.range (min screen.rows rows), p row) ↔
      ∀ row < min screen.rows rows, p row := by
    intro p
    simp only [List.mem_range]
  constructor
  · rintro ⟨rounds, h⟩
    obtain ⟨hslice, hms⟩ := foldlM_searchLine_some hq h
    exact ⟨hmem.mp hslice, hms⟩
  · rintro ⟨hslice, rfl⟩
    set lengths := (List.range (min screen.rows rows)).map fun row =>
      (rowLine u screen cols row).length with hl
    refine ⟨lengths.sum + 1, foldlM_searchLine hq (fun row h => ?_) (hmem.mpr hslice) out⟩
    have hlen : (rowLine u screen cols row).length ∈ lengths := List.mem_map_of_mem h
    exact Nat.lt_succ_of_le (List.le_sum_of_mem hlen)

end Viewport

end Search

end Forgetty
