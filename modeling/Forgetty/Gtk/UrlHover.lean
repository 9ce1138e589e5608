import Forgetty.Core.Utf8
import Forgetty.Gtk.Search
import Forgetty.Lib.MaximalToken

/-! The URL under the pointer. The row is put together as a text in which every cell knows its
first byte, the scan goes over the text by its bytes, and what it finds is turned into columns
again. Slices and bytes that are not there panic. -/

namespace Forgetty

open Lib
open String (utf8Len utf8EncodeChar)

/-- `str::find` with a test for characters. -/
def findChar (p : Char → Bool) : Text → Option ℕ
  | [] => none
  | c :: cs => if p c then some 0 else (findChar p cs).map (c.utf8Size + ·)

structure HoverUrl where
  url : Text
  screenRow : ℕ
  colStart : ℕ
  colEnd : ℕ
  deriving DecidableEq, Repr

namespace UrlHover

/-- An empty cell counts as a blank. -/
def textOrBlank (cell : Cell) : Text := if cell.grapheme.isEmpty then [' '] else cell.grapheme

/-- The text of a row and the first byte of each of its cells. -/
def buildLine (cells : List Cell) : Text × List ℕ :=
  cells.foldl (fun (line, colToByteStart) cell =>
    (line ++ textOrBlank cell, colToByteStart ++ [utf8Len line])) ([], [])

def urlBreakChars : List Char :=
  [' ', '\t', '"', '\'', '<', '>', '\x7b', '\x7d', '|', '\\', '^', '\x60', '[', ']']

def trailingPunctuation : List Char := ['.', ',', ';', ':', ')', ']']

def schemeOk (rest : Text) : Bool :=
  "https://".toList.isPrefixOf rest || "http://".toList.isPrefixOf rest

/-- The loop that goes back over trailing punctuation. -/
def stripEnd (bytes : List UInt8) (absPos : ℕ) : ℕ → Option ℕ
  | 0 => some 0
  | stop + 1 =>
    if absPos < stop + 1 then
      match bytes[stop]? with
      | none => none
      | some lastChar =>
        if lastChar ∈ trailingPunctuation.map fun c => c.val.toUInt8 then stripEnd bytes absPos stop
        else some (stop + 1)
    else some (stop + 1)

/-- The first column that begins at the byte or behind it. -/
def byteToColumn (colToByteStart : List ℕ) (numCols byte : ℕ) : ℕ :=
  (colToByteStart.findIdx? (decide <| byte ≤ ·)).getD numCols

/-- The loop over the row. Without a result it has panicked, or not ended within the given number of
rounds. -/
def scan (line : Text) (colToByteStart : List ℕ) (numCols screenRow col : ℕ) :
    ℕ → ℕ → Option (Option HoverUrl)
  | 0, _ => none
  | rounds + 1, searchStart =>
    match dropBytes searchStart line with
    | none => none
    | some ahead =>
      match findText "http".toList ahead with
      | none => some none
      | some pos =>
        let absPos := searchStart + pos
        match dropBytes absPos line with
        | none => none
        | some rest =>
          if ¬schemeOk rest then
            scan line colToByteStart numCols screenRow col rounds (absPos + 1)
          else
            let urlEnd := absPos + (findChar (· ∈ urlBreakChars) rest).getD (utf8Len rest)
            match stripEnd (Utf8.encode line) absPos urlEnd with
            | none => none
            | some stop =>
              match sliceBytes absPos stop line with
              | none => none
              | some url =>
                let urlColStart := byteToColumn colToByteStart numCols absPos
                let urlColEnd := byteToColumn colToByteStart numCols stop
                if urlColStart ≤ col ∧ col < urlColEnd then
                  some (some
                    { url := url
                      screenRow := screenRow
                      colStart := urlColStart
                      colEnd := urlColEnd })
                else scan line colToByteStart numCols screenRow col rounds stop

def detectUrlAt (screen : Screen) (screenRow col rounds : ℕ) : Option (Option HoverUrl) :=
  if screen.rows ≤ screenRow then some none
  else
    match screen.cells[screenRow]? with
    | none => none
    | some cells =>
      let numCols := min screen.cols cells.length
      let (line, colToByteStart) := buildLine (cells.take numCols)
      scan line colToByteStart numCols screenRow col rounds 0

/-! ### Bytes and characters -/

theorem findChar_getD (p : Char → Bool) (text : Text) :
    (findChar p text).getD (utf8Len text) = utf8Len (text.takeWhile (!p ·)) := by
  induction text with
  | nil => rfl
  | cons c text ih =>
    rw [findChar, List.takeWhile_cons]
    cases hc : p c with
    | true => rfl
    | false =>
      rw [String.utf8Len_cons]
      simp only [Bool.not_false, if_true, String.utf8Len_cons, ← ih]
      cases findChar p text with
      | none => rfl
      | some n => exact Nat.add_comm _ _

/-- Where a text is not found it is not there. -/
theorem findText_none {query text : Text} (h : findText query text = none) (i : ℕ) :
    ¬query <+: text.drop i := by
  induction text generalizing i with
  | nil =>
    rw [List.drop_nil, List.prefix_nil]
    rintro rfl
    cases h
  | cons c text ih =>
    rw [findText] at h
    split_ifs at h with hp
    cases i with
    | zero => exact fun hinitial => hp (List.isPrefixOf_iff_prefix.mpr hinitial)
    | succ i => exact ih (Option.map_eq_none_iff.mp h) i

/-- And where it is found it is there for the first time. -/
theorem findText_some {query text : Text} {pos : ℕ} (h : findText query text = some pos) :
    ∃ skipped found, text = skipped ++ found ∧ utf8Len skipped = pos ∧ query <+: found ∧
      ∀ i < skipped.length, ¬query <+: text.drop i := by
  induction text generalizing pos with
  | nil =>
    rw [findText] at h
    split_ifs at h with hq
    cases h
    rw [List.isEmpty_iff] at hq
    exact ⟨[], [], rfl, rfl, List.prefix_nil.mpr hq, fun i hi => absurd hi (Nat.not_lt_zero i)⟩
  | cons c text ih =>
    rw [findText] at h
    split_ifs at h with hp
    · cases h
      exact ⟨[], c :: text, rfl, rfl, List.isPrefixOf_iff_prefix.mp hp,
        fun i hi => absurd hi (Nat.not_lt_zero i)⟩
    · obtain ⟨n, hn, rfl⟩ := Option.map_eq_some_iff.mp h
      obtain ⟨skipped, found, rfl, rfl, hfound, hfirst⟩ := ih hn
      refine ⟨c :: skipped, found, rfl, ?_, hfound, fun i hi => ?_⟩
      · rw [String.utf8Len_cons, Nat.add_comm]
      · cases i with
        | zero => exact fun hinitial => hp (List.isPrefixOf_iff_prefix.mpr hinitial)
        | succ i => exact hfirst i (Nat.lt_of_succ_lt_succ hi)

theorem utf8Size_punctuation {c : Char} (h : c ∈ trailingPunctuation) : c.utf8Size = 1 := by
  have hall : trailingPunctuation.all (·.utf8Size = 1) = true := by decide
  exact of_decide_eq_true (List.all_eq_true.mp hall c h)

/-- A byte that is a punctuation mark is all of its character. -/
theorem mem_punctuation_iff {c : Char} {i : ℕ} (hi : i < (utf8EncodeChar c).length)
    (hlast : i + 1 = c.utf8Size) :
    (utf8EncodeChar c).get ⟨i, hi⟩ ∈ trailingPunctuation.map (fun c => c.val.toUInt8) ↔
      c ∈ trailingPunctuation := by
  have hbyte : c.utf8Size = 1 → (utf8EncodeChar c).get ⟨i, hi⟩ = c.val.toUInt8 := by
    intro hone
    have hzero : i = 0 := by omega
    subst hzero
    simp [String.utf8EncodeChar_eq_singleton hone]
  constructor
  · intro hmem
    have hfirst : ((utf8EncodeChar c).get ⟨i, hi⟩).IsUTF8FirstByte := by
      have hall : (trailingPunctuation.map fun c => c.val.toUInt8).all (·.IsUTF8FirstByte) = true := by
        decide
      exact of_decide_eq_true (List.all_eq_true.mp hall _ hmem)
    have hone : c.utf8Size = 1 := by
      have hzero : i = 0 := UInt8.isUTF8FirstByte_getElem_utf8EncodeChar.mp hfirst
      omega
    rw [hbyte hone, List.mem_map] at hmem
    obtain ⟨d, hd, heq⟩ := hmem
    have hc := Char.utf8Size_eq_one_iff.mp hone
    have hd' := Char.utf8Size_eq_one_iff.mp (utf8Size_punctuation hd)
    have hval : c = d := by
      apply Char.ext
      apply UInt32.toNat_inj.mp
      have hnat := congrArg UInt8.toNat heq
      rw [UInt32.le_iff_toNat_le] at hc hd'
      simp only [UInt32.toNat_toUInt8, UInt32.reduceToNat] at hnat hc hd'
      omega
    exact hval ▸ hd
  · intro hmem
    rw [hbyte (utf8Size_punctuation hmem)]
    exact List.mem_map_of_mem hmem

/-- The last byte of a character in a text. -/
theorem encode_last (before after : Text) (c : Char) :
    ∃ b, (Utf8.encode (before ++ ([c] ++ after)))[utf8Len before + (c.utf8Size - 1)]? = some b ∧
      (b ∈ trailingPunctuation.map (fun c => c.val.toUInt8) ↔ c ∈ trailingPunctuation) := by
  have hpos := c.utf8Size_pos
  have hlt : c.utf8Size - 1 < (utf8EncodeChar c).length := by
    rw [String.length_utf8EncodeChar]
    omega
  refine ⟨(utf8EncodeChar c).get ⟨c.utf8Size - 1, hlt⟩, ?_, mem_punctuation_iff hlt (by omega)⟩
  have hsplit : Utf8.encode (before ++ ([c] ++ after)) =
      Utf8.encode before ++ (utf8EncodeChar c ++ Utf8.encode after) := by
    simp [Utf8.encode]
  rw [hsplit, ← Utf8.length_encode, List.getElem?_append_right (by omega), Nat.add_sub_cancel_left,
    List.getElem?_append_left hlt]
  exact List.getElem?_eq_getElem hlt

/-- The loop goes back to the last character that is no punctuation mark. -/
theorem stripEnd_eq (before w after : Text) :
    stripEnd (Utf8.encode (before ++ (w ++ after))) (utf8Len before) (utf8Len (before ++ w)) =
      some (utf8Len (before ++ w.rdropWhile (· ∈ trailingPunctuation))) := by
  induction w using List.reverseRecOn generalizing after with
  | nil =>
    rw [List.rdropWhile_nil, List.append_nil]
    cases utf8Len before with
    | zero => rfl
    | succ n => rw [stripEnd, if_neg (Nat.lt_irrefl _)]
  | append_singleton w c ih =>
    have hpos := c.utf8Size_pos
    obtain ⟨b, hb, hmem⟩ := encode_last (before ++ w) after c
    have hlen : utf8Len (before ++ (w ++ [c])) = utf8Len (before ++ w) + (c.utf8Size - 1) + 1 := by
      rw [← List.append_assoc, String.utf8Len_append (before ++ w), String.utf8Len_cons,
        String.utf8Len_nil]
      omega
    have hlt : utf8Len before < utf8Len (before ++ w) + (c.utf8Size - 1) + 1 := by
      rw [String.utf8Len_append]
      omega
    have htext : before ++ (w ++ [c] ++ after) = before ++ w ++ ([c] ++ after) := by
      simp only [List.append_assoc]
    rw [hlen, stripEnd, if_pos hlt, htext, hb]
    by_cases hc : c ∈ trailingPunctuation
    · have hone := utf8Size_punctuation hc
      rw [List.rdropWhile_concat_pos _ _ _ (by simpa using hc), ← ih ([c] ++ after), hone]
      simp only [if_pos (hmem.mpr hc), List.append_assoc, Nat.sub_self, Nat.add_zero]
    · rw [List.rdropWhile_concat_neg _ _ _ (by simpa using hc), hlen]
      exact if_neg fun h => hc (hmem.mp h)

/-! ### Columns and bytes -/

/-- The text of a row. -/
def rowText (cells : List Cell) : Text := cells.flatMap textOrBlank

/-- The first byte of each character. -/
def charStarts (line : Text) : List ℕ := (List.range line.length).map fun i => utf8Len (line.take i)

def SingleCharacter (cells : List Cell) : Prop := ∀ cell ∈ cells, cell.grapheme.length ≤ 1

def charOrBlank (cell : Cell) : Char := cell.grapheme.headD ' '

theorem textOrBlank_eq {cell : Cell} (h : cell.grapheme.length ≤ 1) : textOrBlank cell = [charOrBlank cell] := by
  unfold textOrBlank charOrBlank
  cases hg : cell.grapheme with
  | nil => rfl
  | cons c cs =>
    rw [hg, List.length_cons] at h
    obtain rfl : cs = [] := List.length_eq_zero_iff.mp (by omega)
    rfl

theorem SingleCharacter.rowText_eq {cells : List Cell} (h : SingleCharacter cells) :
    rowText cells = cells.map charOrBlank := by
  induction cells with
  | nil => rfl
  | cons cell cells ih =>
    have hrest : SingleCharacter cells := fun cell' hcell => h cell' (List.mem_cons_of_mem cell hcell)
    rw [rowText, List.flatMap_cons, textOrBlank_eq (h cell List.mem_cons_self), List.map_cons,
      ← ih hrest]
    rfl

theorem SingleCharacter.length_rowText {cells : List Cell} (h : SingleCharacter cells) :
    (rowText cells).length = cells.length := by
  rw [h.rowText_eq, List.length_map]

/-- Every cell is one character of the row. -/
theorem buildLine_eq {cells : List Cell} (h : SingleCharacter cells) :
    buildLine cells = (rowText cells, charStarts (rowText cells)) := by
  induction cells using List.reverseRecOn with
  | nil => rfl
  | append_singleton cells cell ih =>
    have hfront : SingleCharacter cells := fun cell' hcell => h cell' (List.mem_append_left _ hcell)
    have hlast : (textOrBlank cell).length = 1 := by
      rw [textOrBlank_eq (h cell (List.mem_append_right _ (List.mem_singleton_self cell)))]
      rfl
    have htext : rowText (cells ++ [cell]) = rowText cells ++ textOrBlank cell := by
      simp [rowText]
    have hstarts : charStarts (rowText cells ++ textOrBlank cell) =
        charStarts (rowText cells) ++ [utf8Len (rowText cells)] := by
      rw [charStarts, List.length_append, hlast, List.range_succ, List.map_append, charStarts]
      congr 1
      · apply List.map_congr_left
        intro i hi
        rw [List.take_append_of_le_length (List.mem_range.mp hi).le]
      · simp
    rw [buildLine, List.foldl_append, ← buildLine, ih hfront, htext, hstarts]
    rfl

theorem utf8Len_take_lt {line : Text} {i n : ℕ} (hi : i < n) (hn : n ≤ line.length) :
    utf8Len (line.take i) < utf8Len (line.take n) := by
  have hsplit : line.take n = line.take i ++ (line.drop i).take (n - i) := by
    rw [← List.take_add, Nat.add_sub_cancel' hi.le]
  have hne : (line.drop i).take (n - i) ≠ [] := by
    apply List.ne_nil_of_length_pos
    rw [List.length_take, List.length_drop]
    omega
  obtain ⟨c, cs, hcs⟩ := List.exists_cons_of_ne_nil hne
  have hpos := c.utf8Size_pos
  rw [hsplit, hcs, String.utf8Len_append, String.utf8Len_cons]
  omega

/-- The byte at which a character begins is turned into the column of that character. -/
theorem byteToColumn_eq {line : Text} {n : ℕ} (hn : n ≤ line.length) :
    byteToColumn (charStarts line) line.length (utf8Len (line.take n)) = n := by
  have hbefore : ∀ i < n, ¬utf8Len (line.take n) ≤ utf8Len (line.take i) :=
    fun i hi => Nat.not_le_of_lt (utf8Len_take_lt hi hn)
  unfold byteToColumn
  rcases Nat.eq_or_lt_of_le hn with rfl | hlt
  · have hnone : (charStarts line).findIdx? (decide <| utf8Len (line.take line.length) ≤ ·) = none := by
      rw [List.findIdx?_eq_none_iff]
      intro start hstart
      obtain ⟨i, hi, rfl⟩ := List.mem_map.mp hstart
      exact decide_eq_false (hbefore i (List.mem_range.mp hi))
    rw [hnone]
    rfl
  · have hsome : (charStarts line).findIdx? (decide <| utf8Len (line.take n) ≤ ·) = some n := by
      rw [List.findIdx?_eq_some_iff_getElem]
      refine ⟨by simpa [charStarts] using hlt, by simp [charStarts], fun i hi => ?_⟩
      simpa [charStarts] using hbefore i hi
    rw [hsome]
    rfl

/-! ### The tokens of a row -/

theorem schemeOk_iff {rest : Text} :
    schemeOk rest = true ↔ "https://".toList <+: rest ∨ "http://".toList <+: rest := by
  rw [schemeOk, Bool.or_eq_true, List.isPrefixOf_iff_prefix, List.isPrefixOf_iff_prefix]

theorem http_of_schemeOk {rest : Text} (h : schemeOk rest = true) : "http".toList <+: rest := by
  have hhttps : "http".toList <+: "https://".toList := by decide
  have hhttp : "http".toList <+: "http://".toList := by decide
  rcases schemeOk_iff.mp h with hs | hs
  · exact hhttps.trans hs
  · exact hhttp.trans hs

theorem exists_cons_of_http {rest : Text} (h : "http".toList <+: rest) :
    ∃ tail, rest = 'h' :: tail := by
  obtain ⟨tail, rfl⟩ := h
  exact ⟨"ttp".toList ++ tail, rfl⟩

/-- The first letter of the scheme stays. -/
theorem url_ne_nil (l : Text) (h : schemeOk l = true) :
    (l.takeWhile (· ∉ urlBreakChars)).rdropWhile (· ∈ trailingPunctuation) ≠ [] := by
  obtain ⟨tail, rfl⟩ := exists_cons_of_http (http_of_schemeOk h)
  have hinside : 'h' ∉ urlBreakChars := by decide
  have hletter : 'h' ∉ trailingPunctuation := by decide
  rw [List.takeWhile_cons_of_pos (by simpa using hinside), Ne, List.rdropWhile_eq_nil_iff]
  intro hall
  exact hletter (by simpa using hall 'h' List.mem_cons_self)

/-- A scheme and what follows it up to a break character, less the punctuation at the end. -/
def urls : TokenKind Char where
  begins := schemeOk
  inside c := c ∉ urlBreakChars
  trailing c := c ∈ trailingPunctuation
  solid := url_ne_nil

/-- The answer for a column: the token that the column is in, or none if it is in no token. -/
def Answers (line : Text) (screenRow col : ℕ) : Option HoverUrl → Prop
  | none => ∀ span, urls.Maximal line span → ¬(span.1 ≤ col ∧ col < span.2)
  | some hover => ∃ span, urls.Maximal line span ∧ (span.1 ≤ col ∧ col < span.2) ∧
      hover =
        { url := urls.body (line.drop span.1)
          screenRow := screenRow
          colStart := span.1
          colEnd := span.2 }

theorem answers_unique {line : Text} {screenRow col : ℕ} {answer answer' : Option HoverUrl}
    (h : Answers line screenRow col answer) (h' : Answers line screenRow col answer') :
    answer = answer' := by
  cases answer with
  | none =>
    cases answer' with
    | none => rfl
    | some hover' =>
      obtain ⟨span, hspan, hcol, -⟩ := h'
      exact absurd hcol (h span hspan)
  | some hover =>
    obtain ⟨span, hspan, hcol, rfl⟩ := h
    cases answer' with
    | none => exact absurd hcol (h' span hspan)
    | some hover' =>
      obtain ⟨span', hspan', hcol', rfl⟩ := h'
      rcases hspan.eq_or_disjoint hspan' with rfl | hafter | hbefore
      · rfl
      · omega
      · omega

/-- The end of a token in bytes. -/
theorem stripEnd_body {front found : Text} :
    stripEnd (Utf8.encode (front ++ found)) (utf8Len front)
        (utf8Len front + (findChar (· ∈ urlBreakChars) found).getD (utf8Len found)) =
      some (utf8Len (front ++ urls.body found)) := by
  have htake : (found.takeWhile fun c => !decide (c ∈ urlBreakChars)) =
      found.takeWhile (· ∉ urlBreakChars) := by
    congr 1
    funext c
    exact (decide_not).symm
  obtain ⟨after, hafter⟩ := List.takeWhile_prefix (l := found) (decide <| · ∉ urlBreakChars)
  have hstrip := stripEnd_eq front (found.takeWhile (· ∉ urlBreakChars)) after
  rw [findChar_getD, htake, ← String.utf8Len_append]
  rw [hafter] at hstrip
  exact hstrip

/-- A token that the scan comes to is cut out with its columns. -/
theorem token_columns {line front found : Text} (hline : line = front ++ found)
    (hok : schemeOk found = true) :
    urls.IsToken line (front.length, front.length + (urls.body found).length) ∧
      sliceBytes (utf8Len front) (utf8Len (front ++ urls.body found)) line =
        some (urls.body found) ∧
      byteToColumn (charStarts line) line.length (utf8Len front) = front.length ∧
      byteToColumn (charStarts line) line.length (utf8Len (front ++ urls.body found)) =
        front.length + (urls.body found).length := by
  obtain ⟨after, hafter⟩ := TokenKind.body_initial (k := urls) found
  have hdrop : line.drop front.length = found := by rw [hline, List.drop_left]
  have hfront : line.take front.length = front := by rw [hline, List.take_left]
  have hsplit : line = front ++ urls.body found ++ after := by
    rw [List.append_assoc, hafter, hline]
  have hbody : line.take (front.length + (urls.body found).length) = front ++ urls.body found := by
    rw [← List.length_append, hsplit, List.take_left]
  have hlen : front.length + (urls.body found).length ≤ line.length := by
    have hlength := congrArg List.length hsplit
    rw [List.length_append, List.length_append] at hlength
    omega
  have hslice := sliceBytes_utf8Len front (urls.body found) after
  rw [hafter, ← hline] at hslice
  have hstart := @byteToColumn_eq line front.length (by omega)
  rw [hfront] at hstart
  have hstop := byteToColumn_eq hlen
  rw [hbody] at hstop
  refine ⟨⟨?_, ?_⟩, hslice, hstart, hstop⟩
  · rw [hdrop]
    exact hok
  · rw [hdrop]

/-- One round of the scan. It goes on behind the token, or one byte behind the beginning of what is
no scheme. -/
theorem scan_round {line before skipped found : Text} (screenRow col rounds : ℕ)
    (hline : line = before ++ skipped ++ found)
    (hfind : findText "http".toList (skipped ++ found) = some (utf8Len skipped)) :
    scan line (charStarts line) line.length screenRow col (rounds + 1) (utf8Len before) =
      if schemeOk found = true then
        if (before ++ skipped).length ≤ col ∧
            col < (before ++ skipped).length + (urls.body found).length then
          some (some
            { url := urls.body found
              screenRow := screenRow
              colStart := (before ++ skipped).length
              colEnd := (before ++ skipped).length + (urls.body found).length })
        else
          scan line (charStarts line) line.length screenRow col rounds
            (utf8Len (before ++ skipped ++ urls.body found))
      else
        scan line (charStarts line) line.length screenRow col rounds
          (utf8Len (before ++ skipped) + 1) := by
  have hahead : dropBytes (utf8Len before) line = some (skipped ++ found) := by
    rw [hline, List.append_assoc, dropBytes_utf8Len]
  have hrest : dropBytes (utf8Len (before ++ skipped)) line = some found := by
    rw [hline, dropBytes_utf8Len]
  rw [scan, hahead]
  simp only [hfind, ← String.utf8Len_append, hrest]
  by_cases hok : schemeOk found = true
  · obtain ⟨-, hslice, hstart, hstop⟩ := token_columns hline hok
    have hstrip := @stripEnd_body (before ++ skipped) found
    rw [← hline] at hstrip
    simp only [hok, not_true_eq_false, if_false, if_true, hstrip, hslice, hstart, hstop]
  · rw [if_pos hok, if_neg hok]

/-- Where no URL begins in what is ahead, none begins in that part of the line. -/
theorem not_begins_ahead {line before rest : Text} (hline : line = before ++ rest) {n : ℕ}
    (hfirst : ∀ i < n, ¬"http".toList <+: rest.drop i) :
    ∀ i, before.length ≤ i → i < before.length + n → ¬urls.begins (line.drop i) = true := by
  intro i hge hlt hbegins
  obtain ⟨j, rfl⟩ := Nat.exists_eq_add_of_le hge
  rw [hline, ← List.drop_drop, List.drop_left] at hbegins
  exact hfirst j (by omega) (http_of_schemeOk hbegins)

/-- A place of `http` without a scheme is passed with its first letter. -/
theorem not_begins_here {line front found : Text} (passed : Text) (hone : passed.length = 1)
    (hline : line = front ++ found) (hok : ¬schemeOk found = true) :
    ∀ i, front.length ≤ i → i < (front ++ passed).length → ¬urls.begins (line.drop i) = true := by
  intro i hge hlt
  rw [List.length_append, hone] at hlt
  obtain rfl : i = front.length := by omega
  rw [hline, List.drop_left]
  exact hok

/-- What the scan does behind a token that it has found, or before the first one. -/
theorem scan_answers {line : Text} {screenRow col rounds : ℕ} {before rest : Text}
    (hline : line = before ++ rest) (hr : rest.length < rounds)
    (hpassed : urls.Passed line before.length) (hmissed : urls.Missed line col before.length) :
    ∃ answer, scan line (charStarts line) line.length screenRow col rounds (utf8Len before) =
      some answer ∧ Answers line screenRow col answer := by
  induction rounds generalizing before rest with
  | zero => omega
  | succ rounds ih =>
    cases hfind : findText "http".toList rest with
    | none =>
      have hahead : dropBytes (utf8Len before) line = some rest := by
        rw [hline, dropBytes_utf8Len]
      have hnone := not_begins_ahead (n := rest.length) hline fun i _ => findText_none hfind i
      rw [scan, hahead]
      refine ⟨none, by simp only [hfind], fun span hspan => ?_⟩
      apply hmissed.skip hnone span hspan
      have hlt := hspan.1.lt
      have hle := hspan.1.le_length
      rw [hline, List.length_append] at hle
      omega
    | some pos =>
      obtain ⟨skipped, found, rfl, rfl, hfound, hfirst⟩ := findText_some hfind
      have hnone := not_begins_ahead hline hfirst
      rw [← List.append_assoc] at hline
      rw [scan_round screenRow col rounds hline hfind]
      rw [List.length_append] at hr
      have hpassed' := hpassed.skip (Nat.le_add_right _ _) hnone
      have hmissed' := hmissed.skip hnone
      rw [← List.length_append] at hpassed' hmissed'
      -- From here on the scan has gone past `front`.
      generalize before ++ skipped = front at *
      split_ifs with hok hcol
      · have hmax : urls.Maximal line (front.length, front.length + (urls.body found).length) :=
          TokenKind.Passed.maximal hpassed' (token_columns hline hok).1
        refine ⟨_, rfl, _, hmax, hcol, ?_⟩
        rw [hline, List.drop_left]
      · have htoken := (token_columns hline hok).1
        have hmax := TokenKind.Passed.maximal hpassed' htoken
        have hpos : front.length < front.length + (urls.body found).length := htoken.lt
        obtain ⟨after, hafter⟩ := TokenKind.body_initial (k := urls) found
        have hlen : (urls.body found).length + after.length = found.length := by
          rw [← List.length_append, hafter]
        have hline' : line = front ++ urls.body found ++ after := by
          rw [List.append_assoc, hafter, hline]
        apply ih hline' (by omega)
        · rw [List.length_append]
          exact TokenKind.Passed.token hpassed' htoken
        · rw [List.length_append]
          exact TokenKind.Missed.token hmissed' hmax hcol
      · obtain ⟨tail, rfl⟩ := exists_cons_of_http hfound
        have hline' : line = front ++ ['h'] ++ tail := by
          rw [hline, List.append_assoc]
          rfl
        have hnext : utf8Len front + 1 = utf8Len (front ++ ['h']) := by
          rw [String.utf8Len_append]
          rfl
        have hnone' := not_begins_here ['h'] rfl hline hok
        rw [hnext]
        rw [List.length_cons] at hr
        exact ih hline' (by omega) (hpassed'.skip (by simp) hnone') (hmissed'.skip hnone')

/-! ### Every column of a row -/

/-- The cells of a row that are looked at. -/
def rowCells (screen : Screen) (cells : List Cell) : List Cell := cells.take screen.cols

/-- The answers for the columns of a row. -/
structure HitTested (screen : Screen) (screenRow : ℕ) (cells : List Cell)
    (hover : ℕ → Option HoverUrl) : Prop where
  returns : ∀ col rounds, (rowCells screen cells).length < rounds →
    detectUrlAt screen screenRow col rounds = some (hover col)
  isSome_iff : ∀ col, (hover col).isSome = true ↔
    ∃ span, urls.Maximal (rowText (rowCells screen cells)) span ∧ span.1 ≤ col ∧ col < span.2
  found : ∀ col h, hover col = some h → (h.colStart ≤ col ∧ col < h.colEnd) ∧
    h.screenRow = screenRow ∧
    urls.Maximal (rowText (rowCells screen cells)) (h.colStart, h.colEnd) ∧
    ((rowCells screen cells).take h.colEnd |>.drop h.colStart).flatMap (·.grapheme) = h.url
  disjoint : ∀ col col' h h', hover col = some h → hover col' = some h' →
    h = h' ∨ h.colEnd ≤ h'.colStart ∨ h'.colEnd ≤ h.colStart

theorem rowText_slice {cells : List Cell} (h : SingleCharacter cells) (i n : ℕ) :
    rowText ((cells.take n).drop i) = ((rowText cells).take n).drop i := by
  have hslice : SingleCharacter ((cells.take n).drop i) :=
    fun cell hcell => h cell (List.mem_of_mem_take (List.mem_of_mem_drop hcell))
  rw [hslice.rowText_eq, h.rowText_eq, List.map_drop, List.map_take]

/-- Where there is no blank no cell is empty. -/
theorem graphemes_eq {cells : List Cell} (hblank : ' ' ∉ rowText cells) :
    cells.flatMap (·.grapheme) = rowText cells := by
  induction cells with
  | nil => rfl
  | cons cell cells ih =>
    rw [rowText, List.flatMap_cons, List.mem_append, not_or] at hblank
    have hcell : textOrBlank cell = cell.grapheme := by
      apply if_neg
      intro hempty
      apply hblank.1
      rw [textOrBlank, if_pos hempty]
      exact List.mem_singleton_self _
    rw [List.flatMap_cons, ih hblank.2, ← hcell]
    rfl

theorem blank_notMem_body (l : Text) : ' ' ∉ urls.body l := by
  intro hmem
  have htake := (List.rdropWhile_prefix _ _).subset hmem
  exact absurd (List.mem_takeWhile_imp htake) (by decide)

/-- The cells of a token. -/
theorem graphemes_body {cells : List Cell} (h : SingleCharacter cells) {span : ℕ × ℕ}
    (hspan : urls.IsToken (rowText cells) span) :
    ((cells.take span.2).drop span.1).flatMap (·.grapheme) = urls.body ((rowText cells).drop span.1) := by
  have hslice : rowText ((cells.take span.2).drop span.1) =
      urls.body ((rowText cells).drop span.1) := by
    rw [rowText_slice h, List.drop_take, hspan.2, Nat.add_sub_cancel_left]
    exact (List.prefix_iff_eq_take.mp (TokenKind.body_initial _)).symm
  rw [graphemes_eq, hslice]
  rw [hslice]
  exact blank_notMem_body _

theorem detectUrlAt_answers {screen : Screen} {screenRow : ℕ} {cells : List Cell}
    (hrow : screenRow < screen.rows) (hcells : screen.cells[screenRow]? = some cells)
    (hsingle : SingleCharacter (rowCells screen cells)) (col : ℕ) {rounds : ℕ}
    (hr : (rowCells screen cells).length < rounds) :
    ∃ answer, detectUrlAt screen screenRow col rounds = some answer ∧
      Answers (rowText (rowCells screen cells)) screenRow col answer := by
  have htake : cells.take (min screen.cols cells.length) = rowCells screen cells :=
    List.take_eq_take_min.symm
  have hcols : min screen.cols cells.length = (rowText (rowCells screen cells)).length := by
    rw [hsingle.length_rowText, rowCells, List.length_take]
  have hscan := @scan_answers (rowText (rowCells screen cells)) screenRow col rounds []
    (rowText (rowCells screen cells)) rfl (by rwa [hsingle.length_rowText])
    TokenKind.passed_zero TokenKind.missed_zero
  rw [detectUrlAt, if_neg (by omega), hcells]
  simp only [htake, buildLine_eq hsingle]
  rw [hcols]
  exact hscan

/-- In a row of single characters every column has its answer, which is the URL that the column
is in. -/
theorem exists_hitTested {screen : Screen} {screenRow : ℕ} {cells : List Cell}
    (hrow : screenRow < screen.rows) (hcells : screen.cells[screenRow]? = some cells)
    (hsingle : SingleCharacter (rowCells screen cells)) :
    ∃ hover, HitTested screen screenRow cells hover := by
  have hanswers := fun col => detectUrlAt_answers hrow hcells hsingle col (Nat.lt_succ_self _)
  choose hover hreturns hanswer using hanswers
  refine ⟨hover, ?_, ?_, ?_, ?_⟩
  · intro col rounds hr
    obtain ⟨answer, hreturn, h⟩ := detectUrlAt_answers hrow hcells hsingle col hr
    rw [hreturn, answers_unique h (hanswer col)]
  · intro col
    have h := hanswer col
    cases hcol : hover col with
    | none =>
      rw [hcol] at h
      apply iff_of_false Bool.false_ne_true
      rintro ⟨span, hspan, hin⟩
      exact h span hspan hin
    | some found =>
      rw [hcol] at h
      obtain ⟨span, hspan, hin, -⟩ := h
      exact iff_of_true rfl ⟨span, hspan, hin⟩
  · intro col found hcol
    have h := hanswer col
    rw [hcol] at h
    obtain ⟨span, hspan, hin, rfl⟩ := h
    exact ⟨hin, rfl, hspan, graphemes_body hsingle hspan.1⟩
  · intro col col' found found' hcol hcol'
    have h := hanswer col
    have h' := hanswer col'
    rw [hcol] at h
    rw [hcol'] at h'
    obtain ⟨span, hspan, -, rfl⟩ := h
    obtain ⟨span', hspan', -, rfl⟩ := h'
    rcases hspan.eq_or_disjoint hspan' with rfl | hapart
    · exact .inl rfl
    · exact .inr hapart

/-- A row with a blank, an empty cell and a character of several bytes in front of a URL. -/
def sampleRow : List Cell :=
  ([[' '], [], ['é']] ++ "http://a.b).".toList.map ([·])).map fun g => { grapheme := g, attrs := {} }

def sampleScreen : Screen :=
  { Screen.new 1 sampleRow.length with cells := [sampleRow] }

theorem exists_hitTested_sample : ∃ hover, HitTested sampleScreen 0 sampleRow hover :=
  exists_hitTested (by decide) rfl (by unfold SingleCharacter; decide)

example : detectUrlAt sampleScreen 0 12 16 =
    some (some { url := "http://a.b".toList, screenRow := 0, colStart := 3, colEnd := 13 }) := by
  decide +kernel

end UrlHover

end Forgetty
