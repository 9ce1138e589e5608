import Forgetty.Gtk.OscNotification

/-! Notification sequences in a stream that comes in chunks. A scan sees one chunk and reports
the first notification in it. Where no sequence is cut and no chunk has two of them, the reports
are the notifications of the stream. -/

namespace Forgetty

namespace OscChunks

theorem length_lt_of_splitOsc {rest body after : Bytes}
    (h : splitOsc rest.tail = some (body, after)) : after.length < rest.length + 1 := by
  refine (splitOsc_length h).trans_le ?_
  rw [List.length_tail]
  omega

/-- The texts of the complete sequences of a stream, in order. -/
def sequences (data : Bytes) : List Bytes :=
  match data with
  | [] => []
  | b :: rest =>
    if b = esc ∧ rest.head? = some 0x5D then
      match h : splitOsc rest.tail with
      | none => []
      | some (body, after) =>
        have := length_lt_of_splitOsc h
        body :: sequences after
    else sequences rest
termination_by data.length
decreasing_by
  · exact this
  · exact Nat.lt_succ_self _

/-- The notifications of a stream, one for each complete sequence that is one. -/
def notifications (data : Bytes) : List NotificationPayload :=
  (sequences data).filterMap parseOscBody

/-- The sequence at the end that is not complete yet. -/
def openSequence (data : Bytes) : Bytes :=
  match data with
  | [] => []
  | b :: rest =>
    if b = esc ∧ rest.head? = some 0x5D then
      match h : splitOsc rest.tail with
      | none => b :: rest
      | some (_, after) =>
        have hlt : after.length < rest.length + 1 :=
          (splitOsc_length h).trans_le (by rw [List.length_tail]; omega)
        openSequence after
    else if b = esc ∧ rest = [] then [esc]
    else openSequence rest
termination_by data.length

/-- A sequence that is begun in the bytes before a chunk and ends in the chunk: its text, and the
part of the text in the chunk. -/
def CutSequence (before chunk body part : Bytes) : Prop :=
  openSequence before ≠ [] ∧ (∃ tail after, openSequence before ++ chunk = esc :: 0x5D :: tail ∧
    splitOsc tail = some (body, after)) ∧ part = body.drop ((openSequence before).length - 2)

/-- A chunk with one notification at most. No notification is cut by its beginning, and the rest
of another sequence that is has no notification in it. -/
structure CleanBehind (before chunk : Bytes) : Prop where
  one : (notifications chunk).length ≤ 1
  uncut : ∀ body part, CutSequence before chunk body part → parseOscBody body = none
  inner : ∀ body part, CutSequence before chunk body part →
    ∀ text, esc :: 0x5D :: text <:+ part → parseOscBody text = none

def Clean (chunks : List Bytes) : Prop :=
  ∀ front chunk rest, chunks = front ++ chunk :: rest → CleanBehind front.flatten chunk

/-- What the scans of the chunks report. -/
def reports (chunks : List Bytes) : List NotificationPayload :=
  chunks.filterMap scanOscNotification

/-! ### The scan -/

section Scan

variable {b : UInt8} {rest tail body after : Bytes}

theorem sequences_nil : sequences [] = [] := by rw [sequences]

theorem sequences_skip (h : ¬(b = esc ∧ rest.head? = some 0x5D)) :
    sequences (b :: rest) = sequences rest := by
  rw [sequences, if_neg h]

theorem sequences_complete (h : splitOsc tail = some (body, after)) :
    sequences (esc :: 0x5D :: tail) = body :: sequences after := by
  rw [sequences, if_pos ⟨rfl, rfl⟩]
  split
  · next hnone => cases hnone.symm.trans h
  · next body' after' hsome =>
    obtain ⟨rfl, rfl⟩ := Prod.mk.inj (Option.some.inj (hsome.symm.trans h))
    rfl

theorem sequences_open (h : splitOsc tail = none) : sequences (esc :: 0x5D :: tail) = [] := by
  rw [sequences, if_pos ⟨rfl, rfl⟩]
  split
  · rfl
  · next hsome => cases hsome.symm.trans h

theorem openSequence_nil : openSequence [] = [] := by rw [openSequence]

theorem openSequence_skip (h : ¬(b = esc ∧ rest.head? = some 0x5D)) (h' : ¬(b = esc ∧ rest = [])) :
    openSequence (b :: rest) = openSequence rest := by
  rw [openSequence, if_neg h, if_neg h']

theorem openSequence_complete (h : splitOsc tail = some (body, after)) :
    openSequence (esc :: 0x5D :: tail) = openSequence after := by
  rw [openSequence, if_pos ⟨rfl, rfl⟩]
  split
  · next hnone => cases hnone.symm.trans h
  · next body' after' hsome =>
    obtain ⟨rfl, rfl⟩ := Prod.mk.inj (Option.some.inj (hsome.symm.trans h))
    rfl

theorem openSequence_open (h : splitOsc tail = none) :
    openSequence (esc :: 0x5D :: tail) = esc :: 0x5D :: tail := by
  rw [openSequence, if_pos ⟨rfl, rfl⟩]
  split
  · rfl
  · next hsome => cases hsome.symm.trans h

/-- A byte begins a sequence, complete or not, or it is skipped. -/
theorem start_cases (b : UInt8) (rest : Bytes) :
    ¬(b = esc ∧ rest.head? = some 0x5D) ∨ ∃ tail, b = esc ∧ rest = 0x5D :: tail := by
  by_cases h : b = esc ∧ rest.head? = some 0x5D
  · obtain ⟨tail, rfl⟩ := List.head?_eq_some_iff.mp h.2
    exact Or.inr ⟨tail, h.1, rfl⟩
  · exact Or.inl h

/-- The steps of a scan: skip a byte, or take a sequence, which may be the last one. -/
theorem scan_induction {P : Bytes → Prop} (nil : P [])
    (skip : ∀ b rest, ¬(b = esc ∧ rest.head? = some 0x5D) → P rest → P (b :: rest))
    (unfinished : ∀ tail, splitOsc tail = none → P (esc :: 0x5D :: tail))
    (complete : ∀ tail body after, splitOsc tail = some (body, after) → P after →
      P (esc :: 0x5D :: tail)) (data : Bytes) : P data := by
  suffices ∀ n, data.length ≤ n → P data from this data.length le_rfl
  intro n
  induction n generalizing data with
  | zero =>
    intro h
    rwa [List.eq_nil_of_length_eq_zero (Nat.le_zero.mp h)]
  | succ n ih =>
    intro h
    cases data with
    | nil => exact nil
    | cons b rest =>
      rw [List.length_cons] at h
      rcases start_cases b rest with hskip | ⟨tail, rfl, rfl⟩
      · exact skip b rest hskip (ih rest (by omega))
      · cases hsplit : splitOsc tail with
        | none => exact unfinished tail hsplit
        | some r =>
          obtain ⟨body, after⟩ := r
          have hlen := splitOsc_length hsplit
          rw [List.length_cons] at h
          exact complete tail body after hsplit (ih after (by omega))

/-- The scan finds the first notification. -/
theorem scanOscNotification_eq (data : Bytes) :
    scanOscNotification data = (notifications data).head? := by
  suffices ∀ n, data.length ≤ n → scanOsc n data = (notifications data).head? from
    this data.length le_rfl
  induction data using scan_induction with
  | nil =>
    intro n _
    rw [notifications, sequences_nil]
    cases n <;> rfl
  | skip b rest hskip ih =>
    intro n h
    obtain ⟨n, rfl⟩ := Nat.exists_eq_add_of_le' h
    rw [List.length_cons, ← Nat.add_assoc, scanOsc, if_neg hskip, notifications,
      sequences_skip hskip]
    exact ih _ (Nat.le_add_left _ _)
  | unfinished tail hsplit =>
    intro n h
    obtain ⟨n, rfl⟩ := Nat.exists_eq_add_of_le' h
    rw [List.length_cons, ← Nat.add_assoc, scanOsc, if_pos ⟨rfl, rfl⟩, List.tail_cons, hsplit,
      notifications, sequences_open hsplit]
    rfl
  | complete tail body after hsplit ih =>
    intro n h
    have hlen := splitOsc_length hsplit
    obtain ⟨n, rfl⟩ := Nat.exists_eq_add_of_le' h
    rw [List.length_cons, ← Nat.add_assoc, scanOsc, if_pos ⟨rfl, rfl⟩, List.tail_cons, hsplit,
      notifications, sequences_complete hsplit, List.filterMap_cons]
    dsimp only
    rw [ih (n + (0x5D :: tail).length) (by rw [List.length_cons]; omega)]
    cases parseOscBody body <;> rfl

end Scan

/-! ### A sequence that goes on -/

section Split

variable {data more body after tail : Bytes}

/-- Bytes behind the terminator do not matter. -/
theorem splitOsc_append (h : splitOsc data = some (body, after)) :
    splitOsc (data ++ more) = some (body, after ++ more) := by
  induction data generalizing body with
  | nil => cases h
  | cons b rest ih =>
    rw [splitOsc] at h
    rw [List.cons_append, splitOsc]
    split_ifs at h with hend
    · obtain ⟨rfl, rfl⟩ := Prod.mk.inj (Option.some.inj h)
      refine if_pos (hend.imp_right fun hst => ⟨hst.1, ?_⟩)
      rw [List.head?_append, hst.2, Option.some_or]
    · obtain ⟨⟨body', after'⟩, hr, heq⟩ := Option.map_eq_some_iff.mp h
      obtain ⟨rfl, rfl⟩ := Prod.mk.inj heq
      have hne : rest ≠ [] := by
        rintro rfl
        cases hr
      have hhead : (rest ++ more).head? = rest.head? := List.head?_append_of_ne_nil _ hne
      rw [if_neg (by rwa [hhead]), ih hr]
      rfl

/-- A text without terminator goes on in what comes behind it, unless its terminator is cut. -/
theorem splitOsc_append_of_none (h : splitOsc data = none) (more : Bytes) :
    (∃ body, splitOsc (data ++ more) = some (body, more)) ∨
      splitOsc (data ++ more) = (splitOsc more).map fun r => (data ++ r.1, r.2) := by
  induction data with
  | nil =>
    refine Or.inr ?_
    simp
  | cons b rest ih =>
    rw [splitOsc] at h
    rw [List.cons_append, splitOsc]
    split_ifs at h with hend
    by_cases hcut : b = esc ∧ (rest ++ more).head? = some 0x5C
    · -- The first byte of the terminator is the last one before the cut.
      refine Or.inl ⟨[], ?_⟩
      have hnil : rest = [] := by
        by_contra hne
        rw [List.head?_append_of_ne_nil _ hne] at hcut
        exact hend (Or.inr hcut)
      rw [if_pos (Or.inr hcut), hnil, List.nil_append]
    · rw [if_neg (not_or.mpr ⟨fun hb => hend (Or.inl hb), hcut⟩)]
      rcases ih (Option.map_eq_none_iff.mp h) with ⟨body, hbody⟩ | hrest
      · rw [hbody]
        exact Or.inl ⟨b :: body, rfl⟩
      · rw [hrest, Option.map_map]
        exact Or.inr rfl

theorem splitOsc_tail_of_none {b : UInt8} (h : splitOsc (b :: data) = none) : splitOsc data = none := by
  rw [splitOsc] at h
  split_ifs at h
  exact Option.map_eq_none_iff.mp h

/-- Without a terminator no sequence is complete. -/
theorem sequences_of_none (h : splitOsc data = none) : sequences data = [] := by
  induction data with
  | nil => exact sequences_nil
  | cons b rest ih =>
    rcases start_cases b rest with hskip | ⟨tail, rfl, rfl⟩
    · rw [sequences_skip hskip]
      exact ih (splitOsc_tail_of_none h)
    · exact sequences_open (splitOsc_tail_of_none (splitOsc_tail_of_none h))

/-- Of a text with no notification in it only what is behind its terminator counts. -/
theorem notifications_of_split (h : splitOsc data = some (body, after))
    (hinner : ∀ text, esc :: 0x5D :: text <:+ body → parseOscBody text = none) :
    notifications data = notifications after := by
  induction data generalizing body with
  | nil => cases h
  | cons b rest ih =>
    have hsplit := h
    rw [splitOsc] at hsplit
    split_ifs at hsplit with hend
    · obtain ⟨-, rfl⟩ := Prod.mk.inj (Option.some.inj hsplit)
      have hskip : ¬(b = esc ∧ rest.head? = some 0x5D) := by
        rintro ⟨rfl, hhead⟩
        rw [hhead] at hend
        exact absurd hend (by decide)
      rw [notifications, sequences_skip hskip, notifications]
    · obtain ⟨⟨body', after'⟩, hr, heq⟩ := Option.map_eq_some_iff.mp hsplit
      obtain ⟨rfl, rfl⟩ := Prod.mk.inj heq
      rcases start_cases b rest with hskip | ⟨tail, rfl, rfl⟩
      · rw [notifications, sequences_skip hskip, ← notifications]
        exact ih hr fun text hsuffix => hinner text (hsuffix.trans (List.suffix_cons b body'))
      · -- A sequence begins in the text, and ends where the text ends.
        rw [splitOsc, if_neg (by simp [bel, esc])] at hr
        obtain ⟨⟨text, behind⟩, hr', heq⟩ := Option.map_eq_some_iff.mp hr
        obtain ⟨rfl, rfl⟩ := Prod.mk.inj heq
        rw [notifications, sequences_complete hr', List.filterMap_cons, hinner text List.suffix_rfl]
        rfl

end Split

/-! ### A cut -/

section Cut

variable {before chunk : Bytes}

theorem openSequence_cases (data : Bytes) : openSequence data = [] ∨ openSequence data = [esc] ∨
    ∃ tail, openSequence data = esc :: 0x5D :: tail ∧ splitOsc tail = none := by
  induction data using scan_induction with
  | nil => exact Or.inl openSequence_nil
  | skip b rest hskip ih =>
    by_cases hlast : b = esc ∧ rest = []
    · rw [openSequence, if_neg hskip, if_pos hlast]
      exact Or.inr (Or.inl rfl)
    · rwa [openSequence_skip hskip hlast]
  | unfinished tail hsplit => exact Or.inr (Or.inr ⟨tail, openSequence_open hsplit, hsplit⟩)
  | complete tail body after hsplit ih => rwa [openSequence_complete hsplit]

/-- What comes behind a cut is scanned with the sequence that is open there. -/
theorem sequences_append (before chunk : Bytes) : sequences (before ++ chunk) =
    sequences before ++ sequences (openSequence before ++ chunk) := by
  induction before using scan_induction with
  | nil => rw [openSequence_nil, sequences_nil, List.nil_append, List.nil_append]
  | skip b rest hskip ih =>
    by_cases hlast : b = esc ∧ rest = []
    · obtain ⟨rfl, rfl⟩ := hlast
      rw [openSequence, if_neg hskip, if_pos ⟨rfl, rfl⟩, sequences_skip hskip, sequences_nil,
        List.nil_append]
    · have hskip' : ¬(b = esc ∧ (rest ++ chunk).head? = some 0x5D) := by
        rintro ⟨hb, hhead⟩
        have hne : rest ≠ [] := fun hnil => hlast ⟨hb, hnil⟩
        rw [List.head?_append_of_ne_nil _ hne] at hhead
        exact hskip ⟨hb, hhead⟩
      rw [List.cons_append, sequences_skip hskip', sequences_skip hskip, openSequence_skip hskip hlast,
        ih]
  | unfinished tail hsplit => rw [openSequence_open hsplit, sequences_open hsplit, List.nil_append]
  | complete tail body after hsplit ih =>
    rw [openSequence_complete hsplit, sequences_complete hsplit, List.cons_append, List.cons_append,
      List.cons_append, ← ih]
    exact sequences_complete (splitOsc_append hsplit)

theorem notifications_append (before chunk : Bytes) : notifications (before ++ chunk) =
    notifications before ++ notifications (openSequence before ++ chunk) := by
  rw [notifications, sequences_append, List.filterMap_append]
  rfl

theorem notifications_complete {tail body after : Bytes} (h : splitOsc tail = some (body, after))
    (hbody : parseOscBody body = none) :
    notifications (esc :: 0x5D :: tail) = notifications after := by
  rw [notifications, sequences_complete h, List.filterMap_cons, hbody]
  rfl

theorem notifications_open {tail : Bytes} (h : splitOsc tail = none) :
    notifications (esc :: 0x5D :: tail) = [] := by
  rw [notifications, sequences_open h]
  rfl

theorem notifications_of_none {data : Bytes} (h : splitOsc data = none) :
    notifications data = [] := by
  rw [notifications, sequences_of_none h]
  rfl

/-- A cut sequence with no notification in it does not change what the scan of the chunk sees. -/
theorem notifications_of_cut
    (h : ∀ body part, CutSequence before chunk body part → parseOscBody body = none ∧
      ∀ text, esc :: 0x5D :: text <:+ part → parseOscBody text = none) :
    notifications (openSequence before ++ chunk) = notifications chunk := by
  rcases openSequence_cases before with hopen | hopen | ⟨tail, hopen, htail⟩
  · rw [hopen, List.nil_append]
  · rw [hopen, List.singleton_append]
    rcases start_cases esc chunk with hskip | ⟨tail, -, rfl⟩
    · rw [notifications, sequences_skip hskip, ← notifications]
    · -- The cut is behind the escape character.
      have hbehind : notifications (0x5D :: tail) = notifications tail := by
        rw [notifications, sequences_skip (by simp [esc]), ← notifications]
      rw [hbehind]
      cases hsplit : splitOsc tail with
      | none => rw [notifications_open hsplit, notifications_of_none hsplit]
      | some r =>
        have hcut : CutSequence before (0x5D :: tail) r.1 r.1 := by
          rw [CutSequence, hopen]
          exact ⟨by simp, ⟨tail, r.2, rfl, hsplit⟩, rfl⟩
        obtain ⟨hbody, hinner⟩ := h _ _ hcut
        rw [notifications_complete hsplit hbody, notifications_of_split hsplit hinner]
  · rw [hopen, List.cons_append, List.cons_append]
    have hpart (body after : Bytes) (hsplit : splitOsc (tail ++ chunk) = some (body, after)) :
        CutSequence before chunk body (body.drop tail.length) := by
      rw [CutSequence, hopen]
      exact ⟨by simp, ⟨tail ++ chunk, after, rfl, hsplit⟩, rfl⟩
    rcases splitOsc_append_of_none htail chunk with ⟨body, hsplit⟩ | hsplit
    · rw [notifications_complete hsplit (h _ _ (hpart _ _ hsplit)).1]
    · cases hchunk : splitOsc chunk with
      | none =>
        rw [hchunk] at hsplit
        rw [notifications_open hsplit, notifications_of_none hchunk]
      | some r =>
        rw [hchunk, Option.map_some] at hsplit
        obtain ⟨hbody, hinner⟩ := h _ _ (hpart _ _ hsplit)
        rw [List.drop_left] at hinner
        rw [notifications_complete hsplit hbody, notifications_of_split hchunk hinner]

/-- A clean chunk reports what is complete with it. -/
theorem reports_singleton (h : CleanBehind before chunk) :
    reports [chunk] = notifications (openSequence before ++ chunk) := by
  rw [notifications_of_cut fun body part hcut => ⟨h.uncut body part hcut, h.inner body part hcut⟩]
  have hone := h.one
  rw [reports, List.filterMap_cons, scanOscNotification_eq, List.filterMap_nil]
  cases hnotes : notifications chunk with
  | nil => rfl
  | cons payload rest =>
    rw [hnotes, List.length_cons] at hone
    obtain rfl : rest = [] := List.eq_nil_of_length_eq_zero (by omega)
    rfl

/-- The scans of clean chunks report the notifications of the stream. -/
theorem reports_eq {chunks : List Bytes} (h : Clean chunks) :
    reports chunks = notifications chunks.flatten := by
  induction chunks using List.reverseRecOn with
  | nil =>
    rw [List.flatten_nil, notifications, sequences_nil]
    rfl
  | append_singleton chunks chunk ih =>
    have hfront : Clean chunks := by
      rintro front c rest rfl
      exact h front c (rest ++ [chunk]) (by simp)
    have hlast : CleanBehind chunks.flatten chunk := h chunks chunk [] rfl
    rw [List.flatten_concat, notifications_append, ← reports_singleton hlast, ← ih hfront]
    exact List.filterMap_append

end Cut

/-- Two ways of cutting a stream, both clean, give the same reports: one for each notification of
the stream. -/
theorem reports_chunks {chunks chunks' : List Bytes} (hsame : chunks.flatten = chunks'.flatten)
    (h : Clean chunks) (h' : Clean chunks') :
    reports chunks = notifications chunks.flatten ∧ reports chunks = reports chunks' := by
  refine ⟨reports_eq h, ?_⟩
  rw [reports_eq h, reports_eq h', hsame]

/-- `ESC ] 9 ; a BEL` -/
def note : Bytes := [esc, 0x5D, 0x39, 0x3B, 0x61, bel]

theorem sequences_note : sequences note = [[0x39, 0x3B, 0x61]] := by
  have hsplit : splitOsc [0x39, 0x3B, 0x61, bel] = some ([0x39, 0x3B, 0x61], []) := rfl
  rw [note, sequences_complete hsplit, sequences_nil]

/-- The beginning of a chunk cuts nothing where no sequence is open. -/
theorem cleanBehind_of_open {before chunk : Bytes} (hopen : openSequence before = [])
    (one : (notifications chunk).length ≤ 1) : CleanBehind before chunk where
  one := one
  uncut _ _ hcut := (hcut.1 hopen).elim
  inner _ _ hcut := (hcut.1 hopen).elim

theorem clean_pair {chunk chunk' : Bytes} (h : CleanBehind [] chunk)
    (h' : CleanBehind chunk chunk') : Clean [chunk, chunk'] := by
  intro front c rest hsplit
  rcases front with _ | ⟨c₁, _ | ⟨c₂, front⟩⟩
  · obtain ⟨rfl, -⟩ := List.cons.inj hsplit
    exact h
  · obtain ⟨rfl, htail⟩ := List.cons.inj hsplit
    obtain ⟨rfl, -⟩ := List.cons.inj htail
    rwa [List.flatten_singleton]
  · simp at hsplit

/-- Behind a title, cut in the middle and not cut. -/
theorem reports_titleAndNote :
    let chunks : List Bytes := [[esc, 0x5D, 0x30], [0x3B, 0x74, bel] ++ note]
    let whole : List Bytes := [[esc, 0x5D, 0x30, 0x3B, 0x74, bel], note]
    reports chunks = notifications chunks.flatten ∧ reports chunks = reports whole := by
  have htitle : splitOsc [0x30, 0x3B, 0x74, bel] = some ([0x30, 0x3B, 0x74], []) := rfl
  have hcut : openSequence [esc, 0x5D, 0x30] = [esc, 0x5D, 0x30] := openSequence_open rfl
  refine reports_chunks rfl (clean_pair ?_ ?_) (clean_pair ?_ ?_)
  · refine cleanBehind_of_open openSequence_nil ?_
    rw [notifications_open rfl]
    exact Nat.zero_le 1
  · have hbody (body part : Bytes)
        (h : CutSequence [esc, 0x5D, 0x30] ([0x3B, 0x74, bel] ++ note) body part) :
        body = [0x30, 0x3B, 0x74] ∧ part = [0x3B, 0x74] := by
      obtain ⟨-, ⟨tail, after, htail, hsplit⟩, hpart⟩ := h
      rw [hcut] at htail hpart
      obtain rfl := (List.cons.inj (List.cons.inj htail).2).2
      have heq : some (body, after) = some ([0x30, 0x3B, 0x74], note) := hsplit.symm.trans rfl
      obtain ⟨rfl, -⟩ := Prod.mk.inj (Option.some.inj heq)
      exact ⟨rfl, hpart⟩
    constructor
    case one =>
      rw [notifications, List.cons_append, sequences_skip (by decide), List.cons_append,
        sequences_skip (by decide), List.cons_append, sequences_skip (by decide), List.nil_append,
        sequences_note]
      exact List.length_filterMap_le _ _
    case uncut =>
      intro body part h
      rw [(hbody body part h).1]
      rfl
    case inner =>
      intro body part h text hsuffix
      rw [(hbody body part h).2] at hsuffix
      have hlen := hsuffix.length_le
      simp only [List.length_cons, List.length_nil] at hlen
      rw [List.eq_nil_of_length_eq_zero (show text.length = 0 by omega)]
      rfl
  · refine cleanBehind_of_open openSequence_nil ?_
    rw [notifications_complete htitle rfl, notifications, sequences_nil]
    exact Nat.zero_le 1
  · refine cleanBehind_of_open (by rw [openSequence_complete htitle, openSequence_nil]) ?_
    rw [notifications, sequences_note]
    exact List.length_filterMap_le _ _

/-- A notification that comes in two chunks is not reported. -/
theorem not_reports_twoChunks : ¬∀ chunks chunks' : List Bytes,
    chunks.flatten = chunks'.flatten → reports chunks = reports chunks' := by
  intro h
  have hsame := h [[esc, 0x5D, 0x39, 0x3B, 0x61], [bel]] [note] rfl
  exact absurd (congrArg List.length hsame) (by decide)

end OscChunks

end Forgetty
