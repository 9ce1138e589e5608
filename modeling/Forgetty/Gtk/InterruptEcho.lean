import Forgetty.Gtk.OutputHandler

/-! The echo of an interrupt in the output of a pane. Behind a Ctrl+C the first caret with the
letter of a control character is dropped. Every chunk of the output is searched by itself, so
an echo that comes in two chunks is not seen. -/

namespace Forgetty

namespace InterruptEcho

/-- A caret, and behind it the letter of a control character. -/
def EchoAt (stream : Bytes) (i : ℕ) : Prop :=
  ∃ b, stream[i]? = some 0x5E ∧ stream[i + 1]? = some b ∧ (0x40 ≤ b ∧ b ≤ 0x5F ∨ b = 0x3F)

/-- The smallest number with the property. -/
def IsFirst (P : ℕ → Prop) (i : ℕ) : Prop := P i ∧ ∀ j < i, ¬P j

/-- The stream without the two bytes at a place. -/
def without : Option ℕ → Bytes → Bytes
  | none, stream => stream
  | some i, stream => stream.take i ++ stream.drop (i + 2)

/-- What the calls let through, one for each chunk and with the time of the call. -/
def filterChunks : Option Instant → List (Instant × Bytes) → List Bytes
  | _, [] => []
  | suppressUntil, (now, data) :: calls =>
    let r := dropFirstCaretFormEcho now data suppressUntil
    r.1 :: filterChunks r.2 calls

/-- The bytes of all calls. -/
def streamOf (calls : List (Instant × Bytes)) : Bytes := (calls.map (·.2)).flatten

/-! ### What is to hold -/

/-- All chunks come within the window of the suppression. -/
def Active (suppressUntil : Option Instant) (calls : List (Instant × Bytes)) : Prop :=
  ∃ deadline, suppressUntil = some deadline ∧ ∀ call ∈ calls, call.1 ≤ deadline

/-- No suppression is set, or it is over. -/
def Inactive (suppressUntil : Option Instant) (calls : List (Instant × Bytes)) : Prop :=
  ∀ deadline ∈ suppressUntil, ∀ call ∈ calls, deadline < call.1

/-- The output is the stream without its first echo, and the whole stream without a
suppression. -/
def DropsFirst (suppressUntil : Option Instant) (calls : List (Instant × Bytes)) : Prop :=
  (Active suppressUntil calls → (filterChunks suppressUntil calls).flatten =
    without (caretForm (streamOf calls)) (streamOf calls)) ∧
  (Inactive suppressUntil calls → (filterChunks suppressUntil calls).flatten = streamOf calls)

/-- A chunk ends there. -/
def Boundary (chunks : List Bytes) (n : ℕ) : Prop :=
  ∃ front, front <+: chunks ∧ front.flatten.length = n

/-- An echo in one chunk. -/
def WholeAt (chunks : List Bytes) (i : ℕ) : Prop :=
  EchoAt chunks.flatten i ∧ ¬Boundary chunks (i + 1)

/-- The first echo is in one chunk, or the bytes go on in twos from it to the first one that
is. -/
def FirstIsWhole (chunks : List Bytes) : Prop :=
  ∀ i, IsFirst (EchoAt chunks.flatten) i → ∃ j, IsFirst (WholeAt chunks) j ∧
    ∀ k, i ≤ k → k < j → chunks.flatten[k]? = chunks.flatten[k + 2]?

/-! ### The search in a chunk -/

section Search

variable {stream : Bytes} {i : ℕ}

theorem EchoAt.lt_length (h : EchoAt stream i) : i + 1 < stream.length := by
  obtain ⟨b, -, hb, -⟩ := h
  exact (List.getElem?_eq_some_iff.mp hb).1

theorem echoAt_cons_succ {a : UInt8} : EchoAt (a :: stream) (i + 1) ↔ EchoAt stream i := by
  simp only [EchoAt, List.getElem?_cons_succ]

theorem echoAt_cons_zero {a b : UInt8} {rest : Bytes} :
    EchoAt (a :: b :: rest) 0 ↔ a = 0x5E ∧ (0x40 ≤ b ∧ b ≤ 0x5F ∨ b = 0x3F) := by
  simp [EchoAt]

/-- The first place with the property, if there is one. -/
def Finds (P : ℕ → Prop) : Option ℕ → Prop
  | none => ∀ i, ¬P i
  | some i => IsFirst P i

theorem Finds.eq_some_iff {P : ℕ → Prop} {o : Option ℕ} (h : Finds P o) :
    o = some i ↔ IsFirst P i := by
  cases o with
  | none => exact ⟨fun hi => (by cases hi), fun hi => (h i hi.1).elim⟩
  | some j =>
    refine ⟨fun hi => Option.some.inj hi ▸ h, fun hi => congrArg some ?_⟩
    rcases Nat.lt_trichotomy j i with hlt | heq | hgt
    · exact (hi.2 j hlt h.1).elim
    · exact heq
    · exact (h.2 i hgt hi.1).elim

/-- Nothing before, and from there on the other property. -/
theorem Finds.add {P Q : ℕ → Prop} {n : ℕ} (hbefore : ∀ i < n, ¬P i)
    (hbehind : ∀ i, P (i + n) ↔ Q i) {o : Option ℕ} (h : Finds Q o) : Finds P (o.map (· + n)) := by
  have hshift : ∀ i, P i → ∃ j, i = j + n ∧ Q j := by
    intro i hi
    have hn : n ≤ i := Nat.not_lt.mp fun hlt => hbefore i hlt hi
    refine ⟨i - n, (Nat.sub_add_cancel hn).symm, ?_⟩
    rwa [← hbehind, Nat.sub_add_cancel hn]
  cases o with
  | none =>
    intro i hi
    obtain ⟨j, -, hj⟩ := hshift i hi
    exact h j hj
  | some i =>
    refine ⟨(hbehind i).mpr h.1, fun j hj hp => ?_⟩
    obtain ⟨k, rfl, hk⟩ := hshift j hp
    exact h.2 k (Nat.lt_of_add_lt_add_right hj) hk

theorem caretForm_finds (stream : Bytes) : Finds (EchoAt stream) (caretForm stream) := by
  induction stream with
  | nil => exact fun i h => Nat.not_lt_zero _ h.lt_length
  | cons a rest ih =>
    cases rest with
    | nil =>
      intro i h
      have := h.lt_length
      simp at this
    | cons b rest =>
      rw [caretForm]
      split_ifs with hhere
      · exact ⟨echoAt_cons_zero.mpr hhere, fun j hj => (Nat.not_lt_zero j hj).elim⟩
      · refine ih.add (fun i hi h => ?_) fun i => echoAt_cons_succ
        obtain rfl := Nat.lt_one_iff.mp hi
        exact hhere (echoAt_cons_zero.mp h)

end Search

/-! ### Chunks -/

section Chunks

variable {chunk : Bytes} {chunks : List Bytes}

/-- The place of the first echo that is in one chunk. -/
def firstWhole : List Bytes → Option ℕ
  | [] => none
  | chunk :: chunks => (caretForm chunk).or ((firstWhole chunks).map (· + chunk.length))

theorem boundary_cons {n : ℕ} :
    Boundary (chunk :: chunks) n ↔ n = 0 ∨ ∃ m, n = m + chunk.length ∧ Boundary chunks m := by
  constructor
  · rintro ⟨front, hfront, rfl⟩
    cases front with
    | nil => exact Or.inl rfl
    | cons c front =>
      obtain ⟨rfl, hrest⟩ := List.cons_prefix_cons.mp hfront
      exact Or.inr ⟨front.flatten.length, by simp [Nat.add_comm], front, hrest, rfl⟩
  · rintro (rfl | ⟨_, rfl, front, hfront, rfl⟩)
    · exact ⟨[], List.nil_prefix, rfl⟩
    · exact ⟨chunk :: front, List.cons_prefix_cons.mpr ⟨rfl, hfront⟩, by simp [Nat.add_comm]⟩

theorem echoAt_append_left {i : ℕ} {rest : Bytes} (h : i + 1 < chunk.length) :
    EchoAt (chunk ++ rest) i ↔ EchoAt chunk i := by
  simp only [EchoAt, List.getElem?_append_left h, List.getElem?_append_left (Nat.lt_of_succ_lt h)]

theorem echoAt_append_right {i : ℕ} {rest : Bytes} :
    EchoAt (chunk ++ rest) (i + chunk.length) ↔ EchoAt rest i := by
  have hnext : i + chunk.length + 1 = i + 1 + chunk.length := Nat.add_right_comm i _ 1
  simp only [EchoAt, hnext, List.getElem?_append_right (Nat.le_add_left _ _), Nat.add_sub_cancel]

theorem wholeAt_cons_left {i : ℕ} (h : i < chunk.length) :
    WholeAt (chunk :: chunks) i ↔ EchoAt chunk i := by
  rw [WholeAt, boundary_cons, List.flatten_cons]
  rcases Nat.lt_or_ge (i + 1) chunk.length with hlt | hge
  · rw [echoAt_append_left hlt]
    refine and_iff_left ?_
    rintro (hzero | ⟨m, hm, -⟩) <;> omega
  · have hcut : Boundary chunks 0 := ⟨[], List.nil_prefix, rfl⟩
    have hend : i + 1 = chunk.length := by omega
    refine ⟨fun hw => (hw.2 (Or.inr ⟨0, by omega, hcut⟩)).elim, fun he => ?_⟩
    have := he.lt_length
    omega

theorem wholeAt_cons_right {i : ℕ} :
    WholeAt (chunk :: chunks) (i + chunk.length) ↔ WholeAt chunks i := by
  rw [WholeAt, WholeAt, boundary_cons, List.flatten_cons, echoAt_append_right]
  refine and_congr_right fun _ => not_congr ⟨?_, fun h => Or.inr ⟨i + 1, Nat.add_right_comm i _ 1, h⟩⟩
  rintro (hzero | ⟨m, hm, h⟩)
  · omega
  · obtain rfl : i + 1 = m := by omega
    exact h

theorem firstWhole_finds (chunks : List Bytes) :
    Finds (WholeAt chunks) (firstWhole chunks) := by
  induction chunks with
  | nil => exact fun i h => Nat.not_lt_zero _ h.1.lt_length
  | cons chunk chunks ih =>
    have hsearch := caretForm_finds chunk
    rw [firstWhole]
    cases hfound : caretForm chunk with
    | none =>
      rw [hfound] at hsearch
      refine ih.add (fun i hi h => ?_) fun i => wholeAt_cons_right
      exact hsearch i ((wholeAt_cons_left hi).mp h)
    | some i =>
      rw [hfound] at hsearch
      have hlt : i < chunk.length := Nat.lt_of_succ_lt hsearch.1.lt_length
      refine ⟨(wholeAt_cons_left hlt).mpr hsearch.1, fun j hj h => ?_⟩
      exact hsearch.2 j hj ((wholeAt_cons_left (hj.trans hlt)).mp h)

/-! ### What is let through -/

theorem filterChunks_none (calls : List (Instant × Bytes)) :
    filterChunks none calls = calls.map (·.2) := by
  induction calls with
  | nil => rfl
  | cons call calls ih => exact congrArg (call.2 :: ·) ih

/-- A call after the deadline ends the suppression. -/
theorem filterChunks_inactive {suppressUntil : Option Instant} {calls : List (Instant × Bytes)}
    (h : Inactive suppressUntil calls) : filterChunks suppressUntil calls = calls.map (·.2) := by
  cases suppressUntil with
  | none => exact filterChunks_none calls
  | some deadline =>
    cases calls with
    | nil => rfl
    | cons call calls =>
      have hover : deadline < call.1 := h deadline rfl call List.mem_cons_self
      rw [filterChunks, dropFirstCaretFormEcho, if_pos hover, List.map_cons, ← filterChunks_none]

theorem without_append_right (o : Option ℕ) (chunk stream : Bytes) :
    without (o.map (· + chunk.length)) (chunk ++ stream) = chunk ++ without o stream := by
  cases o with
  | none => rfl
  | some i =>
    have hbehind : i + chunk.length + 2 = chunk.length + (i + 2) := by omega
    rw [Option.map_some, without, without, hbehind, Nat.add_comm i, List.take_length_add_append,
      List.drop_length_add_append, List.append_assoc]

theorem without_append_left {i : ℕ} {chunk : Bytes} (h : i + 1 < chunk.length) (stream : Bytes) :
    without (some i) (chunk ++ stream) = chunk.take i ++ chunk.drop (i + 2) ++ stream := by
  rw [without, List.take_append_of_le_length (by omega), List.drop_append_of_le_length h,
    List.append_assoc]

/-- Within the window the first echo that is in one chunk is dropped. -/
theorem flatten_filterChunks {calls : List (Instant × Bytes)} {deadline : Instant}
    (h : ∀ call ∈ calls, call.1 ≤ deadline) :
    (filterChunks (some deadline) calls).flatten =
      without (firstWhole (calls.map (·.2))) (streamOf calls) := by
  induction calls with
  | nil => rfl
  | cons call calls ih =>
    obtain ⟨now, data⟩ := call
    rw [List.forall_mem_cons] at h
    have hsearch := caretForm_finds data
    have hstream : streamOf ((now, data) :: calls) = data ++ streamOf calls := rfl
    rw [filterChunks, dropFirstCaretFormEcho, if_neg (Int.not_lt.mpr h.1), List.map_cons,
      firstWhole, hstream]
    cases hfound : caretForm data with
    | none =>
      simp only [Option.none_or, List.flatten_cons]
      rw [ih h.2, without_append_right]
    | some i =>
      rw [hfound] at hsearch
      simp only [Option.some_or, List.flatten_cons]
      rw [filterChunks_none, without_append_left hsearch.1.lt_length]
      rfl

end Chunks

/-! ### The first echo -/

section First

variable {stream : Bytes} {i j : ℕ}

theorem getElem?_without (h : i ≤ stream.length) (k : ℕ) :
    (without (some i) stream)[k]? = if k < i then stream[k]? else stream[k + 2]? := by
  have hlen : (stream.take i).length = i := List.length_take_of_le h
  rw [without]
  split_ifs with hk
  · rw [List.getElem?_append_left (by omega), List.getElem?_take_of_lt hk]
  · rw [List.getElem?_append_right (by omega), List.getElem?_drop, hlen]
    congr 1
    omega

/-- Two places whose bytes may be left out with the same result. -/
theorem without_eq_iff (hij : i ≤ j) (hj : j < stream.length) :
    without (some i) stream = without (some j) stream ↔
      ∀ k, i ≤ k → k < j → stream[k]? = stream[k + 2]? := by
  rw [List.ext_getElem?_iff]
  refine forall_congr' fun k => ?_
  rw [getElem?_without (hij.trans hj.le), getElem?_without hj.le]
  rcases Nat.lt_or_ge k i with hk | hk
  · rw [if_pos hk, if_pos (hk.trans_le hij)]
    exact ⟨fun _ hik => (Nat.not_le.mpr hk hik).elim, fun _ => rfl⟩
  · rw [if_neg (Nat.not_lt.mpr hk)]
    split_ifs with hkj
    · exact ⟨fun h _ _ => h.symm, fun h => (h hk hkj).symm⟩
    · exact ⟨fun _ _ h => (hkj h).elim, fun _ => rfl⟩

theorem length_without (h : i + 1 < stream.length) :
    (without (some i) stream).length + 2 = stream.length := by
  rw [without, List.length_append, List.length_take, List.length_drop]
  omega

/-- The first echo is dropped exactly if it is in one chunk, or cannot be told from the first one
that is. -/
theorem without_firstWhole_iff (chunks : List Bytes) :
    without (firstWhole chunks) chunks.flatten = without (caretForm chunks.flatten) chunks.flatten ↔
      FirstIsWhole chunks := by
  have hfirst := caretForm_finds chunks.flatten
  have hwhole := firstWhole_finds chunks
  cases hcaret : caretForm chunks.flatten with
  | none =>
    rw [hcaret] at hfirst
    have hnone : firstWhole chunks = none := by
      cases hfound : firstWhole chunks with
      | none => rfl
      | some j =>
        rw [hfound] at hwhole
        exact (hfirst j hwhole.1.1).elim
    rw [hnone]
    exact ⟨fun _ i hi => (hfirst i hi.1).elim, fun _ => rfl⟩
  | some i =>
    rw [hcaret] at hfirst
    cases hfound : firstWhole chunks with
    | none =>
      rw [hfound] at hwhole
      constructor
      · intro h
        have hlen := length_without hfirst.1.lt_length
        rw [← h] at hlen
        have hsame : (without none chunks.flatten).length = chunks.flatten.length := rfl
        omega
      · intro h
        obtain ⟨j, hj, -⟩ := h i hfirst
        exact (hwhole j hj.1).elim
    | some j =>
      rw [hfound] at hwhole
      have hij : i ≤ j := Nat.not_lt.mp fun hlt => hfirst.2 j hlt hwhole.1.1
      have hj : j < chunks.flatten.length := Nat.lt_of_succ_lt hwhole.1.1.lt_length
      rw [eq_comm, without_eq_iff hij hj]
      constructor
      · intro h i' hi'
        obtain rfl : i = i' := Option.some.inj (hfirst.eq_some_iff.mpr hi')
        exact ⟨j, hwhole, h⟩
      · intro h
        obtain ⟨j', hj', hrepeats⟩ := h i hfirst
        obtain rfl : j = j' := Option.some.inj (hwhole.eq_some_iff.mpr hj')
        exact hrepeats

end First

/-- Within the window the first echo of the stream is dropped exactly if no chunk ends in it, or
the bytes go on in twos from it to the first one that is whole. Without a suppression nothing is
dropped. -/
theorem dropsFirst_iff (suppressUntil : Option Instant) (calls : List (Instant × Bytes)) :
    DropsFirst suppressUntil calls ↔
      (Active suppressUntil calls → FirstIsWhole (calls.map (·.2))) := by
  have hinactive : Inactive suppressUntil calls →
      (filterChunks suppressUntil calls).flatten = streamOf calls := by
    intro h
    rw [filterChunks_inactive h]
    rfl
  rw [DropsFirst, and_iff_left hinactive]
  refine forall_congr' fun hactive => ?_
  obtain ⟨deadline, hset, hwithin⟩ := hactive
  rw [hset, flatten_filterChunks hwithin]
  exact without_firstWhole_iff _

/-- `^` and `X` in two chunks. -/
theorem not_dropsFirst_twoChunks : ¬DropsFirst (some 10) [(0, [0x5E]), (1, [0x58])] := by
  intro h
  have hout := h.1 ⟨10, rfl, by decide⟩
  exact absurd hout (by decide)

end InterruptEcho

end Forgetty
