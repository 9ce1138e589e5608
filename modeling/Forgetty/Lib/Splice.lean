import Mathlib.Data.List.Forall2
import Mathlib.Data.List.Nodup
import Mathlib.Data.List.Perm.Basic
import Mathlib.Data.List.Perm.Subperm
import Mathlib.Tactic.Common

/-! Lists changed at one place: the split at an index, and what a change there
does to the concatenation of lists read off the elements. -/

namespace Forgetty.Lib

variable {α β : Type*}

/-- The split of a list at an index in bounds, with what `modify` and `eraseIdx`
do there. -/
theorem exists_split {as : List α} {i : ℕ} {a : α} (h : as[i]? = some a) :
    ∃ pre post, as = pre ++ a :: post ∧ pre.length = i ∧
      (∀ f : α → α, as.modify i f = pre ++ f a :: post) ∧ as.eraseIdx i = pre ++ post := by
  obtain ⟨hi, rfl⟩ := List.getElem?_eq_some_iff.mp h
  refine ⟨as.take i, as.drop (i + 1), ?_, by simp; omega, ?_, ?_⟩
  · rw [List.getElem_cons_drop, List.take_append_drop]
  · exact fun f => List.modify_eq_take_cons_drop hi
  · exact List.eraseIdx_eq_take_drop_succ as i

/-- The elements from index `i` up to but not including index `j`. -/
def slice (as : List α) (i j : ℕ) : List α := (as.take j).drop i

@[simp] theorem slice_self (as : List α) (i : ℕ) : slice as i i = [] := by
  simp [slice]

theorem slice_eq_nil {as : List α} {i j : ℕ} (hji : j ≤ i) : slice as i j = [] := by
  rw [slice, List.drop_eq_nil_iff, List.length_take]
  omega

theorem slice_length (as : List α) (i : ℕ) : slice as i as.length = as.drop i := by
  rw [slice, List.take_length]

theorem slice_succ {as : List α} {i j : ℕ} {a : α} (hij : i ≤ j) (h : as[j]? = some a) :
    slice as i (j + 1) = slice as i j ++ [a] := by
  obtain ⟨hj, rfl⟩ := List.getElem?_eq_some_iff.mp h
  rw [slice, slice, List.take_succ_eq_append_getElem hj, List.drop_append_of_le_length]
  rw [List.length_take]
  omega

theorem slice_append {as : List α} {i j k : ℕ} (hij : i ≤ j) (hjk : j ≤ k) :
    slice as i k = slice as i j ++ slice as j k := by
  have h := List.take_append_drop (j - i) ((as.take k).drop i)
  rw [List.drop_drop, Nat.add_sub_cancel' hij, List.take_drop, Nat.add_sub_cancel' hij,
    List.take_take, Nat.min_eq_left hjk] at h
  exact h.symm

/-- What is read does not change when the list grows at the end. -/
theorem slice_append_left {as : List α} {i j : ℕ} (hj : j ≤ as.length) (bs : List α) :
    slice (as ++ bs) i j = slice as i j := by
  rw [slice, List.take_append_of_le_length hj, slice]

theorem drop_eq_slice_append {as : List α} {i j : ℕ} (hij : i ≤ j) :
    as.drop i = slice as i j ++ as.drop j := by
  have h := List.take_append_drop (j - i) (as.drop i)
  rw [List.drop_drop, Nat.add_sub_cancel' hij, List.take_drop, Nat.add_sub_cancel' hij] at h
  exact h.symm

/-- The indices from one bound to another, in order. -/
theorem filter_range_between (n i j : ℕ) :
    (List.range n).filter (fun k => i ≤ k ∧ k ≤ j) = List.range' i (min (j + 1) n - i) := by
  induction n with
  | zero => rw [Nat.min_zero, Nat.zero_sub, List.range_zero, List.filter_nil, List.range'_zero]
  | succ n ih =>
    rw [List.range_succ, List.filter_append, ih, List.filter_singleton]
    by_cases h : i ≤ n ∧ n ≤ j
    · rw [decide_eq_true h, cond_true,
        show min (j + 1) (n + 1) - i = min (j + 1) n - i + 1 by omega, List.range'_1_concat,
        show i + (min (j + 1) n - i) = n by omega]
    · rw [decide_eq_false h, cond_false, List.append_nil,
        show min (j + 1) (n + 1) - i = min (j + 1) n - i by omega]

/-- The elements at consecutive indices are a slice. -/
theorem filterMap_range' (as : List α) (i k : ℕ) :
    (List.range' i k).filterMap (as[·]?) = slice as i (i + k) := by
  induction k generalizing i with
  | zero => rw [List.range'_zero, List.filterMap_nil, Nat.add_zero, slice_self]
  | succ k ih =>
    rw [List.range'_succ, List.filterMap_cons, ih, show i + (k + 1) = i + 1 + k by omega]
    rcases Nat.lt_or_ge i as.length with h | h
    · have hget := List.getElem?_eq_getElem h
      have hone := slice_succ (Nat.le_refl i) hget
      rw [slice_self, List.nil_append] at hone
      have hsplit : slice as i (i + 1 + k) = slice as i (i + 1) ++ slice as (i + 1) (i + 1 + k) :=
        slice_append (Nat.le_succ i) (Nat.le_add_right (i + 1) k)
      rw [hget, hsplit, hone]
      rfl
    · rw [List.getElem?_eq_none h]
      have hnil (j : ℕ) (hj : i ≤ j) (l : ℕ) : slice as j l = [] := by
        rw [slice, List.drop_eq_nil_iff, List.length_take]
        omega
      exact (hnil _ (Nat.le_succ i) _).trans (hnil _ (Nat.le_refl i) _).symm

/-- A function that never fails on a list is run over it. -/
theorem mapM_eq_pure {m : Type _ → Type _} [Monad m] [LawfulMonad m] {f : α → m β} {g : α → β}
    {as : List α} (h : ∀ a ∈ as, f a = pure (g a)) : as.mapM f = pure (as.map g) := by
  induction as with
  | nil => rfl
  | cons a as ih =>
    rw [List.forall_mem_cons] at h
    rw [List.mapM_cons, h.1, ih h.2, pure_bind, pure_bind]
    rfl

/-- One failure fails the run over the list. -/
theorem mapM_eq_none {f : α → Option β} {as : List α} {a : α} (ha : a ∈ as)
    (h : f a = none) : as.mapM f = none := by
  induction as with
  | nil => exact absurd ha List.not_mem_nil
  | cons b as ih =>
    rw [List.mapM_cons]
    rcases List.mem_cons.mp ha with rfl | ha
    · rw [h]
      rfl
    · rw [ih ha]
      cases f b <;> rfl

theorem mem_drop_of_getElem? {as : List α} {i j : ℕ} {a : α} (h : as[j]? = some a) (hij : i ≤ j) :
    a ∈ as.drop i := by
  refine List.mem_of_getElem? (i := j - i) ?_
  rw [List.getElem?_drop, Nat.add_sub_cancel' hij, h]

theorem flatten_toChunks_go (n : ℕ) (as : List α) (acc : Array α) (accs : Array (List α)) :
    (List.toChunks.go n as acc accs).flatten = accs.toList.flatten ++ (acc.toList ++ as) := by
  induction as generalizing acc accs with
  | nil => simp [List.toChunks.go]
  | cons a as ih =>
    rw [List.toChunks.go]
    split <;> simp [ih]

/-- The pieces of a list, put together again. -/
theorem flatten_toChunks (n : ℕ) (as : List α) : (as.toChunks n).flatten = as := by
  unfold List.toChunks
  split
  · rfl
  · simp
  · rw [flatten_toChunks_go]
    simp

theorem length_le_toChunks_go {n : ℕ} (as : List α) {acc : Array α} {accs : Array (List α)}
    (hacc : acc.size ≤ n) (hn : 0 < n) (h : ∀ c ∈ accs, c.length ≤ n) :
    ∀ c ∈ List.toChunks.go n as acc accs, c.length ≤ n := by
  have hpush : ∀ c ∈ accs.push acc.toList, c.length ≤ n := by
    intro c hc
    rcases Array.mem_push.mp hc with hc | rfl
    · exact h c hc
    · simpa using hacc
  induction as generalizing acc accs with
  | nil => simpa [List.toChunks.go] using hpush
  | cons a as ih =>
    rw [List.toChunks.go]
    split_ifs with hfull
    · refine ih (by simp; omega) hpush fun c hc => ?_
      rcases Array.mem_push.mp hc with hc | rfl
      · exact hpush c hc
      · simp
        omega
    · have hlt : acc.size < n := Nat.lt_of_le_of_ne hacc (by simpa using hfull)
      refine ih (by simp; omega) h fun c hc => ?_
      rcases Array.mem_push.mp hc with hc | rfl
      · exact h c hc
      · simp
        omega

/-- No piece is longer than asked for. -/
theorem length_le_of_mem_toChunks {n : ℕ} (hn : 0 < n) (as : List α) :
    ∀ c ∈ as.toChunks n, c.length ≤ n := by
  unfold List.toChunks
  split
  · simp
  · omega
  · exact length_le_toChunks_go _ (by simp; omega) hn (by simp)

/-- Changing the element behind a prefix. -/
theorem modify_append_cons (pre : List α) (a : α) (post : List α) (f : α → α) :
    (pre ++ a :: post).modify pre.length f = pre ++ f a :: post := by
  induction pre with
  | nil => rfl
  | cons b pre ih => simpa using ih

/-- What all elements have, the changed one too, all have after the change. -/
theorem forall_mem_modify {P : α → Prop} {as : List α} {i : ℕ} {f : α → α} (h : ∀ a ∈ as, P a)
    (hf : ∀ a, as[i]? = some a → P (f a)) : ∀ a ∈ as.modify i f, P a := by
  intro b hb
  obtain ⟨j, hj⟩ := List.mem_iff_getElem?.mp hb
  rw [List.getElem?_modify] at hj
  obtain ⟨a, ha, rfl⟩ := Option.map_eq_some_iff.mp hj
  split_ifs with hij
  · exact hf a (hij ▸ ha)
  · exact h a (List.mem_of_getElem? ha)

/-- An element of a list changed in one place. -/
theorem mem_modify {as : List α} {i : ℕ} {f : α → α} {b : α} (h : b ∈ as.modify i f) :
    (∃ a, as[i]? = some a ∧ b = f a) ∨ ∃ k, k ≠ i ∧ as[k]? = some b := by
  obtain ⟨k, hk⟩ := List.mem_iff_getElem?.mp h
  rw [List.getElem?_modify] at hk
  obtain ⟨a, ha, rfl⟩ := Option.map_eq_some_iff.mp hk
  split_ifs with hik
  · exact Or.inl ⟨a, hik ▸ ha, rfl⟩
  · exact Or.inr ⟨k, fun h => hik h.symm, ha⟩

/-- Items that one element gained are gained by the concatenation. -/
theorem flatMap_perm_of_gain {g : α → List β} {a a' : α} {pre post : List α} {bs : List β}
    (h : (g a').Perm (g a ++ bs)) :
    ((pre ++ a' :: post).flatMap g).Perm ((pre ++ a :: post).flatMap g ++ bs) := by
  simp only [List.flatMap_append, List.flatMap_cons, List.append_assoc]
  apply List.Perm.append_left
  have hmove : (g a ++ bs ++ post.flatMap g).Perm (g a ++ (post.flatMap g ++ bs)) := by
    rw [List.append_assoc]
    exact List.Perm.append_left _ List.perm_append_comm
  exact (h.append_right _).trans hmove

/-- The same where an element may have lost items too. -/
theorem flatMap_subperm_of_gain {g : α → List β} {a a' : α} {pre post : List α} {bs : List β}
    (h : (g a').Subperm (g a ++ bs)) :
    ((pre ++ a' :: post).flatMap g).Subperm ((pre ++ a :: post).flatMap g ++ bs) := by
  simp only [List.flatMap_append, List.flatMap_cons, List.append_assoc]
  rw [List.subperm_append_left]
  have hmove : (g a ++ bs ++ post.flatMap g).Perm (g a ++ (post.flatMap g ++ bs)) := by
    rw [List.append_assoc]
    exact List.Perm.append_left _ List.perm_append_comm
  exact ((List.subperm_append_right _).mpr h).trans hmove.subperm

/-- A change of an element changes its reading. -/
theorem map_modify {g : α → β} {f : α → α} {f' : β → β} (h : ∀ a, g (f a) = f' (g a)) (as : List α)
    (i : ℕ) : (as.modify i f).map g = (as.map g).modify i f' := by
  induction as generalizing i with
  | nil => simp
  | cons a as ih => cases i <;> simp [h, ih]

/-- Two changes of one element that look the same. -/
theorem map_modify_congr {g : α → β} {f f' : α → α} {as : List α} {i : ℕ}
    (h : ∀ a, as[i]? = some a → g (f a) = g (f' a)) :
    (as.modify i f).map g = (as.modify i f').map g := by
  refine List.ext_getElem? fun j => ?_
  rw [List.getElem?_map, List.getElem?_map, List.getElem?_modify, List.getElem?_modify]
  split_ifs with hij
  · subst hij
    cases ha : as[i]? with
    | none => rfl
    | some a => exact congrArg some (h a ha)
  · rfl

theorem modify_insertIdx_self (as : List α) (i : ℕ) (a : α) (f : α → α) :
    (as.insertIdx i a).modify i f = as.insertIdx i (f a) := by
  induction i generalizing as with
  | zero => rfl
  | succ i ih =>
    cases as with
    | nil => rfl
    | cons b as => exact congrArg (b :: ·) (ih as)

/-- A map that changes one element only. -/
theorem map_eq_modify {g : α → α} {as : List α} {i : ℕ}
    (h : ∀ j a, as[j]? = some a → j ≠ i → g a = a) : as.map g = as.modify i g := by
  refine List.ext_getElem? fun j => ?_
  rw [List.getElem?_map, List.getElem?_modify]
  cases ha : as[j]? with
  | none => rfl
  | some a =>
    split_ifs with hij
    · rfl
    · exact congrArg some (h j a ha (Ne.symm hij))

/-- A change that no reading sees leaves the readings alone. -/
theorem map_modify_of_eq {g : α → β} {f : α → α} (h : ∀ a, g (f a) = g a) (as : List α) (i : ℕ) :
    (as.modify i f).map g = as.map g := by
  rw [@map_modify _ _ g f id h]
  exact List.modify_id i _

/-- Where distinct readings hit a value, if they do. -/
theorem findIdx?_split [DecidableEq β] {g : α → β} {as : List α} (hd : (as.map g).Nodup) (b : β) :
    (as.findIdx? (g · = b) = none ∧ b ∉ as.map g) ∨
      ∃ pre a post, as = pre ++ a :: post ∧ as.findIdx? (g · = b) = some pre.length ∧ g a = b ∧
        b ∉ pre.map g ∧ b ∉ post.map g := by
  cases hfind : as.findIdx? (g · = b) with
  | none =>
    refine Or.inl ⟨rfl, fun hb => ?_⟩
    obtain ⟨a, ha, hab⟩ := List.mem_map.mp hb
    have hne := List.findIdx?_eq_none_iff.mp hfind a ha
    rw [decide_eq_false_iff_not] at hne
    exact hne hab
  | some i =>
    obtain ⟨hi, hab, -⟩ := List.findIdx?_eq_some_iff_getElem.mp hfind
    rw [decide_eq_true_eq] at hab
    obtain ⟨pre, post, hsplit, hlen, -, -⟩ := exists_split (List.getElem?_eq_getElem hi)
    rw [hsplit, List.map_append, List.map_cons, hab, List.nodup_middle, List.nodup_cons,
      List.mem_append, not_or] at hd
    exact Or.inr ⟨pre, as[i], post, hsplit, by rw [hlen], hab, hd.1.1, hd.1.2⟩

/-- A change that no reading sees leaves their concatenation alone. -/
theorem flatMap_modify_of_eq {g : α → List β} {f : α → α} (h : ∀ a, g (f a) = g a) (as : List α)
    (i : ℕ) : (as.modify i f).flatMap g = as.flatMap g := by
  induction as generalizing i with
  | nil => simp
  | cons a as ih => cases i <;> simp [h, ih]

/-- In a concatenation without repetitions an item comes from one element. -/
theorem eq_of_mem_flatMap {g : α → List β} {as : List α} (hd : (as.flatMap g).Nodup) {a a' : α}
    {b : β} (ha : a ∈ as) (ha' : a' ∈ as) (hb : b ∈ g a) (hb' : b ∈ g a') : a = a' := by
  induction as with
  | nil => simp at ha
  | cons c as ih =>
    rw [List.flatMap_cons, List.nodup_append] at hd
    obtain ⟨-, hdas, hdis⟩ := hd
    have hc : ∀ x ∈ as, b ∈ g x → b ∉ g c := fun x hx hbx hbc =>
      hdis b hbc b (List.mem_flatMap.mpr ⟨x, hx, hbx⟩) rfl
    rcases List.mem_cons.mp ha with rfl | hm <;> rcases List.mem_cons.mp ha' with rfl | hm'
    · rfl
    · exact absurd hb (hc a' hm' hb')
    · exact absurd hb' (hc a hm hb)
    · exact ih hdas hm hm'

/-- An item of a list without repetitions, moved to the end. -/
theorem perm_filter_ne_append [DecidableEq α] {as : List α} (hd : as.Nodup) {a : α} (ha : a ∈ as) :
    as.Perm (as.filter (· ≠ a) ++ [a]) := by
  have h := List.perm_cons_erase ha
  have hf : as.filter (· != a) = as.filter (· ≠ a) :=
    List.filter_congr fun b _ => by by_cases hb : b = a <;> simp [hb]
  rw [hd.erase_eq_filter, hf] at h
  exact h.trans (List.perm_append_singleton a _).symm

/-- Exchanging two elements permutes the list. -/
theorem set_set_perm {as : List α} {i j : ℕ} {a b : α} (hi : as[i]? = some a)
    (hj : as[j]? = some b) : ((as.set i b).set j a).Perm as := by
  obtain ⟨hil, rfl⟩ := List.getElem?_eq_some_iff.mp hi
  obtain ⟨hjl, rfl⟩ := List.getElem?_eq_some_iff.mp hj
  exact List.set_set_perm hil hjl

/-- An insertion with its shift designates the same element. -/
theorem getElem?_insertIdx_shift (as : List α) (k : ℕ) (a : α) (i : ℕ) : (as.insertIdx k a)[if k ≤ i then i + 1 else i]? = as[i]? := by
  split_ifs with hi
  · rw [List.getElem?_insertIdx_of_gt (Nat.lt_succ_of_le hi)]
    rfl
  · exact List.getElem?_insertIdx_of_lt (Nat.not_le.mp hi)

/-- Taking an element out and putting it back elsewhere permutes the list. -/
theorem insertIdx_eraseIdx_perm {as : List α} {i j : ℕ} {a : α} (hi : as[i]? = some a)
    (hj : j ≤ as.length - 1) : ((as.eraseIdx i).insertIdx j a).Perm as := by
  obtain ⟨hil, rfl⟩ := List.getElem?_eq_some_iff.mp hi
  have hlen : (as.eraseIdx i).length = as.length - 1 := List.length_eraseIdx_of_lt hil
  exact (List.perm_insertIdx _ _ (by omega)).trans (List.getElem_cons_eraseIdx_perm hil)

/-- Where a kept element goes when others are dropped: clamping its old index finds it
exactly if nothing before it is dropped or nothing behind it is kept. -/
theorem min_length_filter_iff {keep : α → Bool} {pre post : List α} {a : α} (ha : keep a = true) :
    min pre.length (((pre ++ a :: post).filter keep).length - 1) = (pre.filter keep).length ↔
      (∀ b ∈ pre, keep b = true) ∨ ∀ b ∈ post, keep b = false := by
  have hle := List.length_filter_le keep pre
  have hpre : (pre.filter keep).length = pre.length ↔ ∀ b ∈ pre, keep b = true :=
    List.length_filter_eq_length_iff
  have hpost : (post.filter keep).length = 0 ↔ ∀ b ∈ post, keep b = false := by
    simp [List.length_eq_zero_iff, List.filter_eq_nil_iff]
  rw [← hpre, ← hpost, List.filter_append, List.filter_cons_of_pos ha, List.length_append,
    List.length_cons]
  omega

/-! ### Two lists, element by element -/

section Forall₂

variable {R : α → β → Prop} {as : List α} {bs : List β}

theorem forall₂_iff_getElem? : List.Forall₂ R as bs ↔
    as.length = bs.length ∧
      ∀ (i : ℕ) a b, as[i]? = some a → bs[i]? = some b → R a b := by
  rw [List.forall₂_iff_get]
  refine and_congr_right fun _ => ⟨fun h i a b ha hb => ?_, fun h i hi hj => ?_⟩
  · obtain ⟨hi, rfl⟩ := List.getElem?_eq_some_iff.mp ha
    obtain ⟨hj, rfl⟩ := List.getElem?_eq_some_iff.mp hb
    exact h i hi hj
  · exact h i _ _ (List.getElem?_eq_getElem hi) (List.getElem?_eq_getElem hj)

/-- The element of the other list. -/
theorem exists_of_forall₂ (h : List.Forall₂ R as bs) {i : ℕ} {b : β} (hb : bs[i]? = some b) :
    ∃ a, as[i]? = some a ∧ R a b := by
  obtain ⟨hlen, hR⟩ := forall₂_iff_getElem?.mp h
  obtain ⟨hi, -⟩ := List.getElem?_eq_some_iff.mp hb
  rw [← hlen] at hi
  exact ⟨as[i], List.getElem?_eq_getElem hi, hR i _ _ (List.getElem?_eq_getElem hi) hb⟩

theorem forall₂_modify (h : List.Forall₂ R as bs) {f : α → α} {g : β → β} (i : ℕ)
    (hfg : ∀ a b, as[i]? = some a → bs[i]? = some b → R a b → R (f a) (g b)) :
    List.Forall₂ R (as.modify i f) (bs.modify i g) := by
  rw [forall₂_iff_getElem?] at h ⊢
  refine ⟨by rw [List.length_modify, List.length_modify, h.1], fun j a b ha hb => ?_⟩
  rw [List.getElem?_modify] at ha hb
  obtain ⟨a', ha', rfl⟩ := Option.map_eq_some_iff.mp ha
  obtain ⟨b', hb', rfl⟩ := Option.map_eq_some_iff.mp hb
  split_ifs with hij
  · subst hij
    exact hfg a' b' ha' hb' (h.2 i a' b' ha' hb')
  · exact h.2 j a' b' ha' hb'

theorem forall₂_insertIdx (h : List.Forall₂ R as bs) {a : α} {b : β} (hab : R a b) (i : ℕ) :
    List.Forall₂ R (as.insertIdx i a) (bs.insertIdx i b) := by
  induction h generalizing i with
  | nil =>
    cases i with
    | zero => exact .cons hab .nil
    | succ i => exact .nil
  | cons hR _ ih =>
    cases i with
    | zero => exact .cons hab (.cons hR ‹_›)
    | succ i => exact .cons hR (ih i)

end Forall₂

end Forgetty.Lib
