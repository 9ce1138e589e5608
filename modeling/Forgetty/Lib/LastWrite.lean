import Mathlib.Data.List.Nodup
import Mathlib.Tactic.Common

/-! Registers that are written by some of the events of a sequence. What a register
holds in the end is what was written last, and the value it started with if nothing
was. A table of registers under keys has a copy elsewhere that is told of the writes
later: the copy tracks the table when the writes on the way lead from each of its
entries to the entry of the table. -/

namespace Forgetty.Lib

section Register

variable {ε β : Type*} {write : ε → Option β} {e : ε} {es : List ε} {b : β}

/-- The value of a register after a sequence of events. -/
def lastWrite (write : ε → Option β) (es : List ε) (b : β) : β :=
  es.foldl (fun b e => (write e).getD b) b

@[simp] theorem lastWrite_nil (write : ε → Option β) (b : β) : lastWrite write [] b = b := rfl

@[simp] theorem lastWrite_cons (write : ε → Option β) (e : ε) (es : List ε) (b : β) :
    lastWrite write (e :: es) b = lastWrite write es ((write e).getD b) := rfl

theorem lastWrite_append (write : ε → Option β) (es fs : List ε) (b : β) :
    lastWrite write (es ++ fs) b = lastWrite write fs (lastWrite write es b) := List.foldl_append

/-- Without a write the register keeps its value. -/
theorem lastWrite_of_forall_none (h : ∀ e ∈ es, write e = none) (b : β) : lastWrite write es b = b := by
  induction es generalizing b with
  | nil => rfl
  | cons e es ih =>
    rw [lastWrite_cons, h e List.mem_cons_self, Option.getD_none]
    exact ih (fun e' he' => h e' (List.mem_cons_of_mem e he')) b

/-- After a write the first value no longer counts. -/
theorem lastWrite_of_exists (h : ∃ e ∈ es, write e ≠ none) (b c : β) :
    lastWrite write es b = lastWrite write es c := by
  induction es generalizing b c with
  | nil =>
    obtain ⟨e, he, -⟩ := h
    cases he
  | cons e es ih =>
    rw [lastWrite_cons, lastWrite_cons]
    cases hw : write e with
    | some d => rfl
    | none =>
      obtain ⟨e', he', hne⟩ := h
      rcases List.mem_cons.mp he' with rfl | he'
      · exact absurd hw hne
      · exact ih ⟨e', he', hne⟩ b c

/-- A register that already holds what it will hold in the end. -/
theorem lastWrite_idem (write : ε → Option β) (es : List ε) (b : β) :
    lastWrite write es (lastWrite write es b) = lastWrite write es b := by
  by_cases h : ∃ e ∈ es, write e ≠ none
  · exact lastWrite_of_exists h _ _
  · have hnone : ∀ e ∈ es, write e = none := by
      intro e he
      by_contra hne
      exact h ⟨e, he, hne⟩
    rw [lastWrite_of_forall_none hnone b]
    exact lastWrite_of_forall_none hnone b

end Register

section Table

variable {κ β : Type*} {k : κ} {b b' c : β}

/-- The entries after one was written are the new one and those under other keys. -/
theorem mem_modify_entry {xs : List (κ × β)} (hd : (xs.map (·.1)).Nodup) {i : ℕ}
    (hi : xs[i]? = some (k, b)) {x : κ × β} (hx : x ∈ xs.modify i fun x => (x.1, c)) :
    x = (k, c) ∨ x ∈ xs ∧ x.1 ≠ k := by
  obtain ⟨j, hj⟩ := List.mem_iff_getElem?.mp hx
  rw [List.getElem?_modify] at hj
  obtain ⟨y, hy, rfl⟩ := Option.map_eq_some_iff.mp hj
  split_ifs with hij
  · subst hij
    rw [Option.some.inj (hy.symm.trans hi)]
    exact Or.inl rfl
  · refine Or.inr ⟨List.mem_of_getElem? hy, fun hk => hij ?_⟩
    have hlt : j < (xs.map (·.1)).length := by
      rw [List.length_map]
      exact (List.getElem?_eq_some_iff.mp hy).1
    refine ((List.getElem?_inj hlt hd).mp ?_).symm
    rw [List.getElem?_map, List.getElem?_map, hy, hi]
    exact congrArg some hk

variable [DecidableEq κ] {shown stored shown' stored' writes : List (κ × β)}

/-- The write of an entry, as the register under a key sees it. -/
def writeTo (k : κ) (x : κ × β) : Option β := if x.1 = k then some x.2 else none

@[simp] theorem writeTo_self (k : κ) (b : β) : writeTo k (k, b) = some b := if_pos rfl

theorem writeTo_of_ne {x : κ × β} (h : x.1 ≠ k) : writeTo k x = none := if_neg h

/-- The writes on the way lead from every entry shown to the entry stored under its key. -/
def Tracks (shown stored writes : List (κ × β)) : Prop :=
  ∀ x ∈ shown, ∀ y ∈ stored, y.1 = x.1 → lastWrite (writeTo x.1) writes x.2 = y.2

theorem Tracks.mono (h : Tracks shown stored writes) (hs : shown' ⊆ shown) (ht : stored' ⊆ stored) :
    Tracks shown' stored' writes :=
  fun x hx y hy => h x (hs hx) y (ht hy)

/-- With no write on the way the entries are the same. -/
theorem Tracks.eq (h : Tracks shown stored []) {x y : κ × β} (hx : x ∈ shown) (hy : y ∈ stored)
    (hk : y.1 = x.1) : x.2 = y.2 := h x hx y hy hk

theorem Tracks.of_subset (hd : (stored.map (·.1)).Nodup) (h : shown ⊆ stored) :
    Tracks shown stored [] := by
  intro x hx y hy hk
  rw [List.inj_on_of_nodup_map hd hy (h hx) hk]
  rfl

/-- A write on both sides, which is told. -/
theorem Tracks.write (h : Tracks shown stored writes) (hs : (shown.map (·.1)).Nodup)
    (ht : (stored.map (·.1)).Nodup) {i : ℕ} (hi : shown[i]? = some (k, b))
    (hj : stored[i]? = some (k, b')) (c : β) :
    Tracks (shown.modify i fun x => (x.1, c)) (stored.modify i fun y => (y.1, c))
      (writes ++ [(k, c)]) := by
  intro x hx y hy hk
  rw [lastWrite_append]
  rcases mem_modify_entry hs hi hx with rfl | ⟨hx, hne⟩ <;>
    rcases mem_modify_entry ht hj hy with rfl | ⟨hy, hne'⟩
  · simp
  · exact absurd hk hne'
  · exact absurd hk.symm hne
  · rw [h x hx y hy hk, lastWrite_cons, writeTo_of_ne hne.symm]
    rfl

/-- A write of what is stored already, which is not told. -/
theorem Tracks.rewrite (h : Tracks shown stored writes) (hs : (shown.map (·.1)).Nodup)
    (ht : (stored.map (·.1)).Nodup) {i : ℕ} (hi : shown[i]? = some (k, b))
    (hj : stored[i]? = some (k, c)) :
    Tracks (shown.modify i fun x => (x.1, c)) stored writes := by
  intro x hx y hy hk
  rcases mem_modify_entry hs hi hx with rfl | ⟨hx, -⟩
  · have hlast := h _ (List.mem_of_getElem? hi) _ (List.mem_of_getElem? hj) rfl
    rw [List.inj_on_of_nodup_map ht hy (List.mem_of_getElem? hj) hk]
    show lastWrite (writeTo k) writes c = c
    dsimp only at hlast
    rw [← hlast]
    exact lastWrite_idem _ _ _
  · exact h x hx y hy hk

/-- The first write on the way arrives. An entry may come to hold anything while a
later write of it is on the way. -/
theorem Tracks.arrive (h : Tracks shown stored ((k, c) :: writes))
    (hs : ∀ x ∈ shown', ∃ y ∈ shown, y.1 = x.1 ∧
      (x.2 = (if y.1 = k then c else y.2) ∨ ∃ d, (y.1, d) ∈ writes)) :
    Tracks shown' stored writes := by
  intro x hx z hz hk
  obtain ⟨y, hy, hyx, hvalue⟩ := hs x hx
  have hlast := h y hy z hz (hk.trans hyx.symm)
  rw [hyx] at hlast hvalue
  rw [← hlast, lastWrite_cons]
  rcases hvalue with hvalue | ⟨d, hd⟩
  · rw [hvalue, writeTo]
    dsimp only
    by_cases hxk : x.1 = k
    · rw [if_pos hxk, if_pos hxk.symm]
      rfl
    · rw [if_neg hxk, if_neg (Ne.symm hxk)]
      rfl
  · refine lastWrite_of_exists ⟨_, hd, ?_⟩ _ _
    rw [writeTo_self]
    exact Option.some_ne_none d

/-- A new entry on both sides. -/
theorem Tracks.add (h : Tracks shown stored writes) (hs : k ∉ shown.map (·.1))
    (ht : k ∉ stored.map (·.1)) (hw : k ∉ writes.map (·.1)) (hs' : shown' ⊆ (k, b) :: shown)
    (ht' : stored' ⊆ (k, b) :: stored) : Tracks shown' stored' writes := by
  intro x hx y hy hk
  rcases List.mem_cons.mp (hs' hx) with rfl | hx <;> rcases List.mem_cons.mp (ht' hy) with rfl | hy
  · exact lastWrite_of_forall_none
      (fun z hz => writeTo_of_ne fun hzk => hw (List.mem_map.mpr ⟨z, hz, hzk⟩)) b
  · exact absurd (List.mem_map.mpr ⟨y, hy, hk⟩) ht
  · exact absurd (List.mem_map.mpr ⟨x, hx, hk.symm⟩) hs
  · exact h x hx y hy hk

end Table

end Forgetty.Lib
