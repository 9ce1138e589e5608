import Mathlib.Data.List.DropRight

/-! Texts up to their blanks. Of a list some elements are kept, and what stands between two of
them matters only in so far as there is a separator. A pass over a text that changes nothing
else gives the same kept elements with the same marks. -/

namespace Forgetty.Lib

section Gaps

variable {α β : Type*} (kept sep : α → Bool)

/-- The kept elements, each with what stands between it and the one before. -/
def gaps : List α → List α → List (α × List α)
  | _, [] => []
  | acc, a :: l => if kept a then (a, acc) :: gaps [] l else gaps (acc ++ [a]) l

/-- The kept elements, each with whether a separator stands before it. -/
def marks : Bool → List α → List (α × Bool)
  | _, [] => []
  | b, a :: l => if kept a then (a, b) :: marks false l else marks (b || sep a) l

/-- Whether a separator stands behind the last kept element. -/
def pending : Bool → List α → Bool
  | b, [] => b
  | b, a :: l => if kept a then pending false l else pending (b || sep a) l

variable {kept sep}

theorem map_gaps (acc l : List α) :
    (gaps kept acc l).map (fun g => (g.1, g.2.any sep)) = marks kept sep (acc.any sep) l := by
  induction l generalizing acc with
  | nil => rfl
  | cons a l ih =>
    rw [gaps, marks]
    split_ifs
    · rw [List.map_cons, ih]
      rfl
    · rw [ih, List.any_append]
      simp

theorem marks_cons_of_dropped {a : α} (h : kept a = false) (b : Bool) (l : List α) :
    marks kept sep b (a :: l) = marks kept sep (b || sep a) l := by
  rw [marks, if_neg (by simp [h])]

theorem marks_cons_congr {l m : List α} (h : ∀ b, marks kept sep b l = marks kept sep b m)
    (b : Bool) (a : α) : marks kept sep b (a :: l) = marks kept sep b (a :: m) := by
  rw [marks, marks, h, h]

theorem marks_append (b : Bool) (l m : List α) :
    marks kept sep b (l ++ m) = marks kept sep b l ++ marks kept sep (pending kept sep b l) m := by
  induction l generalizing b with
  | nil => rfl
  | cons a l ih =>
    rw [List.cons_append, marks, marks, pending]
    split_ifs <;> simp [ih]

theorem pending_append (b : Bool) (l m : List α) :
    pending kept sep b (l ++ m) = pending kept sep (pending kept sep b l) m := by
  induction l generalizing b with
  | nil => rfl
  | cons a l ih =>
    rw [List.cons_append, pending, pending]
    split_ifs <;> exact ih _

/-- Without kept elements there are no marks, and only separators count. -/
theorem marks_of_dropped {l : List α} (h : ∀ a ∈ l, kept a = false) (b : Bool) :
    marks kept sep b l = [] := by
  induction l generalizing b with
  | nil => rfl
  | cons a l ih =>
    rw [marks_cons_of_dropped (h a List.mem_cons_self)]
    exact ih (fun c hc => h c (List.mem_cons_of_mem a hc)) _

theorem pending_of_dropped {l : List α} (h : ∀ a ∈ l, kept a = false) (b : Bool) :
    pending kept sep b l = (b || l.any sep) := by
  induction l generalizing b with
  | nil => simp [pending]
  | cons a l ih =>
    rw [pending, h a List.mem_cons_self, List.any_cons, ← Bool.or_assoc]
    exact ih (fun c hc => h c (List.mem_cons_of_mem a hc)) _

/-- The same list with other names for its elements. -/
theorem marks_map {f : β → α} (b : Bool) (l : List β) :
    marks kept sep b (l.map f) =
      (marks (fun x => kept (f x)) (fun x => sep (f x)) b l).map (Prod.map f id) := by
  induction l generalizing b with
  | nil => rfl
  | cons x l ih =>
    rw [List.map_cons, marks, marks]
    split_ifs <;> simp [ih]

theorem pending_map {f : β → α} (b : Bool) (l : List β) :
    pending kept sep b (l.map f) = pending (fun x => kept (f x)) (fun x => sep (f x)) b l := by
  induction l generalizing b with
  | nil => rfl
  | cons x l ih =>
    rw [List.map_cons, pending, pending]
    split_ifs <;> exact ih _

/-- Other elements in place of those that are not kept. -/
theorem marks_map_of_kept {f : α → α} (hkept : ∀ a, kept (f a) = kept a)
    (hsep : ∀ a, sep (f a) = sep a) (hf : ∀ a, kept a = true → f a = a) (b : Bool) (l : List α) :
    marks kept sep b (l.map f) = marks kept sep b l := by
  induction l generalizing b with
  | nil => rfl
  | cons a l ih =>
    rw [List.map_cons, marks, marks, hkept, hsep, ih, ih]
    split_ifs with h
    · rw [hf a h]
    · rfl

/-- Elements that are neither kept nor separators can be left out. -/
theorem marks_filter {p : α → Bool} (h : ∀ a, p a = false → kept a = false ∧ sep a = false)
    (b : Bool) (l : List α) : marks kept sep b (l.filter p) = marks kept sep b l := by
  induction l generalizing b with
  | nil => rfl
  | cons a l ih =>
    cases hp : p a with
    | true =>
      rw [List.filter_cons_of_pos hp, marks, marks, ih, ih]
    | false =>
      obtain ⟨hk, hs⟩ := h a hp
      rw [List.filter_cons_of_neg (by simp [hp]), ih, marks, hk, hs, Bool.or_false]
      rfl

end Gaps

/-! ### Separators at the end -/

section Trim

variable {α : Type*} {kept sep : α → Bool}

/-- Separators at the end of a list add no mark. -/
theorem marks_rdropWhile (h : ∀ a, sep a = true → kept a = false) (b : Bool) (l : List α) :
    marks kept sep b (l.rdropWhile sep) = marks kept sep b l := by
  conv_rhs => rw [← List.rdropWhile_append_rtakeWhile (p := sep) (l := l), marks_append]
  rw [marks_of_dropped fun a ha => h a (List.mem_rtakeWhile_imp ha), List.append_nil]

/-- One separator stands for all those at the end. -/
theorem pending_rdropWhile_append (h : ∀ a, sep a = true → kept a = false) {s : α}
    (hs : sep s = true) (b : Bool) (l : List α) :
    pending kept sep b (l.rdropWhile sep ++ if (l.rdropWhile sep).length < l.length then [s] else []) =
      pending kept sep b l := by
  conv_rhs => rw [← List.rdropWhile_append_rtakeWhile (p := sep) (l := l), pending_append]
  have hlen := congrArg List.length (List.rdropWhile_append_rtakeWhile (p := sep) (l := l))
  rw [List.length_append] at hlen
  rw [pending_append, pending_of_dropped fun a ha => h a (List.mem_rtakeWhile_imp ha)]
  cases htail : l.rtakeWhile sep with
  | nil =>
    rw [htail, List.length_nil, Nat.add_zero] at hlen
    rw [hlen, if_neg (Nat.lt_irrefl _)]
    simp [pending]
  | cons a tail =>
    have ha : sep a = true := List.mem_rtakeWhile_imp (htail ▸ List.mem_cons_self)
    rw [htail, List.length_cons] at hlen
    rw [if_pos (by omega)]
    simp [pending, h s hs, hs, ha]

end Trim

end Forgetty.Lib
