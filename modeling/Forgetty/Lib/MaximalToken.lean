import Mathlib.Data.List.DropRight

/-! Tokens in a text. Where one begins is up to what follows, and it goes on to the first symbol
that is not inside, less the trailing symbols. A token may begin inside another one, and then the
two have the same end. The ones that count are in no other, and a scan from the left that goes on
behind each token finds just these. -/

namespace Forgetty.Lib

/-- A kind of tokens, none of which is empty. -/
structure TokenKind (α : Type*) where
  begins : List α → Bool
  inside : α → Bool
  trailing : α → Bool
  solid : ∀ l, begins l = true → (l.takeWhile inside).rdropWhile trailing ≠ []

namespace TokenKind

variable {α : Type*} (k : TokenKind α)

/-- The token that a text begins with. -/
def body (l : List α) : List α := (l.takeWhile k.inside).rdropWhile k.trailing

/-- A token from the first place up to the second one. -/
def IsToken (l : List α) (span : ℕ × ℕ) : Prop :=
  k.begins (l.drop span.1) = true ∧ span.2 = span.1 + (k.body (l.drop span.1)).length

def Maximal (l : List α) (span : ℕ × ℕ) : Prop :=
  k.IsToken l span ∧
    ∀ other, k.IsToken l other → other.1 ≤ span.1 → span.2 ≤ other.2 → other = span

/-- Every token that begins before the place ends there at the latest. -/
def Passed (l : List α) (place : ℕ) : Prop :=
  ∀ span, k.IsToken l span → span.1 < place → span.2 ≤ place

/-- No token in no other one that begins before the place has the column in it. -/
def Missed (l : List α) (col place : ℕ) : Prop :=
  ∀ span, k.Maximal l span → span.1 < place → ¬(span.1 ≤ col ∧ col < span.2)

variable {k} {l : List α} {col : ℕ} {span span' : ℕ × ℕ} {place place' : ℕ}

theorem body_initial (l : List α) : k.body l <+: l :=
  (List.rdropWhile_prefix _ _).trans (List.takeWhile_prefix _)

theorem IsToken.lt (h : k.IsToken l span) : span.1 < span.2 := by
  have hpos : 0 < (k.body (l.drop span.1)).length := List.length_pos_iff.mpr (k.solid _ h.1)
  have hend := h.2
  omega

theorem IsToken.le_length (h : k.IsToken l span) : span.2 ≤ l.length := by
  have hinitial := (body_initial (k := k) (l.drop span.1)).length_le
  have hlt := h.lt
  have hend := h.2
  rw [List.length_drop] at hinitial
  omega

theorem IsToken.eq_of_fst (h : k.IsToken l span) (h' : k.IsToken l span') (heq : span.1 = span'.1) :
    span = span' := by
  apply Prod.ext heq
  rw [h.2, h'.2, heq]

theorem rdropWhile_append {p : α → Bool} (a w : List α) (h : a.length < ((a ++ w).rdropWhile p).length) :
    (a ++ w).rdropWhile p = a ++ w.rdropWhile p := by
  rw [List.rdropWhile, List.reverse_append, List.dropWhile_append] at h ⊢
  split_ifs at h ⊢ with hw
  · have hle := (List.dropWhile_suffix (l := a.reverse) p).length_le
    rw [List.length_reverse] at h hle
    omega
  · rw [List.reverse_append, List.reverse_reverse]
    rfl

/-- The rest of a token is what is taken from the rest of the text. -/
theorem body_append (a b : List α) (h : a.length < (k.body (a ++ b)).length) :
    k.body (a ++ b) = a ++ k.body b := by
  have htake : (a ++ b).takeWhile k.inside = a ++ b.takeWhile k.inside := by
    apply List.takeWhile_append_of_pos
    intro c hc
    have hle : a.length ≤ ((a ++ b).takeWhile k.inside).length :=
      h.le.trans (List.rdropWhile_prefix _ _).length_le
    have hinitial : a <+: (a ++ b).takeWhile k.inside :=
      List.prefix_of_prefix_length_le (List.prefix_append a b) (List.takeWhile_prefix _) hle
    exact List.mem_takeWhile_imp (hinitial.subset hc)
  rw [body, htake] at h ⊢
  exact rdropWhile_append a _ h

/-- A token that begins inside another one ends with it. -/
theorem IsToken.nested (h : k.IsToken l span) (h' : k.IsToken l span') (hle : span.1 ≤ span'.1)
    (hlt : span'.1 < span.2) : span'.2 = span.2 := by
  have hsplit : l.drop span.1 = (l.drop span.1).take (span'.1 - span.1) ++ l.drop span'.1 := by
    have hdrop : (l.drop span.1).drop (span'.1 - span.1) = l.drop span'.1 := by
      rw [List.drop_drop, Nat.add_sub_cancel' hle]
    rw [← hdrop, List.take_append_drop]
  have hlen := h.le_length
  have hskip : ((l.drop span.1).take (span'.1 - span.1)).length = span'.1 - span.1 := by
    rw [List.length_take, List.length_drop]
    omega
  have hbody : k.body (l.drop span.1) = (l.drop span.1).take (span'.1 - span.1) ++
      k.body (l.drop span'.1) := by
    have happend := body_append (k := k) ((l.drop span.1).take (span'.1 - span.1)) (l.drop span'.1)
    rw [← hsplit, hskip] at happend
    apply happend
    have hend := h.2
    omega
  have hend := h.2
  rw [hbody, List.length_append, hskip] at hend
  rw [h'.2, hend]
  omega

/-- Two tokens that are in no other one are the same or have nothing in common. -/
theorem Maximal.eq_or_disjoint (h : k.Maximal l span) (h' : k.Maximal l span') :
    span = span' ∨ span.2 ≤ span'.1 ∨ span'.2 ≤ span.1 := by
  rcases Nat.le_total span.1 span'.1 with hle | hle
  · rcases Nat.lt_or_ge span'.1 span.2 with hlt | hge
    · have hend := h.1.nested h'.1 hle hlt
      exact .inl (h'.2 span h.1 hle hend.le)
    · exact .inr (.inl hge)
  · rcases Nat.lt_or_ge span.1 span'.2 with hlt | hge
    · have hend := h'.1.nested h.1 hle hlt
      exact .inl (h.2 span' h'.1 hle hend.le).symm
    · exact .inr (.inr hge)

/-! ### The scan from the left -/

theorem passed_zero : k.Passed l 0 := fun _ _ h => absurd h (Nat.not_lt_zero _)

/-- Where no token begins the scan goes on. -/
theorem Passed.skip (h : k.Passed l place) (hle : place ≤ place')
    (hnone : ∀ i, place ≤ i → i < place' → ¬k.begins (l.drop i) = true) : k.Passed l place' := by
  intro span hspan hlt
  rcases Nat.lt_or_ge span.1 place with hbefore | hge
  · exact (h span hspan hbefore).trans hle
  · exact absurd hspan.1 (hnone span.1 hge hlt)

/-- The next token is in no other one. -/
theorem Passed.maximal (h : k.Passed l span.1) (hspan : k.IsToken l span) : k.Maximal l span := by
  refine ⟨hspan, fun other hother hle hend => ?_⟩
  rcases Nat.eq_or_lt_of_le hle with heq | hlt
  · exact hother.eq_of_fst hspan heq
  · have hpassed := h other hother hlt
    have hpos := hspan.lt
    omega

theorem Passed.token (h : k.Passed l span.1) (hspan : k.IsToken l span) : k.Passed l span.2 := by
  intro other hother hlt
  rcases Nat.lt_or_ge other.1 span.1 with hbefore | hge
  · exact (h other hother hbefore).trans hspan.lt.le
  · exact (hspan.nested hother hge hlt).le

theorem missed_zero : k.Missed l col 0 := fun _ _ h => absurd h (Nat.not_lt_zero _)

theorem Missed.skip (h : k.Missed l col place)
    (hnone : ∀ i, place ≤ i → i < place' → ¬k.begins (l.drop i) = true) :
    k.Missed l col place' := by
  intro span hspan hlt
  rcases Nat.lt_or_ge span.1 place with hbefore | hge
  · exact h span hspan hbefore
  · exact absurd hspan.1.1 (hnone span.1 hge hlt)

theorem Missed.token (h : k.Missed l col span.1) (hspan : k.Maximal l span)
    (hcol : ¬(span.1 ≤ col ∧ col < span.2)) : k.Missed l col span.2 := by
  intro other hother hlt
  rcases Nat.lt_or_ge other.1 span.1 with hbefore | hge
  · exact h other hother hbefore
  · have hpos := hother.1.lt
    rcases hspan.eq_or_disjoint hother with rfl | hafter | hbefore
    · exact hcol
    · omega
    · omega

end TokenKind

end Forgetty.Lib
