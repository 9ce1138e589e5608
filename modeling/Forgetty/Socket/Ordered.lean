import Mathlib.Data.List.Sort
import Forgetty.Socket.JsonText

/-! Values as they come over the socket. The map of the library has the keys of an object in
order, in whichever order they were put in, and what the other side reads of a value is what was
put in. -/

namespace Forgetty

namespace Json

mutual

/-- The same value with the keys of every object in order. -/
def ordered : Json → Json
  | arr elems => arr (orderedElems elems)
  | obj fields => obj ((orderedFields fields).insertionSort fun f g => f.1 ≤ g.1)
  | null => null
  | bool b => bool b
  | posInt n => posInt n
  | negInt n => negInt n
  | float x => float x
  | str s => str s

def orderedElems : List Json → List Json
  | [] => []
  | v :: elems => v.ordered :: orderedElems elems

def orderedFields : List (String × Json) → List (String × Json)
  | [] => []
  | (key, v) :: fields => (key, v.ordered) :: orderedFields fields

end

mutual

/-- Numbers have 64 bits, and no object has a key twice. -/
def Printable : Json → Prop
  | posInt n => n < 2 ^ 64
  | arr elems => PrintableElems elems
  | obj fields => (fields.map (·.1)).Nodup ∧ PrintableFields fields
  | _ => True

def PrintableElems : List Json → Prop
  | [] => True
  | v :: elems => v.Printable ∧ PrintableElems elems

def PrintableFields : List (String × Json) → Prop
  | [] => True
  | (_, v) :: fields => v.Printable ∧ PrintableFields fields

end

theorem orderedFields_eq (fields : List (String × Json)) :
    orderedFields fields = fields.map fun f => (f.1, f.2.ordered) := by
  induction fields with
  | nil => rfl
  | cons f fields ih => rw [orderedFields, ih, List.map_cons]

theorem find?_eq_some_iff {α : Type*} {fields : List (String × α)}
    (h : (fields.map (·.1)).Nodup) {key : String} {f : String × α} :
    fields.find? (·.1 = key) = some f ↔ f ∈ fields ∧ f.1 = key := by
  constructor
  · intro hf
    exact ⟨List.mem_of_find?_eq_some hf, by simpa using List.find?_some hf⟩
  · rintro ⟨hf, rfl⟩
    induction fields with
    | nil => cases hf
    | cons g fields ih =>
      rw [List.map_cons, List.nodup_cons] at h
      rcases List.mem_cons.mp hf with rfl | hf
      · simp
      · have hne : g.1 ≠ f.1 := fun heq => h.1 (heq ▸ List.mem_map_of_mem hf)
        rw [List.find?_cons_of_neg (by simpa using hne), ih h.2 hf]

theorem find?_perm {α : Type*} {fields fields' : List (String × α)} (hp : fields.Perm fields')
    (h : (fields.map (·.1)).Nodup) (key : String) :
    fields.find? (·.1 = key) = fields'.find? (·.1 = key) := by
  have h' : (fields'.map (·.1)).Nodup := (hp.map _).nodup_iff.mp h
  ext f
  rw [find?_eq_some_iff h, find?_eq_some_iff h', hp.mem_iff]

theorem get_map (f : Json → Json) (fields : List (String × Json)) (key : String) :
    (obj (fields.map fun g => (g.1, f g.2))).get key = ((obj fields).get key).map f := by
  simp only [get, List.find?_map, Option.map_map]
  rfl

theorem map_fst_orderedFields (fields : List (String × Json)) :
    (orderedFields fields).map (·.1) = fields.map (·.1) := by
  rw [orderedFields_eq, List.map_map]
  rfl

theorem get_ordered {v : Json} (h : v.Printable) (key : String) :
    v.ordered.get key = (v.get key).map ordered := by
  cases v with
  | obj fields =>
    have hkeys : ((orderedFields fields).map (·.1)).Nodup := by
      rw [map_fst_orderedFields]
      exact h.1
    have hsort := find?_perm (List.perm_insertionSort (fun f g => f.1 ≤ g.1) _).symm hkeys key
    rw [ordered, get, ← hsort, ← get_map, ← orderedFields_eq]
    rfl
  | _ => rfl

/-! ### What the library prints -/

theorem printable_of_mem {fields : List (String × Json)} (h : PrintableFields fields)
    {f : String × Json} (hf : f ∈ fields) : f.2.Printable := by
  induction fields with
  | nil => cases hf
  | cons g fields ih =>
    rcases List.mem_cons.mp hf with rfl | hf
    · exact h.1
    · exact ih h.2 hf

theorem printable_get {v w : Json} (h : v.Printable) {key : String} (hw : v.get key = some w) :
    w.Printable := by
  cases v with
  | obj fields =>
    obtain ⟨f, hf, rfl⟩ := Option.map_eq_some_iff.mp hw
    exact printable_of_mem h.2 (List.mem_of_find?_eq_some hf)
  | _ => cases hw

theorem regularFields_iff {fields : List (String × Json)} :
    RegularFields fields ↔ ∀ f ∈ fields, f.2.Regular := by
  induction fields with
  | nil => simp [RegularFields]
  | cons f fields ih => rw [RegularFields, ih, List.forall_mem_cons]

theorem pairwise_insertionSort_keys {fields : List (String × Json)}
    (h : (fields.map (·.1)).Nodup) :
    ((fields.insertionSort fun f g => f.1 ≤ g.1).map (·.1)).Pairwise (· < ·) := by
  set sorted := fields.insertionSort fun f g => f.1 ≤ g.1 with hsorted
  have hperm : sorted.Perm fields := List.perm_insertionSort ..
  have hle : (sorted.map (·.1)).Pairwise (· ≤ ·) := by
    rw [List.pairwise_map]
    have : Std.Total fun f g : String × Json => f.1 ≤ g.1 := ⟨fun f g => f.1.le_total g.1⟩
    have : IsTrans (String × Json) fun f g => f.1 ≤ g.1 := ⟨fun _ _ _ => String.le_trans⟩
    exact List.pairwise_insertionSort _ _
  have hne : (sorted.map (·.1)).Pairwise (· ≠ ·) := (hperm.map _).nodup_iff.mpr h
  exact (hle.and hne).imp fun h => Std.lt_of_le_of_ne h.1 h.2

mutual

theorem regular_ordered (v : Json) (h : v.Printable) : v.ordered.Regular := by
  cases v with
  | arr elems => exact regular_orderedElems elems h
  | obj fields =>
    have hfields := regular_orderedFields fields h.2
    refine ⟨pairwise_insertionSort_keys (by rw [map_fst_orderedFields]; exact h.1), ?_⟩
    rw [regularFields_iff] at hfields ⊢
    exact fun f hf => hfields f ((List.mem_insertionSort _).mp hf)
  | posInt n => exact h
  | _ => trivial

theorem regular_orderedElems (elems : List Json) (h : PrintableElems elems) :
    RegularElems (orderedElems elems) := by
  cases elems with
  | nil => trivial
  | cons v elems => exact ⟨regular_ordered v h.1, regular_orderedElems elems h.2⟩

theorem regular_orderedFields (fields : List (String × Json)) (h : PrintableFields fields) :
    RegularFields (orderedFields fields) := by
  cases fields with
  | nil => trivial
  | cons f fields => exact ⟨regular_ordered f.2 h.1, regular_orderedFields fields h.2⟩

end

mutual

/-- A value whose keys are in order stays as it is. -/
theorem ordered_eq_self (v : Json) (h : v.Regular) : v.ordered = v := by
  cases v with
  | arr elems => rw [ordered, orderedElems_eq_self elems h]
  | obj fields =>
    have hsorted : fields.Pairwise fun f g => f.1 ≤ g.1 :=
      (List.pairwise_map.mp h.1).imp fun hlt => Std.le_of_lt hlt
    rw [ordered, orderedFields_eq_self fields h.2, hsorted.insertionSort_eq]
  | _ => rfl

theorem orderedElems_eq_self (elems : List Json) (h : RegularElems elems) :
    orderedElems elems = elems := by
  cases elems with
  | nil => rfl
  | cons v elems => rw [orderedElems, ordered_eq_self v h.1, orderedElems_eq_self elems h.2]

theorem orderedFields_eq_self (fields : List (String × Json)) (h : RegularFields fields) :
    orderedFields fields = fields := by
  cases fields with
  | nil => rfl
  | cons f fields => rw [orderedFields, ordered_eq_self f.2 h.1, orderedFields_eq_self fields h.2]

end

theorem nestingFields_le {fields : List (String × Json)} {n : ℕ} :
    nestingFields fields ≤ n ↔ ∀ f ∈ fields, f.2.nesting ≤ n := by
  induction fields with
  | nil => simp [nestingFields]
  | cons f fields ih => rw [nestingFields, Nat.max_le, ih, List.forall_mem_cons]

theorem nestingFields_perm {fields fields' : List (String × Json)} (h : fields.Perm fields') :
    nestingFields fields = nestingFields fields' := by
  refine le_antisymm (nestingFields_le.mpr fun f hf => ?_) (nestingFields_le.mpr fun f hf => ?_)
  · exact nesting_le_nestingFields (h.mem_iff.mp hf)
  · exact nesting_le_nestingFields (h.mem_iff.mpr hf)

mutual

theorem nesting_ordered (v : Json) : v.ordered.nesting = v.nesting := by
  cases v with
  | arr elems => rw [ordered, nesting, nesting, nesting_orderedElems elems]
  | obj fields =>
    rw [ordered, nesting, nesting, nestingFields_perm (List.perm_insertionSort ..),
      nesting_orderedFields fields]
  | _ => rfl

theorem nesting_orderedElems (elems : List Json) :
    nestingElems (orderedElems elems) = nestingElems elems := by
  cases elems with
  | nil => rfl
  | cons v elems =>
    rw [orderedElems, nestingElems, nestingElems, nesting_ordered v, nesting_orderedElems elems]

theorem nesting_orderedFields (fields : List (String × Json)) :
    nestingFields (orderedFields fields) = nestingFields fields := by
  cases fields with
  | nil => rfl
  | cons f fields =>
    rw [orderedFields, nestingFields, nestingFields, nesting_ordered f.2,
      nesting_orderedFields fields]

end

/-! ### What the other side reads -/

section OnWire

variable {σ : Type} (lib : JsonText σ)

/-- A value as it is parsed from its text. -/
def onWire (v : Json) : Json := v.ordered.mapFloats lib.reread

end OnWire

end Json

end Forgetty
