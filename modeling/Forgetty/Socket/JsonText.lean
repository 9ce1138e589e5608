import Forgetty.Socket.Protocol
import Forgetty.Workspace.State

/-! JSON as text. The JSON library is a parameter: it reads back what it printed, floats only
nearly so, unless the text is nested too deep. -/

namespace Forgetty

namespace Json

def asArr : Json → Option (List Json)
  | arr elems => some elems
  | _ => none

/-- The numbers of requests are small enough to be `f64` values. -/
def asF64 : Json → Option ℚ
  | posInt n => some n
  | negInt n => some (-n)
  | float x => some x
  | _ => none

/-! ### Nesting -/

mutual

/-- How deep arrays and objects are nested. -/
def nesting : Json → ℕ
  | arr elems => 1 + nestingElems elems
  | obj fields => 1 + nestingFields fields
  | _ => 0

def nestingElems : List Json → ℕ
  | [] => 0
  | v :: elems => max v.nesting (nestingElems elems)

def nestingFields : List (String × Json) → ℕ
  | [] => 0
  | (_, v) :: fields => max v.nesting (nestingFields fields)

end

theorem nesting_le_nestingFields {fields : List (String × Json)} {f : String × Json}
    (h : f ∈ fields) : f.2.nesting ≤ nestingFields fields := by
  induction fields with
  | nil => cases h
  | cons g fields ih =>
    rw [nestingFields]
    rcases List.mem_cons.mp h with rfl | h
    · exact Nat.le_max_left _ _
    · exact (ih h).trans (Nat.le_max_right _ _)

/-- A field is nested less deep than its object. -/
theorem nesting_get {v w : Json} {key : String} (h : v.get key = some w) : w.nesting < v.nesting := by
  cases v with
  | obj fields =>
    obtain ⟨f, hf, rfl⟩ := Option.map_eq_some_iff.mp h
    have hle := nesting_le_nestingFields (List.mem_of_find?_eq_some hf)
    rw [nesting]
    omega
  | _ => cases h

/-! ### What a text can say -/

mutual

/-- The same value with its floats changed. -/
def mapFloats (f : ℚ → ℚ) : Json → Json
  | float x => float (f x)
  | arr elems => arr (mapFloatsElems f elems)
  | obj fields => obj (mapFloatsFields f fields)
  | null => null
  | bool b => bool b
  | posInt n => posInt n
  | negInt n => negInt n
  | str s => str s

def mapFloatsElems (f : ℚ → ℚ) : List Json → List Json
  | [] => []
  | v :: elems => v.mapFloats f :: mapFloatsElems f elems

def mapFloatsFields (f : ℚ → ℚ) : List (String × Json) → List (String × Json)
  | [] => []
  | (key, v) :: fields => (key, v.mapFloats f) :: mapFloatsFields f fields

end

mutual

/-- Numbers have 64 bits, and objects their keys in order, as the map of the library has them. -/
def Regular : Json → Prop
  | posInt n => n < 2 ^ 64
  | arr elems => RegularElems elems
  | obj fields => (fields.map (·.1)).Pairwise (· < ·) ∧ RegularFields fields
  | _ => True

def RegularElems : List Json → Prop
  | [] => True
  | v :: elems => v.Regular ∧ RegularElems elems

def RegularFields : List (String × Json) → Prop
  | [] => True
  | (_, v) :: fields => v.Regular ∧ RegularFields fields

end

theorem regularElems_iff {elems : List Json} : RegularElems elems ↔ ∀ v ∈ elems, v.Regular := by
  induction elems with
  | nil => simp [RegularElems]
  | cons v elems ih => rw [RegularElems, ih, List.forall_mem_cons]

theorem mapFloatsElems_eq (f : ℚ → ℚ) (elems : List Json) :
    mapFloatsElems f elems = elems.map (mapFloats f) := by
  induction elems with
  | nil => rfl
  | cons v elems ih => rw [mapFloatsElems, ih, List.map_cons]

theorem nestingElems_le {elems : List Json} {n : ℕ} :
    nestingElems elems ≤ n ↔ ∀ v ∈ elems, v.nesting ≤ n := by
  induction elems with
  | nil => simp [nestingElems]
  | cons v elems ih => rw [nestingElems, Nat.max_le, ih, List.forall_mem_cons]

mutual

theorem mapFloats_id (v : Json) : v.mapFloats id = v := by
  cases v with
  | arr elems => rw [mapFloats, mapFloatsElems_id elems]
  | obj fields => rw [mapFloats, mapFloatsFields_id fields]
  | _ => rfl

theorem mapFloatsElems_id (elems : List Json) : mapFloatsElems id elems = elems := by
  cases elems with
  | nil => rfl
  | cons v elems => rw [mapFloatsElems, mapFloats_id v, mapFloatsElems_id elems]

theorem mapFloatsFields_id (fields : List (String × Json)) : mapFloatsFields id fields = fields := by
  cases fields with
  | nil => rfl
  | cons f fields => rw [mapFloatsFields, mapFloats_id f.2, mapFloatsFields_id fields]

end

end Json

/-- A library for texts of some kind: the printer, the parser with the texts of its errors,
what it makes of a printed float, and the conversion to `f32`. -/
structure JsonText (σ : Type) where
  render : Json → σ
  parse : σ → Except String Json
  display : Json → String
  reread : ℚ → ℚ
  toF32 : ℚ → F32
  parse_render : ∀ v : Json, v.Regular → v.nesting ≤ recursionLimit →
    parse (render v) = .ok (v.mapFloats reread)
  parse_render_deep : ∀ v : Json, recursionLimit < v.nesting → ∃ e, parse (render v) = .error e
  toF32_reread : ∀ x : F32, toF32 (reread x) = x

/-- Values as their own texts. -/
def JsonText.values : JsonText Json where
  render v := v
  parse v := if v.nesting ≤ recursionLimit then .ok v else .error "recursion limit exceeded"
  display _ := ""
  reread := id
  toF32 := id
  parse_render v _ h := by rw [if_pos h, Json.mapFloats_id]
  parse_render_deep v h := ⟨_, if_neg (Nat.not_le.mpr h)⟩
  toF32_reread _ := rfl

end Forgetty
