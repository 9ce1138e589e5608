import Forgetty.Vt.Screen

/-! Lower case, as the standard library has it. -/

namespace Forgetty

/-- The case tables of the standard library: the lower case of a character, and the properties
that decide about a sigma. -/
structure CaseTables where
  lower : Char → Text
  cased : Char → Bool
  caseIgnorable : Char → Bool
  lower_ne_nil : ∀ c, lower c ≠ []
  lower_blank : lower ' ' = [' ']
  blank_of_lower : ∀ c, ' ' ∈ lower c → c = ' '
  lower_capitalSigma : lower 'Σ' = ['σ']

namespace CaseTables

variable (u : CaseTables)

def caseIgnorableThenCased (text : Text) : Bool :=
  match text.dropWhile u.caseIgnorable with
  | c :: _ => u.cased c
  | [] => false

/-- The lower case of a text behind another one. Only a sigma depends on what is around it. -/
def lowerBehind : Text → Text → Text
  | _, [] => []
  | before, c :: cs =>
    (if c = 'Σ' then
        [if u.caseIgnorableThenCased before && !u.caseIgnorableThenCased cs then 'ς' else 'σ']
      else u.lower c) ++ lowerBehind (c :: before) cs

/-- `str::to_lowercase`. -/
def toLowercase (text : Text) : Text := u.lowerBehind [] text

theorem toLowercase_singleton (c : Char) : u.toLowercase [c] = u.lower c := by
  rw [toLowercase, lowerBehind, lowerBehind, List.append_nil]
  by_cases hc : c = 'Σ'
  · rw [if_pos hc, hc, u.lower_capitalSigma]
    rfl
  · rw [if_neg hc]

/-- Without a sigma a text is lower-cased character by character. -/
theorem toLowercase_eq {text : Text} (h : 'Σ' ∉ text) : u.toLowercase text = text.flatMap u.lower := by
  suffices ∀ before, u.lowerBehind before text = text.flatMap u.lower from this []
  induction text with
  | nil => exact fun _ => rfl
  | cons c cs ih =>
    intro before
    rw [List.mem_cons, not_or] at h
    rw [lowerBehind, if_neg (Ne.symm h.1), ih h.2, List.flatMap_cons]

end CaseTables

namespace Grapheme

/-- Letters of the Latin alphabet, and the sigma. -/
def latinCases : CaseTables where
  lower c := if c = 'Σ' then ['σ'] else [c.toLower]
  cased c := c.isAlpha
  caseIgnorable _ := false
  lower_ne_nil c := by
    split_ifs
    · exact List.cons_ne_nil _ _
    · exact List.cons_ne_nil _ _
  lower_blank := by decide
  blank_of_lower c h := by
    split_ifs at h with hc
    · exact absurd h (by decide)
    · have hlower := List.mem_singleton.mp h
      by_cases hupper : c.val ≥ 'A'.val ∧ c.val ≤ 'Z'.val
      · have hval : c.toLower.val.toNat = (c.val.toNat + 32) % 2 ^ 32 :=
          congrArg (fun d : Char => d.val.toNat) (dif_pos hupper)
        rw [← hlower] at hval
        have hlow : 65 ≤ c.val.toNat := hupper.1
        have hhigh : c.val.toNat ≤ 90 := hupper.2
        have hsum : 32 = (c.val.toNat + 32) % 2 ^ 32 := hval
        omega
      · exact (hlower.trans (dif_neg hupper)).symm
  lower_capitalSigma := by decide

end Grapheme

end Forgetty
