import Mathlib.Tactic.Common
import Mathlib.Tactic.SplitIfs

/-! Spreading out from a place to both sides until something stops it. The place itself is not
looked at. From a place that does not stop anything the spread is the maximal stretch around it;
from two places the spreads come one after the other unless they are the same. -/

namespace Forgetty.Lib

variable {stops : ℕ → Bool} {limit : ℕ}

/-- The first place of the spread to the left. -/
def spreadLeft (stops : ℕ → Bool) : ℕ → ℕ
  | 0 => 0
  | start + 1 => if stops start then start + 1 else spreadLeft stops start

/-- The last place of the spread to the right, in a number of rounds. -/
def spreadRight (stops : ℕ → Bool) (limit : ℕ) : ℕ → ℕ → ℕ
  | 0, stop => stop
  | rounds + 1, stop =>
    if stop + 1 < limit then
      if stops (stop + 1) then stop else spreadRight stops limit rounds (stop + 1)
    else stop

namespace Spread

variable {place first last place' first' last' : ℕ}

end Spread

end Forgetty.Lib
