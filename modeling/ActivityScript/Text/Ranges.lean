/-!
# Tables of code points

A property of characters is given as the list of the code point ranges that have it, ends included
and in increasing order.
-/

namespace ActivityScript.Text

/-- Whether `n` lies in one of the ranges, which are in increasing order. -/
def inRanges (n : Nat) : List (Nat × Nat) → Bool
  | [] => false
  | (low, high) :: rest => if n < low then false else n ≤ high || inRanges n rest

end ActivityScript.Text
