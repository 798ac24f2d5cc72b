/-!
Membership of a code point in a sorted table of closed ranges. The search stops at the first range
that lies above the code point, which is right because the tables are written in increasing order.
-/

namespace ExtensionAudit.Text

/-- Whether `n` lies in one of the ranges, given in increasing order. -/
def inRanges (n : Nat) : List (Nat × Nat) → Bool
  | [] => false
  | (low, high) :: rest =>
    if n < low then false
    else if n ≤ high then true
    else inRanges n rest

end ExtensionAudit.Text
