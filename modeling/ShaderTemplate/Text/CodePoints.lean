/-!
# Ranges of code points

A Unicode property is given by the closed ranges of code points that have it, in ascending order.
The tables of this library are written in that form, and `inRanges` looks a code point up.
-/

namespace ShaderTemplate.Text

/-- Whether a code point lies in one of the ranges. They ascend, so the search is over as soon as
a range starts beyond the code point; a plain ASCII character is therefore settled by the first
few ranges of any table. -/
def inRanges : List (Nat × Nat) → Nat → Bool
  | [], _ => false
  | (first, last) :: rest, n =>
    if n < first then false else if n ≤ last then true else inRanges rest n

end ShaderTemplate.Text
