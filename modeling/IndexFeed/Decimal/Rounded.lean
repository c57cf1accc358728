import IndexFeed.Decimal.Integer

/-!
Quotients with a fixed number of decimal places. A quotient halfway between two candidates goes to
the even one.
-/

namespace IndexFeed.Decimal

/-- The integer nearest to `n / d`, the even one of two. -/
def roundQuotient (n d : Nat) : Nat :=
  let whole := n / d
  let rest := n % d
  if 2 * rest < d then whole
  else if 2 * rest > d then whole + 1
  else if whole % 2 == 0 then whole else whole + 1

def oneDecimal (n d : Nat) : String :=
  let tenths := roundQuotient (10 * n) d
  ofNat (tenths / 10) ++ "." ++ ofNat (tenths % 10)

end IndexFeed.Decimal
