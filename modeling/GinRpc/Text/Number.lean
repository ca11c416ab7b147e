import GinRpc.Text.Basic

/-!
# Numbers in texts

`strconv.Atoi`, with the value it returns next to an error.
-/

namespace GinRpc

namespace Text

inductive NumError where
  | malformed
  | outOfRange
  deriving DecidableEq, Repr

/-- `strconv.Atoi`: a sign and decimal digits; a number that does not fit is cut off. -/
def parseInt (t : Text) : Int64 × Option NumError :=
  let (negative, digits) :=
    match t with
    | '-' :: digits => (true, digits)
    | '+' :: digits => (false, digits)
    | digits => (false, digits)
  if digits = [] ∨ !digits.all Char.isDigit then (0, some .malformed)
  else if negative then
    if atoi digits ≤ 2 ^ 63 then (Int64.ofInt (-(atoi digits)), none)
    else (Int64.minValue, some .outOfRange)
  else
    if atoi digits < 2 ^ 63 then (Int64.ofInt (atoi digits), none)
    else (Int64.maxValue, some .outOfRange)

example : parseInt "-12" = (-12, none) ∧ parseInt "9223372036854775807" = (Int64.maxValue, none) ∧
    parseInt "9223372036854775808" = (Int64.maxValue, some .outOfRange) ∧
    parseInt "" = (0, some .malformed) ∧ parseInt "1_0" = (0, some .malformed) := by
  decide

end Text

end GinRpc
