/-!
# Quantities

Times and lengths are measured in numbers of which one may be undefined.  `Quantity τ` is what the
slides need of such numbers; an undefined one is less than none and equal to none.  Pages are run
with doubles.
-/

namespace Lectern

class Quantity (τ : Type) where
  zero : τ
  undefined : τ
  add : τ → τ → τ
  sub : τ → τ → τ
  neg : τ → τ
  /-- The quotient, unless the divisor is zero. -/
  div? : τ → τ → Option τ
  less : τ → τ → Bool
  same : τ → τ → Bool
  isUndefined : τ → Bool
  /-- The number is defined and not infinite. -/
  isFinite : τ → Bool

namespace Quantity

/-- The lesser of two; the first one if neither is less. -/
def least {τ : Type} [Quantity τ] (a b : τ) : τ := if less b a then b else a

instance : Quantity Float where
  zero := 0
  undefined := 0.0 / 0.0
  add a b := a + b
  sub a b := a - b
  neg a := -a
  div? a b := if b == 0 then none else some (a / b)
  less a b := a < b
  same a b := a == b
  isUndefined a := a.isNaN
  isFinite a := a.isFinite

end Quantity
end Lectern
