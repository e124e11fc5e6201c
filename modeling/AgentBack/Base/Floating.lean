import Mathlib.Data.Rat.Floor

/-!
# Floating point numbers

The operations of a language's floating point numbers, without laws: a theorem over them holds
whatever the rounding, with infinities and values that are not numbers. The rationals are the
instance that runs.
-/

namespace AgentBack

universe u

/-- The operations on a `float`. `percent` has no answer where the product is not finite. -/
class Floating (F : Type u) where
  ofRat : ℚ → F
  /-- `float(n)`, which overflows on large integers. -/
  ofInt : Int → Option F
  /-- `a < b`. -/
  lt : F → F → Bool
  /-- `a <= b`. -/
  le : F → F → Bool
  /-- `round(x * 100)`. -/
  percent : F → Option Int
  /-- `n / 100.0`. -/
  hundredths : Int → F
  /-- `f"{x:.<digits>f}"`. -/
  fixed : Nat → F → String

namespace Floating

def roundHalfEven (q : ℚ) : Int :=
  let below := ⌊q⌋
  let rest := q - below
  if rest < 1 / 2 then below
  else if 1 / 2 < rest then below + 1
  else if below % 2 = 0 then below
  else below + 1

/-- A rational with a number of digits after the point. -/
def fixedRat (digits : Nat) (q : ℚ) : String :=
  let units := roundHalfEven (|q| * 10 ^ digits)
  let fraction := toString (units % 10 ^ digits)
  (if q < 0 then "-" else "") ++ toString (units / 10 ^ digits) ++
    (if digits = 0 then ""
      else "." ++ String.ofList (List.replicate (digits - fraction.length) '0') ++ fraction)

instance : Floating ℚ where
  ofRat := id
  ofInt n := some n
  lt a b := decide (a < b)
  le a b := decide (a ≤ b)
  percent q := some (roundHalfEven (q * 100))
  hundredths n := n / 100
  fixed := fixedRat

variable {F : Type u} [Floating F]

/-- `max(a, b)`: the second only when it is greater. -/
def max (a b : F) : F := if lt a b then b else a

/-- `min(a, b)`: the second only when it is less. -/
def min (a b : F) : F := if lt b a then b else a

/-- `x > 0`. -/
def positive (x : F) : Bool := lt (ofRat 0) x

end Floating

end AgentBack
