import TypeSchema.Real.Basic

/-!
# Shortest decimals

Of the decimals that read back to a given real, `shortest` picks one with the fewest digits and,
among those, the nearest. All comparisons are between naturals.
-/

namespace TypeSchema

def tenTo (n : Nat) : Nat := Nat.pow 10 n

/-- The decimal `digits * 10 ^ scale`. -/
structure Decimal where
  digits : Nat
  scale : Int
deriving DecidableEq, Repr

namespace Decimal

/-- Compares `digits * 10 ^ scale` with `n * 2 ^ e`. -/
def compareBinary (d : Decimal) (n : Nat) (e : Int) : Ordering :=
  compare ((d.digits * tenTo d.scale.toNat) <<< (-e).toNat)
    ((n * tenTo (-d.scale).toNat) <<< e.toNat)

def stripZeros (fuel : Nat) (d : Decimal) : Decimal :=
  match fuel with
  | 0 => d
  | fuel + 1 => if d.digits % 10 = 0 then stripZeros fuel ⟨d.digits / 10, d.scale + 1⟩ else d

end Decimal

namespace Real64

/-- The decimal lies among the reals that round to `x`: between the midpoints to both neighbours,
ends included when the significand is even. Below a power of two the lower neighbour is half as far
away as the upper one. -/
def readsBack (x : Real64) (d : Decimal) : Bool :=
  let m := x.significand
  let low := if x.fractionField = 0 && x.exponentField > 1 then 4 * m - 1 else 4 * m - 2
  let ends := m % 2 == 0
  let fromLow := d.compareBinary low (x.exponent - 2)
  let fromHigh := d.compareBinary (4 * m + 2) (x.exponent - 2)
  (fromLow == .gt || (ends && fromLow == .eq)) && (fromHigh == .lt || (ends && fromHigh == .eq))

/-- The least `k` with magnitude below `10 ^ k`, for a finite real other than zero. -/
def decimalPlaces (x : Real64) : Int :=
  let estimate := (x.significand.log2 + x.exponent) * 30103 / 100000
  let below (k : Int) : Bool := (Decimal.mk 1 k).compareBinary x.significand x.exponent == .gt
  ((List.range 4).map fun (i : Nat) => estimate + i).find? below |>.getD (estimate + 4)

/-- The two decimals of scale `scale` around the magnitude, the nearer one first; of two equally
near ones the even one is first. -/
def around (x : Real64) (scale : Int) : List Decimal :=
  let num := (x.significand * tenTo (-scale).toNat) <<< x.exponent.toNat
  let den := tenTo scale.toNat <<< (-x.exponent).toNat
  let low := num / den
  let lower : Decimal := ⟨low, scale⟩
  let upper : Decimal := ⟨low + 1, scale⟩
  match compare (2 * (num % den)) den with
  | .lt => [lower, upper]
  | .gt => [upper, lower]
  | .eq => if low % 2 = 0 then [lower, upper] else [upper, lower]

/-- The magnitude itself, written out. -/
def exactDecimal (x : Real64) : Decimal :=
  if 0 ≤ x.exponent then ⟨x.significand <<< x.exponent.toNat, 0⟩
  else ⟨x.significand * Nat.pow 5 x.exponent.natAbs, x.exponent⟩

/-- The shortest decimal that reads back to the magnitude of a finite real. Seventeen digits are
enough for every real; the exact value stands behind them. -/
def shortest (x : Real64) : Decimal :=
  if x.significand = 0 then ⟨0, 0⟩
  else
    let places := x.decimalPlaces
    let found := (List.range 17).findSome? fun n =>
      (x.around (places - (n + 1 : Nat))).find? x.readsBack
    (found.getD x.exactDecimal).stripZeros 800

end Real64

end TypeSchema
