import TypeSchema.Real.Shortest

/-!
# Layout of reals

How the digits of a real are set: positionally while the exponent of the leading digit is from -4 to
15, otherwise with a signed exponent. What differs between formats is one record.
-/

namespace TypeSchema

structure RealLayout where
  exponentWidth : Nat
  /-- A point is written also after a single digit with an exponent. -/
  pointBeforeExponent : Bool
  nan : String
  infinity : String
  negativeInfinity : String

namespace RealLayout

/-- The form in which answers and messages show a real: `0.1`, `1e-05`, `1e+22`, `inf`. -/
def plain : RealLayout := ⟨2, false, "nan", "inf", "-inf"⟩

/-- The form of JSON texts: `0.1`, `1e-5`, `1e+22`, `Infinity`. -/
def json : RealLayout := ⟨1, false, "NaN", "Infinity", "-Infinity"⟩

/-- The form of YAML texts: `0.1`, `1.0e-05`, `1.0e+22`, `.inf`. -/
def yaml : RealLayout := ⟨2, true, ".nan", ".inf", "-.inf"⟩

def zeros (n : Nat) : List Char := List.replicate n '0'

/-- Digits `ds` of which the first stands at `10 ^ lead`, written positionally. -/
def positional (ds : List Char) (lead : Int) : List Char :=
  if lead < 0 then '0' :: '.' :: zeros (lead.natAbs - 1) ++ ds
  else
    let whole := lead.toNat + 1
    let shown := ds ++ zeros (whole - ds.length)
    let fraction := shown.drop whole
    shown.take whole ++ '.' :: (if fraction.isEmpty then ['0'] else fraction)

def scientific (layout : RealLayout) (ds : List Char) (lead : Int) : List Char :=
  let mantissa := match ds with
    | [d] => if layout.pointBeforeExponent then [d, '.', '0'] else [d]
    | d :: rest => d :: '.' :: rest
    | [] => []
  let power := Nat.toDigits 10 lead.natAbs
  mantissa ++ 'e' :: (if lead < 0 then '-' else '+') ::
    zeros (layout.exponentWidth - power.length) ++ power

def render (layout : RealLayout) (x : Real64) : String :=
  if x.isNaN then layout.nan
  else if !x.isFinite then (if x.isNegative then layout.negativeInfinity else layout.infinity)
  else
    let d := x.shortest
    let ds := Nat.toDigits 10 d.digits
    let lead := d.scale + ds.length - 1
    let body := if -4 ≤ lead && lead < 16 then positional ds lead else layout.scientific ds lead
    String.ofList (if x.isNegative then '-' :: body else body)

end RealLayout

end TypeSchema
