/-!
# Binary64 reals

A real is kept as its 64 bits, so equality of reals is equality of bits. Decimals are read with one
rounding to the nearest value, and whole reals convert to integers exactly.
-/

namespace TypeSchema

structure Real64 where
  bits : UInt64
deriving DecidableEq, Repr

namespace Real64

def isNegative (x : Real64) : Bool := x.bits >>> 63 == 1

def exponentField (x : Real64) : Nat := ((x.bits >>> 52) &&& 0x7FF).toNat

def fractionField (x : Real64) : Nat := (x.bits &&& 0xFFFFFFFFFFFFF).toNat

def isFinite (x : Real64) : Bool := x.exponentField != 0x7FF

def isNaN (x : Real64) : Bool := !x.isFinite && x.fractionField != 0

/-- The magnitude of a finite real is `significand * 2 ^ exponent`. -/
def significand (x : Real64) : Nat :=
  if x.exponentField = 0 then x.fractionField else 1 <<< 52 + x.fractionField

def exponent (x : Real64) : Int :=
  if x.exponentField = 0 then -1074 else (x.exponentField : Int) - 1075

def infinity : Real64 := ⟨0x7FF0000000000000⟩

def nan : Real64 := ⟨0x7FF8000000000000⟩

def neg (x : Real64) : Real64 := ⟨x.bits ^^^ 0x8000000000000000⟩

def toFloat (x : Real64) : Float := Float.ofBits x.bits

def ofFloat (x : Float) : Real64 := ⟨x.toBits⟩

/-- The real nearest to `digits * 10 ^ scale`. Decimals far outside the range of finite reals are
settled by their number of digits. -/
def ofDecimal (digits : Nat) (scale : Int) : Real64 :=
  let places := (Nat.toDigits 10 digits).length + scale
  if digits = 0 || places < -400 then ⟨0⟩
  else if places > 400 then infinity
  else ofFloat (Float.ofScientific digits (scale < 0) scale.natAbs)

/-- The integer that a finite real without fraction denotes. -/
def toInt? (x : Real64) : Option Int :=
  if !x.isFinite then none
  else
    let shift := x.exponent.natAbs
    let magnitude :=
      if 0 ≤ x.exponent then some (x.significand <<< shift)
      else
        let whole := x.significand >>> shift
        if whole <<< shift = x.significand then some whole else none
    magnitude.map fun (n : Nat) => if x.isNegative then -(n : Int) else n

end Real64

end TypeSchema
