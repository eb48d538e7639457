/-!
# Digit strings

The number that decimal digits write. Integers of too many digits are refused where numbers are
read from files, and cannot be written into a text.
-/

namespace TypeSchema.Text

def digitsValue (ds : List Char) : Nat := ds.foldl (fun n d => 10 * n + (d.toNat - 48)) 0

/-- The most digits of an integer. -/
def maxDigits : Nat := 4300

def tooManyDigits (digits : Nat) : String :=
  "Exceeds the limit (" ++ toString maxDigits ++ " digits) for integer string conversion: " ++
    "value has " ++ toString digits ++
    " digits; use sys.set_int_max_str_digits() to increase the limit"

/-- The integer has more than the most digits. -/
def isLong (i : Int) : Bool := Nat.pow 10 maxDigits ≤ i.natAbs

def longInteger : String :=
  "Exceeds the limit (" ++ toString maxDigits ++ " digits) for integer string conversion; " ++
    "use sys.set_int_max_str_digits() to increase the limit"

end TypeSchema.Text
