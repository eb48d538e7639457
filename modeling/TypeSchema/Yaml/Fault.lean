import TypeSchema.Text.Digits
import TypeSchema.Text.Quoted

/-!
# Faults of YAML texts

A text may be malformed, or well formed but with a scalar that has no value of its kind. It is
foreign if what it denotes cannot be told here.
-/

namespace TypeSchema.Yaml

/-- The part of a date that no calendar or clock has. -/
inductive DateFault where
  | year (n : Nat)
  | month
  | day
  | hour
  | minute
  | second
  /-- An offset from universal time of a day or more, in minutes. -/
  | offset (minutes : Int)
deriving DecidableEq, Repr

namespace DateFault

/-- A span of time in days and seconds, of which only the days may be negative. -/
def spanText (minutes : Int) : String :=
  let days := minutes.fdiv 1440
  let seconds := minutes.fmod 1440 * 60
  let part (name : String) (n : Int) : List String :=
    if n = 0 then [] else [name ++ "=" ++ toString n]
  "datetime.timedelta(" ++ ", ".intercalate (part "days" days ++ part "seconds" seconds) ++ ")"

def message : DateFault → String
  | .year n => "year " ++ toString n ++ " is out of range"
  | .month => "month must be in 1..12"
  | .day => "day is out of range for month"
  | .hour => "hour must be in 0..23"
  | .minute => "minute must be in 0..59"
  | .second => "second must be in 0..59"
  | .offset minutes =>
    "offset must be a timedelta strictly between -timedelta(hours=24) and timedelta(hours=24), " ++
      "not " ++ spanText minutes ++ "."

end DateFault

inductive Fault where
  | malformed
  /-- What the text denotes is none of `Value`, as far as it was read: bytes, a set, a list of pairs, a
  text with a surrogate, a collection that contains itself; or its collections are nested so deep that
  reading them may take more than there is room for on the stack. -/
  | foreign
  /-- An integer that its base does not have. -/
  | notInteger (base : Nat) (written : String)
  /-- A decimal integer with more digits than are read. -/
  | longInteger (digits : Nat)
  | notReal (written : String)
  | badDate (fault : DateFault)
  /-- An escape for a character beyond the last one. -/
  | noCharacter
  /-- An escape for a character beyond all words of 31 bits. -/
  | hugeCharacter
  /-- A real in base 60 with a place beyond all reals. -/
  | hugeReal
  | emptyNumber
  | notTruthValue (written : String)
  | notDate
deriving DecidableEq, Repr

namespace Fault

def message : Fault → String
  | .malformed => "malformed YAML"
  | .foreign => "no value of YAML that can be told"
  | .notInteger base written =>
    "invalid literal for int() with base " ++ toString base ++ ": " ++
      String.ofList ((Text.quoted written).toList.take 200)
  | .longInteger digits => Text.tooManyDigits digits
  | .notReal written => "could not convert string to float: " ++ Text.quoted written
  | .badDate fault => fault.message
  | .noCharacter => "chr() arg not in range(0x110000)"
  | .hugeCharacter => "Python int too large to convert to C int"
  | .hugeReal => "int too large to convert to float"
  | .emptyNumber => "string index out of range"
  | .notTruthValue written => Text.quoted written
  | .notDate => "'NoneType' object has no attribute 'groupdict'"

/-- The text is well formed, and a scalar is of a kind that suits its tag but has no value. -/
def isOfValue : Fault → Bool
  | .notInteger .. | .longInteger _ | .notReal _ | .badDate _ | .noCharacter => true
  | .malformed | .foreign | .hugeCharacter | .hugeReal | .emptyNumber | .notTruthValue _
  | .notDate => false

end Fault

end TypeSchema.Yaml
