import TypeSchema.Yaml.Cursor
import TypeSchema.Yaml.Fault

/-!
# Dates

A date is a year, a month and a day, with a time of day and an offset from universal time behind it
if need be. Reading finds the parts; checking finds the first part that no calendar or clock has.
-/

namespace TypeSchema.Yaml

/-- A time of day, and its offset from universal time in minutes. -/
structure Clock where
  hour : Nat
  minute : Nat
  second : Nat
  offset : Int
deriving DecidableEq, Repr

structure Date where
  year : Nat
  month : Nat
  day : Nat
  clock? : Option Clock
deriving DecidableEq, Repr

namespace Date

/-! ### Reading -/

def digit? : List Char → Option (Nat × List Char)
  | c :: rest => if c.isDigit then some (c.toNat - 48, rest) else none
  | [] => none

def digits? : Nat → Nat → List Char → Option (Nat × List Char)
  | n, 0, cs => some (n, cs)
  | n, count + 1, cs => (digit? cs).bind fun (d, rest) => digits? (10 * n + d) count rest

def shortNumber? (cs : List Char) : Option (Nat × List Char) :=
  (digits? 0 2 cs).orElse fun _ => digits? 0 1 cs

def dropChar? (c : Char) : List Char → Option (List Char)
  | d :: rest => if d = c then some rest else none
  | [] => none

/-- The offset behind a time: nothing, `Z`, or hours and minutes with a sign. -/
def offset? (cs : List Char) : Option Int :=
  match cs.dropWhile isBlank with
  | [] => if cs.isEmpty then some 0 else none
  | ['Z'] => some 0
  | sign :: rest =>
    if sign = '-' || sign = '+' then do
      let (hours, rest) ← shortNumber? rest
      let minutes ← match rest with
        | [] => some 0
        | rest => do
          let (minutes, rest) ← digits? 0 2 (← dropChar? ':' rest)
          if rest.isEmpty then some minutes else none
      let n : Int := (60 * hours + minutes : Nat)
      some (if sign = '-' then -n else n)
    else none

def readClock? (cs : List Char) : Option Clock := do
  let (hour, rest) ← shortNumber? cs
  let (minute, rest) ← digits? 0 2 (← dropChar? ':' rest)
  let (second, rest) ← digits? 0 2 (← dropChar? ':' rest)
  let rest := match rest with
    | '.' :: fraction => fraction.dropWhile Char.isDigit
    | rest => rest
  return ⟨hour, minute, second, ← offset? rest⟩

/-- The parts of a date, its month and day of one or two digits. -/
def read? (cs : List Char) : Option Date := do
  let (year, rest) ← digits? 0 4 cs
  let (month, rest) ← shortNumber? (← dropChar? '-' rest)
  let (day, rest) ← shortNumber? (← dropChar? '-' rest)
  match rest with
  | [] => return ⟨year, month, day, none⟩
  | c :: rest =>
    let rest ←
      if c = 'T' || c = 't' then some rest
      else if isBlank c then some (rest.dropWhile isBlank)
      else none
    return ⟨year, month, day, some (← readClock? rest)⟩

/-- Whether plain text is a date: without a time, month and day have two digits. -/
def isPlain (cs : List Char) : Bool :=
  (read? cs).any fun d => d.clock?.isSome || cs.length = 10

/-! ### Checking -/

def isLeap (year : Nat) : Bool := year % 4 = 0 && (year % 100 ≠ 0 || year % 400 = 0)

def daysIn (year month : Nat) : Nat :=
  if month = 2 then if isLeap year then 29 else 28
  else if month = 4 || month = 6 || month = 9 || month = 11 then 30
  else 31

/-- The first part that is out of range; an offset is looked at first. -/
def fault? (d : Date) : Option DateFault :=
  let offset := d.clock?.elim 0 (·.offset)
  if 1440 ≤ offset.natAbs then some (.offset offset)
  else if d.year = 0 then some (.year d.year)
  else if d.month = 0 || 12 < d.month then some .month
  else if d.day = 0 || daysIn d.year d.month < d.day then some .day
  else d.clock?.bind fun t =>
    if 23 < t.hour then some .hour
    else if 59 < t.minute then some .minute
    else if 59 < t.second then some .second
    else none

end Date

end TypeSchema.Yaml
