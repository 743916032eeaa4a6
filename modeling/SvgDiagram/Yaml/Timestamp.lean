import SvgDiagram.Fault
import SvgDiagram.Number.Numeral

/-!
Timestamps: a day, and perhaps a time of it with parts of a second and the distance from universal time.
A spelling is read first; whether the calendar has what it says is asked afterwards.
-/

namespace SvgDiagram
namespace Yaml
namespace Timestamp

/-- The number that exactly so many digits at the front stand for. -/
def fixed? (width : Nat) (cs : List Char) : Option (Nat × List Char) :=
  let digits := cs.take width
  if digits.length == width && digits.all Char.isDigit then
    some (Number.ofDigits 10 digits, cs.drop width)
  else none

def short? (cs : List Char) : Option (Nat × List Char) := (fixed? 2 cs).or (fixed? 1 cs)

def after? (mark : Char) : List Char → Option (List Char)
  | c :: cs => if c == mark then some cs else none
  | [] => none

def isGap (c : Char) : Bool := c == ' ' || c == '\t'

/-- What follows a letter T, or one or more blanks. -/
def afterGap? : List Char → Option (List Char)
  | c :: cs => if c == 'T' || c == 't' then some cs else if isGap c then some (cs.dropWhile isGap) else none
  | [] => none

/-- Millionths from the digits after a point. Those beyond the sixth are dropped. -/
def millionths (digits : List Char) : Nat :=
  Number.ofDigits 10 (digits.take 6 ++ List.replicate (6 - digits.length) '0')

/-- Minutes ahead of universal time. Nothing may follow them. -/
def offset? : List Char → Option Int
  | ['Z'] => some 0
  | sign :: cs => do
    let (hours, cs) ← short? cs
    let minutes ← if cs.isEmpty then some 0 else do
      let (minutes, cs) ← fixed? 2 (← after? ':' cs)
      if cs.isEmpty then some minutes else none
    let total : Int := hours * 60 + minutes
    if sign == '+' then some total else if sign == '-' then some (-total) else none
  | [] => none

def clock? (cs : List Char) : Option Clock := do
  let (hour, cs) ← short? cs
  let (minute, cs) ← fixed? 2 (← after? ':' cs)
  let (second, cs) ← fixed? 2 (← after? ':' cs)
  let (fraction, cs) := match cs with
    | '.' :: cs => cs.span Char.isDigit
    | cs => ([], cs)
  let offset ← if cs.isEmpty then some none else (offset? (cs.dropWhile isGap)).map some
  return ⟨hour, minute, second, millionths fraction, offset⟩

def read? (cs : List Char) : Option Moment := do
  let (year, cs) ← fixed? 4 cs
  let (month, cs) ← short? (← after? '-' cs)
  let (day, cs) ← short? (← after? '-' cs)
  let clock ← if cs.isEmpty then some none else (afterGap? cs >>= clock?).map some
  return ⟨⟨year, month, day⟩, clock⟩

/-- Whether a plain scalar is a timestamp. A day alone needs all its digits. -/
def isTimestamp (cs : List Char) : Bool :=
  match read? cs with
  | some m => m.clock.isSome || cs.length == 10
  | none => false

def checkDay (d : Day) : Except Fault Unit := do
  if d.year == 0 then throw (.noSuchYear d.year)
  if d.month == 0 || 12 < d.month then throw .noSuchMonth
  if d.day == 0 || (Day.monthLengths d.year).getD (d.month - 1) 0 < d.day then throw .noSuchDay

def checkOffset (offset : Option Int) : Except Fault Unit :=
  match offset with
  | some minutes => if 1440 ≤ minutes.natAbs then .error (.noSuchOffset minutes) else .ok ()
  | none => .ok ()

def checkClock (c : Clock) : Except Fault Unit := do
  if 23 < c.hour then throw .noSuchHour
  if 59 < c.minute then throw .noSuchMinute
  if 59 < c.second then throw .noSuchSecond

def check (m : Moment) : Except Fault Moment := do
  match m.clock with
  | none => checkDay m.day
  | some c =>
    checkOffset c.offset
    checkDay m.day
    checkClock c
  return m

def dropBreak (cs : List Char) : List Char := if cs.getLast? == some '\n' then cs.dropLast else cs

def ofText (text : String) : Except Fault Moment :=
  match read? (dropBreak text.toList) with
  | some m => check m
  | none => .error .noParts

end Timestamp
end Yaml
end SvgDiagram
