import SvgDiagram.Text.Quoted

/-!
Days of the calendar, and times of such a day. A time may say how far it is ahead of universal time; two
times that say so are the same if they are the same instant.
-/

namespace SvgDiagram

structure Day where
  year : Nat
  month : Nat
  day : Nat
  deriving DecidableEq, Repr

structure Clock where
  hour : Nat
  minute : Nat
  second : Nat
  micro : Nat
  /-- Minutes ahead of universal time. -/
  offset : Option Int
  deriving DecidableEq, Repr

structure Moment where
  day : Day
  clock : Option Clock
  deriving DecidableEq, Repr

namespace Day

def isLeap (year : Nat) : Bool := year % 4 == 0 && (year % 100 != 0 || year % 400 == 0)

def monthLengths (year : Nat) : List Nat :=
  [31, if isLeap year then 29 else 28, 31, 30, 31, 30, 31, 31, 30, 31, 30, 31]

/-- How many days there are up to and with this one. -/
def number (d : Day) : Nat :=
  let past := d.year - 1
  let months := ((monthLengths d.year).take (d.month - 1)).foldl Nat.add 0
  past * 365 + past / 4 - past / 100 + past / 400 + months + d.day

def text (d : Day) : String :=
  Text.padded 4 d.year ++ "-" ++ Text.padded 2 d.month ++ "-" ++ Text.padded 2 d.day

end Day

/-- A span of minutes, in whole days and the seconds that are left. -/
def spanText (minutes : Int) : String :=
  let days := minutes / 1440
  let seconds := minutes % 1440 * 60
  let parts := (if days == 0 then [] else ["days=" ++ toString days]) ++
    if seconds == 0 then [] else ["seconds=" ++ toString seconds]
  "datetime.timedelta(" ++ String.intercalate ", " parts ++ ")"

namespace Clock

def offsetText (minutes : Int) : String :=
  (if minutes < 0 then "-" else "+") ++ Text.padded 2 (minutes.natAbs / 60) ++ ":" ++
    Text.padded 2 (minutes.natAbs % 60)

def text (c : Clock) : String :=
  Text.padded 2 c.hour ++ ":" ++ Text.padded 2 c.minute ++ ":" ++ Text.padded 2 c.second ++
    (if c.micro == 0 then "" else "." ++ Text.padded 6 c.micro) ++ (c.offset.map offsetText).getD ""

/-- The numbers that a time is shown with inside another value: trailing zeros are left out. -/
def shown (c : Clock) : List Nat :=
  if c.micro != 0 then [c.hour, c.minute, c.second, c.micro]
  else if c.second != 0 then [c.hour, c.minute, c.second]
  else [c.hour, c.minute]

def zoneText (minutes : Int) : String :=
  if minutes == 0 then "datetime.timezone.utc" else "datetime.timezone(" ++ spanText minutes ++ ")"

end Clock

namespace Moment

def instant (d : Day) (c : Clock) (offset : Int) : Int :=
  ((((d.number * 24 + c.hour : Nat) : Int) * 60 + c.minute - offset) * 60 + c.second) * 1000000 + c.micro

/-- What a moment is told from others by. -/
def key (m : Moment) : Moment ⊕ Int :=
  match m.clock with
  | some c =>
    match c.offset with
    | some offset => .inr (instant m.day c offset)
    | none => .inl m
  | none => .inl m

def text (m : Moment) : String :=
  match m.clock with
  | none => m.day.text
  | some c => m.day.text ++ " " ++ c.text

def inner (m : Moment) : String :=
  let date := [m.day.year, m.day.month, m.day.day]
  match m.clock with
  | none => "datetime.date(" ++ String.intercalate ", " (date.map toString) ++ ")"
  | some c =>
    let zone := c.offset.toList.map fun minutes => "tzinfo=" ++ Clock.zoneText minutes
    "datetime.datetime(" ++ String.intercalate ", " ((date ++ c.shown).map toString ++ zone) ++ ")"

end Moment
end SvgDiagram
