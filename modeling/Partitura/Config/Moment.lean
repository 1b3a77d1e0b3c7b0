import Partitura.Text.Search

/-!
# Days and times

Days, times of day, and both together with or without the distance from the zero meridian; as they
are written, and as they are shown inside of lists.
-/

namespace Partitura.Config

/-- A day. -/
structure Day where
  year : Nat
  month : Nat
  day : Nat
deriving DecidableEq, Repr

/-- A time of day, with millionths of a second. -/
structure Clock where
  hour : Nat
  minute : Nat
  second : Nat
  micro : Nat
deriving DecidableEq, Repr

/-- A day, a time of day, or both; `offset` is the distance from the zero meridian in minutes. -/
inductive Moment where
  | day (d : Day)
  | clock (c : Clock)
  | both (d : Day) (c : Clock) (offset : Option Int)
deriving DecidableEq, Repr

/-- Whether a year has a leap day. -/
def isLeapYear (year : Nat) : Bool := year % 4 == 0 && (year % 100 != 0 || year % 400 == 0)

/-- How many days a month has. -/
def daysIn (year month : Nat) : Nat :=
  if month = 2 then if isLeapYear year then 29 else 28
  else if month = 4 ∨ month = 6 ∨ month = 9 ∨ month = 11 then 30 else 31

/-- Whether there is such a day; the first year is 1. -/
def Day.isValid (d : Day) : Bool :=
  1 ≤ d.year && 1 ≤ d.month && d.month ≤ 12 && 1 ≤ d.day && d.day ≤ daysIn d.year d.month

/-- A number with zeros in front up to the width. -/
def padded (width n : Nat) : String :=
  let ds := Nat.toDigits 10 n
  String.ofList (List.replicate (width - ds.length) '0' ++ ds)

/-- A day as it is written. -/
def Day.render (d : Day) : String :=
  padded 4 d.year ++ "-" ++ padded 2 d.month ++ "-" ++ padded 2 d.day

/-- A time of day as it is written. -/
def Clock.render (c : Clock) : String :=
  padded 2 c.hour ++ ":" ++ padded 2 c.minute ++ ":" ++ padded 2 c.second ++
    (if c.micro = 0 then "" else "." ++ padded 6 c.micro)

/-- A distance from the zero meridian as it is written. -/
def renderOffset (minutes : Int) : String :=
  let n := minutes.natAbs
  (if minutes < 0 then "-" else "+") ++ padded 2 (n / 60) ++ ":" ++ padded 2 (n % 60)

/-- A moment as it is written. -/
def Moment.render : Moment → String
  | day d => d.render
  | clock c => c.render
  | both d c offset => d.render ++ " " ++ c.render ++ offset.elim "" renderOffset

/-- The numbers of a time of day, without zeros for seconds and their parts at the end. -/
def Clock.numbers (c : Clock) : List Nat :=
  [c.hour, c.minute] ++
    (if c.micro = 0 then if c.second = 0 then [] else [c.second] else [c.second, c.micro])

/-- Numbers with commas between them. -/
def listed (ns : List Nat) : String := Text.join ", " (ns.map toString)

/-- A zone as it is shown: by its distance, as whole days and seconds. -/
def shownZone (minutes : Int) : String :=
  if minutes = 0 then "datetime.timezone.utc"
  else
    let seconds := (minutes * 60) % 86400
    "datetime.timezone(datetime.timedelta(" ++
      (if minutes < 0 then "days=-1, " else "") ++ "seconds=" ++
      toString seconds ++ "))"

/-- A moment as it is shown inside of a list. -/
def Moment.shown : Moment → String
  | day d => "datetime.date(" ++ listed [d.year, d.month, d.day] ++ ")"
  | clock c => "datetime.time(" ++ listed c.numbers ++ ")"
  | both d c offset =>
    "datetime.datetime(" ++ listed ([d.year, d.month, d.day] ++ c.numbers) ++
      offset.elim "" (fun m => ", tzinfo=" ++ shownZone m) ++ ")"

/-- The name of the kind of a moment. -/
def Moment.kind : Moment → String
  | day _ => "datetime.date"
  | clock _ => "datetime.time"
  | both .. => "datetime.datetime"

end Partitura.Config
