import Lectern.Text.Digit

/-!
# Dates and times in configuration text

A date is written `2001-12-14`; a time may follow it behind blanks or the letter `t`, and an offset
from Greenwich behind the time.

* `Stamp.read?`      the numbers of such a text, not yet looked at;
* `Stamp.date`, `Stamp.moment`   the date or the moment, if there is one;
* `Moment.same`      two moments are one, wherever they are told.
-/

namespace Lectern.Yaml
open Text

structure Date where
  year : Nat
  month : Nat
  day : Nat
  deriving DecidableEq

/-- A date with a time of day; the offset is in minutes, eastwards. -/
structure Moment where
  date : Date
  hour : Nat
  minute : Nat
  second : Nat
  micro : Nat := 0
  offset? : Option Int := none
  deriving DecidableEq

/-- Why there is no such date or moment. -/
inductive CalendarFault where
  | year (n : Nat)
  | month
  | day
  | hour
  | minute
  | second
  | offset (minutes : Int)
  deriving DecidableEq

/-- Minutes as days and the seconds that are left over, as in messages. -/
def writeMinutes (minutes : Int) : Text :=
  let days := minutes / 1440
  let seconds := minutes % 1440 * 60
  let written (i : Int) : Text := if i < 0 then '-' :: ofNat i.natAbs else ofNat i.natAbs
  let parts := (if days = 0 then [] else ["days=".toList ++ written days])
    ++ (if seconds = 0 then [] else ["seconds=".toList ++ written seconds])
  "datetime.timedelta(".toList ++ (if parts.isEmpty then ['0'] else join ", " parts) ++ [')']

def CalendarFault.message : CalendarFault → String
  | .year n => s!"year {n} is out of range"
  | .month => "month must be in 1..12"
  | .day => "day is out of range for month"
  | .hour => "hour must be in 0..23"
  | .minute => "minute must be in 0..59"
  | .second => "second must be in 0..59"
  | .offset minutes =>
    "offset must be a timedelta strictly between -timedelta(hours=24) and timedelta(hours=24), not "
      ++ String.ofList (writeMinutes minutes) ++ "."

/-! ## The calendar -/

def isLeap (year : Nat) : Bool := year % 4 = 0 && (year % 100 ≠ 0 || year % 400 = 0)

/-- The days of each month. -/
def monthDays (year : Nat) : List Nat :=
  [31, if isLeap year then 29 else 28, 31, 30, 31, 30, 31, 31, 30, 31, 30, 31]

/-- The date is in the calendar. -/
def Date.check (d : Date) : Except CalendarFault Date :=
  if d.year = 0 then .error (.year d.year)
  else if d.month = 0 || d.month > 12 then .error .month
  else if d.day = 0 || d.day > (monthDays d.year).getD (d.month - 1) 0 then .error .day
  else .ok d

/-- The number of the day, counted from the first one of the calendar. -/
def Date.number (d : Date) : Nat :=
  let years := d.year - 1
  365 * years + years / 4 - years / 100 + years / 400
    + ((monthDays d.year).take (d.month - 1)).foldl (· + ·) 0 + d.day

/-- The time of day is on the clock, and the date in the calendar. -/
def Moment.check (m : Moment) : Except CalendarFault Moment := do
  discard m.date.check
  if m.hour > 23 then throw .hour
  if m.minute > 59 then throw .minute
  if m.second > 59 then throw .second
  return m

/-- Millionths of a second since the calendar began, by the clock of the place. -/
def Moment.count (m : Moment) : Int :=
  ((((m.date.number * 24 + m.hour) * 60 + m.minute) * 60 + m.second) * 1000000 + m.micro : Nat)

/-- Two moments are the same: both are told by the clock of Greenwich, or both by one that is not
named. -/
def Moment.same (m n : Moment) : Bool :=
  match m.offset?, n.offset? with
  | none, none => m = n
  | some a, some b => m.count - a * 60000000 = n.count - b * 60000000
  | _, _ => false

/-! ## Written -/

/-- A number with at least so many digits. -/
def padded (width n : Nat) : Text :=
  let digits := ofNat n
  List.replicate (width - digits.length) '0' ++ digits

/-- A date on its own. -/
def Date.shown (d : Date) : Text :=
  padded 4 d.year ++ ['-'] ++ padded 2 d.month ++ ['-'] ++ padded 2 d.day

/-- A date inside another value. -/
def Date.written (d : Date) : Text :=
  "datetime.date(".toList ++ join ", " [ofNat d.year, ofNat d.month, ofNat d.day] ++ [')']

/-- An offset behind a time. -/
def showOffset (minutes : Int) : Text :=
  (if minutes < 0 then '-' else '+') :: padded 2 (minutes.natAbs / 60)
    ++ [':'] ++ padded 2 (minutes.natAbs % 60)

/-- A moment on its own. -/
def Moment.shown (m : Moment) : Text :=
  m.date.shown ++ [' '] ++ padded 2 m.hour ++ [':'] ++ padded 2 m.minute ++ [':']
    ++ padded 2 m.second ++ (if m.micro = 0 then [] else '.' :: padded 6 m.micro)
    ++ (m.offset?.map showOffset).getD []

/-- A moment inside another value; seconds are left out where they are none. -/
def Moment.written (m : Moment) : Text :=
  let seconds := if m.micro = 0 then (if m.second = 0 then [] else [m.second])
    else [m.second, m.micro]
  let numbers := [m.date.year, m.date.month, m.date.day, m.hour, m.minute] ++ seconds
  let zone : List Text := match m.offset? with
    | none => []
    | some 0 => ["tzinfo=datetime.timezone.utc"]
    | some z => ["tzinfo=datetime.timezone(".toList ++ writeMinutes z ++ [')']]
  "datetime.datetime(".toList ++ join ", " (numbers.map ofNat ++ zone) ++ [')']

/-! ## Read -/

/-- The time in a stamp: the fraction as it is written, and the offset in minutes. -/
structure StampTime where
  hour : Nat
  minute : Nat
  second : Nat
  fraction : Text
  offset? : Option Int

structure Stamp where
  date : Date
  time? : Option StampTime

/-- Reads between `least` and `most` digits, as many as there are. -/
def readDigits? (least most : Nat) (t : Text) : Option (Nat × Text) :=
  let ds := (t.takeWhile Char.isDigit).take most
  if ds.length < least then none else some (natural ds, t.drop ds.length)

/-- Reads one character. -/
def readChar? (c : Char) : Text → Option Text
  | [] => none
  | d :: t => if c = d then some t else none

def isStampBlank (c : Char) : Bool := c = ' ' || c = '\t'

/-- The offset that makes up a text: nothing, the letter of Greenwich, or hours and minutes with
their sign. -/
def readOffset? (t : Text) : Option (Option Int) :=
  match t with
  | [] => some none
  | t =>
    match t.dropWhile isStampBlank with
    | ['Z'] => some (some 0)
    | s :: t =>
      if s = '+' || s = '-' then do
        let (hours, t) ← readDigits? 1 2 t
        let (minutes, t) ← match t with
          | ':' :: t => readDigits? 2 2 t
          | t => some (0, t)
        let total : Int := hours * 60 + minutes
        if t.isEmpty then some (some (if s = '-' then -total else total)) else none
      else none
    | [] => none

def readTime? (t : Text) : Option StampTime := do
  let (hour, t) ← readDigits? 1 2 t
  let (minute, t) ← readDigits? 2 2 (← readChar? ':' t)
  let (second, t) ← readDigits? 2 2 (← readChar? ':' t)
  let (fraction, t) := match t with
    | '.' :: t => t.span Char.isDigit
    | t => ([], t)
  return ⟨hour, minute, second, fraction, ← readOffset? t⟩

/-- What stands before a time is passed over. -/
def readGap? : Text → Option Text
  | [] => none
  | c :: t =>
    if c = 'T' || c = 't' then some t
    else if isStampBlank c then some (t.dropWhile isStampBlank)
    else none

/-- A date, and a time behind it. -/
def Stamp.read? (t : Text) : Option Stamp := do
  let (year, t) ← readDigits? 4 4 t
  let (month, t) ← readDigits? 1 2 (← readChar? '-' t)
  let (day, t) ← readDigits? 1 2 (← readChar? '-' t)
  let date : Date := ⟨year, month, day⟩
  if t.isEmpty then some ⟨date, none⟩ else some ⟨date, some (← readTime? (← readGap? t))⟩

/-- The text is a stamp even without quotes: a date alone takes two digits for month and day. -/
def isStampWord (t : Text) : Bool :=
  match Stamp.read? t with
  | none => false
  | some s => s.time?.isSome || t.length = 10

/-- A fraction of a second in millionths; further digits are left out. -/
def microOf (fraction : Text) : Nat :=
  let ds := fraction.take 6
  natural (ds ++ List.replicate (6 - ds.length) '0')

/-- The moment of a stamp that has a time; an offset is less than a day. -/
def Stamp.moment (date : Date) (s : StampTime) : Except CalendarFault Moment :=
  match s.offset? with
  | some z =>
    if z.natAbs ≥ 1440 then .error (.offset z)
    else Moment.check ⟨date, s.hour, s.minute, s.second, microOf s.fraction, some z⟩
  | none => Moment.check ⟨date, s.hour, s.minute, s.second, microOf s.fraction, none⟩

end Lectern.Yaml
