-- SUMMARY: Serial dates shown by a section.
import Worksheet.Serial
import Worksheet.Format.DateToken

/-!
# Dates in a Section

A serial date is first rounded to the smallest unit that the section shows:
seconds, or up to three decimals of them. All parts are then taken from the
rounded time, so that they agree with each other.
-/

namespace Worksheet.Format.DateText

/-- The microseconds of a day. -/
def dayMicros : Nat := 86400000000

/-- The first serial date that the calendar does not have. -/
def limit : Nat := 2958466

/-- The decimals of the second that a section shows. -/
def decimals (ts : List (DateToken DatePart)) : Nat :=
  (ts.map fun t => match t with
    | .fraction width => width
    | _ => 0).foldl max 0

/-- The smallest unit that a section shows, in microseconds. Milliseconds are the
    smallest there is. -/
def smallestUnit (ts : List (DateToken DatePart)) : Nat := Nat.pow 10 (6 - min (decimals ts) 3)

/-- A serial date in microseconds, rounded to a unit. The last unit of the
    calendar is not rounded up. -/
def roundedMicros (x : Binary64) (unit : Nat) : Except Fault Int :=
  match x with
  | .finite q =>
    match ((x.times dayMicros).dividedBy unit).nearest? with
    | none => .error .tooLarge
    | some n =>
      let total := n * unit
      .ok (if q < limit then min total ((limit * dayMicros - unit : Nat) : Int) else total)
  | x => .error (.serialOutOfRange x)

/-! ## Tokens -/

/-- Whether a section shows the hours of half a day. -/
def isTwelveHour (ts : List (DateToken DatePart)) : Bool :=
  ts.any fun t => match t with
    | .halfDay _ => true
    | .halfDayLetter _ => true
    | _ => false

/-- The hour on a clock face of twelve hours. -/
def twelveHour (hour : Nat) : Nat := if hour % 12 = 0 then 12 else hour % 12

/-- A number in one or two digits. -/
def short (width n : Nat) : List Char := Digits.padded (min width 2) n

/-- A part of a moment for a run of `width` letters. -/
def partText (m : Moment) (twelve : Bool) (width : Nat) : DatePart → List Char
  | .year => if 2 < width then Digits.padded 4 m.date.year else Digits.padded 2 (m.date.year % 100)
  | .month =>
    if width ≤ 2 then short width m.date.month
    else if width = 3 then (Calendar.monthName m.date.month).take 3
    else if width = 5 then (Calendar.monthName m.date.month).take 1
    else Calendar.monthName m.date.month
  | .day =>
    if width ≤ 2 then short width m.date.day
    else if width = 3 then (Calendar.weekdayName m.weekday).take 3
    else Calendar.weekdayName m.weekday
  | .hour => short width (if twelve then twelveHour m.hour else m.hour)
  | .minute => short width m.minute
  | .second => short width m.second

/-- The microseconds in a unit of elapsed time. -/
def unitMicros : ElapsedUnit → Nat
  | .hours => 3600000000
  | .minutes => 60000000
  | .seconds => 1000000

/-- The full units in a number of microseconds. -/
def elapsed (micros : Int) (unit : ElapsedUnit) : Int :=
  match Binary64.quotient micros (unitMicros unit) with
  | .finite q => q.floor
  | _ => 0

/-- What a token shows of a moment and of the microseconds up to it. -/
def tokenText (m : Moment) (micros : Int) (twelve : Bool) : DateToken DatePart → List Char
  | .run part text => partText m twelve text.length part
  | .fraction width => '.' :: (Digits.padded 6 m.microsecond).take width
  | .elapsed unit width => Digits.ofIntPadded width (elapsed micros unit)
  | .halfDay _ => if m.hour < 12 then ['A', 'M'] else ['P', 'M']
  | .halfDayLetter text =>
    let letter := if m.hour < 12 then 'A' else 'P'
    if text.head?.any Char.isLower then [letter.toLower] else [letter]
  | .literal text => text

/-- A serial date in a cleaned section. -/
def text (x : Binary64) (s : List Char) : Except Fault (List Char) := do
  let ts := DateToken.ofSection s
  let micros ← roundedMicros x (smallestUnit ts)
  let m ← Serial.moment (Binary64.quotient micros dayMicros)
  pure (ts.flatMap (tokenText m micros (isTwelveHour ts)))

end Worksheet.Format.DateText
