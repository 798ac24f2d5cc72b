/-!
Calendar dates, and moments of a day with an optional offset from universal time, as a settings
document can hold them. A date is checked against the length of its month, a moment against the
clock.
-/

namespace ExtensionAudit

/-- A day of the calendar. -/
structure Date where
  year : Nat
  month : Nat
  day : Nat
  deriving DecidableEq, Repr

/-- A day with a time; `offset` counts seconds east of universal time, where one is stated. -/
structure Moment where
  date : Date
  hour : Nat
  minute : Nat
  second : Nat
  microsecond : Nat
  offset : Option Int
  deriving DecidableEq, Repr

/-- What is wrong with a date or a moment. -/
inductive MomentFault where
  | year (n : Nat)
  | month
  | day
  | hour
  | minute
  | second
  | offset (seconds : Int)
  deriving DecidableEq, Repr

def isLeapYear (year : Nat) : Bool :=
  year % 4 == 0 && (year % 100 != 0 || year % 400 == 0)

def daysInMonth (year month : Nat) : Nat :=
  if month == 2 then (if isLeapYear year then 29 else 28)
  else if month == 4 || month == 6 || month == 9 || month == 11 then 30
  else 31

/-- The date, if there is such a day from year 1 on. -/
def Date.of (year month day : Nat) : Except MomentFault Date :=
  if year < 1 || 9999 < year then .error (.year year)
  else if month < 1 || 12 < month then .error .month
  else if day < 1 || daysInMonth year month < day then .error .day
  else .ok ⟨year, month, day⟩

def Moment.of (year month day hour minute second microsecond : Nat) (offset : Option Int) :
    Except MomentFault Moment :=
  match Date.of year month day with
  | .error fault => .error fault
  | .ok date =>
    if 23 < hour then .error .hour
    else if 59 < minute then .error .minute
    else if 59 < second then .error .second
    else .ok ⟨date, hour, minute, second, microsecond, offset⟩

def daysBeforeYear (year : Nat) : Nat :=
  let y := year - 1
  y * 365 + y / 4 - y / 100 + y / 400

def daysOfMonths (year : Nat) : Nat → Nat
  | 0 => 0
  | months + 1 => daysOfMonths year months + daysInMonth year (months + 1)

def Date.dayNumber (date : Date) : Nat :=
  daysBeforeYear date.year + daysOfMonths date.year (date.month - 1) + date.day

/-- The microseconds from the beginning of the calendar in universal time. -/
def Moment.instant (m : Moment) (offset : Int) : Int :=
  let seconds := Int.ofNat (m.date.dayNumber * 86400 + m.hour * 3600 + m.minute * 60 + m.second)
  (seconds - offset) * 1000000 + m.microsecond

/-- Whether two moments are the same: as instants if both state an offset, as clock readings if none
does. -/
def Moment.same (a b : Moment) : Bool :=
  match a.offset, b.offset with
  | none, none => a == b
  | some x, some y => a.instant x == b.instant y
  | _, _ => false

def padded (width n : Nat) : String :=
  let shown := Nat.toDigits 10 n
  String.ofList (List.replicate (width - shown.length) '0' ++ shown)

def Date.text (date : Date) : String :=
  padded 4 date.year ++ "-" ++ padded 2 date.month ++ "-" ++ padded 2 date.day

def offsetText (offset : Int) : String :=
  let minutes := offset.natAbs / 60
  (if offset < 0 then "-" else "+") ++ padded 2 (minutes / 60) ++ ":" ++ padded 2 (minutes % 60)

def Moment.text (m : Moment) : String :=
  m.date.text ++ " " ++ padded 2 m.hour ++ ":" ++ padded 2 m.minute ++ ":" ++ padded 2 m.second ++
    (if m.microsecond == 0 then "" else "." ++ padded 6 m.microsecond) ++
    (match m.offset with
      | none => ""
      | some offset => offsetText offset)

def arguments (ns : List Nat) : String := String.intercalate ", " (ns.map toString)

def Date.constructorText (date : Date) : String :=
  "datetime.date(" ++ arguments [date.year, date.month, date.day] ++ ")"

/-- A length of time with its constructor: whole days, counted down from zero, and the seconds
beyond. -/
def durationText (seconds : Int) : String :=
  let days := seconds.fdiv 86400
  let rest := seconds.fmod 86400
  let parts := (if days == 0 then [] else ["days=" ++ toString days]) ++
    (if rest == 0 then [] else ["seconds=" ++ toString rest])
  "datetime.timedelta(" ++ (if parts.isEmpty then "0" else String.intercalate ", " parts) ++ ")"

/-- A moment with its constructor, where trailing zeros of seconds are left out. -/
def Moment.constructorText (m : Moment) : String :=
  let small :=
    if m.microsecond != 0 then [m.second, m.microsecond]
    else if m.second != 0 then [m.second] else []
  let zone := match m.offset with
    | none => ""
    | some 0 => ", tzinfo=datetime.timezone.utc"
    | some offset => ", tzinfo=datetime.timezone(" ++ durationText offset ++ ")"
  "datetime.datetime(" ++
    arguments ([m.date.year, m.date.month, m.date.day, m.hour, m.minute] ++ small) ++ zone ++ ")"

def MomentFault.message : MomentFault → String
  | .year n => "year " ++ toString n ++ " is out of range"
  | .month => "month must be in 1..12"
  | .day => "day is out of range for month"
  | .hour => "hour must be in 0..23"
  | .minute => "minute must be in 0..59"
  | .second => "second must be in 0..59"
  | .offset seconds =>
    "offset must be a timedelta strictly between -timedelta(hours=24) and timedelta(hours=24)" ++
      ", not " ++
      durationText seconds ++ "."

end ExtensionAudit
