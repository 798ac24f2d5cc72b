import ExtensionAudit.Number.Numeral
import ExtensionAudit.Text.Base64
import ExtensionAudit.Text.Case
import ExtensionAudit.Value.Basic
import ExtensionAudit.Yaml.Fault
import ExtensionAudit.Yaml.Tag

/-!
The values of scalars. A tag that a document states itself may stand with any text, so each kind of
value has to refuse the texts that do not write one.
-/

namespace ExtensionAudit.Yaml

def withoutLowLines (cs : List Char) : List Char := cs.filter (· != '_')

def truthValue (s : String) : Except ScalarFault Bool :=
  let word := Text.lower s
  if ["yes", "true", "on"].contains word then .ok true
  else if ["no", "false", "off"].contains word then .ok false
  else .error (.notTruthValue word)

def integerIn (base : Nat) (cs : List Char) : Except ScalarFault Int :=
  match Numeral.integer base cs with
  | .ok n => .ok n
  | .error .notInteger => .error (.notInteger base (String.ofList cs))
  | .error (.tooManyDigits count) => .error (.tooManyDigits count)

/-- The integer of parts in base sixty, the first one counting most. -/
def integerOfSixties (parts : List (List Char)) : Except ScalarFault Int :=
  parts.foldlM (fun n part => (integerIn 10 part).map (60 * n + ·)) 0

/-- An integer without its sign: what follows a leading zero tells the base. -/
def unsignedInteger (cs : List Char) : Except ScalarFault Int :=
  match cs with
  | [] => .error .emptyNumber
  | ['0'] => .ok 0
  | '0' :: 'b' :: rest => integerIn 2 rest
  | '0' :: 'x' :: rest => integerIn 16 rest
  | '0' :: _ => integerIn 8 cs
  | _ => if cs.contains ':' then integerOfSixties (cs.splitOn ':') else integerIn 10 cs

def integerValue (s : String) : Except ScalarFault Int :=
  let (negative, body) := Numeral.sign (withoutLowLines s.toList)
  (unsignedInteger body).map fun n => if negative then -n else n

def decimalOf (cs : List Char) : Except ScalarFault Binary64 :=
  match Numeral.decimal? cs with
  | some x => .ok x
  | none => .error (.notNumber (String.ofList cs))

/-- The sum of numbers, each times the weight of its place in base sixty, the first one counting
least. -/
def sumOfSixties (sum : Binary64) (weight : Nat) : List Binary64 → Binary64
  | [] => sum
  | x :: rest => sumOfSixties (sum.add (x.mul (.ofInt weight))) (60 * weight) rest

def unsignedDecimal (cs : List Char) : Except ScalarFault Binary64 :=
  if cs == ".inf".toList then .ok (.infinite false)
  else if cs == ".nan".toList then .ok .nan
  else if cs.contains ':' then
    ((cs.splitOn ':').mapM decimalOf).map fun parts => sumOfSixties (.zero false) 1 parts.reverse
  else decimalOf cs

def decimalValue (s : String) : Except ScalarFault Binary64 :=
  let cs := (Text.lower (String.ofList (withoutLowLines s.toList))).toList
  if cs.isEmpty then .error .emptyNumber
  else
    let (negative, body) := Numeral.sign cs
    (unsignedDecimal body).map fun x => if negative then x.neg else x

def bytesValue (s : String) : Except Fault Value :=
  let cs := s.toList
  if cs.any fun c => c.toNat ≥ 128 then .error .malformed
  else match Text.base64? cs with
    | some bytes => .ok (.bytes bytes)
    | none => .error .malformed

def number (digits : List Char) : Nat := Json.decimalNumber digits

/-- The microseconds of a fraction of a second, whose digits beyond the sixth do not count. -/
def microseconds (fraction : List Char) : Nat :=
  number (fraction.take 6 ++ List.replicate (6 - fraction.length) '0')

/-- The seconds of a stated zone. The universal zone is written as a letter or as zero. -/
def zoneOffset : Option (Char × List Char × List Char) → Except ScalarFault Int
  | none => .ok 0
  | some (mark, hours, minutes) =>
    let seconds := Int.ofNat (number hours * 3600 + number minutes * 60)
    let offset := if mark == '-' then -seconds else seconds
    if seconds < 86400 then .ok offset else .error (.moment (.offset offset))

/-- A result whose fault is one of the calendar or the clock. -/
def ofCalendar {α : Type} : Except MomentFault α → Except ScalarFault α
  | .ok a => .ok a
  | .error fault => .error (.moment fault)

def momentOfText (parts : MomentText) : Except ScalarFault Value :=
  let year := number parts.year
  let month := number parts.month
  let day := number parts.day
  match parts.time with
  | none => (ofCalendar (Date.of year month day)).map .date
  | some (hour, minute, second, fraction) => do
    let offset ← match parts.zone with
      | none => pure none
      | some zone => some <$> zoneOffset zone
    let moment ← ofCalendar (Moment.of year month day (number hour) (number minute) (number second)
      (microseconds fraction) offset)
    return .moment moment

def momentValue (s : String) : Except ScalarFault Value :=
  match momentText? (withoutFinalNewline s.toList) with
  | none => .error .noMoment
  | some parts => momentOfText parts

def ofScalar {α : Type} : Except ScalarFault α → Except Fault α
  | .ok a => .ok a
  | .error fault => .error (.scalar fault)

/-- The value of a text under the tag of a scalar. -/
def scalarValue (tag : Tag) (s : String) : Except Fault Value :=
  match tag with
  | .text => .ok (.text s)
  | .null => .ok .null
  | .bool => ofScalar ((truthValue s).map .bool)
  | .int => ofScalar ((integerValue s).map .int)
  | .float => ofScalar ((decimalValue s).map .float)
  | .binary => bytesValue s
  | .moment => ofScalar (momentValue s)
  | _ => .error .malformed

end ExtensionAudit.Yaml
