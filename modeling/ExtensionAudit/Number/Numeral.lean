import ExtensionAudit.Number.Binary64
import ExtensionAudit.Text.Blank
import ExtensionAudit.Text.Digit

/-!
Numerals: how integers in some base and decimal numbers with a fraction are written. Blanks may
stand around a numeral, a sign in front, and the digits may be those of any script.
-/

namespace ExtensionAudit.Numeral

/-- A blank around a numeral. Of the characters of ASCII only the space and those of format count.
-/
def isOuterBlank (c : Char) : Bool :=
  if c.toNat < 128 then c == ' ' || (0x09 ≤ c.toNat && c.toNat ≤ 0x0D) else Text.isBlank c

/-- The value of a letter as a digit of a base above ten. -/
def letterValue? (c : Char) : Option Nat :=
  if 'a' ≤ c && c ≤ 'z' then some (c.toNat - 0x57)
  else if 'A' ≤ c && c ≤ 'Z' then some (c.toNat - 0x37)
  else none

def digit? (base : Nat) (c : Char) : Option Nat :=
  ((Text.digitValue? c).or (letterValue? c)).filter (· < base)

/-- The values of the leading digits of a base, and what follows them. -/
def digits (base : Nat) : List Char → List Nat × List Char
  | [] => ([], [])
  | c :: rest =>
    match digit? base c with
    | none => ([], c :: rest)
    | some value =>
      let (values, rest) := digits base rest
      (value :: values, rest)

def ofDigits (base : Nat) (values : List Nat) : Nat :=
  values.foldl (fun n value => base * n + value) 0

/-- Whether a sign in front makes the number negative, and what follows the sign. -/
def sign : List Char → Bool × List Char
  | '-' :: rest => (true, rest)
  | '+' :: rest => (false, rest)
  | cs => (false, cs)

def baseMark (base : Nat) : Option Char :=
  if base == 2 then some 'b'
  else if base == 8 then some 'o'
  else if base == 16 then some 'x'
  else none

/-- The text without a zero and the letter of its base in front. -/
def withoutBaseMark (base : Nat) : List Char → List Char
  | '0' :: c :: rest => if baseMark base == some c.toLower then rest else '0' :: c :: rest
  | cs => cs

/-- Why a text is no integer. -/
inductive IntegerFault where
  | notInteger
  | tooManyDigits (count : Nat)
  deriving DecidableEq, Repr

def maxDigits : Nat := 4300

/-- Whether the integer can be written: it must not have too many digits. -/
def isWritable (n : Int) : Bool := (Nat.toDigits 10 n.natAbs).length ≤ maxDigits

/-- What is said of an integer that cannot be written. -/
def unwritableMessage : String :=
  "Exceeds the limit (4300 digits) for integer string conversion; use " ++
    "sys.set_int_max_str_digits() to increase the limit"

/-- The integer that a text writes in base two, eight, ten or sixteen. -/
def integer (base : Nat) (cs : List Char) : Except IntegerFault Int :=
  let (negative, body) := sign (cs.dropWhile isOuterBlank)
  let (values, rest) := digits base (withoutBaseMark base body)
  if values.isEmpty then .error .notInteger
  else if base == 10 && values.length > maxDigits then .error (.tooManyDigits values.length)
  else if rest.all isOuterBlank then
    let n := Int.ofNat (ofDigits base values)
    .ok (if negative then -n else n)
  else .error .notInteger

/-- A signed exponent behind its letter, and what follows it; without one the text is left as it
is. -/
def exponent (cs : List Char) : Int × List Char :=
  match cs with
  | c :: rest =>
    let (negative, body) := sign rest
    let (values, after) := digits 10 body
    if c.toLower != 'e' || values.isEmpty then (0, cs)
    else
      let n := Int.ofNat (ofDigits 10 values)
      (if negative then -n else n, after)
  | [] => (0, [])

/-- The digits of a fraction behind its point, and what follows them. -/
def fraction : List Char → List Nat × List Char
  | '.' :: rest => digits 10 rest
  | cs => ([], cs)

/-- The number without its sign that a text begins with, and what follows it. -/
def unsignedDecimal? (negative : Bool) (cs : List Char) : Option (Binary64 × List Char) :=
  let (whole, rest) := digits 10 cs
  let (parts, rest) := fraction rest
  if whole.isEmpty && parts.isEmpty then none
  else
    let (power, rest) := exponent rest
    some (.ofDecimal negative (ofDigits 10 (whole ++ parts)) (power - Int.ofNat parts.length), rest)

def numberWord? (negative : Bool) (cs : List Char) : Option Binary64 :=
  let word := String.ofList (cs.map Char.toLower)
  if word == "inf" || word == "infinity" then some (.infinite negative)
  else if word == "nan" then some .nan
  else none

/-- The number that a text writes with or without a fraction. -/
def decimal? (cs : List Char) : Option Binary64 :=
  let trimmed := ((cs.dropWhile isOuterBlank).reverse.dropWhile isOuterBlank).reverse
  let (negative, body) := sign trimmed
  match numberWord? negative body with
  | some number => some number
  | none =>
    match unsignedDecimal? negative body with
    | some (number, []) => some number
    | _ => none

end ExtensionAudit.Numeral
