/-!
Binary floating-point numbers of 64 bits, held exactly: a finite number is `significand · 2 ^
exponent` with at most 53 significant bits and an exponent of at least -1074. Rounding goes to the
nearest number and from halfway to the one with the even significand; what lies beyond the greatest
number becomes infinite.
-/

namespace ExtensionAudit

inductive Binary64 where
  | finite (negative : Bool) (significand : Nat) (exponent : Int)
  | infinite (negative : Bool)
  | nan
  deriving DecidableEq, Repr

def powerOf (base exponent : Nat) : Nat := Nat.pow base exponent

namespace Binary64

def minExponent : Int := -1074

def maxExponent : Int := 971

def zero (negative : Bool) : Binary64 := .finite negative 0 minExponent

/-- The fraction `num / den` as a fraction of `2 ^ exponent`. -/
def scaled (num den : Nat) (exponent : Int) : Nat × Nat :=
  if exponent ≥ 0 then (num, den * powerOf 2 exponent.toNat)
  else (num * powerOf 2 (-exponent).toNat, den)

/-- The whole number nearest to a fraction, the even one from halfway. -/
def roundHalfEven (num den : Nat) : Nat :=
  let quotient := num / den
  let rest := 2 * (num % den)
  if rest < den then quotient
  else if rest > den then quotient + 1
  else if quotient % 2 == 0 then quotient else quotient + 1

def ofRatio (negative : Bool) (num den : Nat) : Binary64 :=
  if num == 0 || den == 0 then zero negative
  else
    let guess : Int := max (Int.ofNat num.log2 - Int.ofNat den.log2 - 53) minExponent
    let (n, d) := scaled num den guess
    let exponent := if n / d ≥ powerOf 2 53 then guess + 1 else guess
    let (n, d) := scaled num den exponent
    let significand := roundHalfEven n d
    let (significand, exponent) :=
      if significand == powerOf 2 53 then (powerOf 2 52, exponent + 1) else (significand, exponent)
    if exponent > maxExponent then .infinite negative else .finite negative significand exponent

/-- The number nearest to `digits · 10 ^ exponent`. Exponents far outside the range are answered
without computing the power. -/
def ofDecimal (negative : Bool) (digits : Nat) (exponent : Int) : Binary64 :=
  if digits == 0 then zero negative
  else
    let magnitude := Int.ofNat (Nat.toDigits 10 digits).length + exponent
    if magnitude > 310 then .infinite negative
    else if magnitude < -330 then zero negative
    else if exponent ≥ 0 then ofRatio negative (digits * powerOf 10 exponent.toNat) 1
    else ofRatio negative digits (powerOf 10 (-exponent).toNat)

def ofInt (n : Int) : Binary64 := ofRatio (n < 0) n.natAbs 1

/-- A finite number as a signed numerator over a power of two. -/
def toFraction (negative : Bool) (significand : Nat) (exponent : Int) : Int × Nat :=
  let signed : Int := if negative then -Int.ofNat significand else Int.ofNat significand
  if exponent ≥ 0 then (signed * Int.ofNat (powerOf 2 exponent.toNat), 1)
  else (signed, powerOf 2 (-exponent).toNat)

/-- The number nearest to a signed fraction, where zero takes the given sign. -/
def ofSigned (zeroNegative : Bool) (num : Int) (den : Nat) : Binary64 :=
  if num == 0 then zero zeroNegative else ofRatio (num < 0) num.natAbs den

def neg : Binary64 → Binary64
  | .finite s m e => .finite (!s) m e
  | .infinite s => .infinite !s
  | .nan => .nan

def add : Binary64 → Binary64 → Binary64
  | .nan, _ => .nan
  | _, .nan => .nan
  | .infinite s, .infinite t => if s == t then .infinite s else .nan
  | .infinite s, _ => .infinite s
  | _, .infinite t => .infinite t
  | .finite s m e, .finite t n f =>
    let (a, p) := toFraction s m e
    let (b, q) := toFraction t n f
    ofSigned (s && t) (a * q + b * p) (p * q)

def isNegative : Binary64 → Bool
  | .finite s _ _ => s
  | .infinite s => s
  | .nan => false

def isZero : Binary64 → Bool
  | .finite _ m _ => m == 0
  | _ => false

def mul (x y : Binary64) : Binary64 :=
  let negative := x.isNegative != y.isNegative
  match x, y with
  | .nan, _ => .nan
  | _, .nan => .nan
  | .infinite _, y => if y.isZero then .nan else .infinite negative
  | x, .infinite _ => if x.isZero then .nan else .infinite negative
  | .finite s m e, .finite t n f =>
    let (a, p) := toFraction s m e
    let (b, q) := toFraction t n f
    ofSigned negative (a * b) (p * q)

def equalsInt (x : Binary64) (n : Int) : Bool :=
  match x with
  | .finite s m e =>
    let (a, p) := toFraction s m e
    a == n * p
  | _ => false

/-- Whether two numbers are equal; the two zeros are. -/
def equals : Binary64 → Binary64 → Bool
  | .finite s m e, .finite t n f => (m == 0 && n == 0) || (s == t && m == n && e == f)
  | x, y => x == y

end Binary64

end ExtensionAudit
