import ExtensionAudit.Number.Binary64

/-!
The shortest decimal that reads back as a given floating-point number. The reals that round to the
number form an interval, closed if the significand is even. For one digit, two digits and so on the
two neighbours of the number on that decimal grid are tried; the first grid with a neighbour in the
interval wins, and of two neighbours the nearer one.
-/

namespace ExtensionAudit.Binary64

/-- The power of ten with an exponent of either sign, as a fraction. -/
def powerOfTen (exponent : Int) : Nat × Nat :=
  if exponent ≥ 0 then (powerOf 10 exponent.toNat, 1) else (1, powerOf 10 (-exponent).toNat)

/-- A positive finite number `significand · 2 ^ exponent` with its rounding interval, all in units
of `unitNum / unitDen`. -/
structure Neighbourhood where
  low : Nat
  value : Nat
  high : Nat
  closed : Bool
  unitNum : Nat
  unitDen : Nat

/-- The rounding interval of a number: half the gap to either neighbour, where the gap below a power
of two is half as wide. -/
def neighbourhood (significand : Nat) (exponent : Int) : Neighbourhood where
  low := 4 * significand - (if significand == powerOf 2 52 && exponent > minExponent then 1 else 2)
  value := 4 * significand
  high := 4 * significand + 2
  closed := significand % 2 == 0
  unitNum := if exponent ≥ 2 then powerOf 2 (exponent - 2).toNat else 1
  unitDen := if exponent ≥ 2 then 1 else powerOf 2 (2 - exponent).toNat

/-- Whether `digits · 10 ^ exponent` rounds to the number. -/
def Neighbourhood.holds (b : Neighbourhood) (digits : Nat) (exponent : Int) : Bool :=
  let (num, den) := powerOfTen exponent
  let x := digits * num * b.unitDen
  let low := b.low * b.unitNum * den
  let high := b.high * b.unitNum * den
  (low < x && x < high) || (b.closed && (x == low || x == high))

/-- The greatest multiple of `10 ^ exponent` up to the number, in multiples of it. -/
def Neighbourhood.floor (b : Neighbourhood) (exponent : Int) : Nat :=
  let (num, den) := powerOfTen exponent
  b.value * b.unitNum * den / (b.unitDen * num)

/-- Whether the number is nearer to `digits · 10 ^ exponent` than to the next multiple, an even
`digits` counting as nearer from halfway. -/
def Neighbourhood.prefersFloor (b : Neighbourhood) (digits : Nat) (exponent : Int) : Bool :=
  let (num, den) := powerOfTen exponent
  let twice := 2 * (b.value * b.unitNum * den)
  let middle := (2 * digits + 1) * num * b.unitDen
  twice < middle || (twice == middle && digits % 2 == 0)

/-- The decimal of one grid that reads back, if there is one. -/
def Neighbourhood.onGrid (b : Neighbourhood) (exponent : Int) : Option Nat :=
  let digits := b.floor exponent
  match b.holds digits exponent, b.holds (digits + 1) exponent with
  | true, true => some (if b.prefersFloor digits exponent then digits else digits + 1)
  | true, false => some digits
  | false, true => some (digits + 1)
  | false, false => none

/-- The least `p` with the number below `10 ^ p`, looked for near the estimate from its size in
bits. -/
def Neighbourhood.decimalPoint (b : Neighbourhood) (estimate : Int) : Int :=
  let below (p : Int) : Bool :=
    let (num, den) := powerOfTen p
    b.value * b.unitNum * den < num * b.unitDen
  ([estimate - 1, estimate, estimate + 1, estimate + 2].find? below).getD (estimate + 3)

/-- The digits without trailing zeros, with the exponent that makes up for them. -/
def trimZeros : Nat → Nat → Int → Nat × Int
  | 0, digits, exponent => (digits, exponent)
  | fuel + 1, digits, exponent =>
    if digits != 0 && digits % 10 == 0 then trimZeros fuel (digits / 10) (exponent + 1)
    else (digits, exponent)

/-- The shortest decimal `(d, e)`, standing for `d · 10 ^ e`, that reads back as the positive number
`significand · 2 ^ exponent`. Seventeen digits always suffice. -/
def shortest (significand : Nat) (exponent : Int) : Nat × Int :=
  let b := neighbourhood significand exponent
  let estimate := (Int.ofNat significand.log2 + exponent) * 1233 / 4096
  let point := b.decimalPoint estimate
  let grids := (List.range 17).map fun (n : Nat) => point - 1 - Int.ofNat n
  match grids.findSome? fun grid => (b.onGrid grid).map (·, grid) with
  | some (digits, grid) => trimZeros 20 digits grid
  | none => (b.floor (point - 17), point - 17)

/-- A decimal in positional notation, or with an exponent where the first digit stands before the
fourth place behind the point or beyond sixteen places in front of it. A whole number keeps one
zero behind the point, an exponent has a sign and at least two digits. -/
def decimalText (digits : Nat) (exponent : Int) : String :=
  let shown := Nat.toDigits 10 digits
  let point := Int.ofNat shown.length + exponent
  if point ≤ -4 || point > 16 then
    let power := point - 1
    let mantissa := match shown with
      | [d] => [d]
      | d :: rest => d :: '.' :: rest
      | [] => []
    let size := Nat.toDigits 10 power.natAbs
    let size := if size.length < 2 then '0' :: size else size
    String.ofList (mantissa ++ 'e' :: (if power < 0 then '-' else '+') :: size)
  else if point ≤ 0 then
    String.ofList ('0' :: '.' :: (List.replicate point.natAbs '0' ++ shown))
  else if exponent ≥ 0 then
    String.ofList (shown ++ List.replicate exponent.toNat '0' ++ ['.', '0'])
  else
    String.ofList (shown.take point.toNat ++ '.' :: shown.drop point.toNat)

/-- A number as text: the shortest decimal that reads back. -/
def text : Binary64 → String
  | .nan => "nan"
  | .infinite negative => if negative then "-inf" else "inf"
  | .finite negative significand exponent =>
    let magnitude :=
      if significand == 0 then "0.0"
      else decimalText (shortest significand exponent).1 (shortest significand exponent).2
    if negative then "-" ++ magnitude else magnitude

end ExtensionAudit.Binary64
