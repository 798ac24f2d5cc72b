import ExtensionAudit.Json.Basic

/-!
Reading of JSON text. A document is read strictly, but the three names for numbers that are none are
taken, and a key that occurs again keeps its first place and takes its last value. Integers and
other numbers are kept apart.
-/

namespace ExtensionAudit.Json

def isJsonBlank (c : Char) : Bool := c == ' ' || c == '\t' || c == '\n' || c == '\r'

def dropJsonBlanks (cs : List Char) : List Char := cs.dropWhile isJsonBlank

def hexValue? (c : Char) : Option Nat :=
  if '0' ≤ c && c ≤ '9' then some (c.toNat - 0x30)
  else if 'a' ≤ c && c ≤ 'f' then some (c.toNat - 0x57)
  else if 'A' ≤ c && c ≤ 'F' then some (c.toNat - 0x37)
  else none

def hexNumber? (cs : List Char) : Option Nat :=
  cs.foldlM (fun n c => (hexValue? c).map (16 * n + ·)) 0

def decimalNumber (cs : List Char) : Nat := cs.foldl (fun n c => 10 * n + (c.toNat - 0x30)) 0

def isDecimalDigit (c : Char) : Bool := '0' ≤ c && c ≤ '9'

/-- Whether a code unit is the first half of a pair. -/
def isHighUnit (n : Nat) : Bool := 0xD800 ≤ n && n < 0xDC00

/-- Whether a code unit is the second half of a pair. -/
def isLowUnit (n : Nat) : Bool := 0xDC00 ≤ n && n < 0xE000

/-- The character of a code unit that stands alone. Half a pair has none and becomes U+FFFD, since a
text cannot hold the half as it is: two names that differ in such halves alone are one name here. -/
def unitChar (n : Nat) : Char := if isHighUnit n || isLowUnit n then '\uFFFD' else Char.ofNat n

/-- The character of the escape letter of a JSON string. -/
def escapedChar? (c : Char) : Option Char :=
  if c == '"' || c == '\\' || c == '/' then some c
  else if c == 'b' then some '\x08'
  else if c == 'f' then some '\x0c'
  else if c == 'n' then some '\n'
  else if c == 'r' then some '\r'
  else if c == 't' then some '\t'
  else none

def stringRest : List Char → Option (List Char × List Char)
  | '"' :: rest => some ([], rest)
  | '\\' :: 'u' :: a :: b :: c :: d :: '\\' :: 'u' :: e :: f :: g :: h :: rest =>
    match hexNumber? [a, b, c, d], hexNumber? [e, f, g, h] with
    | some high, some low =>
      if isHighUnit high && isLowUnit low then
        let c := Char.ofNat (0x10000 + (high - 0xD800) * 0x400 + (low - 0xDC00))
        (stringRest rest).map fun (s, rest) => (c :: s, rest)
      else
        (stringRest ('\\' :: 'u' :: e :: f :: g :: h :: rest)).map fun (s, rest) =>
          (unitChar high :: s, rest)
    | _, _ => none
  | '\\' :: 'u' :: a :: b :: c :: d :: rest =>
    match hexNumber? [a, b, c, d] with
    | some n => (stringRest rest).map fun (s, rest) => (unitChar n :: s, rest)
    | none => none
  | '\\' :: c :: rest =>
    match escapedChar? c with
    | some c => (stringRest rest).map fun (s, rest) => (c :: s, rest)
    | none => none
  | c :: rest =>
    if c.toNat < 0x20 || c == '\\' then none
    else (stringRest rest).map fun (s, rest) => (c :: s, rest)
  | [] => none

/-- The greatest count of digits that an integer may have. -/
def maxIntegerDigits : Nat := 4300

/-- A number: an integer, unless a fraction or an exponent follows. -/
def numberFrom (cs : List Char) : Option (Json × List Char) :=
  let (negative, cs) := match cs with
    | '-' :: rest => (true, rest)
    | cs => (false, cs)
  let whole := match cs with
    | '0' :: _ => ['0']
    | cs => cs.takeWhile isDecimalDigit
  if whole.isEmpty then none
  else
    let afterWhole := cs.drop whole.length
    let fraction := match afterWhole with
      | '.' :: rest => rest.takeWhile isDecimalDigit
      | _ => []
    let afterFraction :=
      if fraction.isEmpty then afterWhole else afterWhole.drop (fraction.length + 1)
    let (mark, power) := match afterFraction with
      | c :: rest =>
        if c == 'e' || c == 'E' then
          let sign := match rest with
            | '+' :: _ => ['+']
            | '-' :: _ => ['-']
            | _ => []
          (1 + sign.length, (sign, (rest.drop sign.length).takeWhile isDecimalDigit))
        else (0, ([], []))
      | [] => (0, ([], []))
    if fraction.isEmpty && power.2.isEmpty then
      if whole.length > maxIntegerDigits then none
      else
        let n := Int.ofNat (decimalNumber whole)
        some (.int (if negative then -n else n), afterWhole)
    else
      let exponent := Int.ofNat (decimalNumber power.2)
      let exponent := if power.1 == ['-'] then -exponent else exponent
      let rest := if power.2.isEmpty then afterFraction
        else afterFraction.drop (mark + power.2.length)
      some (.float (.ofDecimal negative (decimalNumber (whole ++ fraction))
        (exponent - Int.ofNat fraction.length)), rest)

def names : List (String × Json) :=
  [("null", .null), ("true", .bool true), ("false", .bool false), ("NaN", .float .nan),
    ("Infinity", .float (.infinite false)), ("-Infinity", .float (.infinite true))]

def nameFrom (cs : List Char) : Option (Json × List Char) :=
  names.findSome? fun (name, value) =>
    if name.toList.isPrefixOf cs then some (value, cs.drop name.length) else none

/-- The members with one more: a known key keeps its place and takes the new value. -/
def putMember (members : List (String × Json)) (key : String) (value : Json) :
    List (String × Json) :=
  if members.any (·.1 == key) then
    members.map fun member => if member.1 == key then (key, value) else member
  else members ++ [(key, value)]

mutual

/-- A document at the start of the text. Each step spends one unit of fuel. -/
def valueFrom : Nat → List Char → Option (Json × List Char)
  | 0, _ => none
  | fuel + 1, cs =>
    match cs with
    | '"' :: rest => (stringRest rest).map fun (s, rest) => (.text (String.ofList s), rest)
    | '[' :: rest =>
      match dropJsonBlanks rest with
      | ']' :: rest => some (.list [], rest)
      | rest => itemsFrom fuel [] rest
    | '\x7b' :: rest =>
      match dropJsonBlanks rest with
      | '\x7d' :: rest => some (.object [], rest)
      | rest => membersFrom fuel [] rest
    | cs =>
      match nameFrom cs with
      | some result => some result
      | none => numberFrom cs

/-- The items of a list from the next one on, behind those already read. -/
def itemsFrom : Nat → List Json → List Char → Option (Json × List Char)
  | 0, _, _ => none
  | fuel + 1, items, cs =>
    match valueFrom fuel cs with
    | none => none
    | some (item, rest) =>
      match dropJsonBlanks rest with
      | ']' :: rest => some (.list (items ++ [item]), rest)
      | ',' :: rest => itemsFrom fuel (items ++ [item]) (dropJsonBlanks rest)
      | _ => none

/-- The members of an object from the next one on, behind those already read. -/
def membersFrom : Nat → List (String × Json) → List Char → Option (Json × List Char)
  | 0, _, _ => none
  | fuel + 1, members, cs =>
    match cs with
    | '"' :: rest =>
      match stringRest rest with
      | none => none
      | some (key, rest) =>
        match dropJsonBlanks rest with
        | ':' :: rest =>
          match valueFrom fuel (dropJsonBlanks rest) with
          | none => none
          | some (value, rest) =>
            let members := putMember members (String.ofList key) value
            match dropJsonBlanks rest with
            | '\x7d' :: rest => some (.object members, rest)
            | ',' :: rest => membersFrom fuel members (dropJsonBlanks rest)
            | _ => none
        | _ => none
    | _ => none

end

/-- The document that a text holds. Each character is spent on two steps at most, which bounds the
fuel. That is no limit on how deep the document nests, and an interpreter's limit on recursion is no
part of this. -/
def parse? (s : String) : Option Json :=
  let cs := s.toList
  match valueFrom (2 * cs.length + 2) (dropJsonBlanks cs) with
  | some (value, rest) => if (dropJsonBlanks rest).isEmpty then some value else none
  | none => none

end ExtensionAudit.Json
