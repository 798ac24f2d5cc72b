import ExtensionAudit.Json.Reader

/-!
The tags of nodes, which say what kind of value a node denotes, and the tag of a plain scalar that
has none: numbers, truth values, dates and the like are recognised by their form.
-/

namespace ExtensionAudit.Yaml

/-- What kind of value a node denotes. -/
inductive Tag where
  | text
  | null
  | bool
  | int
  | float
  | binary
  | moment
  | sequence
  | mapping
  | set
  | orderedMapping
  | pairs
  /-- The sign that merges other mappings into one. -/
  | merge
  /-- The sign for the value of a mapping that stands for a scalar. -/
  | defaultValue
  | unknown
  deriving DecidableEq, Repr

def standardStart : String := "tag:yaml.org,2002:"

def standardTags : List (String × Tag) :=
  [("str", .text), ("null", .null), ("bool", .bool), ("int", .int), ("float", .float),
    ("binary", .binary), ("timestamp", .moment), ("seq", .sequence), ("map", .mapping),
    ("set", .set), ("omap", .orderedMapping), ("pairs", .pairs)]

def Tag.ofName (name : String) : Tag :=
  let tags := ("value", Tag.defaultValue) :: ("merge", Tag.merge) :: standardTags
  ((tags.find? fun entry => standardStart ++ entry.1 == name).map (·.2)).getD .unknown

def Tag.isCollection : Tag → Bool
  | .sequence | .mapping | .set | .orderedMapping | .pairs => true
  | _ => false

def isDigit (c : Char) : Bool := '0' ≤ c && c ≤ '9'

def isSpacedDigit (c : Char) : Bool := isDigit c || c == '_'

def isSign (c : Char) : Bool := c == '-' || c == '+'

def withoutSign : List Char → List Char
  | c :: rest => if isSign c then rest else c :: rest
  | [] => []

/-- What follows groups of a colon and a number below sixty, of which there is at least one; nothing
if a group is written otherwise. -/
def afterSixties : Nat → List Char → Option (List Char)
  | 0, _ => none
  | fuel + 1, ':' :: rest =>
    let digits := rest.takeWhile isDigit
    let after := rest.drop digits.length
    if digits.length == 1 || (digits.length == 2 && digits.head?.any (· ≤ '5')) then
      match after with
      | ':' :: _ => afterSixties fuel after
      | _ => some after
    else none
  | _, _ => none

def isExponentOrEnd : List Char → Bool
  | [] => true
  | e :: sign :: digits =>
    (e == 'e' || e == 'E') && isSign sign && !digits.isEmpty && digits.all isDigit
  | _ => false

/-- Whether the text has the form of a number with a fraction. -/
def looksFloat (cs : List Char) : Bool :=
  let body := withoutSign cs
  let signed := body.length != cs.length
  match body with
  | '.' :: rest =>
    let name := String.ofList rest
    ["inf", "Inf", "INF"].contains name || (!signed && ["nan", "NaN", "NAN"].contains name) ||
      (!signed && rest.head?.any isDigit && isExponentOrEnd (rest.dropWhile isSpacedDigit))
  | c :: _ =>
    isDigit c &&
      let after := body.dropWhile isSpacedDigit
      match after with
      | '.' :: rest => isExponentOrEnd (rest.dropWhile isSpacedDigit)
      | _ =>
        match afterSixties after.length after with
        | some ('.' :: rest) => rest.all isSpacedDigit
        | _ => false
  | [] => false

/-- Whether the text has the form of an integer: binary, octal, decimal, hexadecimal or in base
sixty. -/
def looksInt (cs : List Char) : Bool :=
  match withoutSign cs with
  | ['0'] => true
  | '0' :: 'b' :: rest => !rest.isEmpty && rest.all fun c => c == '0' || c == '1' || c == '_'
  | '0' :: 'x' :: rest => !rest.isEmpty && rest.all fun c => (Json.hexValue? c).isSome || c == '_'
  | '0' :: rest => !rest.isEmpty && rest.all fun c => ('0' ≤ c && c ≤ '7') || c == '_'
  | c :: rest =>
    isDigit c &&
      let after := rest.dropWhile isSpacedDigit
      (after.isEmpty || afterSixties after.length after == some [])
  | [] => false

/-- The parts of a date or a moment as they are written. -/
structure MomentText where
  year : List Char
  month : List Char
  day : List Char
  /-- Hour, minute, second, and the digits of a fraction. -/
  time : Option (List Char × List Char × List Char × List Char) := none
  /-- Whether a zone is stated, and unless it is the universal one, its sign, hours and minutes. -/
  zone : Option (Option (Char × List Char × List Char)) := none

def isInnerBlank (c : Char) : Bool := c == ' ' || c == '\t'

/-- The zone of a moment, blanks before it allowed; nothing at all states none. -/
def zoneText? (cs : List Char) : Option (Option (Option (Char × List Char × List Char))) :=
  match cs with
  | [] => some none
  | cs =>
    match cs.dropWhile isInnerBlank with
    | ['Z'] => some (some none)
    | sign :: rest =>
      let hours := rest.takeWhile isDigit
      if !isSign sign || hours.isEmpty || hours.length > 2 then none
      else match rest.drop hours.length with
        | [] => some (some (some (sign, hours, [])))
        | [':', a, b] =>
          if isDigit a && isDigit b then some (some (some (sign, hours, [a, b]))) else none
        | _ => none
    | [] => none

def momentText? (cs : List Char) : Option MomentText :=
  let year := cs.take 4
  match cs.drop 4 with
  | '-' :: afterYear =>
    let month := afterYear.takeWhile isDigit
    match afterYear.drop month.length with
    | '-' :: afterMonth =>
      let day := afterMonth.takeWhile isDigit
      let oneOrTwo (digits : List Char) : Bool := digits.length == 1 || digits.length == 2
      if !(year.length == 4 && year.all isDigit && oneOrTwo month && oneOrTwo day) then none
      else
        let start : MomentText := { year, month, day }
        let afterDay := afterMonth.drop day.length
        let gap := match afterDay with
          | 'T' :: _ => 1
          | 't' :: _ => 1
          | cs => (cs.takeWhile isInnerBlank).length
        if afterDay.isEmpty then some start
        else if gap == 0 then none
        else
          let clock := afterDay.drop gap
          let hour := clock.takeWhile isDigit
          match clock.drop hour.length with
          | ':' :: a :: b :: ':' :: c :: d :: rest =>
            if !(oneOrTwo hour && [a, b, c, d].all isDigit) then none
            else
              let fraction := match rest with
                | '.' :: rest => rest.takeWhile isDigit
                | _ => []
              let rest := match rest with
                | '.' :: rest => rest.drop fraction.length
                | rest => rest
              (zoneText? rest).map fun zone =>
                { start with time := some (hour, [a, b], [c, d], fraction), zone }
          | _ => none
    | _ => none
  | _ => none

/-- Whether the text has the form of a date or a moment. A date alone is written in full. -/
def looksMoment (cs : List Char) : Bool :=
  match momentText? cs with
  | none => false
  | some parts => parts.time.isSome || (parts.month.length == 2 && parts.day.length == 2)

/-- The words for truth values, in the cases in which they are recognised. -/
def truthWords : List String :=
  ["yes", "Yes", "YES", "no", "No", "NO", "true", "True", "TRUE", "false", "False", "FALSE",
    "on", "On", "ON", "off", "Off", "OFF"]

def nullWords : List String := ["~", "null", "Null", "NULL", ""]

def withoutFinalNewline (cs : List Char) : List Char :=
  if cs.getLast? == some '\n' then cs.dropLast else cs

/-- The tag of a plain scalar that has none. A line feed at the end, which only a block scalar can
have that is to be recognised like a plain one, does not count. -/
def Tag.ofPlain (s : String) : Tag :=
  let cs := withoutFinalNewline s.toList
  let form := String.ofList cs
  if truthWords.contains form then .bool
  else if looksFloat cs then .float
  else if looksInt cs then .int
  else if form == "<<" then .merge
  else if nullWords.contains form && (s.isEmpty || !form.isEmpty) then .null
  else if looksMoment cs then .moment
  else if form == "=" then .defaultValue
  else .text

end ExtensionAudit.Yaml
