import ExtensionAudit.Json.Basic
import ExtensionAudit.Number.Numeral
import ExtensionAudit.Value.Moment

/-!
The values that a settings document denotes. Collections keep their order. A value has two texts:
the plain one, which for a text is the text itself, and the shown one, which also tells values of
different kinds apart; inside a collection every value is shown.
-/

namespace ExtensionAudit

/-- A value of a settings document. -/
inductive Value where
  | null
  | bool (b : Bool)
  | int (n : Int)
  | float (x : Binary64)
  | text (s : String)
  | bytes (content : List UInt8)
  | date (d : Date)
  | moment (m : Moment)
  | list (items : List Value)
  | mapping (entries : List (Value × Value))
  | set (items : List Value)
  | pairs (items : List (Value × Value))
  /-- A list or a mapping that is the very collection in which it stands. -/
  | enclosing (isList : Bool)
  deriving Repr

namespace Value

def bracketed (opening closing : String) (items : List String) : String :=
  opening ++ String.intercalate ", " items ++ closing

mutual

def shown : Value → String
  | .null => "None"
  | .bool b => if b then "True" else "False"
  | .int n => toString n
  | .float x => x.text
  | .text s => Text.quoted s
  | .bytes content => Text.quotedBytes content
  | .date d => d.constructorText
  | .moment m => m.constructorText
  | .list items => bracketed "[" "]" (shownItems items)
  | .mapping entries => bracketed "\x7b" "\x7d" (shownEntries entries)
  | .set items =>
    if items.isEmpty then "set()" else bracketed "\x7b" "\x7d" (shownItems items)
  | .pairs items => bracketed "[" "]" (shownPairs items)
  | .enclosing isList => if isList then "[...]" else "\x7b...\x7d"

def shownItems : List Value → List String
  | [] => []
  | item :: rest => shown item :: shownItems rest

def shownEntries : List (Value × Value) → List String
  | [] => []
  | (key, value) :: rest => (shown key ++ ": " ++ shown value) :: shownEntries rest

def shownPairs : List (Value × Value) → List String
  | [] => []
  | (first, second) :: rest =>
    ("(" ++ shown first ++ ", " ++ shown second ++ ")") :: shownPairs rest

end

def plain : Value → String
  | .text s => s
  | .date d => d.text
  | .moment m => m.text
  | v => v.shown

mutual

/-- Whether the value has texts at all: no integer in it may have too many digits. -/
def isWritable : Value → Bool
  | .int n => Numeral.isWritable n
  | .list items | .set items => areWritable items
  | .mapping entries | .pairs entries => pairsAreWritable entries
  | _ => true

def areWritable : List Value → Bool
  | [] => true
  | item :: rest => isWritable item && areWritable rest

def pairsAreWritable : List (Value × Value) → Bool
  | [] => true
  | (first, second) :: rest =>
    isWritable first && isWritable second && pairsAreWritable rest

end

/-- The number that a value counts as when values are compared: a truth value is one or zero. -/
def asInt? : Value → Option Int
  | .bool b => some (if b then 1 else 0)
  | .int n => some n
  | _ => none

/-- Whether two values are the same key of a mapping. Numbers are compared by what they denote. -/
def sameKey (a b : Value) : Bool :=
  match a.asInt?, b.asInt? with
  | some m, some n => m == n
  | some m, none => match b with
    | .float x => x.equalsInt m
    | _ => false
  | none, some n => match a with
    | .float x => x.equalsInt n
    | _ => false
  | none, none => match a, b with
    | .null, .null => true
    | .float x, .float y => x.equals y
    | .text s, .text t => s == t
    | .bytes s, .bytes t => s == t
    | .date s, .date t => s == t
    | .moment s, .moment t => s.same t
    | _, _ => false

/-- The entries with one more. A key that is there already keeps its place and takes the value. -/
def put (entries : List (Value × Value)) (key value : Value) : List (Value × Value) :=
  match entries with
  | [] => [(key, value)]
  | (k, v) :: rest => if k.sameKey key then (k, value) :: rest else (k, v) :: put rest key value

def lookupText (entries : List (Value × Value)) (key : String) : Option Value :=
  (entries.find? fun entry => entry.1.sameKey (.text key)).map (·.2)

mutual

def ofJson : Json → Value
  | .null => .null
  | .bool b => .bool b
  | .int n => .int n
  | .float x => .float x
  | .text s => .text s
  | .list items => .list (ofJsonItems items)
  | .object members => .mapping (ofJsonMembers members)

def ofJsonItems : List Json → List Value
  | [] => []
  | item :: rest => ofJson item :: ofJsonItems rest

def ofJsonMembers : List (String × Json) → List (Value × Value)
  | [] => []
  | (key, value) :: rest => (.text key, ofJson value) :: ofJsonMembers rest

end

end Value

end ExtensionAudit
