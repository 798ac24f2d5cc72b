import ExtensionAudit.Json.Reader
import ExtensionAudit.Yaml.Cursor

/-!
The text of scalars in their five styles: between single or double quotes, plain, literal and
folded. Line breaks inside are folded: one break becomes a space, further ones stay. Each function
spends one unit of fuel a step and consumes at least one character in it.
-/

namespace ExtensionAudit.Yaml

open Reading

/-- The line breaks and blanks between two lines of a quoted scalar; the breaks are returned. A
document mark must not stand there. -/
def quotedBreaks : Nat → Reading (List Char)
  | 0 => fail
  | fuel + 1 => do
    if ← atDocumentMark then fail
    discard (takeWhile fun c => c == ' ' || c == '\t')
    match ← lineBreak with
    | none => return []
    | some c => return c :: (← quotedBreaks fuel)

/-- What a line break and the breaks behind it become. -/
def foldBreaks (first : Char) (breaks : List Char) : List Char :=
  if first != '\n' then first :: breaks
  else if breaks.isEmpty then [' ']
  else breaks

def escapeSign? (c : Char) : Option Char :=
  if c == '0' then some '\x00'
  else if c == 'a' then some '\x07'
  else if c == 'b' then some '\x08'
  else if c == 't' || c == '\t' then some '\t'
  else if c == 'n' then some '\n'
  else if c == 'v' then some '\x0b'
  else if c == 'f' then some '\x0c'
  else if c == 'r' then some '\r'
  else if c == 'e' then some '\x1b'
  else if c == ' ' || c == '"' || c == '\\' || c == '/' then some c
  else if c == 'N' then some '\u0085'
  else if c == '_' then some '\u00a0'
  else if c == 'L' then some '\u2028'
  else if c == 'P' then some '\u2029'
  else none

def escapeWidth? (c : Char) : Option Nat :=
  if c == 'x' then some 2
  else if c == 'u' then some 4
  else if c == 'U' then some 8
  else none

def hexEscape (width : Nat) : Reading Nat := do
  let cursor ← get
  let digits := cursor.rest.take width
  match Json.hexNumber? digits with
  | some n => if digits.length == width then skip width; return n else fail
  | none => fail

/-- The character of an escape by code; the two halves of a pair written one after the other make
one character. -/
def codeEscape (width : Nat) : Reading Char := do
  let n ← hexEscape width
  if n > 0x10FFFF then throw (.scalar .noCodePoint)
  if Json.isHighUnit n && (← peek 0) == '\\' && (← peek 1) == 'u' then
    let before ← get
    skip 2
    let low ← hexEscape 4
    if Json.isLowUnit low then return Char.ofNat (0x10000 + (n - 0xD800) * 0x400 + (low - 0xDC00))
    set before
  return Json.unitChar n

def escape (fuel : Nat) : Reading (List Char) := do
  let c ← peek 0
  match escapeSign? c with
  | some d =>
    skip 1
    return [d]
  | none =>
    match escapeWidth? c with
    | some width =>
      skip 1
      return [← codeEscape width]
    | none =>
      match ← lineBreak with
      | some _ => quotedBreaks fuel
      | none => fail

/-- The text of a quoted scalar behind its opening quote, latest character first in front of what
has been read. -/
def quotedRest (double : Bool) : Nat → List Char → Reading (List Char)
  | 0, _ => fail
  | fuel + 1, read => do
    let c ← peek 0
    if c == endSign then fail
    else if !double && c == '\'' && (← peek 1) == '\'' then
      skip 2
      quotedRest double fuel ('\'' :: read)
    else if c == (if double then '"' else '\'') then
      skip 1
      return read
    else if double && c == '\\' then
      skip 1
      quotedRest double fuel ((← escape fuel).reverse ++ read)
    else if isGapOrEnd c then
      let blanks ← takeWhile fun c => c == ' ' || c == '\t'
      if (← peek 0) == endSign then fail
      match ← lineBreak with
      | some first =>
        let folded := foldBreaks first (← quotedBreaks fuel)
        quotedRest double fuel (folded.reverse ++ read)
      | none => quotedRest double fuel (blanks.reverse ++ read)
    else
      skip 1
      quotedRest double fuel (c :: read)

def quotedScalar (double : Bool) : Reading String := do
  skip 1
  let fuel := (← get).rest.length + 1
  return String.ofList (← quotedRest double fuel []).reverse

/-- Whether a plain scalar ends, or pauses, before a character. -/
def endsPlain (inFlow : Bool) (c next : Char) : Bool :=
  isGapOrEnd c ||
    (c == ':' && (isGapOrEnd next || (inFlow && [',', '[', ']', '\x7b', '\x7d'].contains next))) ||
    (inFlow && [',', '?', '[', ']', '\x7b', '\x7d'].contains c)

/-- The characters of a plain scalar up to the next gap. -/
def plainRun (inFlow : Bool) : List Char → List Char
  | [] => []
  | c :: rest =>
    if endsPlain inFlow c (rest.head?.getD endSign) then [] else c :: plainRun inFlow rest

/-- The line breaks and spaces behind the first line break of a gap; `none` if a document mark ends
the scalar. -/
def plainBreaks : Nat → Reading (Option (List Char))
  | 0 => fail
  | fuel + 1 => do
    skipSpaces
    match ← lineBreak with
    | none => return some []
    | some c =>
      if ← atDocumentMark then return none
      return (← plainBreaks fuel).map (c :: ·)

/-- The gap behind a piece of a plain scalar, with whether it holds a line break. An empty gap ends
the scalar. -/
def plainGap (fuel : Nat) : Reading (List Char × Bool) := do
  let spaces ← takeWhile (· == ' ')
  match ← lineBreak with
  | none => return (spaces, false)
  | some first =>
    if ← atDocumentMark then return ([], true)
    match ← plainBreaks fuel with
    | none => return ([], true)
    | some breaks => return (foldBreaks first breaks, true)

/-- A plain scalar from a piece on, behind what has been read, latest character first. Also returned
is whether the last gap holds a line break. -/
def plainRest (inFlow : Bool) (indent : Int) : Nat → List Char → List Char → Bool →
    Reading (List Char × Bool)
  | 0, _, _, _ => fail
  | fuel + 1, read, gap, broken => do
    if (← peek 0) == '#' then return (read, broken)
    let piece := plainRun inFlow (← get).rest
    if piece.isEmpty then return (read, broken)
    skip piece.length
    let read := piece.reverse ++ gap.reverse ++ read
    let (gap, broken) ← plainGap fuel
    if gap.isEmpty || (← peek 0) == '#' || (!inFlow && Int.ofNat (← column) < indent) then
      return (read, broken)
    plainRest inFlow indent fuel read gap broken

/-- A plain scalar, with whether a line break follows it. -/
def plainScalar (inFlow : Bool) (indent : Int) : Reading (String × Bool) := do
  let fuel := (← get).rest.length + 1
  let (read, broken) ← plainRest inFlow indent fuel [] [] false
  return (String.ofList read.reverse, broken)

/-- What becomes of the line breaks at the end of a block scalar. -/
inductive Chomping where
  | strip
  | clip
  | keep
  deriving DecidableEq

def chompingSign : Reading (Option Chomping) := do
  let c ← peek 0
  if c == '+' then
    skip 1
    return some .keep
  else if c == '-' then
    skip 1
    return some .strip
  else return none

/-- A sign for the indentation of a block scalar, which is not zero. -/
def indentSign : Reading (Option Nat) := do
  let c ← peek 0
  if '1' ≤ c && c ≤ '9' then
    skip 1
    return some (c.toNat - 0x30)
  else if c == '0' then fail
  else return none

def blockSigns : Reading (Chomping × Option Nat) := do
  let first ← chompingSign
  let indent ← indentSign
  let second ← if first.isNone && indent.isSome then chompingSign else pure none
  if !isSpaceOrEnd (← peek 0) then fail
  return ((first <|> second).getD .clip, indent)

/-- The rest of a line that holds nothing but a comment. -/
def emptyRestOfLine : Reading Unit := do
  skipSpaces
  skipComment
  if !isBreakOrEnd (← peek 0) then fail
  discard lineBreak

/-- The empty lines in front of a block scalar, with the widest indentation seen. -/
def leadingLines : Nat → Nat → Reading (List Char × Nat)
  | 0, _ => fail
  | fuel + 1, widest => do
    skipSpaces
    let widest := max widest (← column)
    match ← lineBreak with
    | none => return ([], widest)
    | some c =>
      let (breaks, widest) ← leadingLines fuel widest
      return (c :: breaks, widest)

def skipIndent (indent : Nat) : Reading Unit := do
  let cursor ← get
  let spaces := (cursor.rest.takeWhile (· == ' ')).length
  skip (min spaces (indent - cursor.column))

def blockBreaks (indent : Nat) : Nat → Reading (List Char)
  | 0 => fail
  | fuel + 1 => do
    skipIndent indent
    match ← lineBreak with
    | none => return []
    | some c => return c :: (← blockBreaks indent fuel)

/-- Whether the cursor stands at the beginning of a line of a block scalar. -/
def atBlockLine (indent : Nat) : Reading Bool :=
  return (← column) == indent && (← peek 0) != endSign

/-- The lines of a block scalar behind what has been read, latest character first; also returned are
the last line break and the breaks behind it. -/
def blockLines (folded : Bool) (indent : Nat) : Nat → List Char → List Char →
    Reading (List Char × List Char × List Char)
  | 0, _, _ => fail
  | fuel + 1, read, breaks => do
    if !(← atBlockLine indent) then return (read, [], breaks)
    let start ← peek 0
    let line ← takeWhile (!isBreakOrEnd ·)
    let read := line.reverse ++ breaks.reverse ++ read
    let ending := (← lineBreak).toList
    let breaks ← blockBreaks indent fuel
    if !(← atBlockLine indent) then return (read, ending, breaks)
    let next ← peek 0
    let isBlank (c : Char) : Bool := c == ' ' || c == '\t'
    if folded && ending == ['\n'] && !isBlank start && !isBlank next then
      blockLines folded indent fuel (if breaks.isEmpty then ' ' :: read else read) breaks
    else blockLines folded indent fuel (ending ++ read) breaks

/-- A block scalar inside a block of the given indentation. -/
def blockScalar (folded : Bool) (parentIndent : Int) : Reading String := do
  skip 1
  let (chomping, sign) ← blockSigns
  emptyRestOfLine
  let least := max (parentIndent + 1).toNat 1
  let fuel := (← get).rest.length + 1
  let (breaks, indent) ← match sign with
    | none => do
      let (breaks, widest) ← leadingLines fuel 0
      pure (breaks, max least widest)
    | some width => do
      let indent := least + width - 1
      pure (← blockBreaks indent fuel, indent)
  let (read, ending, breaks) ← blockLines folded indent fuel [] breaks
  let kept := match chomping with
    | .strip => []
    | .clip => ending
    | .keep => ending ++ breaks
  return String.ofList (read.reverse ++ kept)

end ExtensionAudit.Yaml
