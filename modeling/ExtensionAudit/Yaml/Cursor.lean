import ExtensionAudit.Yaml.Fault

/-!
A cursor in the text of a YAML document, which counts characters, lines and columns, and the reading
of characters through it. Behind the end of the text the cursor shows a null character; a document
holds no other one.
-/

namespace ExtensionAudit.Yaml

/-- A place in a text. -/
structure Cursor where
  rest : List Char
  index : Nat := 0
  line : Nat := 0
  column : Nat := 0

def isBreak (c : Char) : Bool := c == '\n' || c == '\u0085' || c == '\u2028' || c == '\u2029'

/-- The sign for the end of the text. -/
def endSign : Char := '\x00'

def isBreakOrEnd (c : Char) : Bool := c == endSign || isBreak c

/-- A space, or the end of a line or of the text. -/
def isSpaceOrEnd (c : Char) : Bool := c == ' ' || isBreakOrEnd c

/-- A space, a tab, or the end of a line or of the text. -/
def isGapOrEnd (c : Char) : Bool := c == '\t' || isSpaceOrEnd c

/-- The cursor one character further. A byte order mark takes no column. -/
def Cursor.step (cursor : Cursor) : Cursor :=
  match cursor.rest with
  | [] => cursor
  | c :: rest =>
    if isBreak c then ⟨rest, cursor.index + 1, cursor.line + 1, 0⟩
    else ⟨rest, cursor.index + 1, cursor.line,
      if c == '\uFEFF' then cursor.column else cursor.column + 1⟩

def Cursor.skip (cursor : Cursor) : Nat → Cursor
  | 0 => cursor
  | n + 1 => (cursor.step).skip n

def Cursor.peek (cursor : Cursor) (n : Nat) : Char := cursor.rest[n]?.getD endSign

/-- A reading of characters, which may find the document at fault. -/
abbrev Reading := StateT Cursor (Except Fault)

namespace Reading

def fail {α : Type} : Reading α := throw .malformed

def peek (n : Nat) : Reading Char := return (← get).peek n

def column : Reading Nat := return (← get).column

def skip (n : Nat) : Reading Unit := modify (·.skip n)

/-- Goes on over the characters of a class, which are returned. -/
def takeWhile (p : Char → Bool) : Reading (List Char) := do
  let cursor ← get
  let taken := cursor.rest.takeWhile p
  set (cursor.skip taken.length)
  return taken

def skipSpaces : Reading Unit := discard (takeWhile (· == ' '))

/-- Goes on to the end of the line behind a number sign. -/
def skipComment : Reading Unit := do
  if (← peek 0) == '#' then discard (takeWhile (!isBreakOrEnd ·))

/-- Goes over a line break, if the cursor stands at one, and returns what it stands for: a line
feed, or one of the two separators that stay as they are. -/
def lineBreak : Reading (Option Char) := do
  let c ← peek 0
  if c == '\n' || c == '\u0085' then
    skip 1
    return some '\n'
  else if c == '\u2028' || c == '\u2029' then
    skip 1
    return some c
  else return none

/-- Whether a document mark stands at the cursor: three hyphens or three dots, and a gap. -/
def atDocumentMark : Reading Bool := do
  let cursor ← get
  let mark := cursor.rest.take 3
  return (mark == ['-', '-', '-'] || mark == ['.', '.', '.']) && isGapOrEnd (cursor.peek 3)

end Reading

end ExtensionAudit.Yaml
