import ExtensionAudit.Text.Utf8
import ExtensionAudit.Text.Word
import ExtensionAudit.Yaml.ScalarText
import ExtensionAudit.Yaml.Token

/-!
Division of a YAML document into tokens. Indentation opens and closes blocks. That a node is a key
shows only at the colon behind it, so places where a key may have begun are kept in mind, one for
each level of brackets, and the tokens of a mapping are put in there afterwards. Such a key ends on
its line and within 1024 characters.
-/

namespace ExtensionAudit.Yaml

open Reading

/-- A place where a key may have begun. -/
structure KeyPlace where
  tokenNumber : Nat
  required : Bool
  index : Nat
  line : Nat
  column : Nat

/-- The state of the division: the cursor, the depth of brackets, the indentation of the current
block and of those around it, whether a key may begin, the places kept in mind by depth, and the
tokens. -/
structure LexerState where
  cursor : Cursor
  depth : Nat := 0
  indent : Int := -1
  outerIndents : List Int := []
  keyAllowed : Bool := true
  keyPlaces : List (Nat × KeyPlace) := []
  tokens : Array Token := #[]

abbrev Lexing := StateT LexerState (Except Fault)

namespace Lexing

def fail {α : Type} : Lexing α := throw .malformed

def read {α : Type} (reading : Reading α) : Lexing α := do
  let state ← get
  let (a, cursor) ← (reading.run state.cursor : Except Fault (α × Cursor))
  set { state with cursor }
  return a

def emit (token : Token) : Lexing Unit :=
  modify fun state => { state with tokens := state.tokens.push token }

def emitAt (number : Nat) (token : Token) : Lexing Unit :=
  modify fun state =>
    { state with tokens := (state.tokens.toList.insertIdx number token).toArray }

def allowKey (allowed : Bool) : Lexing Unit :=
  modify fun state => { state with keyAllowed := allowed }

/-- Forgets the places where a key can no longer end; a required key must not be forgotten. -/
def dropStaleKeys : Lexing Unit := do
  let state ← get
  let isStale (key : KeyPlace) : Bool :=
    key.line != state.cursor.line || state.cursor.index - key.index > 1024
  let (stale, fresh) := state.keyPlaces.partition fun entry => isStale entry.2
  if stale.any (·.2.required) then fail
  set { state with keyPlaces := fresh }

def dropKey : Lexing Unit := do
  let state ← get
  match state.keyPlaces.lookup state.depth with
  | none => return
  | some key =>
    if key.required then fail
    set { state with keyPlaces := state.keyPlaces.filter (·.1 != state.depth) }

/-- Keeps the cursor in mind as a place where a key may begin, if one may. -/
def saveKey : Lexing Unit := do
  let state ← get
  if state.keyAllowed then
    dropKey
    let key : KeyPlace := {
      tokenNumber := state.tokens.size
      required := state.depth == 0 && state.indent == Int.ofNat state.cursor.column
      index := state.cursor.index
      line := state.cursor.line
      column := state.cursor.column }
    modify fun state => { state with keyPlaces := state.keyPlaces ++ [(state.depth, key)] }

/-- Closes the blocks that are indented further than a column. -/
def closeBlocks (column : Int) : Lexing Unit :=
  modify fun state =>
    if state.depth != 0 then state
    else
      let rec close (indent : Int) (outer : List Int) (tokens : Array Token) :
          Int × List Int × Array Token :=
        match outer with
        | [] => (indent, [], tokens)
        | next :: rest =>
          if indent > column then close next rest (tokens.push .blockEnd)
          else (indent, outer, tokens)
      let (indent, outerIndents, tokens) := close state.indent state.outerIndents state.tokens
      { state with indent, outerIndents, tokens }

/-- Opens a block at a column, unless the current one is indented as far. -/
def openBlock (column : Nat) : Lexing Bool := do
  let state ← get
  if state.indent < Int.ofNat column then
    set { state with
      indent := Int.ofNat column, outerIndents := state.indent :: state.outerIndents }
    return true
  else return false

def column : Lexing Nat := return (← get).cursor.column

def inFlow : Lexing Bool := return (← get).depth != 0

end Lexing

open Lexing

/-- A letter or digit of ASCII, a hyphen or a low line. -/
def isNameChar (c : Char) : Bool := Text.isAsciiAlphanumeric c || c == '-' || c == '_'

def nameText : Reading (List Char) := do
  let name ← takeWhile isNameChar
  if name.isEmpty then fail
  return name

/-- Goes on over spaces, comments and line breaks to the next token. Outside brackets a key may
begin on a new line. -/
def skipToToken : Nat → Lexing Unit
  | 0 => Lexing.fail
  | fuel + 1 => do
    Lexing.read (do skipSpaces; skipComment)
    match ← Lexing.read lineBreak with
    | none => return
    | some _ =>
      if !(← inFlow) then allowKey true
      skipToToken fuel

/-- A byte order mark at the very beginning is passed over. -/
def skipByteOrderMark : Reading Unit := do
  let cursor ← get
  if cursor.index == 0 && cursor.peek 0 == '\uFEFF' then skip 1

def digitsNumber : Reading Nat := do
  let digits ← takeWhile Json.isDecimalDigit
  if digits.isEmpty then fail
  return Json.decimalNumber digits

def percentBytes : Nat → Reading (List UInt8)
  | 0 => fail
  | fuel + 1 => do
    if (← peek 0) != '%' then return []
    skip 1
    let byte ← hexEscape 2
    return byte.toUInt8 :: (← percentBytes fuel)

/-- A character that a tag may hold as it is. -/
def isTagChar (c : Char) : Bool :=
  Text.isAsciiAlphanumeric c || "-;/?:@&=+$,_.!~*'()[]".toList.contains c

def tagChars : Nat → Reading (List Char)
  | 0 => fail
  | fuel + 1 => do
    let plain ← takeWhile isTagChar
    if (← peek 0) == '%' then
      let bytes ← percentBytes fuel
      match Text.decodeStrict? bytes with
      | none => fail
      | some text => return plain ++ text.toList ++ (← tagChars fuel)
    else return plain

def tagText : Reading String := do
  let start := (← get).index
  let text ← tagChars ((← get).rest.length + 1)
  if (← get).index == start then fail
  return String.ofList text

/-- The handle of a tag: an exclamation mark, or a name between two. -/
def tagHandle : Reading String := do
  if (← peek 0) != '!' then fail
  if (← peek 1) == ' ' then
    skip 1
    return "!"
  else
    skip 1
    let name ← takeWhile isNameChar
    if (← peek 0) == '!' then
      skip 1
      return String.ofList ('!' :: name ++ ['!'])
    else fail

/-- A directive at the cursor, through the end of its line. -/
def directive : Reading Directive := do
  skip 1
  let name := String.ofList (← nameText)
  if !isSpaceOrEnd (← peek 0) then fail
  let result ←
    if name == "YAML" then do
      skipSpaces
      let major ← digitsNumber
      if (← peek 0) != '.' then fail
      skip 1
      discard digitsNumber
      if !isSpaceOrEnd (← peek 0) then fail
      pure (Directive.version major)
    else if name == "TAG" then do
      skipSpaces
      let handle ← tagHandle
      if (← peek 0) != ' ' then fail
      skipSpaces
      let start ← tagText
      if !isSpaceOrEnd (← peek 0) then fail
      pure (Directive.tagHandle handle start)
    else do
      discard (takeWhile (!isBreakOrEnd ·))
      pure Directive.other
  emptyRestOfLine
  return result

/-- The name of an anchor or an alias behind its sign. -/
def anchorName : Reading String := do
  skip 1
  let name ← nameText
  let c ← peek 0
  if isGapOrEnd c || "?:,]\x7d%@`".toList.contains c then return String.ofList name
  fail

/-- Whether an exclamation mark ends the handle of the tag at the cursor, behind its first one. -/
def hasHandle : Reading Bool := do
  let rest := (← get).rest.drop 1
  return (rest.takeWhile (!isSpaceOrEnd ·)).contains '!'

def tagToken : Reading Token := do
  let next ← peek 1
  let token ←
    if next == '<' then do
      skip 2
      let suffix ← tagText
      if (← peek 0) != '>' then fail
      skip 1
      pure (Token.tag none suffix)
    else if isGapOrEnd next then do
      skip 1
      pure (Token.tag none "!")
    else do
      let handle ← if ← hasHandle then tagHandle else do
        skip 1
        pure "!"
      let suffix ← tagText
      pure (Token.tag (some handle) suffix)
  if !isSpaceOrEnd (← peek 0) then fail
  return token

def lexDirective : Lexing Unit := do
  closeBlocks (-1)
  dropKey
  allowKey false
  emit (.directive (← Lexing.read directive))

def lexDocumentMark (token : Token) : Lexing Unit := do
  closeBlocks (-1)
  dropKey
  allowKey false
  Lexing.read (skip 3)
  emit token

def lexFlowStart (token : Token) : Lexing Unit := do
  saveKey
  modify fun state => { state with depth := state.depth + 1 }
  allowKey true
  Lexing.read (skip 1)
  emit token

def lexFlowEnd (token : Token) : Lexing Unit := do
  dropKey
  let state ← get
  if state.depth == 0 then Lexing.fail
  set { state with depth := state.depth - 1 }
  allowKey false
  Lexing.read (skip 1)
  emit token

def lexFlowEntry : Lexing Unit := do
  allowKey true
  dropKey
  Lexing.read (skip 1)
  emit .flowEntry

def lexBlockEntry : Lexing Unit := do
  if !(← inFlow) then
    if !(← get).keyAllowed then Lexing.fail
    if ← openBlock (← column) then emit .blockSequenceStart
  allowKey true
  dropKey
  Lexing.read (skip 1)
  emit .blockEntry

def lexKey : Lexing Unit := do
  if !(← inFlow) then
    if !(← get).keyAllowed then Lexing.fail
    if ← openBlock (← column) then emit .blockMappingStart
  allowKey !(← inFlow)
  dropKey
  Lexing.read (skip 1)
  emit .key

/-- The colon of a value, which makes a key of the node before it where that is possible. -/
def lexValue : Lexing Unit := do
  let state ← get
  match state.keyPlaces.lookup state.depth with
  | some key =>
    set { state with keyPlaces := state.keyPlaces.filter (·.1 != state.depth) }
    emitAt key.tokenNumber .key
    if !(← inFlow) then
      if ← openBlock key.column then emitAt key.tokenNumber .blockMappingStart
    allowKey false
  | none =>
    if !(← inFlow) then
      if !state.keyAllowed then Lexing.fail
      if ← openBlock (← column) then emit .blockMappingStart
    allowKey !(← inFlow)
    dropKey
  Lexing.read (skip 1)
  emit .value

/-- A token with which a key may begin, and behind which none can. -/
def lexKeyStart (reading : Reading Token) : Lexing Unit := do
  saveKey
  allowKey false
  emit (← Lexing.read reading)

/-- A block scalar, behind which a key may begin. -/
def lexBlockScalar (folded : Bool) : Lexing Unit := do
  allowKey true
  dropKey
  let indent := (← get).indent
  emit (.scalar (← Lexing.read (blockScalar folded indent)) false)

def lexPlain : Lexing Unit := do
  saveKey
  allowKey false
  let state ← get
  let (text, broken) ← Lexing.read (plainScalar (state.depth != 0) (state.indent + 1))
  if broken then allowKey true
  emit (.scalar text true)

/-- Whether a plain scalar can begin with the two characters. -/
def beginsPlain (inFlow : Bool) (c next : Char) : Bool :=
  !(isGapOrEnd c || "-?:,[]\x7b\x7d#&*!|>'\"%@`".toList.contains c) ||
    (!isGapOrEnd next && (c == '-' || (!inFlow && (c == '?' || c == ':'))))

def lexToken : Lexing Unit := do
  let state ← get
  let c := state.cursor.peek 0
  let next := state.cursor.peek 1
  let inFlow := state.depth != 0
  let atStart := state.cursor.column == 0
  let mark := atStart && isGapOrEnd (state.cursor.peek 3)
  let three := state.cursor.rest.take 3
  if c == '%' && atStart then lexDirective
  else if mark && three == ['-', '-', '-'] then lexDocumentMark .documentStart
  else if mark && three == ['.', '.', '.'] then lexDocumentMark .documentEnd
  else if c == '[' then lexFlowStart .flowSequenceStart
  else if c == '\x7b' then lexFlowStart .flowMappingStart
  else if c == ']' then lexFlowEnd .flowSequenceEnd
  else if c == '\x7d' then lexFlowEnd .flowMappingEnd
  else if c == ',' then lexFlowEntry
  else if c == '-' && isGapOrEnd next then lexBlockEntry
  else if c == '?' && (inFlow || isGapOrEnd next) then lexKey
  else if c == ':' && (inFlow || isGapOrEnd next) then lexValue
  else if c == '*' then lexKeyStart (return .alias (← anchorName))
  else if c == '&' then lexKeyStart (return .anchor (← anchorName))
  else if c == '!' then lexKeyStart tagToken
  else if c == '|' && !inFlow then lexBlockScalar false
  else if c == '>' && !inFlow then lexBlockScalar true
  else if c == '\'' then lexKeyStart (return .scalar (← quotedScalar false) false)
  else if c == '"' then lexKeyStart (return .scalar (← quotedScalar true) false)
  else if beginsPlain inFlow c next then lexPlain
  else Lexing.fail

/-- Goes on to the next token and closes the blocks that end before it. -/
def nextToken : Lexing Unit := do
  let fuel := (← get).cursor.rest.length + 1
  Lexing.read skipByteOrderMark
  skipToToken fuel
  dropStaleKeys
  closeBlocks (← column)

/-- The end of the document, which closes all blocks. -/
def lexEnd : Lexing Unit := do
  closeBlocks (-1)
  dropKey

/-- The tokens from a state on. Every token takes a character away at least. -/
def lexFrom : Nat → Lexing Unit
  | 0 => Lexing.fail
  | fuel + 1 => do
    nextToken
    if (← get).cursor.rest.isEmpty then lexEnd
    else
      lexToken
      lexFrom fuel

def isDocumentChar (c : Char) : Bool :=
  let n := c.toNat
  n == 0x09 || n == 0x0A || n == 0x0D || (0x20 ≤ n && n ≤ 0x7E) || n == 0x85 ||
    (0xA0 ≤ n && n ≤ 0xFFFD) || 0x10000 ≤ n

/-- The tokens of a document, whose line breaks are single characters. -/
def tokens (text : List Char) : Except Fault (List Token) :=
  if text.all isDocumentChar then
    match (lexFrom (text.length + 1)).run { cursor := { rest := text } } with
    | .ok (_, state) => .ok state.tokens.toList
    | .error fault => .error fault
  else .error .malformed

end ExtensionAudit.Yaml
