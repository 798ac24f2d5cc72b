import ExtensionAudit.Text.CaseRanges
import ExtensionAudit.Text.Ranges

/-!
Letter case of whole texts, by the full mappings of Unicode: one character may become several, and
a sigma at the end of a word has a lower-case form of its own. Two letters are the same ignoring
case if their lower-case letters are equal or are written alike in upper case.
-/

namespace ExtensionAudit.Text

/-- The code point that a table of runs maps `n` to, `n` itself where no run holds it. -/
def applyRuns (n : Nat) : List CaseRun → Nat
  | [] => n
  | run :: rest =>
    if n < run.first then n
    else if n ≤ run.last then
      if (n - run.first) % run.step == 0 then (Int.ofNat n + run.shift).toNat else applyRuns n rest
    else applyRuns n rest

/-- The lower-case character of a character, where that is one character. -/
def lowerChar (c : Char) : Char :=
  if c.toNat < 128 then c.toLower else Char.ofNat (applyRuns c.toNat lowerRuns)

/-- The lower-case letter that stands for a character in comparisons: the base letter alone of the
one character whose lower case is a letter with a combining dot. -/
def lowerLetter (c : Char) : Char :=
  if c == '\u0130' then 'i' else lowerChar c

def upperChars (c : Char) : List Char :=
  if c.toNat < 128 then [c.toUpper]
  else match upperSequences.lookup c.toNat with
    | some codes => codes.map Char.ofNat
    | none => [Char.ofNat (applyRuns c.toNat upperRuns)]

/-- A character that is passed over when the letters of a word are looked for. -/
def isIgnorable (c : Char) : Bool := inRanges c.toNat ignorableRanges

def isCased (c : Char) : Bool :=
  if c.toNat < 128 then ('a' ≤ c && c ≤ 'z') || ('A' ≤ c && c ≤ 'Z')
  else inRanges c.toNat casedRanges

/-- Whether the first character that counts is a cased letter. -/
def startsCased (cs : List Char) : Bool :=
  match cs.dropWhile isIgnorable with
  | c :: _ => isCased c
  | [] => false

/-- The lower-case form of a character between the text before it, nearest character first, and the
text after it. -/
def lowerChars (before : List Char) (c : Char) (after : List Char) : List Char :=
  if c == '\u03A3' then
    [if startsCased before && !startsCased after then '\u03C2' else '\u03C3']
  else if c == '\u0130' then ['i', '\u0307']
  else [lowerChar c]

/-- The lower-case form of a text that follows `before`, nearest character first. -/
def lowerAfter : List Char → List Char → List Char
  | _, [] => []
  | before, c :: rest => lowerChars before c rest ++ lowerAfter (c :: before) rest

def lower (s : String) : String := String.ofList (lowerAfter [] s.toList)

def upper (s : String) : String := String.ofList (s.toList.flatMap upperChars)

def sameLetter (a b : Char) : Bool :=
  let x := lowerLetter a
  let y := lowerLetter b
  x == y || upperChars x == upperChars y

end ExtensionAudit.Text
