import ExtensionAudit.Php.Token
import ExtensionAudit.Text.Blank

/-!
The value of a string literal, and whether it can be read as a fixed text at all: between double
quotes a variable may be written into the text, and then the literal has no value of its own.
-/

namespace ExtensionAudit.Php

/-- Replaces each pair of the characters `a` and `b`, from the left, by one character. -/
def replacePair (a b single : Char) : List Char → List Char
  | x :: y :: rest =>
    if x == a && y == b then single :: replacePair a b single rest
    else x :: replacePair a b single (y :: rest)
  | rest => rest

theorem replacePair_cons_of_ne {a b single c : Char} (h : c ≠ a) (cs : List Char) :
    replacePair a b single (c :: cs) = c :: replacePair a b single cs := by
  cases cs with
  | nil => rfl
  | cons d cs => simp [replacePair, h]

/-- The text that a literal stands for: escaped quotes and escaped backslashes lose their backslash,
every other backslash stays. -/
def Literal.value (l : Literal) : List Char :=
  replacePair '\\' '\\' '\\' (replacePair '\\' l.quote l.quote l.body)

def beginsVariable (c next : Char) : Bool :=
  (c == '$' && (('a' ≤ next && next ≤ 'z') || ('A' ≤ next && next ≤ 'Z') ||
      next == '_' || next == '{')) ||
    (c == '{' && next == '$')

/-- Whether a variable begins in the text. A backslash takes the meaning from the sign behind it;
`escaped` says that one stands before the text. -/
def holdsVariable : Bool → List Char → Bool
  | escaped, c :: next :: rest =>
    (!escaped && beginsVariable c next) || holdsVariable (c == '\\') (next :: rest)
  | _, _ => false

def Literal.isInterpolated (l : Literal) : Bool := l.quote == '"' && holdsVariable false l.body

end ExtensionAudit.Php
