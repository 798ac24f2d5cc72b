import ExtensionAudit.Php.Listing
import ExtensionAudit.Proofs.Text.Scan

/-!
# The lexical grammar

What a PHP text consists of, said without any scanning: which texts are tokens, in front of which
texts, and when a token is begun that cannot end. Where a token runs up to a mark, the mark is the
first of its kind; where it is a pattern, the pattern is a language.

A division of a text puts one token after the other, with the place at which each of them stands, up
to the end of the text or to the first token that cannot end.
-/

namespace ExtensionAudit.Php

open ExtensionAudit.Text

/-- The first place of a text, splitting it into `front` and `back`, that has the property. -/
def FirstPlace (stop : List Char → List Char → Prop) (front back : List Char) : Prop :=
  stop front back ∧
    ∀ front' back', front' ++ back' = front ++ back → stop front' back' →
      front.length ≤ front'.length

def OpensCode (tag : List Char) : Prop := tag = "<?php".toList ∨ tag = "<?=".toList

/-- A piece of text outside code: it runs through the first tag that begins code, and without such a
tag it is the whole text. -/
inductive HtmlPiece : List Char → List Char → List Char → Prop where
  | tagged {body tag rest : List Char} :
      OpensCode tag →
      FirstPlace (fun _ back => ∃ tag, OpensCode tag ∧ tag <+: back) body (tag ++ rest) →
      HtmlPiece (body ++ tag ++ rest) (body ++ tag) rest
  | untagged {text : List Char} :
      (∀ tag, OpensCode tag → ¬ tag <:+: text) → HtmlPiece text text []

/-- A line comment ends before a line feed, before the tag that ends code, and with the text. -/
def EndsLineComment (back : List Char) : Prop :=
  back = [] ∨ ['\n'] <+: back ∨ ['?', '>'] <+: back

def OpensLineComment (mark : List Char) : Prop := mark = ['#'] ∨ mark = ['/', '/']

def IsQuote (c : Char) : Prop := c = '\'' ∨ c = '"'

/-- What can stand between two quotes: any characters but the quote, where a backslash takes the
next character with it. -/
inductive LiteralBody (quote : Char) : List Char → Prop where
  | nil : LiteralBody quote []
  | plain {c : Char} {body : List Char} :
      c ≠ '\\' → c ≠ quote → LiteralBody quote body → LiteralBody quote (c :: body)
  | escaped {c : Char} {body : List Char} :
      LiteralBody quote body → LiteralBody quote ('\\' :: c :: body)

def IsLabel (label : List Char) : Prop :=
  ∃ c tail, label = c :: tail ∧ isLabelStart c = true ∧ ∀ d ∈ tail, isLabelRest d = true

def lineEnding : Language Char := stretch isInlineBlank * ((1 + {['\r']}) * {['\n']})

/-- The lines that open a heredoc with the label, which may stand between quotes. -/
def heredocLine (label : List Char) : Language Char :=
  {['<', '<', '<']} * (stretch isInlineBlank *
    (({label} + {'\'' :: (label ++ ['\''])} + {'"' :: (label ++ ['"'])}) * lineEnding))

/-- A closing label stands at the place: at the start of a line, behind blanks, and no longer word
than itself. -/
def ClosesHeredoc (label front back : List Char) : Prop :=
  (front = [] ∨ front.getLast? = some '\n') ∧
    ∃ blanks rest, back = blanks ++ label ++ rest ∧ blanks ∈ stretch isInlineBlank ∧
      Clear isLabelRest rest

/-- The arrow of a member access, with blanks around it. -/
def arrowWords : Language Char := stretch isBlank * ({['-', '>']} * stretch isBlank)

/-- A dispatcher call through its opening bracket, by whether it names the board's own dispatcher:
a variable or a member of this object, an arrow, and one of the two methods. -/
def dispatcherWords (official : Bool) : Language Char :=
  {['$']} * ((1 + {"this".toList} * arrowWords) * ((if official then {officialName} else 1) *
    ({"dispatcher".toList} * (arrowWords *
      (({"trigger_event".toList} + {"dispatch".toList}) * (stretch isBlank * {['(']}))))))

def GoesOnWithQuote (text : List Char) : Prop :=
  ∃ gap quote tail, gap ∈ stretch isBlank ∧ IsQuote quote ∧ text = gap ++ quote :: tail

/-- A token of more than one character, or one that may be cut off, begins with the text. -/
inductive BeginsToken : List Char → Prop where
  | closeTag {rest : List Char} : BeginsToken (['?', '>'] ++ rest)
  | lineComment {mark rest : List Char} : OpensLineComment mark → BeginsToken (mark ++ rest)
  | blockComment {rest : List Char} : BeginsToken (['/', '*'] ++ rest)
  | literal {quote : Char} {rest : List Char} : IsQuote quote → BeginsToken (quote :: rest)
  | heredoc {rest : List Char} : BeginsToken (['<', '<', '<'] ++ rest)
  | call {official : Bool} {head rest : List Char} :
      head ∈ dispatcherWords official → BeginsToken (head ++ rest)

/-- A token of code that stands in front of the rest of the text. -/
inductive CodeToken : List Char → Token → List Char → Prop where
  | closeTag {rest : List Char} : CodeToken (['?', '>'] ++ rest) .closeTag rest
  | lineComment {mark body rest : List Char} :
      OpensLineComment mark → FirstPlace (fun _ back => EndsLineComment back) body rest →
      CodeToken (mark ++ body ++ rest) (.lineComment (mark ++ body)) rest
  | blockComment {body rest : List Char} :
      FirstPlace (fun _ back => ['*', '/'] <+: back) body (['*', '/'] ++ rest) →
      CodeToken (['/', '*'] ++ body ++ ['*', '/'] ++ rest) (.blockComment body) rest
  | literal {quote : Char} {body rest : List Char} :
      IsQuote quote → LiteralBody quote body →
      CodeToken (quote :: body ++ quote :: rest) (.literal ⟨quote, body⟩) rest
  | heredoc {label opening front blanks rest : List Char} :
      IsLabel label → opening ∈ heredocLine label → blanks ∈ stretch isInlineBlank →
      FirstPlace (ClosesHeredoc label) front (blanks ++ label ++ rest) →
      Clear isLabelRest rest →
      CodeToken (opening ++ (front ++ blanks ++ label) ++ rest)
        (.heredoc opening (front ++ blanks ++ label)) rest
  | callWithLiteral {official : Bool} {head gap body rest : List Char} {quote : Char} :
      head ∈ dispatcherWords official → gap ∈ stretch isBlank → IsQuote quote →
      LiteralBody quote body →
      CodeToken (head ++ gap ++ quote :: body ++ quote :: rest)
        (.call ⟨head, official, some (gap, ⟨quote, body⟩)⟩) rest
  | bareCall {official : Bool} {head rest : List Char} :
      head ∈ dispatcherWords official → ¬ GoesOnWithQuote rest →
      CodeToken (head ++ rest) (.call ⟨head, official, none⟩) rest
  | tripleLess {rest : List Char} :
      (∀ label opening, IsLabel label → opening ∈ heredocLine label →
        ¬ opening <+: ['<', '<', '<'] ++ rest) →
      CodeToken (['<', '<', '<'] ++ rest) (.other ['<', '<', '<']) rest
  | single {c : Char} {rest : List Char} :
      ¬ BeginsToken (c :: rest) → CodeToken (c :: rest) (.other [c]) rest

/-- A token of code begins with the text and never ends: the characters in front of the place that
is to blame, and the fault. -/
inductive NeverEnds : List Char → List Char → LexicalFault → Prop where
  | blockComment {rest : List Char} :
      ¬ ['*', '/'] <:+: rest → NeverEnds (['/', '*'] ++ rest) [] .unterminatedComment
  | literal {quote : Char} {rest : List Char} :
      IsQuote quote → (∀ body after, LiteralBody quote body → body ++ quote :: after ≠ rest) →
      NeverEnds (quote :: rest) [] .unterminatedLiteral
  | heredoc {label opening rest : List Char} :
      IsLabel label → opening ∈ heredocLine label →
      (∀ front back, front ++ back = rest → ¬ ClosesHeredoc label front back) →
      NeverEnds (opening ++ rest) [] (.unterminatedHeredoc label)
  | callWithLiteral {official : Bool} {head gap rest : List Char} {quote : Char} :
      head ∈ dispatcherWords official → gap ∈ stretch isBlank → IsQuote quote →
      (∀ body after, LiteralBody quote body → body ++ quote :: after ≠ rest) →
      NeverEnds (head ++ gap ++ quote :: rest) (head ++ gap) .unterminatedLiteral

/-- The division of a text from a site on, in code or outside it: its tokens, each with its site,
and, where a token never ends, the text in front of the place to blame and the fault. -/
inductive Division :
    Bool → Site → List (Site × Token) → Option (List Char × LexicalFault) → Prop where
  | finished {inCode : Bool} {before : List Char} : Division inCode ⟨before, []⟩ [] none
  | html {before text piece rest : List Char} {tokens : List (Site × Token)}
      {broken : Option (List Char × LexicalFault)} :
      text ≠ [] → HtmlPiece text piece rest →
      Division true ⟨piece.reverse ++ before, rest⟩ tokens broken →
      Division false ⟨before, text⟩ ((⟨before, text⟩, .html piece) :: tokens) broken
  | code {before text rest : List Char} {token : Token} {tokens : List (Site × Token)}
      {broken : Option (List Char × LexicalFault)} :
      CodeToken text token rest →
      Division (token != .closeTag) ⟨token.lexeme.reverse ++ before, rest⟩ tokens broken →
      Division true ⟨before, text⟩ ((⟨before, text⟩, token) :: tokens) broken
  | broken {before text skipped : List Char} {fault : LexicalFault} :
      NeverEnds text skipped fault →
      Division true ⟨before, text⟩ [] (some (before.reverse ++ skipped, fault))

end ExtensionAudit.Php
