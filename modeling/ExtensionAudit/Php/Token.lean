/-!
The tokens of a PHP text, as far as a search for event declarations has to tell them apart. Every
token keeps the characters that it stands for, its lexeme; a call of an event dispatcher also keeps
its parts.
-/

namespace ExtensionAudit.Php

/-- A string literal: its quote and what stands between the quotes, escapes included. -/
structure Literal where
  quote : Char
  body : List Char
  deriving DecidableEq, Repr

def Literal.lexeme (l : Literal) : List Char := l.quote :: (l.body ++ [l.quote])

/-- A call of an event dispatcher: the text up to its opening bracket, whether it names the
dispatcher that the board itself provides, and, where the first argument begins with a string
literal, that literal with the blanks before it. -/
structure Call where
  head : List Char
  official : Bool
  argument : Option (List Char × Literal)
  deriving DecidableEq, Repr

/-- The characters of a call, up to its bracket or its literal. -/
def Call.lexeme (call : Call) : List Char :=
  match call.argument with
  | none => call.head
  | some (gap, literal) => call.head ++ gap ++ literal.lexeme

/-- A token of a PHP text. -/
inductive Token where
  /-- Text outside code, with the opening tag that ends it, if one does. -/
  | html (text : List Char)
  /-- The tag that ends code. -/
  | closeTag
  /-- A comment up to the end of its line or of the code. -/
  | lineComment (text : List Char)
  /-- A comment between its two marks. -/
  | blockComment (body : List Char)
  /-- A string literal that is no event name. -/
  | literal (l : Literal)
  /-- A heredoc or nowdoc: the line that opens it, and the rest through its closing label. -/
  | heredoc (opening body : List Char)
  /-- A call of an event dispatcher. -/
  | call (c : Call)
  /-- Any other piece of code. -/
  | other (text : List Char)
  deriving DecidableEq, Repr

def Token.lexeme : Token → List Char
  | .html text => text
  | .closeTag => ['?', '>']
  | .lineComment text => text
  | .blockComment body => '/' :: '*' :: (body ++ ['*', '/'])
  | .literal l => l.lexeme
  | .heredoc opening body => opening ++ body
  | .call c => c.lexeme
  | .other text => text

/-- Why the code cannot be divided into tokens. -/
inductive LexicalFault where
  | unterminatedComment
  | unterminatedLiteral
  | unterminatedHeredoc (label : List Char)
  deriving DecidableEq, Repr

end ExtensionAudit.Php
