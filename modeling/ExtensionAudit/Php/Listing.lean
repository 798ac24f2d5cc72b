import ExtensionAudit.Php.Lexer

/-!
A PHP text as the sequence of its tokens, each with the site where it stands. A text begins outside
code; a closing tag leaves code again. The sequence ends with the text or at the first place where
no token can be completed.
-/

namespace ExtensionAudit.Php

/-- A place in a text: the characters before it, nearest first, and those behind it. -/
structure Site where
  before : List Char
  after : List Char

def Site.start (text : List Char) : Site := ⟨[], text⟩

def Site.skip (site : Site) (lexeme after : List Char) : Site :=
  ⟨lexeme.reverse ++ site.before, after⟩

def Site.line (site : Site) : Nat := site.before.count '\n' + 1

/-- The whole line of the site, without its line feed. -/
def Site.lineText (site : Site) : List Char :=
  (site.before.takeWhile (· != '\n')).reverse ++ site.after.takeWhile (· != '\n')

/-- A sequence of tokens with their sites, and the fault at which it breaks off, if it does. -/
structure Listing where
  tokens : List (Site × Token)
  fault : Option (Site × LexicalFault)

def Listing.cons (site : Site) (token : Token) (listing : Listing) : Listing :=
  { listing with tokens := (site, token) :: listing.tokens }

/-- The tokens from a site on, which stands in code or outside it. -/
def Listing.from (inCode : Bool) (site : Site) : Listing :=
  match _hafter : site.after with
  | [] => ⟨[], none⟩
  | c :: rest =>
    if inCode then
      match _htoken : codeToken (c :: rest) with
      | .error (skipped, fault) => ⟨[], some (site.skip skipped [], fault)⟩
      | .ok (token, after) =>
        (Listing.from (token != .closeTag) (site.skip token.lexeme after)).cons site token
    else
      let html := inlineHtml (c :: rest)
      (Listing.from true (site.skip html.1 html.2)).cons site (.html html.1)
termination_by site.after.length
decreasing_by
  · simpa [Site.skip, _hafter] using codeToken_rest_length _htoken
  · have happ := congrArg List.length (inlineHtml_append (c :: rest))
    have hpos := List.length_pos_iff.2 (inlineHtml_fst_ne_nil c rest)
    simp only [List.length_append, List.length_cons] at happ
    simp only [Site.skip, _hafter, List.length_cons, gt_iff_lt]
    omega

def listing (text : List Char) : Listing := Listing.from false (Site.start text)

end ExtensionAudit.Php
