import ExtensionAudit.Proofs.Php.Lookahead

/-!
# Skipped regions

A comment, a heredoc, a string literal and a piece of text outside code stand between two ends, and
what is between them is passed over. Here such a region gets another interior. It stays one token,
because its ends say where it is over, and the tokens in front of it stay what they were, because no
look behind a token goes past the beginning of a region. The one place where it does is a string
literal behind three less-than signs: its quotes could be those of a heredoc's label.
-/

namespace ExtensionAudit.Php

open ExtensionAudit.Text

/-- In the division of the text, from code on or from outside it, the token stands behind `front` and
in front of `after`. At the end of a text outside code there is always a piece of it, if an empty
one. -/
inductive Stands : Bool → List Char → List Char → Token → List Char → Prop where
  | html {text piece rest : List Char} :
      HtmlPiece text piece rest → Stands false text [] (.html piece) rest
  | code {text rest : List Char} {token : Token} :
      CodeToken text token rest → Stands true text [] token rest
  | behindHtml {text piece rest front after : List Char} {token : Token} :
      HtmlPiece text piece rest → Stands true rest front token after →
      Stands false text (piece ++ front) token after
  | behindCode {text rest front after : List Char} {passed token : Token} :
      CodeToken text passed rest → Stands (passed != .closeTag) rest front token after →
      Stands true text (passed.lexeme ++ front) token after

/-- The second token is the first one with another interior between the same ends, one that is legal
for such a region. -/
inductive Refilled : Token → Token → Prop where
  | blockComment {body body' : List Char} :
      ¬ ['*', '/'] <:+: body' → Refilled (.blockComment body) (.blockComment body')
  | lineComment {mark body body' : List Char} :
      OpensLineComment mark → '\n' ∉ body' → ¬ ['?', '>'] <:+: body' →
      Refilled (.lineComment (mark ++ body)) (.lineComment (mark ++ body'))
  | heredoc {label opening lines lines' blanks : List Char} :
      IsLabel label → opening ∈ heredocLine label → blanks ∈ stretch isInlineBlank →
      HeredocLines label lines' →
      Refilled (.heredoc opening (lines ++ blanks ++ label))
        (.heredoc opening (lines' ++ blanks ++ label))
  | literal {quote : Char} {body body' : List Char} :
      LiteralBody quote body' → Refilled (.literal ⟨quote, body⟩) (.literal ⟨quote, body'⟩)
  | htmlBeforeTag {body body' tag : List Char} :
      OpensCode tag → HoldsNoTag body' → Refilled (.html (body ++ tag)) (.html (body' ++ tag))
  | htmlAtEnd {body body' : List Char} :
      HoldsNoTag body → HoldsNoTag body' → Refilled (.html body) (.html body')

/-- Three less-than signs stand directly in front, but for blanks. -/
def BehindTripleLess (front : List Char) : Prop :=
  ∃ blanks, blanks ∈ stretch isInlineBlank ∧ ['<', '<', '<'] ++ blanks <:+ front

theorem BehindTripleLess.append {front : List Char} (h : BehindTripleLess front)
    (before : List Char) : BehindTripleLess (before ++ front) := by
  obtain ⟨blanks, hblanks, hsuffix⟩ := h
  exact ⟨blanks, hblanks, hsuffix.trans (List.suffix_append _ _)⟩

/-! ### Where a token stands -/

section Stands

variable {inCode : Bool} {text front after : List Char} {token : Token}

theorem Stands.append_eq (h : Stands inCode text front token after) :
    front ++ token.lexeme ++ after = text := by
  induction h with
  | html hpiece => exact hpiece.append_eq
  | code htoken => exact (codeToken_iff.1 htoken).2.2
  | behindHtml hpiece _ ih => rw [← hpiece.append_eq, ← ih, List.append_assoc, List.append_assoc,
      List.append_assoc]
  | behindCode htoken _ ih => rw [← (codeToken_iff.1 htoken).2.2, ← ih, List.append_assoc,
      List.append_assoc, List.append_assoc]

theorem Stands.formed (h : Stands inCode text front token after) :
    (∃ piece, token = .html piece) ∨ Formed token := by
  induction h with
  | html _ => exact .inl ⟨_, rfl⟩
  | code htoken => exact .inr (codeToken_iff.1 htoken).1
  | behindHtml _ _ ih => exact ih
  | behindCode _ _ ih => exact ih

/-- Text outside code stands at the place where the division begins or behind a closing tag. -/
theorem Stands.closeTag_suffix {piece : List Char} (h : Stands inCode text front (.html piece) after) :
    (inCode = false ∧ front = []) ∨ ['?', '>'] <:+ front := by
  generalize htoken : Token.html piece = token at h
  induction h with
  | html _ => exact .inl ⟨rfl, rfl⟩
  | code hcode =>
    subst htoken
    cases (codeToken_iff.1 hcode).1
  | behindHtml _ _ ih =>
    rcases ih htoken with ⟨hmode, _⟩ | hsuffix
    · cases hmode
    · exact .inr (hsuffix.trans (List.suffix_append _ _))
  | @behindCode _ _ _ _ passed _ hpassed _ ih =>
    rcases ih htoken with ⟨hmode, rfl⟩ | hsuffix
    · have htag : passed = .closeTag := by simpa using hmode
      subst htag
      exact .inr (by simp [Token.lexeme])
    · exact .inr (hsuffix.trans (List.suffix_append _ _))

theorem Stands.text_ne_nil (h : Stands true text front token after) : text ≠ [] := by
  generalize hmode : true = inCode at h
  cases h with
  | html _ => cases hmode
  | code htoken => exact htoken.text_ne_nil
  | behindHtml _ _ => cases hmode
  | behindCode hpassed _ => exact hpassed.text_ne_nil

/-- Every token of a listing stands in the text, at the site that the listing gives it. -/
theorem Stands.of_mem_listing {before : List Char} {site : Site}
    (h : (site, token) ∈ (Listing.from inCode ⟨before, text⟩).tokens) :
    ∃ front after, Stands inCode text front token after ∧
      site = ⟨front.reverse ++ before, token.lexeme ++ after⟩ := by
  induction inCode, text using reading_induction generalizing before with
  | finished inCode =>
    rw [Listing.from_nil] at h
    cases h
  | html text piece rest hne hpiece ih =>
    rw [Listing.from_html hne, htmlPiece_iff.1 hpiece, Listing.cons, List.mem_cons] at h
    rcases h with heq | hmem
    · obtain ⟨rfl, rfl⟩ := Prod.mk.inj heq
      exact ⟨[], rest, .html hpiece, by simp [Token.lexeme, hpiece.append_eq]⟩
    · obtain ⟨front, after, hstands, rfl⟩ := ih hmem
      exact ⟨piece ++ front, after, .behindHtml hpiece hstands, by simp⟩
  | code text passed rest hpassed ih =>
    rw [Listing.from_token hpassed.codeToken_eq hpassed.text_ne_nil, Listing.cons,
      List.mem_cons] at h
    rcases h with heq | hmem
    · obtain ⟨rfl, rfl⟩ := Prod.mk.inj heq
      exact ⟨[], rest, .code hpassed, by simp [(codeToken_iff.1 hpassed).2.2]⟩
    · obtain ⟨front, after, hstands, rfl⟩ := ih hmem
      exact ⟨passed.lexeme ++ front, after, .behindCode hpassed hstands, by simp⟩
  | broken text skipped fault hbroken =>
    rw [Listing.from_broken hbroken.codeToken_eq hbroken.text_ne_nil] at h
    cases h

end Stands

/-! ### Refilled regions are tokens -/

section Refilled

variable {text rest : List Char} {token token' : Token}

theorem CodeToken.refilled (h : CodeToken text token rest) (hrefilled : Refilled token token') :
    CodeToken (token'.lexeme ++ rest) token' rest := by
  obtain ⟨hformed, hfollow, _⟩ := codeToken_iff.1 h
  cases hrefilled with
  | blockComment hbody => exact codeToken_iff.2 ⟨.blockComment hbody, trivial, rfl⟩
  | lineComment hmark hline htag =>
    exact codeToken_iff.2 ⟨.lineComment hmark hline htag, hfollow, rfl⟩
  | heredoc hlabel hopening hblanks hlines =>
    exact codeToken_iff.2 ⟨.heredoc hlabel hopening hlines hblanks, hfollow, rfl⟩
  | literal hbody =>
    cases hformed with
    | literal hquote _ => exact codeToken_iff.2 ⟨.literal hquote hbody, trivial, rfl⟩
  | htmlBeforeTag => cases hformed
  | htmlAtEnd => cases hformed

theorem HtmlPiece.refilled {piece : List Char} (h : HtmlPiece text piece rest)
    (hrefilled : Refilled (.html piece) token') :
    ∃ piece', token' = .html piece' ∧ HtmlPiece (piece' ++ rest) piece' rest := by
  generalize htoken : Token.html piece = token at hrefilled
  cases hrefilled with
  | htmlBeforeTag htag hbody => exact ⟨_, rfl, htmlPiece_of_tag hbody htag rest⟩
  | @htmlAtEnd body body' hbody hbody' =>
    cases htoken
    rcases htmlPiece_cases h with ⟨front, tag, _, htag, rfl⟩ | ⟨_, rfl⟩
    · exact absurd ⟨front, [], by simp⟩ (hbody tag htag)
    · refine ⟨body', rfl, ?_⟩
      rw [List.append_nil]
      exact .untagged hbody'
  | _ => cases htoken

/-- What a region of code begins with, whatever its interior. -/
inductive RegionStart : Token → List Char → Prop where
  | blockComment {body : List Char} : RegionStart (.blockComment body) ['/', '*']
  | lineComment {mark text : List Char} :
      OpensLineComment mark → RegionStart (.lineComment text) mark
  | heredoc {label opening body : List Char} :
      IsLabel label → opening ∈ heredocLine label → RegionStart (.heredoc opening body) opening
  | literal {quote : Char} {body : List Char} :
      IsQuote quote → RegionStart (.literal ⟨quote, body⟩) [quote]

theorem Refilled.exists_start (h : Refilled token token') (hformed : Formed token) :
    ∃ start tail tail', RegionStart token start ∧ token.lexeme = start ++ tail ∧
      token'.lexeme = start ++ tail' := by
  cases h with
  | blockComment => exact ⟨_, _, _, .blockComment, rfl, rfl⟩
  | lineComment hmark => exact ⟨_, _, _, .lineComment hmark, rfl, rfl⟩
  | heredoc hlabel hopening => exact ⟨_, _, _, .heredoc hlabel hopening, rfl, rfl⟩
  | literal =>
    cases hformed with
    | literal hquote _ => exact ⟨_, _, _, .literal hquote, rfl, rfl⟩
  | htmlBeforeTag => cases hformed
  | htmlAtEnd => cases hformed

end Refilled

/-! ### No look goes past the beginning of a region -/

theorem IsLabelQuote.eq_nil_or {quote : List Char} (h : IsLabelQuote quote) :
    quote = [] ∨ ∃ q, IsQuote q ∧ quote = [q] := by
  rcases h with rfl | rfl | rfl
  · exact .inl rfl
  · exact .inr ⟨_, .inl rfl, rfl⟩
  · exact .inr ⟨_, .inr rfl, rfl⟩

/-- A line that opens a heredoc ends with its only line feed. -/
theorem exists_line_of_mem_heredocLine {label opening : List Char} (hlabel : IsLabel label)
    (hopening : opening ∈ heredocLine label) : ∃ line, opening = line ++ ['\n'] ∧ '\n' ∉ line := by
  obtain ⟨blanks, quote, ending, hblanks, hquote, hending, rfl⟩ := mem_heredocLine.1 hopening
  obtain ⟨blanks', hblanks', _, hbreak, rfl⟩ := Language.mem_mul.1 hending
  obtain ⟨carriage, hcarriage, feed, hfeed, rfl⟩ := Language.mem_mul.1 hbreak
  refine ⟨['<', '<', '<'] ++ blanks ++ (quote ++ label ++ quote ++ (blanks' ++ carriage)), ?_, ?_⟩
  · rw [mem_word.1 hfeed]
    simp
  · have hblank {word : List Char} (hword : word ∈ stretch isInlineBlank) : '\n' ∉ word :=
      not_mem_of_stretch hword (by decide)
    have hlabel' : '\n' ∉ label := not_mem_of_stretch hlabel.all (by decide)
    have hquote' : '\n' ∉ quote := by rcases hquote with rfl | rfl | rfl <;> decide
    have hcarriage' : '\n' ∉ carriage := by
      rcases (Language.mem_add _ _ _).1 hcarriage with h | h
      · simp [(Language.mem_one _).1 h]
      · simp [mem_word.1 h]
    simp [hblank hblanks, hblank hblanks', hlabel', hquote', hcarriage']

/-- A word that reaches a character behind a stretch without it reaches past the stretch. -/
theorem split_of_prefix_append {word first second : List Char} {c : Char} (hc : c ∉ first)
    (h : word ++ [c] <+: first ++ second) :
    ∃ extra, word = first ++ extra ∧ extra ++ [c] <+: second := by
  have hfirst : first <+: word := by
    rcases List.prefix_or_prefix_of_prefix (List.prefix_append first second) h with h' | h'
    · rcases List.prefix_concat_iff.1 h' with heq | hword
      · exact absurd (by simp [heq]) hc
      · exact hword
    · exact absurd (h'.subset (by simp)) hc
  obtain ⟨extra, rfl⟩ := hfirst
  rw [List.append_assoc, List.prefix_append_right_inj] at h
  exact ⟨extra, rfl, h⟩

/-- In a line that opens a heredoc a quote stands behind the less-than signs or behind the label. -/
theorem quote_in_heredocLine {label opening word : List Char} {quote : Char} (hquote : IsQuote quote)
    (hlabel : IsLabel label) (hopening : opening ∈ heredocLine label)
    (h : word ++ [quote] <+: opening) :
    ∃ blanks, blanks ∈ stretch isInlineBlank ∧
      (word = ['<', '<', '<'] ++ blanks ∨ word = ['<', '<', '<'] ++ blanks ++ quote :: label) := by
  obtain ⟨blanks, around, ending, hblanks, haround, hending, rfl⟩ := mem_heredocLine.1 hopening
  have hnotSign : quote ∉ ['<', '<', '<'] := by rcases hquote with rfl | rfl <;> decide
  have hnotBlank : quote ∉ blanks := not_mem_of_stretch hblanks (by
    rcases hquote with rfl | rfl <;> decide)
  have hnotLabel : quote ∉ label := not_mem_of_stretch hlabel.all (by
    rcases hquote with rfl | rfl <;> decide)
  have hnotEnding : quote ∉ ending := not_mem_of_stretch (over_lineEnding ending hending) (by
    rcases hquote with rfl | rfl <;> decide)
  have hnotFront : quote ∉ ['<', '<', '<'] ++ blanks := by
    rw [List.mem_append, not_or]
    exact ⟨hnotSign, hnotBlank⟩
  obtain ⟨extra, rfl, hextra⟩ := split_of_prefix_append hnotFront h
  refine ⟨blanks, hblanks, ?_⟩
  rcases haround.eq_nil_or with rfl | ⟨q, _, rfl⟩
  · -- Without a quote around the label there is none in the whole line.
    have hmem : quote ∈ label ++ ending := by
      have := hextra.subset (List.mem_append_right extra List.mem_cons_self)
      simpa using this
    rcases List.mem_append.1 hmem with hmem | hmem
    · exact absurd hmem hnotLabel
    · exact absurd hmem hnotEnding
  · cases extra with
    | nil => exact .inl (by simp)
    | cons d extra =>
      simp only [List.cons_append, List.nil_append, List.append_assoc,
        List.cons_prefix_cons] at hextra
      obtain ⟨rfl, hextra⟩ := hextra
      obtain ⟨extra', rfl, hextra'⟩ := split_of_prefix_append hnotLabel hextra
      cases extra' with
      | nil =>
        rw [List.nil_append, List.cons_prefix_cons] at hextra'
        exact .inr (by simp [hextra'.1])
      | cons e extra' =>
        rw [List.cons_append, List.cons_prefix_cons] at hextra'
        exact absurd (hextra'.2.subset (by simp)) hnotEnding

/-- A look that has met more than blanks and is still undecided is the one behind a piece of other
code. -/
theorem Undecided.exists_longMark {passed : Token} {seen : List Char} {c : Char}
    (h : Undecided passed seen) (hformed : Formed passed) (hc : c ∈ seen)
    (hblank : isBlank c = false) (hmark : c ≠ '?') :
    ∃ text word, passed = .other text ∧ LongMark word ∧ text ++ seen <+: word ∧
      text ++ seen ≠ word := by
  cases hformed with
  | lineComment =>
    rcases h with rfl | rfl
    · cases hc
    · exact absurd (List.mem_singleton.1 hc) hmark
  | heredoc =>
    rw [show seen = [] from h] at hc
    cases hc
  | bareCall =>
    rw [h c hc] at hblank
    cases hblank
  | tripleLess =>
    obtain ⟨word, hword⟩ := h
    exact ⟨_, word, rfl, hword⟩
  | single =>
    obtain ⟨word, hword⟩ := h
    exact ⟨_, word, rfl, hword⟩
  | _ => exact h.elim

/-- A less-than sign or a quote stands in no call. -/
theorem not_mem_of_mem_dispatcherWords {official : Bool} {head : List Char} {c : Char}
    (hhead : head ∈ dispatcherWords official) (hc : InCall c = false) (hne : c ≠ '$') : c ∉ head := by
  obtain ⟨tail, rfl, htail⟩ := tail_mem_stretch_of_mem_dispatcherWords hhead
  rw [List.mem_cons, not_or]
  exact ⟨hne, not_mem_of_stretch htail hc⟩

theorem not_undecided_heredocLine {passed : Token} {label opening : List Char}
    (hformed : Formed passed) (hlabel : IsLabel label) (hopening : opening ∈ heredocLine label)
    (front : List Char) : ¬ Undecided passed (front ++ opening) := by
  intro hopen
  obtain ⟨line, hline, _⟩ := exists_line_of_mem_heredocLine hlabel hopening
  obtain ⟨tail, htail⟩ := exists_less_of_mem_heredocLine hopening
  have hless : '<' ∈ front ++ opening := by simp [htail]
  have hfeed : '\n' ∈ front ++ opening := by simp [hline]
  obtain ⟨text, word, rfl, hlong, hfront, hne⟩ :=
    hopen.exists_longMark hformed hless (by decide) (by decide)
  have hless' : '<' ∈ word := hfront.subset (List.mem_append_right text hless)
  have hfeed' : '\n' ∈ word := hfront.subset (List.mem_append_right text hfeed)
  cases hlong with
  | heredoc hlabel' hopening' =>
    -- The line feed is the last character of the line, so nothing of it would be missing.
    obtain ⟨line', rfl, hno⟩ := exists_line_of_mem_heredocLine hlabel' hopening'
    rcases List.prefix_concat_iff.1 hfront with heq | hshort
    · exact hne heq
    · exact hno (hshort.subset (List.mem_append_right text hfeed))
  | call hhead => exact not_mem_of_mem_dispatcherWords hhead (by decide) (by decide) hless'
  | _ => simp at hfeed'

/-- A look that is still undecided at a quote takes it for one around the label of a heredoc. -/
theorem Undecided.exists_label {passed : Token} {front : List Char} {quote : Char}
    (h : Undecided passed (front ++ [quote])) (hformed : Formed passed) (hquote : IsQuote quote) :
    ∃ text label opening, passed = .other text ∧ IsLabel label ∧ opening ∈ heredocLine label ∧
      (text ++ front) ++ [quote] <+: opening := by
  have hseen : quote ∈ front ++ [quote] := by simp
  have hclass : isBlank quote = false ∧ InCall quote = false ∧ quote ≠ '?' ∧ quote ≠ '$' ∧
      quote ∉ ['?', '>', '/', '*', '<'] := by
    rcases hquote with rfl | rfl <;> decide
  obtain ⟨hblank, hcall, hmark, hdollar, hsigns⟩ := hclass
  have hsign {word : List Char} (hword : word ⊆ ['?', '>', '/', '*', '<']) : quote ∉ word :=
    fun hmem => hsigns (hword hmem)
  obtain ⟨text, word, rfl, hlong, hfront, hne⟩ := h.exists_longMark hformed hseen hblank hmark
  have hword : quote ∈ word := hfront.subset (List.mem_append_right text hseen)
  cases hlong with
  | heredoc hlabel hopening =>
    exact ⟨text, _, _, rfl, hlabel, hopening, by rwa [List.append_assoc]⟩
  | call hhead => exact absurd hword (not_mem_of_mem_dispatcherWords hhead hcall hdollar)
  | _ => exact absurd hword (hsign (by simp))

theorem literalBody_of_stretch {word : List Char} {quote : Char} (hquote : IsQuote quote)
    (hword : word ∈ stretch isLabelRest) : LiteralBody quote word := by
  induction word with
  | nil => exact .nil
  | cons c word ih =>
    have hc : isLabelRest c = true := hword c List.mem_cons_self
    have hescape : c ≠ '\\' := by
      rintro rfl
      exact absurd hc (by decide)
    have hplain : c ≠ quote := by
      rintro rfl
      rcases hquote with rfl | rfl <;> exact absurd hc (by decide)
    exact .plain hescape hplain (ih fun d hd => hword d (List.mem_cons_of_mem c hd))

/-- A string literal cannot begin where a quoted label ends: the label's own quotes make a literal. -/
theorem not_stands_behind_label {blanks label rest after : List Char} {quote : Char} {token : Token}
    (hblanks : blanks ∈ stretch isInlineBlank) (hlabel : IsLabel label) (hquote : IsQuote quote) :
    ¬ Stands true (blanks ++ quote :: (label ++ quote :: rest)) (blanks ++ quote :: label) token
      after := by
  intro h
  generalize htext : blanks ++ quote :: (label ++ quote :: rest) = text at h
  generalize hfront : blanks ++ quote :: label = front at h
  induction blanks generalizing text front with
  | nil =>
    rw [List.nil_append] at htext hfront
    cases h with
    | code _ => cases hfront
    | behindCode hpassed _ =>
      have hliteral : CodeToken (quote :: label ++ quote :: rest) (.literal ⟨quote, label⟩) rest :=
        .literal hquote (literalBody_of_stretch hquote hlabel.all)
      rw [← htext] at hpassed
      obtain ⟨rfl, _⟩ := hpassed.unique hliteral
      have hlength := congrArg List.length hfront
      simp only [Token.lexeme, Literal.lexeme, List.length_append, List.length_cons,
        List.length_nil] at hlength
      omega
  | cons c blanks ih =>
    obtain ⟨hc, hblanks⟩ := List.forall_mem_cons.1 hblanks
    rw [List.cons_append] at htext hfront
    cases h with
    | code _ => cases hfront
    | behindCode hpassed hlater =>
      have hsingle : CodeToken (c :: (blanks ++ quote :: (label ++ quote :: rest))) (.other [c])
          (blanks ++ quote :: (label ++ quote :: rest)) := by
        refine .single fun hbegins => ?_
        have hfirst := first_of_beginsToken hbegins
        simp only [isInlineBlank, Bool.or_eq_true, beq_iff_eq] at hc
        rcases hc with rfl | rfl <;> simp at hfirst
      rw [← htext] at hpassed
      obtain ⟨rfl, rfl⟩ := hpassed.unique hsingle
      exact ih hblanks _ rfl _ (List.cons.inj hfront).2 hlater

section Before

variable {text rest front start after : List Char} {passed token token' : Token}

theorem not_undecided_of_stands_literal {l : Literal} (hpassed : CodeToken text passed rest)
    (hstands : Stands (passed != .closeTag) rest front (.literal l) after) (hquote : IsQuote l.quote)
    (hfree : ¬ BehindTripleLess (passed.lexeme ++ front)) :
    ¬ Undecided passed (front ++ [l.quote]) := by
  intro hopen
  obtain ⟨hformed, hfollow, _⟩ := codeToken_iff.1 hpassed
  obtain ⟨text', label, opening, rfl, hlabel, hopening, hword⟩ := hopen.exists_label hformed hquote
  obtain ⟨blanks, hblanks, heq | heq⟩ := quote_in_heredocLine hquote hlabel hopening hword
  · refine hfree ⟨blanks, hblanks, ?_⟩
    rw [← heq]
    exact List.suffix_refl _
  · rw [← hstands.append_eq] at hfollow hstands
    cases hformed with
    | tripleLess =>
      have hfront : front = blanks ++ l.quote :: label := by simpa using heq
      have hmode : (Token.other ['<', '<', '<'] != .closeTag) = true := rfl
      have hlabelled : Stands true
          (blanks ++ l.quote :: (label ++ l.quote :: (l.body ++ l.quote :: after)))
          (blanks ++ l.quote :: label) (.literal l) after := by
        rw [hfront, hmode] at hstands
        simpa [Token.lexeme, Literal.lexeme] using hstands
      exact not_stands_behind_label hblanks hlabel hquote hlabelled
    | @single c =>
      -- The first of three less-than signs is no token of its own.
      refine hfollow ['<', '<', '<'] .tripleLess (by simp) ?_
      rw [List.append_assoc, ← List.append_assoc, heq]
      simp

/-- A look that comes to a region is settled by what the region begins with. -/
theorem not_undecided_of_stands (hpassed : CodeToken text passed rest)
    (hstands : Stands (passed != .closeTag) rest front token after)
    (hstart : RegionStart token start)
    (hfree : ∀ l, token = .literal l → ¬ BehindTripleLess (passed.lexeme ++ front)) :
    ¬ Undecided passed (front ++ start) := by
  have hformed := (codeToken_iff.1 hpassed).1
  have outside (c : Char) (hc : c ∈ start) (hout : InPattern c = false) (hmark : c ≠ '?') :
      ¬ Undecided passed (front ++ start) := by
    have hseen : c ∈ front ++ start := List.mem_append_right front hc
    refine not_undecided_of_mem hformed hseen hout fun heq => ?_
    rw [heq, List.mem_singleton] at hseen
    exact hmark hseen
  cases hstart with
  | blockComment => exact outside '/' (by simp) (by decide) (by decide)
  | lineComment hmark =>
    rcases hmark with rfl | rfl
    · exact outside '#' (by simp) (by decide) (by decide)
    · exact outside '/' (by simp) (by decide) (by decide)
  | heredoc hlabel hopening => exact not_undecided_heredocLine hformed hlabel hopening front
  | literal hquote => exact not_undecided_of_stands_literal hpassed hstands hquote (hfree _ rfl)

theorem mayFollow_of_closeTag_suffix (hformed : Formed passed) (htag : ['?', '>'] <:+ front)
    (h : MayFollow passed (front ++ after)) (rest : List Char) : MayFollow passed (front ++ rest) := by
  have hmark : '?' ∈ front := htag.subset (by simp)
  have hlong : front ≠ ['?'] := by
    rintro rfl
    exact absurd htag.length_le (by simp)
  exact h.congr (not_undecided_of_mem hformed hmark (by decide) hlong) rest

/-- A token in front of a region stays the token that it is, whatever the region's interior. -/
theorem CodeToken.before_refilled (hpassed : CodeToken text passed rest)
    (hstands : Stands (passed != .closeTag) rest front token after)
    (hrefilled : Refilled token token')
    (hfree : ∀ l, token = .literal l → ¬ BehindTripleLess (passed.lexeme ++ front)) :
    CodeToken (passed.lexeme ++ (front ++ token'.lexeme ++ after)) passed
      (front ++ token'.lexeme ++ after) := by
  obtain ⟨hformed, hfollow, _⟩ := codeToken_iff.1 hpassed
  refine codeToken_iff.2 ⟨hformed, ?_, rfl⟩
  rw [← hstands.append_eq] at hfollow
  rcases hstands.formed with ⟨piece, rfl⟩ | htoken
  · rw [List.append_assoc] at hfollow ⊢
    rcases hstands.closeTag_suffix with ⟨hmode, _⟩ | htag
    · have htag : passed = .closeTag := by simpa using hmode
      rw [htag]
      trivial
    · exact mayFollow_of_closeTag_suffix hformed htag hfollow _
  · obtain ⟨start, tail, tail', hstart, hlexeme, hlexeme'⟩ := hrefilled.exists_start htoken
    have hsplit : front ++ token.lexeme ++ after = (front ++ start) ++ (tail ++ after) := by
      simp [hlexeme]
    have hsplit' : front ++ token'.lexeme ++ after = (front ++ start) ++ (tail' ++ after) := by
      simp [hlexeme']
    rw [hsplit] at hfollow
    rw [hsplit']
    exact hfollow.congr (not_undecided_of_stands hpassed hstands hstart hfree) _

end Before

end ExtensionAudit.Php
