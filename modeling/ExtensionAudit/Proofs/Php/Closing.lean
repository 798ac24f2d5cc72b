import ExtensionAudit.Proofs.Php.Lookahead

/-!
# A text that ends behind a closing tag

A text that ends with a closing tag and a line feed can be cut there. No token reaches from in front
of the tag to behind it and still ends: a comment to the end of the line stops at the tag, and each
other token ends with a character that is not among the last three of the text. So either the tag is
a token, or the text ended outside code anyway, and a line feed ends every opening tag begun.
-/

namespace ExtensionAudit.Php

open ExtensionAudit.Text

/-- A closing tag and a line feed. -/
def closing : List Char := ['?', '>', '\n']

/-- The text ends behind a closing tag and a line feed, or is what is left of it behind the tag. -/
def EndsClosed (inCode : Bool) (text : List Char) : Prop :=
  closing <:+ text ∨ inCode = false ∧ text = ['\n']

theorem EndsClosed.newline_mem {inCode : Bool} {text : List Char} (h : EndsClosed inCode text) :
    '\n' ∈ text := by
  rcases h with h | ⟨_, rfl⟩
  · exact h.subset (by simp [closing])
  · simp

theorem EndsClosed.getLast? {inCode : Bool} {text : List Char} (h : EndsClosed inCode text) :
    text.getLast? = some '\n' := by
  rcases h with ⟨front, rfl⟩ | ⟨_, rfl⟩
  · simp [closing]
  · rfl

/-- Where the tag and the line feed end two pieces of text, they end the second one, or the first one
ends with what the second one lacks of them. -/
theorem closing_suffix_append {first second : List Char} (h : closing <:+ first ++ second) :
    closing <:+ second ∨ (second = [] ∧ closing <:+ first) ∨
      (second = ['\n'] ∧ ['?', '>'] <:+ first) ∨ (second = ['>', '\n'] ∧ ['?'] <:+ first) := by
  have cut (front back : List Char) (hclosing : closing = front ++ back) (hsecond : second = back) :
      front <:+ first := by
    rw [hclosing, hsecond] at h
    exact List.suffix_append_self_iff.1 h
  rcases List.suffix_or_suffix_of_suffix h (List.suffix_append first second) with hsecond | hsecond
  · exact .inl hsecond
  · simp only [closing, List.suffix_cons_iff, List.suffix_nil] at hsecond
    rcases hsecond with hsecond | hsecond | hsecond | hsecond
    · exact .inl (hsecond ▸ List.suffix_refl _)
    · exact .inr (.inr (.inr ⟨hsecond, cut ['?'] _ rfl hsecond⟩))
    · exact .inr (.inr (.inl ⟨hsecond, cut ['?', '>'] _ rfl hsecond⟩))
    · exact .inr (.inl ⟨hsecond, cut closing _ rfl hsecond⟩)

/-- Text that ends with another character has nothing of the tag and the line feed. -/
theorem closing_suffix_of_last {front rest : List Char} {c : Char} (hc : c ∉ closing)
    (h : closing <:+ front ++ [c] ++ rest) : closing <:+ rest := by
  have hlast (word : List Char) (d : Char) (hword : word ++ [d] <:+ front ++ [c])
      (hd : d ∈ closing) : False := by
    have heq : d = c := by
      have := (List.reverse_prefix.2 hword)
      simp only [List.reverse_append, List.reverse_singleton, List.cons_append, List.nil_append,
        List.cons_prefix_cons] at this
      exact this.1
    exact hc (heq ▸ hd)
  rcases closing_suffix_append h with h | ⟨_, h⟩ | ⟨_, h⟩ | ⟨_, h⟩
  · exact h
  · exact (hlast ['?', '>'] '\n' h (by simp [closing])).elim
  · exact (hlast ['?'] '>' h (by simp [closing])).elim
  · exact (hlast [] '?' h (by simp [closing])).elim

/-! ### The last character of a token -/

theorem exists_bracket_of_mem_dispatcherWords {official : Bool} {head : List Char}
    (h : head ∈ dispatcherWords official) : ∃ front, head = front ++ ['('] := by
  obtain ⟨owner, call, _, hcall, rfl⟩ := mem_dispatcherWords.1 h
  obtain ⟨mark, _, name, hname, rfl⟩ := Language.mem_mul.1 hcall
  obtain ⟨word, _, arrowed, harrowed, rfl⟩ := Language.mem_mul.1 hname
  obtain ⟨arrow, _, method, hmethod, rfl⟩ := Language.mem_mul.1 harrowed
  obtain ⟨verb, _, tail, htail, rfl⟩ := Language.mem_mul.1 hmethod
  obtain ⟨blanks, _, bracket, hbracket, rfl⟩ := Language.mem_mul.1 htail
  refine ⟨owner ++ (mark ++ (word ++ (arrow ++ (verb ++ blanks)))), ?_⟩
  rw [mem_word.1 hbracket]
  simp

/-- Every token that ends of itself, and not by what follows it, ends with a character that is not
among the last ones of the text. -/
theorem Formed.exists_last {token : Token} (h : Formed token) :
    token = .closeTag ∨ (∃ text, token = .lineComment text) ∨ (∃ c, token = .other [c]) ∨
      ∃ front c, token.lexeme = front ++ [c] ∧ c ∉ closing := by
  have hquote {quote : Char} (h : IsQuote quote) : quote ∉ closing := by
    rcases h with rfl | rfl <;> decide
  cases h with
  | closeTag => exact .inl rfl
  | lineComment => exact .inr (.inl ⟨_, rfl⟩)
  | single => exact .inr (.inr (.inl ⟨_, rfl⟩))
  | @blockComment body =>
    refine .inr (.inr (.inr ⟨'/' :: '*' :: (body ++ ['*']), '/', ?_, by decide⟩))
    simp [Token.lexeme]
  | @literal quote body hq =>
    refine .inr (.inr (.inr ⟨quote :: body, quote, ?_, hquote hq⟩))
    simp [Token.lexeme, Literal.lexeme]
  | @heredoc label opening lines blanks hlabel =>
    obtain ⟨front, c, hword⟩ : ∃ front c, label = front ++ [c] :=
      ⟨_, _, (List.dropLast_concat_getLast hlabel.ne_nil).symm⟩
    have hc : isLabelRest c = true := hlabel.all c (by simp [hword])
    have hclosing : c ∉ closing := by
      intro hmem
      simp only [closing, List.mem_cons, List.not_mem_nil, or_false] at hmem
      rcases hmem with rfl | rfl | rfl <;> exact absurd hc (by decide)
    refine .inr (.inr (.inr ⟨opening ++ (lines ++ blanks ++ front), c, ?_, hclosing⟩))
    simp [Token.lexeme, hword]
  | @callWithLiteral official head gap body quote _ _ hq =>
    refine .inr (.inr (.inr ⟨head ++ gap ++ quote :: body, quote, ?_, hquote hq⟩))
    simp [Token.lexeme, Call.lexeme, Literal.lexeme]
  | bareCall hhead =>
    obtain ⟨front, rfl⟩ := exists_bracket_of_mem_dispatcherWords hhead
    exact .inr (.inr (.inr ⟨front, '(', rfl, by decide⟩))
  | tripleLess => exact .inr (.inr (.inr ⟨['<', '<'], '<', rfl, by decide⟩))

theorem not_closing_suffix_of_lineComment {comment rest : List Char}
    (hformed : Formed (.lineComment comment)) (hfollow : MayFollow (.lineComment comment) rest)
    (h : closing <:+ comment ++ rest) : closing <:+ rest := by
  generalize htoken : Token.lineComment comment = token at hformed
  cases hformed with
  | @lineComment mark body hmark hline htag =>
    obtain rfl : comment = mark ++ body := by simpa using htoken
    have hsign : '\n' ∉ mark ∧ '?' ∉ mark := by rcases hmark with rfl | rfl <;> decide
    rcases closing_suffix_append h with hrest | ⟨_, h⟩ | ⟨_, h⟩ | ⟨rfl, _⟩
    · exact hrest
    · have hmem : '\n' ∈ mark ++ body := h.subset (by simp [closing])
      rcases List.mem_append.1 hmem with hmem | hmem
      · exact absurd hmem hsign.1
      · exact absurd hmem hline
    · rcases List.infix_append_iff.1 h.isInfix with h | h | ⟨first, second, heq, hfirst, hsecond⟩
      · exact absurd (h.subset List.mem_cons_self) hsign.2
      · exact absurd h htag
      · cases first with
        | nil =>
          rw [List.nil_append] at heq
          exact absurd (heq ▸ hsecond.isInfix) htag
        | cons c first =>
          rw [List.cons_append, List.cons.injEq] at heq
          exact absurd (hfirst.subset (heq.1 ▸ List.mem_cons_self)) hsign.2
    · rcases hfollow with hnil | hfeed | htag
      · cases hnil
      · exact absurd hfeed (by decide)
      · exact absurd htag (by decide)
  | _ => cases htoken

theorem CodeToken.endsClosed {text rest : List Char} {token : Token} (h : CodeToken text token rest)
    (hend : closing <:+ text) : EndsClosed (token != .closeTag) rest := by
  obtain ⟨hformed, hfollow, rfl⟩ := codeToken_iff.1 h
  rcases hformed.exists_last with rfl | ⟨comment, rfl⟩ | ⟨c, rfl⟩ | ⟨front, c, hlexeme, hc⟩
  · rcases closing_suffix_append hend with hrest | ⟨_, hshort⟩ | ⟨hrest, _⟩ | ⟨rfl, _⟩
    · exact .inl hrest
    · exact absurd hshort.length_le (by simp [closing, Token.lexeme])
    · exact .inr ⟨rfl, hrest⟩
    · exact absurd hend (by decide)
  · exact .inl (not_closing_suffix_of_lineComment hformed hfollow hend)
  · rcases closing_suffix_append hend with hrest | ⟨_, hshort⟩ | ⟨_, hshort⟩ | ⟨rfl, hmark⟩
    · exact .inl hrest
    · exact absurd hshort.length_le (by simp [closing, Token.lexeme])
    · exact absurd hshort.length_le (by simp [Token.lexeme])
    · -- The mark of the tag is no token of its own.
      obtain rfl : '?' = c := List.mem_singleton.1 (hmark.subset List.mem_cons_self)
      exact absurd (List.prefix_append _ _) (hfollow ['?', '>'] .closeTag (by simp))
  · rw [hlexeme] at hend
    exact .inl (closing_suffix_of_last hc hend)

/-- More text does not change a token in front of a rest that ends closed. -/
theorem CodeToken.append_of_endsClosed {text rest : List Char} {token : Token}
    (h : CodeToken text token rest) (hend : EndsClosed (token != .closeTag) rest)
    (more : List Char) : CodeToken (text ++ more) token (rest ++ more) := by
  obtain ⟨hformed, hfollow, rfl⟩ := codeToken_iff.1 h
  have hfollow' : MayFollow token (rest ++ more) := by
    rcases hend with hend | ⟨hmode, _⟩
    · rw [← List.append_nil rest] at hfollow
      have hmark : '?' ∈ rest := hend.subset (by simp [closing])
      have hlong : rest ≠ ['?'] := by
        rintro rfl
        exact absurd hend.length_le (by simp [closing])
      exact hfollow.congr (not_undecided_of_mem hformed hmark (by decide) hlong) more
    · have htag : token = .closeTag := by simpa using hmode
      rw [htag]
      trivial
  exact codeToken_iff.2 ⟨hformed, hfollow', by rw [List.append_assoc]⟩

/-! ### Text outside code -/

theorem OpensCode.exists_last {tag : List Char} (h : OpensCode tag) :
    ∃ front c, tag = front ++ [c] ∧ c ∉ closing := by
  rcases h with rfl | rfl
  · exact ⟨['<', '?', 'p', 'h'], 'p', rfl, by decide⟩
  · exact ⟨['<', '?'], '=', rfl, by decide⟩

theorem endsClosed_of_tag {body tag rest : List Char} (htag : OpensCode tag)
    (hend : EndsClosed false (body ++ tag ++ rest)) : EndsClosed true rest := by
  obtain ⟨front, c, rfl, hc⟩ := htag.exists_last
  rcases hend with hend | ⟨_, hshort⟩
  · rw [← List.append_assoc] at hend
    exact .inl (closing_suffix_of_last hc hend)
  · have hmem : c ∈ ['\n'] := by simp [← hshort]
    exact absurd (by simp [List.mem_singleton.1 hmem, closing]) hc

/-- A piece of text that holds no tag and ends with a line feed goes on with any other piece. -/
theorem HtmlPiece.append_left {text more piece rest : List Char} (hno : HoldsNoTag text)
    (hlast : text.getLast? = some '\n') (h : HtmlPiece more piece rest) :
    HtmlPiece (text ++ more) (text ++ piece) rest := by
  -- A tag across the border would hold the line feed.
  have hacross {body : List Char} (hbody : HoldsNoTag body) : HoldsNoTag (text ++ body) := by
    intro tag htag hinfix
    rcases List.infix_append_iff.1 hinfix with h | h | ⟨first, second, rfl, hfirst, hsecond⟩
    · exact hno tag htag h
    · exact hbody tag htag h
    · by_cases hne : first = []
      · subst hne
        exact hbody _ htag hsecond.isInfix
      · obtain ⟨front, hfront⟩ := hfirst
        rw [← hfront, List.getLast?_append_of_ne_nil _ hne] at hlast
        have hmem : '\n' ∈ first ++ second :=
          List.mem_append_left second (List.mem_of_getLast? hlast)
        rcases htag with heq | heq <;> rw [heq] at hmem <;> exact absurd hmem (by decide)
  rcases htmlPiece_cases h with ⟨body, tag, hbody, htag, rfl⟩ | ⟨hpiece, rfl⟩
  · rw [← h.append_eq, ← List.append_assoc, ← List.append_assoc text]
    exact htmlPiece_of_tag (hacross hbody) htag rest
  · rw [← h.append_eq, List.append_nil]
    exact .untagged (hacross hpiece)

end ExtensionAudit.Php
