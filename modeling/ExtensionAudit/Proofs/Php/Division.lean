import ExtensionAudit.Proofs.Php.Patterns

/-!
# The listing is the division

In front of every text stands exactly one token, whole or cut off, and it is the one that the lexer
reads. From that, going from token to token, every text has exactly one division by the grammar, and
the listing of the text is that division.
-/

namespace ExtensionAudit.Php

open ExtensionAudit.Text

/-! ### How the lexer reads each token -/

theorem isQuote_iff {c : Char} : IsQuote c ↔ (c == '\'' || c == '"') = true := by
  simp [IsQuote]

/-- A text split at its blanks goes on with a quote if what is behind the blanks begins with one. -/
theorem goesOnWithQuote_iff (text : List Char) :
    GoesOnWithQuote text ↔ ∃ quote tail, text.dropWhile isBlank = quote :: tail ∧ IsQuote quote := by
  constructor
  · rintro ⟨gap, quote, tail, hgap, hquote, rfl⟩
    have hclear : Clear isBlank (quote :: tail) := by
      refine clear_cons.2 ?_
      rcases hquote with rfl | rfl <;> decide
    have hmany := Scan.many_append hgap hclear
    exact ⟨quote, tail, congrArg Prod.snd (Option.some.inj hmany), hquote⟩
  · rintro ⟨quote, tail, hdrop, hquote⟩
    refine ⟨text.takeWhile isBlank, quote, tail, List.all_eq_true.1 List.all_takeWhile, hquote, ?_⟩
    rw [← hdrop, List.takeWhile_append_dropWhile]

theorem exists_dollar_of_mem_dispatcherWords {head : List Char} {official : Bool}
    (h : head ∈ dispatcherWords official) : ∃ tail, head = '$' :: tail := by
  obtain ⟨c, tail, rfl, hc⟩ := StartsIn.mul (startsIn_word (p := (· == '$')) rfl) head h
  exact ⟨tail, by rw [beq_iff_eq.1 hc]⟩

theorem exists_less_of_mem_heredocLine {label opening : List Char}
    (h : opening ∈ heredocLine label) : ∃ tail, opening = '<' :: '<' :: '<' :: tail := by
  obtain ⟨blanks, quote, ending, _, _, _, rfl⟩ := mem_heredocLine.1 h
  exact ⟨_, rfl⟩

theorem codeToken_lineComment {mark : List Char} (h : OpensLineComment mark) (cs : List Char) :
    codeToken (mark ++ cs) =
      .ok (.lineComment (mark ++ (lineComment cs).1), (lineComment cs).2) := by
  rcases h with rfl | rfl <;> simp [codeToken, lineComment]

theorem codeToken_blockComment (cs : List Char) :
    codeToken (['/', '*'] ++ cs) =
      match commentBody cs with
      | some (body, rest) => .ok (.blockComment body, rest)
      | none => .error ([], .unterminatedComment) := by
  simp only [List.cons_append, List.nil_append, codeToken]
  rfl

theorem codeToken_literal {quote : Char} (h : IsQuote quote) (cs : List Char) :
    codeToken (quote :: cs) =
      match literalBody quote cs with
      | some (body, rest) => .ok (.literal ⟨quote, body⟩, rest)
      | none => .error ([], .unterminatedLiteral) := by
  rw [codeToken]
  rcases h with rfl | rfl <;> rfl

theorem codeToken_tripleLess (cs : List Char) :
    codeToken ('<' :: '<' :: '<' :: cs) =
      match heredocOpening ('<' :: '<' :: '<' :: cs) with
      | none => .ok (.other ['<', '<', '<'], cs)
      | some (opening, label, after) =>
        match heredocBody label true after with
        | some (body, rest) => .ok (.heredoc opening body, rest)
        | none => .error ([], .unterminatedHeredoc label) := by
  rw [codeToken]
  rfl

theorem codeToken_call {head : List Char} {official : Bool} (h : head ∈ dispatcherWords official)
    (after : List Char) : codeToken (head ++ after) = callToken head official after := by
  have hread := callHead_eq_some_iff.2 ⟨h, (rfl : head ++ after = _)⟩
  obtain ⟨tail, rfl⟩ := exists_dollar_of_mem_dispatcherWords h
  rw [List.cons_append] at hread ⊢
  simp [codeToken, hread]

theorem codeToken_single {c : Char} {cs : List Char} (h : ¬ BeginsToken (c :: cs)) :
    codeToken (c :: cs) = .ok (.other [c], cs) := by
  have hno {word : List Char} (hword : ∀ rest, BeginsToken (word ++ rest)) :
      word.isPrefixOf (c :: cs) = false := by
    rw [Bool.eq_false_iff, ne_eq, List.isPrefixOf_iff_prefix]
    rintro ⟨rest, hrest⟩
    exact h (hrest ▸ hword rest)
  have hhash : (c == '#') = false := by
    rw [beq_eq_false_iff_ne]
    rintro rfl
    exact h (.lineComment (.inl rfl))
  have hquote : ¬ IsQuote c := fun hquote => h (.literal hquote)
  have hcall : callHead (c :: cs) = none := by
    cases hread : callHead (c :: cs) with
    | none => rfl
    | some r =>
      obtain ⟨head, official, rest⟩ := r
      obtain ⟨hhead, happend⟩ := callHead_eq_some_iff.1 hread
      exact absurd (happend ▸ .call hhead) h
  rw [codeToken]
  simp [hno fun _ => .closeTag, hhash, hno fun _ => .lineComment (.inr rfl),
    hno fun _ => .blockComment, mt isQuote_iff.2 hquote, hno fun _ => .heredoc, hcall]

theorem callToken_of_gap {gap text : List Char} {quote : Char} (hgap : gap ∈ stretch isBlank)
    (hquote : IsQuote quote) (head : List Char) (official : Bool) :
    callToken head official (gap ++ quote :: text) =
      match literalBody quote text with
      | some (body, rest) => .ok (.call ⟨head, official, some (gap, ⟨quote, body⟩)⟩, rest)
      | none => .error (head ++ gap, .unterminatedLiteral) := by
  have hclear : Clear isBlank (quote :: text) := by
    refine clear_cons.2 ?_
    rcases hquote with rfl | rfl <;> decide
  have hmany := Scan.many_append hgap hclear
  simp only [Scan.many, Option.some.injEq, Prod.mk.injEq] at hmany
  obtain ⟨hread, hleft⟩ := hmany
  unfold callToken
  rw [hread, hleft]
  exact if_pos (isQuote_iff.1 hquote)

theorem callToken_bare {after : List Char} (h : ¬ GoesOnWithQuote after) (head : List Char)
    (official : Bool) :
    callToken head official after = .ok (.call ⟨head, official, none⟩, after) := by
  rw [goesOnWithQuote_iff] at h
  unfold callToken
  cases hdrop : after.dropWhile isBlank with
  | nil => rfl
  | cons quote body =>
    have hquote : ¬ IsQuote quote := fun hquote => h ⟨quote, body, hdrop, hquote⟩
    simp only [mt isQuote_iff.2 hquote]
    rfl

/-! ### What is read is in the grammar -/

/-- What the grammar says of a text whose first token was read with the result. -/
def ReadAs (text : List Char) : Except (List Char × LexicalFault) (Token × List Char) → Prop
  | .ok (token, rest) => CodeToken text token rest
  | .error (skipped, fault) => NeverEnds text skipped fault

theorem readAs_callToken {head after : List Char} {official : Bool}
    (hhead : head ∈ dispatcherWords official) :
    ReadAs (head ++ after) (callToken head official after) := by
  have hgap : after.takeWhile isBlank ∈ stretch isBlank := List.all_eq_true.1 List.all_takeWhile
  have hsplit : after.takeWhile isBlank ++ after.dropWhile isBlank = after :=
    List.takeWhile_append_dropWhile
  have hgoes := goesOnWithQuote_iff after
  unfold callToken
  generalize after.takeWhile isBlank = gap at hgap hsplit ⊢
  generalize after.dropWhile isBlank = behind at hsplit hgoes ⊢
  cases behind with
  | nil => exact .bareCall hhead (by simp [hgoes])
  | cons quote body =>
    by_cases hquote : IsQuote quote
    · simp only [isQuote_iff.1 hquote, if_true]
      subst hsplit
      cases hread : literalBody quote body with
      | none =>
        have hbroken := NeverEnds.callWithLiteral hhead hgap hquote
          ((literalBody_eq_none_iff hquote).1 hread)
        rwa [List.append_assoc] at hbroken
      | some r =>
        obtain ⟨literal, rest⟩ := r
        obtain ⟨hbody, rfl⟩ := (literalBody_eq_some_iff hquote).1 hread
        have htoken : CodeToken _ _ rest := .callWithLiteral hhead hgap hquote hbody
        simpa [ReadAs] using htoken
    · have hbare : ¬ GoesOnWithQuote after := by
        rw [hgoes]
        rintro ⟨quote', tail, heq, hquote'⟩
        rw [(List.cons.inj heq).1] at hquote
        exact hquote hquote'
      simp only [mt isQuote_iff.2 hquote]
      exact .bareCall hhead hbare

theorem readAs_heredoc (rest : List Char) :
    ReadAs ('<' :: '<' :: '<' :: rest) (codeToken ('<' :: '<' :: '<' :: rest)) := by
  rw [codeToken_tripleLess]
  cases hread : heredocOpening ('<' :: '<' :: '<' :: rest) with
  | none =>
    refine .tripleLess fun label opening hlabel hopening hfront => ?_
    obtain ⟨tail, htail⟩ := hfront
    have hsome := heredocOpening_eq_some_iff.2 ⟨hlabel, hopening, htail⟩
    simp only [List.cons_append, List.nil_append] at hsome
    rw [hread] at hsome
    cases hsome
  | some r =>
    obtain ⟨opening, label, after⟩ := r
    obtain ⟨hlabel, hopening, happend⟩ := heredocOpening_eq_some_iff.1 hread
    rw [← happend]
    cases hbody : heredocBody label true after with
    | none =>
      have hnone := (heredocBody_eq_none_iff hlabel).1 hbody
      simp only [hbody]
      exact .heredoc hlabel hopening hnone
    | some r =>
      obtain ⟨body, rest⟩ := r
      simp only [hbody]
      obtain ⟨front, blanks, rfl, hblanks, hfirst, hclear, rfl⟩ :=
        (heredocBody_eq_some_iff hlabel).1 hbody
      have htoken := CodeToken.heredoc hlabel hopening hblanks hfirst hclear
      rwa [List.append_assoc] at htoken

/-- The token that is read in front of a text is the one that the grammar puts there, or begins one
there that never ends. -/
theorem readAs_codeToken {text : List Char} (hne : text ≠ []) : ReadAs text (codeToken text) := by
  by_cases hbegins : BeginsToken text
  · cases hbegins with
    | closeTag => exact .closeTag
    | @lineComment mark rest hmark =>
      rw [codeToken_lineComment hmark]
      obtain ⟨hfirst, happend⟩ := firstPlace_lineComment_iff.2 (rfl : lineComment rest = _)
      have htoken := CodeToken.lineComment hmark hfirst
      rwa [List.append_assoc, happend] at htoken
    | @blockComment rest =>
      rw [codeToken_blockComment]
      cases hread : commentBody rest with
      | none => exact .blockComment (commentBody_eq_none_iff.1 hread)
      | some r =>
        obtain ⟨body, after⟩ := r
        obtain ⟨hfirst, rfl⟩ := commentBody_eq_some_iff.1 hread
        have htoken := CodeToken.blockComment hfirst
        rwa [List.append_assoc, List.append_assoc] at htoken
    | @literal quote rest hquote =>
      rw [codeToken_literal hquote]
      cases hread : literalBody quote rest with
      | none => exact .literal hquote ((literalBody_eq_none_iff hquote).1 hread)
      | some r =>
        obtain ⟨body, after⟩ := r
        obtain ⟨hbody, rfl⟩ := (literalBody_eq_some_iff hquote).1 hread
        exact .literal hquote hbody
    | heredoc => exact readAs_heredoc _
    | call hhead =>
      rw [codeToken_call hhead]
      exact readAs_callToken hhead
  · cases text with
    | nil => exact absurd rfl hne
    | cons c rest =>
      rw [codeToken_single hbegins]
      exact .single hbegins

/-! ### What is in the grammar is read -/

theorem CodeToken.codeToken_eq {text rest : List Char} {token : Token}
    (h : CodeToken text token rest) : codeToken text = .ok (token, rest) := by
  cases h with
  | closeTag => simp [codeToken]
  | lineComment hmark hfirst =>
    rw [List.append_assoc, codeToken_lineComment hmark,
      firstPlace_lineComment_iff.1 ⟨hfirst, rfl⟩]
  | blockComment hfirst =>
    rw [List.append_assoc, List.append_assoc, codeToken_blockComment,
      commentBody_eq_some_iff.2 ⟨hfirst, rfl⟩]
  | literal hquote hbody =>
    rw [List.cons_append, codeToken_literal hquote,
      (literalBody_eq_some_iff hquote).2 ⟨hbody, rfl⟩]
  | @heredoc label opening front blanks rest hlabel hopening hblanks hfirst hclear =>
    have hread := heredocOpening_eq_some_iff.2
      ⟨hlabel, hopening, (List.append_assoc opening (front ++ blanks ++ label) rest).symm⟩
    have hbody := (heredocBody_eq_some_iff hlabel).2
      ⟨front, blanks, rfl, hblanks, hfirst, hclear, rfl⟩
    obtain ⟨tail, rfl⟩ := exists_less_of_mem_heredocLine hopening
    simp only [List.cons_append] at hread ⊢
    rw [codeToken_tripleLess, hread]
    simp only [hbody]
  | callWithLiteral hhead hgap hquote hbody =>
    simp only [List.append_assoc, List.cons_append]
    rw [codeToken_call hhead, callToken_of_gap hgap hquote,
      (literalBody_eq_some_iff hquote).2 ⟨hbody, rfl⟩]
  | bareCall hhead hbare => rw [codeToken_call hhead, callToken_bare hbare]
  | @tripleLess rest hno =>
    have hnone : heredocOpening ('<' :: '<' :: '<' :: rest) = none := by
      cases hread : heredocOpening ('<' :: '<' :: '<' :: rest) with
      | none => rfl
      | some r =>
        obtain ⟨opening, label, after⟩ := r
        obtain ⟨hlabel, hopening, happend⟩ := heredocOpening_eq_some_iff.1 hread
        exact absurd ⟨after, happend⟩ (hno label opening hlabel hopening)
    simp only [List.cons_append, List.nil_append]
    rw [codeToken_tripleLess, hnone]
  | single hno => exact codeToken_single hno

theorem NeverEnds.codeToken_eq {text skipped : List Char} {fault : LexicalFault}
    (h : NeverEnds text skipped fault) : codeToken text = .error (skipped, fault) := by
  cases h with
  | blockComment hno => rw [codeToken_blockComment, commentBody_eq_none_iff.2 hno]
  | literal hquote hno =>
    rw [codeToken_literal hquote, (literalBody_eq_none_iff hquote).2 hno]
  | @heredoc label opening rest hlabel hopening hno =>
    have hread := heredocOpening_eq_some_iff.2 ⟨hlabel, hopening, (rfl : opening ++ rest = _)⟩
    have hbody := (heredocBody_eq_none_iff hlabel).2 hno
    obtain ⟨tail, rfl⟩ := exists_less_of_mem_heredocLine hopening
    simp only [List.cons_append] at hread ⊢
    rw [codeToken_tripleLess, hread]
    simp only [hbody]
  | callWithLiteral hhead hgap hquote hno =>
    rw [List.append_assoc, codeToken_call hhead, callToken_of_gap hgap hquote,
      (literalBody_eq_none_iff hquote).2 hno]

theorem CodeToken.unique {text rest rest' : List Char} {token token' : Token}
    (h : CodeToken text token rest) (h' : CodeToken text token' rest') :
    token = token' ∧ rest = rest' := by
  have heq := h.codeToken_eq.symm.trans h'.codeToken_eq
  simpa using heq

/-! ### From one token to all of them -/

theorem CodeToken.text_ne_nil {text rest : List Char} {token : Token}
    (h : CodeToken text token rest) : text ≠ [] := by
  cases h with
  | lineComment hmark _ => rcases hmark with rfl | rfl <;> simp
  | heredoc _ hopening =>
    obtain ⟨tail, rfl⟩ := exists_less_of_mem_heredocLine hopening
    simp
  | callWithLiteral => simp
  | bareCall hhead _ =>
    obtain ⟨tail, rfl⟩ := exists_dollar_of_mem_dispatcherWords hhead
    simp
  | _ => simp

theorem NeverEnds.text_ne_nil {text skipped : List Char} {fault : LexicalFault}
    (h : NeverEnds text skipped fault) : text ≠ [] := by
  cases h with
  | heredoc _ hopening =>
    obtain ⟨tail, rfl⟩ := exists_less_of_mem_heredocLine hopening
    simp
  | callWithLiteral => simp
  | _ => simp

namespace Listing

variable {before text rest : List Char}

theorem from_nil (inCode : Bool) (before : List Char) :
    Listing.from inCode ⟨before, []⟩ = ⟨[], none⟩ := by
  rw [Listing.from]

theorem from_html (h : text ≠ []) :
    Listing.from false ⟨before, text⟩ =
      (Listing.from true ⟨(inlineHtml text).1.reverse ++ before, (inlineHtml text).2⟩).cons
        ⟨before, text⟩ (.html (inlineHtml text).1) := by
  cases text with
  | nil => exact absurd rfl h
  | cons c text =>
    rw [Listing.from]
    rfl

theorem from_token {token : Token} (h : codeToken text = .ok (token, rest)) (hne : text ≠ []) :
    Listing.from true ⟨before, text⟩ =
      (Listing.from (token != .closeTag) ⟨token.lexeme.reverse ++ before, rest⟩).cons
        ⟨before, text⟩ token := by
  cases text with
  | nil => exact absurd rfl hne
  | cons c text =>
    rw [Listing.from]
    simp only [if_true]
    split
    · next hread =>
      rw [h] at hread
      cases hread
    · next hread =>
      rw [h] at hread
      cases hread
      rfl

theorem from_broken {skipped : List Char} {fault : LexicalFault}
    (h : codeToken text = .error (skipped, fault)) (hne : text ≠ []) :
    Listing.from true ⟨before, text⟩ = ⟨[], some (⟨skipped.reverse ++ before, []⟩, fault)⟩ := by
  cases text with
  | nil => exact absurd rfl hne
  | cons c text =>
    rw [Listing.from]
    simp only [if_true]
    split
    · next hread =>
      rw [h] at hread
      cases hread
      rfl
    · next hread =>
      rw [h] at hread
      cases hread

/-- Where the listing breaks off: the text in front of the place to blame, and the fault. -/
def broken (listing : Listing) : Option (List Char × LexicalFault) :=
  listing.fault.map fun (site, fault) => (site.before.reverse, fault)

/-- The listing from a site on is a division by the grammar. -/
theorem division (inCode : Bool) (site : Site) :
    Division inCode site (Listing.from inCode site).tokens (Listing.from inCode site).broken := by
  obtain ⟨before, text⟩ := site
  induction hlength : text.length using Nat.strong_induction_on generalizing inCode before text with
  | _ length ih =>
    subst hlength
    cases text with
    | nil =>
      rw [from_nil]
      exact .finished
    | cons c text =>
      cases inCode with
      | false =>
        have hpiece := htmlPiece_inlineHtml (c :: text)
        have happend := congrArg List.length (inlineHtml_append (c :: text))
        have hpos := List.length_pos_iff.2 (inlineHtml_fst_ne_nil c text)
        rw [List.length_append] at happend
        rw [from_html (by simp)]
        exact .html (by simp) hpiece (ih _ (by omega) true _ _ rfl)
      | true =>
        have hread := readAs_codeToken (List.cons_ne_nil c text)
        cases htoken : codeToken (c :: text) with
        | error e =>
          obtain ⟨skipped, fault⟩ := e
          rw [htoken] at hread
          rw [from_broken htoken (by simp)]
          have hbroken : Division true ⟨before, c :: text⟩ [] _ := .broken hread
          simpa [Listing.broken] using hbroken
        | ok r =>
          obtain ⟨token, rest⟩ := r
          rw [htoken] at hread
          rw [from_token htoken (by simp)]
          have hshort := codeToken_rest_length htoken
          exact .code hread (ih _ hshort _ _ _ rfl)

theorem eq_of_division {inCode : Bool} {site : Site} {tokens : List (Site × Token)}
    {fault : Option (List Char × LexicalFault)} (h : Division inCode site tokens fault) :
    (Listing.from inCode site).tokens = tokens ∧ (Listing.from inCode site).broken = fault := by
  induction h with
  | finished =>
    rw [from_nil]
    exact ⟨rfl, rfl⟩
  | html hne hpiece _ ih =>
    rw [from_html hne, htmlPiece_iff.1 hpiece]
    exact ⟨congrArg _ ih.1, ih.2⟩
  | code htoken _ ih =>
    rw [from_token htoken.codeToken_eq htoken.text_ne_nil]
    exact ⟨congrArg _ ih.1, ih.2⟩
  | broken hbroken =>
    rw [from_broken hbroken.codeToken_eq hbroken.text_ne_nil]
    simp [Listing.broken]

theorem division_iff {inCode : Bool} {site : Site} {tokens : List (Site × Token)}
    {fault : Option (List Char × LexicalFault)} :
    Division inCode site tokens fault ↔
      tokens = (Listing.from inCode site).tokens ∧ fault = (Listing.from inCode site).broken := by
  constructor
  · intro h
    obtain ⟨htokens, hfault⟩ := eq_of_division h
    exact ⟨htokens.symm, hfault.symm⟩
  · rintro ⟨rfl, rfl⟩
    exact division inCode site

end Listing

/-- Induction along the reading of a text: piece by piece outside code and token by token in it, up
to the end of the text or to a token that never ends. -/
theorem reading_induction {motive : Bool → List Char → Prop}
    (finished : ∀ inCode, motive inCode [])
    (html : ∀ text piece rest, text ≠ [] → HtmlPiece text piece rest → motive true rest →
      motive false text)
    (code : ∀ text token rest, CodeToken text token rest → motive (token != .closeTag) rest →
      motive true text)
    (broken : ∀ text skipped fault, NeverEnds text skipped fault → motive true text)
    (inCode : Bool) (text : List Char) : motive inCode text := by
  have along {inCode : Bool} {site : Site} {tokens : List (Site × Token)}
      {fault : Option (List Char × LexicalFault)} (h : Division inCode site tokens fault) :
      motive inCode site.after := by
    induction h with
    | finished => exact finished _
    | html hne hpiece _ ih => exact html _ _ _ hne hpiece ih
    | code htoken _ ih => exact code _ _ _ htoken ih
    | broken hbroken => exact broken _ _ _ hbroken
  exact along (Listing.division inCode ⟨[], text⟩)

end ExtensionAudit.Php
