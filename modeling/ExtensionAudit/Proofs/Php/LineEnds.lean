import ExtensionAudit.Php.Literal
import ExtensionAudit.Proofs.Php.Lookahead
import ExtensionAudit.Proofs.Text.LineEnds

/-!
# Tokens with other line ends

With a carriage return in front of each line feed a text has the same tokens, their line ends
changed. Two tokens are at odds with that, and no call is among them: a line feed on its own becomes
two tokens, and a comment up to the end of its line takes the carriage return in.
-/

namespace ExtensionAudit.Php

open ExtensionAudit.Text

def Literal.withReturns (l : Literal) : Literal := ⟨l.quote, Text.withReturns l.body⟩

def Call.withReturns (call : Call) : Call where
  head := Text.withReturns call.head
  official := call.official
  argument := call.argument.map fun (gap, literal) => (Text.withReturns gap, literal.withReturns)

def Token.withReturns : Token → Token
  | .html text => .html (Text.withReturns text)
  | .closeTag => .closeTag
  | .lineComment text => .lineComment (Text.withReturns text)
  | .blockComment body => .blockComment (Text.withReturns body)
  | .literal l => .literal l.withReturns
  | .heredoc opening body => .heredoc (Text.withReturns opening) (Text.withReturns body)
  | .call c => .call c.withReturns
  | .other text => .other (Text.withReturns text)

/-- The reading of a token, or the fault in it, with carriage returns. -/
def readWithReturns :
    Except (List Char × LexicalFault) (Token × List Char) →
      Except (List Char × LexicalFault) (Token × List Char)
  | .ok (token, rest) => .ok (token.withReturns, withReturns rest)
  | .error (skipped, fault) => .error (withReturns skipped, fault)

theorem IsQuote.withinLine {quote : Char} (h : IsQuote quote) : WithinLine [quote] := by
  rcases h with rfl | rfl <;> decide

theorem IsQuote.ne_newline {quote : Char} (h : IsQuote quote) : quote ≠ '\n' := by
  rcases h with rfl | rfl <;> decide

theorem lexeme_withReturns {token : Token} (hformed : Formed token) :
    token.withReturns.lexeme = withReturns token.lexeme := by
  have hslash : '/' ≠ '\n' := by decide
  have hstar : '*' ≠ '\n' := by decide
  cases hformed with
  | closeTag => rfl
  | blockComment =>
    simp [Token.withReturns, Token.lexeme, withReturns_cons hslash, withReturns_cons hstar]
  | literal hquote =>
    simp [Token.withReturns, Literal.withReturns, Token.lexeme, Literal.lexeme,
      withReturns_cons hquote.ne_newline]
  | heredoc => simp [Token.withReturns, Token.lexeme]
  | callWithLiteral hhead hgap hquote hbody =>
    simp [Token.withReturns, Call.withReturns, Literal.withReturns, Token.lexeme, Call.lexeme,
      Literal.lexeme, withReturns_cons hquote.ne_newline]
  | _ => rfl

/-! ### Text outside code, comments and literals -/

theorem holdsNoTag_withReturns {text : List Char} (h : HoldsNoTag text) :
    HoldsNoTag (withReturns text) := by
  intro tag htag hinfix
  have hword : WithinLine tag := by
    rcases htag with rfl | rfl <;> decide
  exact h tag htag ((infix_withReturns_iff hword).1 hinfix)

theorem HtmlPiece.withReturns {text piece rest : List Char} (h : HtmlPiece text piece rest) :
    HtmlPiece (withReturns text) (withReturns piece) (withReturns rest) := by
  rcases htmlPiece_cases h with ⟨body, tag, hbody, htag, rfl⟩ | ⟨hno, rfl⟩
  · obtain rfl := h.append_eq
    have hword : Text.withReturns tag = tag := by
      rcases htag with rfl | rfl <;> decide
    have hpiece := htmlPiece_of_tag (holdsNoTag_withReturns hbody) htag (Text.withReturns rest)
    simpa [hword] using hpiece
  · obtain rfl : piece = text := by simpa using h.append_eq
    exact .untagged (holdsNoTag_withReturns hno)

theorem commentBody_withReturns (cs : List Char) :
    commentBody (withReturns cs) = (commentBody cs).map (Prod.map withReturns withReturns) := by
  have hmark : WithinLine ['*', '/'] := by decide
  cases hread : commentBody cs with
  | none =>
    rw [commentBody_eq_none_iff] at hread
    exact commentBody_eq_none_iff.2 (mt (infix_withReturns_iff hmark).1 hread)
  | some split =>
    obtain ⟨body, rest⟩ := split
    obtain ⟨hfirst, rfl⟩ := commentBody_eq_some_iff.1 hread
    have hbody := mt (infix_withReturns_iff hmark).1 (firstPlace_commentBody_iff.1 hfirst)
    exact commentBody_eq_some_iff.2 ⟨firstPlace_commentBody_iff.2 hbody, by simp; rfl⟩

theorem literalBody_plain {quote c : Char} (hescape : c ≠ '\\') (hquote : c ≠ quote)
    (cs : List Char) :
    literalBody quote (c :: cs) = (literalBody quote cs).map fun (body, rest) => (c :: body, rest) := by
  rw [literalBody, if_neg (by simpa using hquote)]
  · exact fun _ _ h => absurd h hescape
  · exact fun h => absurd h hescape

theorem literalBody_newline {quote : Char} (hquote : IsQuote quote) (cs : List Char) :
    literalBody quote ('\n' :: cs)
      = (literalBody quote cs).map fun (body, rest) => ('\n' :: body, rest) :=
  literalBody_plain (by decide) hquote.ne_newline.symm cs

theorem literalBody_withReturns {quote : Char} (hquote : IsQuote quote) (cs : List Char) :
    literalBody quote (withReturns cs)
      = (literalBody quote cs).map (Prod.map withReturns withReturns) := by
  have hreturn : '\r' ≠ quote := by
    rcases hquote with rfl | rfl <;> decide
  have hbackslash : '\\' ≠ '\n' := by decide
  fun_induction literalBody quote cs with
  | case1 c rest ih =>
    rw [withReturns_cons hbackslash]
    by_cases hc : c = '\n'
    · subst hc
      rw [withReturns_newline, literalBody, literalBody_newline hquote, ih]
      cases literalBody quote rest <;> simp [withReturns_cons hbackslash]
    · rw [withReturns_cons hc, literalBody, ih]
      cases literalBody quote rest <;> simp [withReturns_cons hbackslash, withReturns_cons hc]
  | case2 => rfl
  | case3 c rest hescape hlone hc =>
    obtain rfl : c = quote := by simpa using hc
    rw [withReturns_cons hquote.ne_newline, literalBody, if_pos hc]
    · rfl
    · exact fun _ _ h => absurd h hquote.ne_backslash
    · exact fun h => absurd h hquote.ne_backslash
  | case4 c rest hescape hlone hc ih =>
    have hplain : c ≠ '\\' := by
      rintro rfl
      cases rest with
      | nil => exact hlone rfl rfl
      | cons d rest => exact hescape d rest rfl rfl
    have hnot : c ≠ quote := by simpa using hc
    by_cases hline : c = '\n'
    · subst hline
      rw [withReturns_newline, literalBody_plain (by decide) hreturn, literalBody_newline hquote, ih]
      cases literalBody quote rest <;> simp
    · rw [withReturns_cons hline, literalBody_plain hplain hnot, ih]
      cases literalBody quote rest <;> simp [withReturns_cons hline]
  | case5 => rfl

/-! ### Heredocs -/

theorem labelQuote_cons (c : Char) (cs : List Char) : labelQuote (c :: cs) = labelQuote [c] := by
  unfold labelQuote
  split <;> simp_all

theorem labelQuote_withReturns (cs : List Char) : labelQuote (withReturns cs) = labelQuote cs := by
  cases cs with
  | nil => rfl
  | cons c cs =>
    by_cases hc : c = '\n'
    · subst hc
      rfl
    · rw [withReturns_cons hc, labelQuote_cons, labelQuote_cons c cs]

theorem labelQuote_leads (cs : List Char) : labelQuote cs <+: cs := by
  unfold labelQuote
  split <;> simp

theorem IsLabelQuote.withinLine {quote : List Char} (h : IsLabelQuote quote) : WithinLine quote := by
  rcases h with rfl | rfl | rfl <;> decide

theorem withinLine_of_stretch {word : List Char} (h : word ∈ stretch isLabelRest) :
    WithinLine word :=
  ⟨not_mem_of_stretch h (by decide), not_mem_of_stretch h (by decide)⟩

theorem withinLine_append {word tail : List Char} (hword : WithinLine word)
    (htail : WithinLine tail) : WithinLine (word ++ tail) := by
  simp only [WithinLine, List.mem_append, not_or]
  exact ⟨⟨hword.1, htail.1⟩, hword.2, htail.2⟩

theorem isInlineBlank_return : isInlineBlank '\r' = isInlineBlank '\n' := by decide

theorem heredocStart_neutral :
    (Scan.andThen (.exactly ['<', '<', '<']) (.many isInlineBlank)).LineEndNeutral :=
  (Scan.exactly_neutral (by decide)).andThen (Scan.exactly_lossless _)
    (Scan.many_neutral isInlineBlank_return)

theorem heredocEnding_neutral {word : List Char} (hword : WithinLine word) :
    (Scan.andThen (.exactly word) (.andThen (.many isInlineBlank)
      (.andThen (.opt (.exactly ['\r'])) (.exactly ['\n'])))).LineEndNeutral :=
  (Scan.exactly_neutral hword).andThen (Scan.exactly_lossless _) <|
    (Scan.many_neutral isInlineBlank_return).andThen (Scan.many_lossless _) Scan.lineBreak_neutral

theorem takeWhile_drop_labelQuote_withReturns (cs : List Char) :
    ((withReturns cs).drop (labelQuote cs).length).takeWhile isLabelRest
      = (cs.drop (labelQuote cs).length).takeWhile isLabelRest := by
  have hquote := (isLabelQuote_labelQuote cs).withinLine
  have hlabel : (cs.drop (labelQuote cs).length).takeWhile isLabelRest ∈ stretch isLabelRest :=
    List.all_eq_true.1 List.all_takeWhile
  rw [drop_length_withReturns hquote.1 (labelQuote_leads cs),
    takeWhile_withReturns (by decide), withReturns_of_not_mem (withinLine_of_stretch hlabel).1]

theorem heredocOpening_withReturns {cs : List Char} (h : '\r' ∉ cs) :
    heredocOpening (withReturns cs)
      = (heredocOpening cs).map fun (opening, label, rest) =>
          (withReturns opening, label, withReturns rest) := by
  unfold heredocOpening
  rw [heredocStart_neutral cs h]
  cases hstart : Scan.andThen (.exactly ['<', '<', '<']) (.many isInlineBlank) cs with
  | none => rfl
  | some split =>
    obtain ⟨start, rest⟩ := split
    have hrest := (Scan.andThen_lossless (Scan.exactly_lossless _)
      (Scan.many_lossless _)).return_not_mem h hstart
    have hquote := (isLabelQuote_labelQuote rest).withinLine
    have hlabel : (rest.drop (labelQuote rest).length).takeWhile isLabelRest ∈ stretch isLabelRest :=
      List.all_eq_true.1 List.all_takeWhile
    simp only [Option.map_some, Prod.map_apply, labelQuote_withReturns,
      takeWhile_drop_labelQuote_withReturns]
    generalize (rest.drop (labelQuote rest).length).takeWhile isLabelRest = label at hlabel ⊢
    have hending := heredocEnding_neutral
      (withinLine_append (withinLine_append hquote (withinLine_of_stretch hlabel)) hquote) rest hrest
    by_cases hhead : label.head?.any isLabelStart = true
    · rw [if_pos hhead, if_pos hhead, hending, Option.map_map, Option.map_map]
      refine Option.map_congr fun split _ => ?_
      simp
    · rw [if_neg hhead, if_neg hhead]
      rfl

theorem closingLabel_neutral {label : List Char} (hlabel : IsLabel label) :
    (closingLabel label : Scan).LineEndNeutral := by
  intro cs h
  have hscan := ((Scan.many_neutral isInlineBlank_return).andThen (Scan.many_lossless _)
    (Scan.exactly_neutral (withinLine_of_stretch hlabel.all))) cs h
  rw [closingLabel, closingLabel, hscan]
  cases Scan.andThen (.many isInlineBlank) (.exactly label) cs with
  | none => rfl
  | some split =>
    obtain ⟨text, rest⟩ := split
    have hclear := any_head?_withReturns (p := isLabelRest) (by decide) rest
    simp only [Option.map_some, Prod.map_apply, hclear]
    split <;> rfl

theorem closingLabel_newline {label : List Char} (hlabel : IsLabel label) (cs : List Char) :
    closingLabel label ('\n' :: cs) = none := by
  cases hread : closingLabel label ('\n' :: cs) with
  | none => rfl
  | some split =>
    obtain ⟨text, rest⟩ := split
    obtain ⟨blanks, hblanks, rfl, _, happend⟩ := (closingLabel_eq_some_iff hlabel).1 hread
    have hne : blanks ++ label ≠ [] := List.append_ne_nil_of_right_ne_nil blanks hlabel.ne_nil
    obtain ⟨c, tail, hword⟩ := List.exists_cons_of_ne_nil hne
    have hnewline := newline_not_mem_closing hlabel hblanks
    rw [hword, List.cons_append] at happend
    rw [hword, (List.cons.inj happend).1] at hnewline
    simp at hnewline

theorem heredocBody_cons {label : List Char} {c : Char} {cs : List Char} {atLineStart : Bool}
    (h : atLineStart = true → closingLabel label (c :: cs) = none) :
    heredocBody label atLineStart (c :: cs)
      = (heredocBody label (c == '\n') cs).map fun (body, rest) => (c :: body, rest) := by
  have hnone : (if atLineStart then closingLabel label (c :: cs) else none) = none := by
    cases atLineStart with
    | false => rfl
    | true => exact h rfl
  rw [heredocBody, hnone]

theorem heredocBody_withReturns {label : List Char} (hlabel : IsLabel label) {cs : List Char}
    (h : '\r' ∉ cs) (atLineStart : Bool) :
    heredocBody label atLineStart (withReturns cs)
      = (heredocBody label atLineStart cs).map (Prod.map withReturns withReturns) := by
  induction cs generalizing atLineStart with
  | nil => rfl
  | cons c cs ih =>
    have hneutral := closingLabel_neutral hlabel (c :: cs) h
    rw [List.mem_cons, not_or] at h
    by_cases hc : c = '\n'
    · subst hc
      have hnone := closingLabel_newline hlabel cs
      rw [hnone, withReturns_newline] at hneutral
      rw [heredocBody_cons fun _ => hnone, withReturns_newline, heredocBody_cons fun _ => hneutral,
        heredocBody_cons fun _ => closingLabel_newline hlabel _, ih h.2]
      cases heredocBody label ('\n' == '\n') cs <;> simp
    · rw [withReturns_cons hc] at hneutral ⊢
      by_cases hcloses : atLineStart = true ∧ closingLabel label (c :: cs) ≠ none
      · obtain ⟨rfl, hsome⟩ := hcloses
        obtain ⟨⟨text, rest⟩, hread⟩ := Option.ne_none_iff_exists'.1 hsome
        rw [hread] at hneutral
        simp [heredocBody, hread, hneutral]
      · have hnone (hstart : atLineStart = true) : closingLabel label (c :: cs) = none := by
          by_contra hsome
          exact hcloses ⟨hstart, hsome⟩
        have hnone' (hstart : atLineStart = true) :
            closingLabel label (c :: withReturns cs) = none := by
          rw [hneutral, hnone hstart]
          rfl
        rw [heredocBody_cons hnone, heredocBody_cons hnone', ih h.2]
        cases heredocBody label (c == '\n') cs <;> simp [withReturns_cons hc]

/-! ### Dispatcher calls -/

theorem isBlank_return : isBlank '\r' = isBlank '\n' := by decide

theorem arrow_neutral : arrow.LineEndNeutral :=
  (Scan.many_neutral isBlank_return).andThen (Scan.many_lossless _) <|
    (Scan.exactly_neutral (by decide)).andThen (Scan.exactly_lossless _)
      (Scan.many_neutral isBlank_return)

theorem dispatcherOwner_neutral : dispatcherOwner.LineEndNeutral :=
  (Scan.exactly_neutral (by decide)).andThen (Scan.exactly_lossless _) <|
    ((Scan.exactly_neutral (by decide)).andThen (Scan.exactly_lossless _) arrow_neutral).opt

theorem dispatcherCall_neutral : dispatcherCall.LineEndNeutral :=
  (Scan.exactly_neutral (by decide)).opt.andThen (Scan.opt_lossless (Scan.exactly_lossless _)) <|
    (Scan.exactly_neutral (by decide)).andThen (Scan.exactly_lossless _) <|
      arrow_neutral.andThen arrow_lossless <|
        ((Scan.exactly_neutral (by decide)).orElse (Scan.exactly_neutral (by decide))).andThen
          (Scan.orElse_lossless (Scan.exactly_lossless _) (Scan.exactly_lossless _)) <|
          (Scan.many_neutral isBlank_return).andThen (Scan.many_lossless _)
            (Scan.exactly_neutral (by decide))

theorem callHead_withReturns {cs : List Char} (h : '\r' ∉ cs) :
    callHead (withReturns cs)
      = (callHead cs).map fun (head, official, rest) =>
          (withReturns head, official, withReturns rest) := by
  rw [callHead, callHead, dispatcherOwner_neutral cs h]
  cases howner : dispatcherOwner cs with
  | none => rfl
  | some split =>
    obtain ⟨owner, rest⟩ := split
    have hrest := dispatcherOwner_lossless.return_not_mem h howner
    have hmark : officialName.isPrefixOf (withReturns rest) = officialName.isPrefixOf rest :=
      isPrefixOf_withReturns (by decide) rest
    simp only [Option.map_some, Prod.map_apply, dispatcherCall_neutral rest hrest,
      hmark]
    cases dispatcherCall rest <;> simp

theorem mem_stretch_withReturns {p : Char → Bool} (hp : p '\r' = p '\n') {word : List Char}
    (h : word ∈ stretch p) : withReturns word ∈ stretch p := by
  rw [mem_stretch, ← List.all_eq_true] at h ⊢
  rw [all_withReturns hp, h]

theorem goesOnWithQuote_withReturns {text : List Char} :
    GoesOnWithQuote (withReturns text) ↔ GoesOnWithQuote text := by
  rw [goesOnWithQuote_iff, goesOnWithQuote_iff, dropWhile_withReturns isBlank_return]
  constructor
  · rintro ⟨quote, tail, hdrop, hquote⟩
    have hfront : [quote] <+: withReturns (text.dropWhile isBlank) := ⟨tail, hdrop.symm⟩
    obtain ⟨tail', htail⟩ := (prefix_withReturns_iff hquote.withinLine).1 hfront
    exact ⟨quote, tail', htail.symm, hquote⟩
  · rintro ⟨quote, tail, hdrop, hquote⟩
    exact ⟨quote, withReturns tail, by rw [hdrop, withReturns_cons hquote.ne_newline], hquote⟩

theorem callToken_withReturns (head : List Char) (official : Bool) (after : List Char) :
    callToken (withReturns head) official (withReturns after)
      = readWithReturns (callToken head official after) := by
  by_cases hgoes : GoesOnWithQuote after
  · obtain ⟨gap, quote, tail, hgap, hquote, rfl⟩ := hgoes
    have hgap' := mem_stretch_withReturns isBlank_return hgap
    rw [withReturns_append, withReturns_cons hquote.ne_newline, callToken_of_gap hgap hquote,
      callToken_of_gap hgap' hquote, literalBody_withReturns hquote]
    cases literalBody quote tail with
    | none => simp [readWithReturns]
    | some split => rfl
  · rw [callToken_bare hgoes, callToken_bare (mt goesOnWithQuote_withReturns.1 hgoes)]
    rfl

/-! ### The value of a literal -/

theorem nil_or_singleton_of_short {cs : List Char}
    (h : ∀ c d rest, cs = c :: d :: rest → False) : cs = [] ∨ ∃ c, cs = [c] := by
  match cs with
  | [] => exact .inl rfl
  | [c] => exact .inr ⟨c, rfl⟩
  | c :: d :: rest => exact absurd rfl (h c d rest)

/-- Replacing a pair of characters that belong to no line end leaves the line ends as they are. -/
theorem replacePair_withReturns {a b single : Char} (ha : WithinLine [a]) (hb : WithinLine [b])
    (hsingle : single ≠ '\n') (cs : List Char) :
    replacePair a b single (withReturns cs) = withReturns (replacePair a b single cs) := by
  simp only [WithinLine, List.mem_singleton] at ha hb
  fun_induction replacePair a b single cs with
  | case1 c d rest hpair ih =>
    obtain ⟨rfl, rfl⟩ : c = a ∧ d = b := by simpa using hpair
    rw [withReturns_cons (Ne.symm ha.1), withReturns_cons (Ne.symm hb.1), replacePair, if_pos hpair,
      ih, withReturns_cons hsingle]
  | case2 c d rest hpair ih =>
    by_cases hc : c = '\n'
    · subst hc
      rw [withReturns_newline, replacePair_cons_of_ne ha.2, replacePair_cons_of_ne ha.1, ih,
        withReturns_newline]
    · obtain ⟨e, tail, heq, he⟩ := exists_withReturns_cons d rest
      have hno : ¬ (c == a && e == b) = true := by
        rcases he with rfl | ⟨_, rfl⟩
        · exact hpair
        · simp [hb.2]
      rw [withReturns_cons hc, withReturns_cons hc, ← ih, heq, replacePair, if_neg hno]
  | case3 cs hshort =>
    rcases nil_or_singleton_of_short hshort with rfl | ⟨c, rfl⟩
    · rfl
    · by_cases hc : c = '\n'
      · subst hc
        exact replacePair_cons_of_ne ha.2 _
      · rw [withReturns_cons hc]
        rfl

theorem holdsVariable_cons {c : Char} (hc : c ∉ ['$', '{', '\\']) (escaped : Bool)
    (cs : List Char) : holdsVariable escaped (c :: cs) = holdsVariable false cs := by
  simp only [List.mem_cons, List.not_mem_nil, or_false, not_or, ← beq_eq_false_iff_ne] at hc
  cases cs with
  | nil => rfl
  | cons d cs => simp [holdsVariable, beginsVariable, hc]

theorem holdsVariable_withReturns (escaped : Bool) (cs : List Char) :
    holdsVariable escaped (withReturns cs) = holdsVariable escaped cs := by
  fun_induction holdsVariable escaped cs with
  | case1 escaped c d rest ih =>
    by_cases hc : c = '\n'
    · subst hc
      rw [withReturns_newline, holdsVariable_cons (by decide), holdsVariable_cons (by decide)]
      simpa [beginsVariable] using ih
    · obtain ⟨e, tail, heq, he⟩ := exists_withReturns_cons d rest
      have hbegins : beginsVariable c e = beginsVariable c d := by
        rcases he with rfl | ⟨rfl, rfl⟩
        · rfl
        · simp [beginsVariable]
      rw [heq] at ih
      rw [withReturns_cons hc, heq, holdsVariable, hbegins, ih]
  | case2 cs escaped hshort =>
    rcases nil_or_singleton_of_short hshort with rfl | ⟨c, rfl⟩
    · rfl
    · by_cases hc : c = '\n'
      · subst hc
        exact holdsVariable_cons (by decide) escaped _
      · rw [withReturns_cons hc]
        rfl

theorem Literal.value_withReturns {l : Literal} (hquote : IsQuote l.quote) :
    l.withReturns.value = Text.withReturns l.value := by
  rw [Literal.value, Literal.value, Literal.withReturns,
    replacePair_withReturns (by decide) hquote.withinLine hquote.ne_newline,
    replacePair_withReturns (by decide) (by decide) (by decide)]

theorem Literal.isInterpolated_withReturns (l : Literal) :
    l.withReturns.isInterpolated = l.isInterpolated := by
  rw [Literal.isInterpolated, Literal.isInterpolated, Literal.withReturns, holdsVariable_withReturns]

/-! ### Tokens -/

/-- A token of more than one character begins with the new text if one began with the old. -/
theorem beginsToken_of_withReturns {text : List Char} (h : '\r' ∉ text)
    (hbegins : BeginsToken (withReturns text)) : BeginsToken text := by
  have front {word tail : List Char} (hword : WithinLine word)
      (heq : word ++ tail = withReturns text) : ∃ tail, word ++ tail = text :=
    (prefix_withReturns_iff hword).1 ⟨tail, heq⟩
  generalize heq : withReturns text = text' at hbegins
  cases hbegins with
  | closeTag =>
    obtain ⟨tail, rfl⟩ := front (by decide) heq.symm
    exact .closeTag
  | @lineComment mark rest hmark =>
    have hword : WithinLine mark := by
      rcases hmark with rfl | rfl <;> decide
    obtain ⟨tail, rfl⟩ := front hword heq.symm
    exact .lineComment hmark
  | blockComment =>
    obtain ⟨tail, rfl⟩ := front (by decide) heq.symm
    exact .blockComment
  | @literal quote rest hquote =>
    obtain ⟨tail, rfl⟩ := front hquote.withinLine heq.symm
    exact .literal hquote
  | heredoc =>
    obtain ⟨tail, rfl⟩ := front (by decide) heq.symm
    exact .heredoc
  | call hhead =>
    have hread := callHead_eq_some_iff.2 ⟨hhead, heq.symm⟩
    rw [callHead_withReturns h, Option.map_eq_some_iff] at hread
    obtain ⟨⟨head, official, rest⟩, hcall, _⟩ := hread
    obtain ⟨hhead', rfl⟩ := callHead_eq_some_iff.1 hcall
    exact .call hhead'

theorem codeToken_tripleLess_withReturns {cs : List Char} (h : '\r' ∉ ['<', '<', '<'] ++ cs) :
    codeToken (withReturns (['<', '<', '<'] ++ cs))
      = readWithReturns (codeToken (['<', '<', '<'] ++ cs)) := by
  have hopening := heredocOpening_withReturns h
  rw [withReturns_append, withReturns_of_not_mem (by decide)] at hopening ⊢
  simp only [List.cons_append, List.nil_append] at hopening h ⊢
  rw [codeToken_tripleLess, codeToken_tripleLess, hopening]
  cases hread : heredocOpening ('<' :: '<' :: '<' :: cs) with
  | none => rfl
  | some split =>
    obtain ⟨opening, label, after⟩ := split
    obtain ⟨hlabel, _, happend⟩ := heredocOpening_eq_some_iff.1 hread
    have hafter : '\r' ∉ after := by
      rw [← happend, List.mem_append, not_or] at h
      exact h.2
    simp only [Option.map_some, heredocBody_withReturns hlabel hafter]
    cases heredocBody label true after <;> rfl

theorem codeToken_withReturns {text : List Char} (h : '\r' ∉ text) (hne : text ≠ [])
    (hline : ¬ ['\n'] <+: text) (hcomment : ∀ mark, OpensLineComment mark → ¬ mark <+: text) :
    codeToken (withReturns text) = readWithReturns (codeToken text) := by
  by_cases hbegins : BeginsToken text
  · cases hbegins with
    | closeTag => simp [codeToken, withReturns_cons, readWithReturns, Token.withReturns]
    | lineComment hmark => exact absurd (List.prefix_append _ _) (hcomment _ hmark)
    | blockComment =>
      rw [withReturns_append, withReturns_of_not_mem (by decide), codeToken_blockComment,
        codeToken_blockComment, commentBody_withReturns]
      cases commentBody _ <;> rfl
    | @literal quote rest hquote =>
      rw [withReturns_cons hquote.ne_newline, codeToken_literal hquote, codeToken_literal hquote,
        literalBody_withReturns hquote]
      cases literalBody quote rest <;> rfl
    | heredoc => exact codeToken_tripleLess_withReturns h
    | @call official head rest hhead =>
      have hread := callHead_withReturns h
      rw [callHead_eq_some_iff.2 ⟨hhead, rfl⟩, Option.map_some, callHead_eq_some_iff] at hread
      rw [withReturns_append, codeToken_call hread.1, codeToken_call hhead, callToken_withReturns]
  · have hbegins' := mt (beginsToken_of_withReturns h) hbegins
    obtain ⟨c, rest, rfl⟩ := List.exists_cons_of_ne_nil hne
    have hc : c ≠ '\n' := by
      rintro rfl
      exact hline (by simp)
    rw [codeToken_single hbegins]
    rw [withReturns_cons hc] at hbegins' ⊢
    rw [codeToken_single hbegins']
    simp [readWithReturns, Token.withReturns, withReturns_cons hc]

theorem CodeToken.exists_lineComment {text rest mark : List Char} {token : Token}
    (h : CodeToken text token rest) (hmark : OpensLineComment mark) (hfront : mark <+: text) :
    ∃ comment, token = .lineComment comment := by
  obtain ⟨tail, rfl⟩ := hfront
  have hread := h.codeToken_eq
  rw [codeToken_lineComment hmark] at hread
  cases hread
  exact ⟨_, rfl⟩

theorem CodeToken.withReturns {text rest : List Char} {token : Token} (h : CodeToken text token rest)
    (hreturn : '\r' ∉ text) (hline : ¬ ['\n'] <+: text)
    (hcomment : ∀ comment, token ≠ .lineComment comment) :
    CodeToken (withReturns text) token.withReturns (withReturns rest) := by
  have hread := codeToken_withReturns hreturn h.text_ne_nil hline fun mark hmark hfront =>
    (h.exists_lineComment hmark hfront).elim hcomment
  rw [h.codeToken_eq] at hread
  have hne : Text.withReturns text ≠ [] := mt withReturns_eq_nil_iff.1 h.text_ne_nil
  have htoken := readAs_codeToken hne
  rwa [hread] at htoken

theorem NeverEnds.withReturns {text skipped : List Char} {fault : LexicalFault}
    (h : NeverEnds text skipped fault) (hreturn : '\r' ∉ text) :
    NeverEnds (withReturns text) (withReturns skipped) fault := by
  have hline : ¬ ['\n'] <+: text := by
    rintro ⟨tail, rfl⟩
    have hread := h.codeToken_eq
    rw [List.singleton_append, codeToken_single (by simp [mt first_of_beginsToken])] at hread
    cases hread
  have hcomment (mark : List Char) (hmark : OpensLineComment mark) : ¬ mark <+: text := by
    rintro ⟨tail, rfl⟩
    have hread := h.codeToken_eq
    rw [codeToken_lineComment hmark] at hread
    cases hread
  have hread := codeToken_withReturns hreturn h.text_ne_nil hline hcomment
  rw [h.codeToken_eq] at hread
  have hne : Text.withReturns text ≠ [] := mt withReturns_eq_nil_iff.1 h.text_ne_nil
  have hbroken := readAs_codeToken hne
  rwa [hread] at hbroken

theorem not_closeTag_infix_append_return {body : List Char} (h : ¬ ['?', '>'] <:+: body) :
    ¬ ['?', '>'] <:+: body ++ ['\r'] := by
  rw [List.infix_concat_iff, not_or]
  refine ⟨?_, h⟩
  rintro ⟨front, happend⟩
  have hlast := congrArg List.getLast? happend
  simp at hlast

theorem newline_not_mem_lineComment {comment : List Char} (h : Formed (.lineComment comment)) :
    '\n' ∉ comment := by
  cases h with
  | lineComment hmark hbody _ =>
    rw [List.mem_append, not_or]
    refine ⟨?_, hbody⟩
    rcases hmark with rfl | rfl <;> decide

/-- A comment that the end of its line ends takes the carriage return in. -/
theorem lineComment_withReturns {text rest comment : List Char}
    (h : CodeToken text (.lineComment comment) rest) :
    CodeToken (withReturns text) (.lineComment comment) (withReturns rest) ∨
      ∃ tail, rest = '\n' :: tail ∧
        CodeToken (withReturns text) (.lineComment (comment ++ ['\r']))
          ('\n' :: withReturns tail) := by
  obtain ⟨hformed, hends, rfl⟩ := codeToken_iff.1 h
  generalize htoken : Token.lineComment comment = token at hformed
  cases hformed with
  | @lineComment mark body hmark hbody htag =>
    obtain rfl := Token.lineComment.inj htoken
    have hcomment := newline_not_mem_lineComment (.lineComment hmark hbody htag)
    have htext : withReturns (Token.lexeme (.lineComment (mark ++ body)) ++ rest)
        = mark ++ body ++ withReturns rest := by
      rw [withReturns_append, Token.lexeme, withReturns_of_not_mem hcomment]
    rw [htext]
    rcases hends with rfl | ⟨tail, rfl⟩ | ⟨tail, rfl⟩
    · exact .inl (codeToken_iff.2 ⟨.lineComment hmark hbody htag, .inl rfl, rfl⟩)
    · have hformed : Formed (.lineComment (mark ++ (body ++ ['\r']))) :=
        .lineComment hmark (by simp [hbody]) (not_closeTag_infix_append_return htag)
      have hends : EndsLineComment ('\n' :: withReturns tail) := .inr (.inl (by simp))
      rw [← List.append_assoc] at hformed
      exact .inr ⟨tail, rfl, codeToken_iff.2 ⟨hformed, hends, by simp [Token.lexeme]⟩⟩
    · refine .inl (codeToken_iff.2 ⟨.lineComment hmark hbody htag, .inr (.inr ?_), rfl⟩)
      rw [withReturns_append, withReturns_of_not_mem (by decide)]
      exact List.prefix_append _ _
  | _ => cases htoken

end ExtensionAudit.Php
