import ExtensionAudit.Php.Token
import ExtensionAudit.Text.Blank
import ExtensionAudit.Text.Scan
import ExtensionAudit.Text.Word

/-!
Division of a PHP text into tokens. Text outside code runs through its next opening tag; in code the
longest reading of the token that begins at the current character is taken. The main statements
say that a token's lexeme and the rest are the text it was read from, and that no lexeme is empty,
so the division ends and loses nothing.
-/

namespace ExtensionAudit.Php

open ExtensionAudit.Text

/-- Text outside code, through the next opening tag, and what follows. -/
def inlineHtml : List Char → List Char × List Char
  | [] => ([], [])
  | c :: rest =>
    if "<?php".toList.isPrefixOf (c :: rest) then ("<?php".toList, (c :: rest).drop 5)
    else if "<?=".toList.isPrefixOf (c :: rest) then ("<?=".toList, (c :: rest).drop 3)
    else
      let later := inlineHtml rest
      (c :: later.1, later.2)

/-- The comment's text up to the end of its line or of the code, and what follows. -/
def lineComment : List Char → List Char × List Char
  | [] => ([], [])
  | c :: rest =>
    if c == '\n' || ['?', '>'].isPrefixOf (c :: rest) then ([], c :: rest)
    else
      let later := lineComment rest
      (c :: later.1, later.2)

/-- The text before the mark that ends a comment, and what follows the mark. -/
def commentBody : List Char → Option (List Char × List Char)
  | '*' :: '/' :: rest => some ([], rest)
  | c :: rest => (commentBody rest).map fun (body, rest) => (c :: body, rest)
  | [] => none

/-- The body of a string literal behind its opening quote, and what follows the closing one. A
backslash takes the next character with it, whatever it is. -/
def literalBody (quote : Char) : List Char → Option (List Char × List Char)
  | '\\' :: c :: rest => (literalBody quote rest).map fun (body, rest) => ('\\' :: c :: body, rest)
  | ['\\'] => none
  | c :: rest =>
    if c == quote then some ([], rest)
    else (literalBody quote rest).map fun (body, rest) => (c :: body, rest)
  | [] => none

def isLabelStart (c : Char) : Bool := ('a' ≤ c && c ≤ 'z') || ('A' ≤ c && c ≤ 'Z') || c == '_'

/-- A character that a heredoc label can go on with. -/
def isLabelRest (c : Char) : Bool := isAsciiAlphanumeric c || c == '_'

def isInlineBlank (c : Char) : Bool := c == ' ' || c == '\t'

/-- The quote around a heredoc label, if there is one. -/
def labelQuote : List Char → List Char
  | '\'' :: _ => ['\'']
  | '"' :: _ => ['"']
  | _ => []

/-- The line that opens a heredoc, its label, and what follows the line. -/
def heredocOpening (cs : List Char) : Option (List Char × List Char × List Char) :=
  match Scan.andThen (.exactly ['<', '<', '<']) (.many isInlineBlank) cs with
  | none => none
  | some (start, rest) =>
    let quote := labelQuote rest
    let label := (rest.drop quote.length).takeWhile isLabelRest
    if label.head?.any isLabelStart then
      let ending : Scan := .andThen (.exactly (quote ++ label ++ quote))
        (.andThen (.many isInlineBlank) (.andThen (.opt (.exactly ['\r'])) (.exactly ['\n'])))
      (ending rest).map fun (line, rest) => (start ++ line, label, rest)
    else none

/-- A heredoc's closing label at the start of a line, blanks before it included. -/
def closingLabel (label : List Char) : Scan := fun cs =>
  match Scan.andThen (.many isInlineBlank) (.exactly label) cs with
  | none => none
  | some (text, rest) => if rest.head?.any isLabelRest then none else some (text, rest)

/-- The text of a heredoc through its closing label, and what follows. The label counts only at the
start of a line. -/
def heredocBody (label : List Char) : Bool → List Char → Option (List Char × List Char)
  | _, [] => none
  | atLineStart, c :: rest =>
    match (if atLineStart then closingLabel label (c :: rest) else none) with
    | some (text, rest) => some (text, rest)
    | none => (heredocBody label (c == '\n') rest).map fun (body, rest) => (c :: body, rest)

/-- The arrow of a member access, with the blanks around it. -/
def arrow : Scan :=
  .andThen (.many isBlank) (.andThen (.exactly ['-', '>']) (.many isBlank))

/-- The name that tells the board's own dispatcher from others. -/
def officialName : List Char := "phpbb_".toList

/-- The variable that holds the dispatcher, up to the dispatcher's own name. -/
def dispatcherOwner : Scan :=
  .andThen (.exactly ['$']) (.opt (.andThen (.exactly "this".toList) arrow))

/-- From the dispatcher's name to the bracket of the call. -/
def dispatcherCall : Scan :=
  .andThen (.opt (.exactly officialName)) <| .andThen (.exactly "dispatcher".toList) <|
    .andThen arrow <|
      .andThen (.orElse (.exactly "trigger_event".toList) (.exactly "dispatch".toList)) <|
        .andThen (.many isBlank) (.exactly ['('])

/-- The text of a dispatcher call up to its bracket, whether it is the board's own dispatcher, and
what follows. -/
def callHead (cs : List Char) : Option (List Char × Bool × List Char) :=
  match dispatcherOwner cs with
  | none => none
  | some (owner, rest) =>
    (dispatcherCall rest).map fun (call, after) =>
      (owner ++ call, officialName.isPrefixOf rest, after)

/-- The token of a dispatcher call, whose text up to the bracket is known, with what follows it: the
call takes a string literal behind the bracket with it, which has to end. -/
def callToken (head : List Char) (official : Bool) (after : List Char) :
    Except (List Char × LexicalFault) (Token × List Char) :=
  let gap := after.takeWhile isBlank
  match after.dropWhile isBlank with
  | [] => .ok (.call ⟨head, official, none⟩, after)
  | quote :: body =>
    if quote == '\'' || quote == '"' then
      match literalBody quote body with
      | some (body, rest) => .ok (.call ⟨head, official, some (gap, ⟨quote, body⟩)⟩, rest)
      | none => .error (head ++ gap, .unterminatedLiteral)
    else .ok (.call ⟨head, official, none⟩, after)

/-- A token of code with what follows it, or the fault that keeps it from ending together with the
text that stands before the fault. -/
def codeToken : List Char → Except (List Char × LexicalFault) (Token × List Char)
  | [] => .ok (.other [], [])
  | c :: rest =>
    if ['?', '>'].isPrefixOf (c :: rest) then .ok (.closeTag, rest.drop 1)
    else if c == '#' || ['/', '/'].isPrefixOf (c :: rest) then
      let comment := lineComment rest
      .ok (.lineComment (c :: comment.1), comment.2)
    else if ['/', '*'].isPrefixOf (c :: rest) then
      match commentBody (rest.drop 1) with
      | some (body, rest) => .ok (.blockComment body, rest)
      | none => .error ([], .unterminatedComment)
    else if c == '\'' || c == '"' then
      match literalBody c rest with
      | some (body, rest) => .ok (.literal ⟨c, body⟩, rest)
      | none => .error ([], .unterminatedLiteral)
    else if ['<', '<', '<'].isPrefixOf (c :: rest) then
      match heredocOpening (c :: rest) with
      | none => .ok (.other ['<', '<', '<'], rest.drop 2)
      | some (opening, label, after) =>
        match heredocBody label true after with
        | some (body, rest) => .ok (.heredoc opening body, rest)
        | none => .error ([], .unterminatedHeredoc label)
    else match callHead (c :: rest) with
      | none => .ok (.other [c], rest)
      | some (head, official, after) => callToken head official after

theorem inlineHtml_append (cs : List Char) : (inlineHtml cs).1 ++ (inlineHtml cs).2 = cs := by
  induction cs with
  | nil => rfl
  | cons c rest ih =>
    unfold inlineHtml
    split
    · next h =>
      obtain ⟨tail, htail⟩ := List.isPrefixOf_iff_prefix.1 h
      rw [← htail]
      simp
    · split
      · next h =>
        obtain ⟨tail, htail⟩ := List.isPrefixOf_iff_prefix.1 h
        rw [← htail]
        simp
      · simpa using ih

theorem inlineHtml_fst_ne_nil (c : Char) (rest : List Char) : (inlineHtml (c :: rest)).1 ≠ [] := by
  unfold inlineHtml
  split
  · simp
  · split <;> simp

theorem lineComment_append (cs : List Char) : (lineComment cs).1 ++ (lineComment cs).2 = cs := by
  induction cs with
  | nil => rfl
  | cons c rest ih =>
    unfold lineComment
    split
    · rfl
    · simpa using ih

theorem commentBody_append {cs body rest : List Char} (h : commentBody cs = some (body, rest)) :
    body ++ '*' :: '/' :: rest = cs := by
  fun_induction commentBody cs generalizing body rest with
  | case1 r => simp_all
  | case2 c r _ ih =>
    obtain ⟨⟨b, s⟩, hb, heq⟩ := Option.map_eq_some_iff.1 h
    simp only [Prod.mk.injEq] at heq
    obtain ⟨rfl, rfl⟩ := heq
    simp [ih hb]
  | case3 => simp at h

theorem literalBody_append {quote : Char} {cs body rest : List Char}
    (h : literalBody quote cs = some (body, rest)) : body ++ quote :: rest = cs := by
  fun_induction literalBody quote cs generalizing body rest with
  | case1 c r ih =>
    obtain ⟨⟨b, s⟩, hb, heq⟩ := Option.map_eq_some_iff.1 h
    simp only [Prod.mk.injEq] at heq
    obtain ⟨rfl, rfl⟩ := heq
    simp [ih hb]
  | case2 => simp at h
  | case3 c r _ _ hc =>
    simp only [Option.some.injEq, Prod.mk.injEq] at h
    obtain ⟨rfl, rfl⟩ := h
    simp_all
  | case4 c r _ _ _ ih =>
    obtain ⟨⟨b, s⟩, hb, heq⟩ := Option.map_eq_some_iff.1 h
    simp only [Prod.mk.injEq] at heq
    obtain ⟨rfl, rfl⟩ := heq
    simp [ih hb]
  | case5 => simp at h

theorem heredocOpening_append {cs opening label rest : List Char}
    (h : heredocOpening cs = some (opening, label, rest)) : opening ++ rest = cs := by
  unfold heredocOpening at h
  split at h
  · cases h
  · next start after hstart =>
    simp only at h
    split at h
    · obtain ⟨⟨line, s⟩, hline, heq⟩ := Option.map_eq_some_iff.1 h
      simp only [Prod.mk.injEq] at heq
      obtain ⟨rfl, _, rfl⟩ := heq
      have hfirst :=
        Scan.andThen_lossless (Scan.exactly_lossless _) (Scan.many_lossless _) _ _ _ hstart
      have hsecond := Scan.andThen_lossless (Scan.exactly_lossless _)
        (Scan.andThen_lossless (Scan.many_lossless _)
          (Scan.andThen_lossless (Scan.opt_lossless (Scan.exactly_lossless _))
            (Scan.exactly_lossless _))) _ _ _ hline
      rw [List.append_assoc, hsecond, hfirst]
    · cases h

theorem closingLabel_lossless (label : List Char) : Scan.Lossless (closingLabel label) := by
  intro cs piece rest h
  unfold closingLabel at h
  split at h
  · cases h
  · next text after htext =>
    split at h
    · cases h
    · simp only [Option.some.injEq, Prod.mk.injEq] at h
      obtain ⟨rfl, rfl⟩ := h
      exact Scan.andThen_lossless (Scan.many_lossless _) (Scan.exactly_lossless _) _ _ _ htext

theorem heredocBody_append {label : List Char} {atLineStart : Bool} {cs body rest : List Char}
    (h : heredocBody label atLineStart cs = some (body, rest)) : body ++ rest = cs := by
  induction cs generalizing atLineStart body rest with
  | nil => simp [heredocBody] at h
  | cons c cs ih =>
    unfold heredocBody at h
    split at h
    · next text after htext =>
      simp only [Option.some.injEq, Prod.mk.injEq] at h
      obtain ⟨rfl, rfl⟩ := h
      split at htext
      · exact closingLabel_lossless label _ _ _ htext
      · cases htext
    · obtain ⟨⟨b, s⟩, hb, heq⟩ := Option.map_eq_some_iff.1 h
      simp only [Prod.mk.injEq] at heq
      obtain ⟨rfl, rfl⟩ := heq
      simp [ih hb]

theorem arrow_lossless : Scan.Lossless arrow :=
  Scan.andThen_lossless (Scan.many_lossless _)
    (Scan.andThen_lossless (Scan.exactly_lossless _) (Scan.many_lossless _))

theorem dispatcherOwner_lossless : Scan.Lossless dispatcherOwner :=
  Scan.andThen_lossless (Scan.exactly_lossless _)
    (Scan.opt_lossless (Scan.andThen_lossless (Scan.exactly_lossless _) arrow_lossless))

theorem dispatcherCall_lossless : Scan.Lossless dispatcherCall :=
  Scan.andThen_lossless (Scan.opt_lossless (Scan.exactly_lossless _)) <|
    Scan.andThen_lossless (Scan.exactly_lossless _) <|
      Scan.andThen_lossless arrow_lossless <|
        Scan.andThen_lossless
          (Scan.orElse_lossless (Scan.exactly_lossless _) (Scan.exactly_lossless _)) <|
          Scan.andThen_lossless (Scan.many_lossless _) (Scan.exactly_lossless _)

theorem callHead_append {cs head rest : List Char} {official : Bool}
    (h : callHead cs = some (head, official, rest)) : head ++ rest = cs := by
  unfold callHead at h
  split at h
  · cases h
  · next owner after howner =>
    obtain ⟨⟨call, s⟩, hcall, heq⟩ := Option.map_eq_some_iff.1 h
    simp only [Prod.mk.injEq] at heq
    obtain ⟨rfl, _, rfl⟩ := heq
    rw [List.append_assoc, dispatcherCall_lossless _ _ _ hcall,
      dispatcherOwner_lossless _ _ _ howner]

private theorem drop_of_isPrefixOf {word cs : List Char} (h : word.isPrefixOf cs = true) :
    word ++ cs.drop word.length = cs := by
  obtain ⟨tail, rfl⟩ := List.isPrefixOf_iff_prefix.1 h
  simp

/-- A call's lexeme and what follows it are the text up to its bracket and what follows that. -/
theorem callToken_append {head after rest : List Char} {official : Bool} {token : Token}
    (h : callToken head official after = .ok (token, rest)) :
    token.lexeme ++ rest = head ++ after := by
  unfold callToken at h
  simp only at h
  split at h
  · simp only [Except.ok.injEq, Prod.mk.injEq] at h
    obtain ⟨rfl, rfl⟩ := h
    rfl
  · next quote body hq =>
    split at h
    · split at h
      · next body' after' hb =>
        simp only [Except.ok.injEq, Prod.mk.injEq] at h
        obtain ⟨rfl, rfl⟩ := h
        have hafter : after.takeWhile isBlank ++ quote :: (body' ++ quote :: after') = after := by
          rw [literalBody_append hb, ← hq]
          exact List.takeWhile_append_dropWhile
        simp [Token.lexeme, Call.lexeme, Literal.lexeme, hafter]
      · cases h
    · simp only [Except.ok.injEq, Prod.mk.injEq] at h
      obtain ⟨rfl, rfl⟩ := h
      rfl

theorem callToken_lexeme_ne_nil {head after rest : List Char} {official : Bool} {token : Token}
    (h : callToken head official after = .ok (token, rest)) (hne : head ≠ []) :
    token.lexeme ≠ [] := by
  unfold callToken at h
  simp only at h
  split at h
  · cases h; simpa [Token.lexeme, Call.lexeme] using hne
  · split at h
    · split at h <;> cases h
      simp [Token.lexeme, Call.lexeme, hne]
    · cases h; simpa [Token.lexeme, Call.lexeme] using hne

/-- A token's lexeme and what follows it are the text that it was read from. -/
theorem codeToken_append {cs rest : List Char} {token : Token}
    (h : codeToken cs = .ok (token, rest)) : token.lexeme ++ rest = cs := by
  cases cs with
  | nil =>
    simp only [codeToken, Except.ok.injEq, Prod.mk.injEq] at h
    obtain ⟨rfl, rfl⟩ := h
    rfl
  | cons c cs =>
    rw [codeToken] at h
    split at h
    · next hp =>
      simp only [Except.ok.injEq, Prod.mk.injEq] at h
      obtain ⟨rfl, rfl⟩ := h
      simpa [Token.lexeme] using drop_of_isPrefixOf hp
    split at h
    · simp only [Except.ok.injEq, Prod.mk.injEq] at h
      obtain ⟨rfl, rfl⟩ := h
      simp [Token.lexeme, lineComment_append]
    split at h
    · next hp =>
      split at h
      · next body after hb =>
        simp only [Except.ok.injEq, Prod.mk.injEq] at h
        obtain ⟨rfl, rfl⟩ := h
        have := drop_of_isPrefixOf hp
        simp only [List.length_cons, List.length_nil, List.drop_succ_cons] at this
        rw [← commentBody_append hb] at this
        simpa [Token.lexeme] using this
      · cases h
    split at h
    · split at h
      · next body after hb =>
        simp only [Except.ok.injEq, Prod.mk.injEq] at h
        obtain ⟨rfl, rfl⟩ := h
        simp [Token.lexeme, Literal.lexeme, literalBody_append hb]
      · cases h
    split at h
    · next hp =>
      split at h
      · simp only [Except.ok.injEq, Prod.mk.injEq] at h
        obtain ⟨rfl, rfl⟩ := h
        simpa [Token.lexeme] using drop_of_isPrefixOf hp
      · next opening label after ho =>
        split at h
        · next body after' hb =>
          simp only [Except.ok.injEq, Prod.mk.injEq] at h
          obtain ⟨rfl, rfl⟩ := h
          simp only [Token.lexeme, List.append_assoc]
          rw [heredocBody_append hb, heredocOpening_append ho]
        · cases h
    split at h
    · simp only [Except.ok.injEq, Prod.mk.injEq] at h
      obtain ⟨rfl, rfl⟩ := h
      rfl
    · next head official after hc => rw [callToken_append h, callHead_append hc]

theorem callHead_head_ne_nil {cs head rest : List Char} {official : Bool}
    (h : callHead cs = some (head, official, rest)) : head ≠ [] := by
  rintro rfl
  unfold callHead at h
  split at h
  · cases h
  · next owner after howner =>
    obtain ⟨⟨call, s⟩, hcall, heq⟩ := Option.map_eq_some_iff.1 h
    simp only [Prod.mk.injEq, List.append_eq_nil_iff] at heq
    obtain ⟨⟨rfl, rfl⟩, _, rfl⟩ := heq
    unfold dispatcherOwner Scan.andThen at howner
    split at howner
    · cases howner
    · next a b hab =>
      split at howner
      · cases howner
      · simp only [Scan.exactly, Option.ite_none_right_eq_some, Option.some.injEq,
          Prod.mk.injEq] at hab
        simp only [Option.some.injEq, Prod.mk.injEq, List.append_eq_nil_iff] at howner
        simp [← hab.2.1] at howner

/-- What follows a token is shorter than the text that it was read from. -/
theorem codeToken_rest_length {c : Char} {cs rest : List Char} {token : Token}
    (h : codeToken (c :: cs) = .ok (token, rest)) : rest.length < (c :: cs).length := by
  have happ := congrArg List.length (codeToken_append h)
  rw [List.length_append] at happ
  suffices token.lexeme ≠ [] by
    have := List.length_pos_iff.2 this
    omega
  rw [codeToken] at h
  split at h
  · cases h; simp [Token.lexeme]
  split at h
  · cases h; simp [Token.lexeme]
  split at h
  · split at h <;> cases h
    simp [Token.lexeme]
  split at h
  · split at h <;> cases h
    simp [Token.lexeme, Literal.lexeme]
  split at h
  · split at h
    · cases h; simp [Token.lexeme]
    · next hopen =>
      split at h <;> cases h
      have := heredocOpening_append hopen
      simp only [Token.lexeme, ne_eq, List.append_eq_nil_iff, not_and]
      rintro rfl
      simp [heredocOpening, Scan.andThen, Scan.exactly, Scan.many] at hopen
      split at hopen
      · cases hopen
      · next hstart =>
        simp at hopen
        grind
  split at h
  · cases h; simp [Token.lexeme]
  · next hcall => exact callToken_lexeme_ne_nil h (callHead_head_ne_nil hcall)

end ExtensionAudit.Php
