import ExtensionAudit.Proofs.Php.Division
import Mathlib.Data.List.TakeWhile

/-!
# What may stand behind a token

A token is read by its own characters and by a look at what comes next: a comment has to be over, a
closing label must not go on, a piece of other code must not turn out to be the beginning of a longer
token. Here the two are taken apart, the token and what may follow it, and it is said how far the
look goes. While it is undecided the text holds nothing but characters from inside one pattern, so
the texts that can still change their reading are few and hold no call.
-/

namespace ExtensionAudit.Php

open ExtensionAudit.Text

/-! ### First places by what stands in front of them -/

theorem firstPlace_iff {stop : List Char → List Char → Prop} {front back : List Char} :
    FirstPlace stop front back ↔
      stop front back ∧
        ∀ before c tail, front = before ++ c :: tail → ¬ stop before (c :: (tail ++ back)) := by
  constructor
  · rintro ⟨hstop, hfirst⟩
    refine ⟨hstop, fun before c tail hfront hearlier => ?_⟩
    have hle := hfirst before (c :: (tail ++ back)) (by simp [hfront]) hearlier
    rw [hfront, List.length_append, List.length_cons] at hle
    omega
  · rintro ⟨hstop, hno⟩
    refine ⟨hstop, fun before after happend hearlier => ?_⟩
    rcases List.append_eq_append_iff.1 happend with ⟨between, hfront, hafter⟩ | ⟨between, hbefore, _⟩
    · cases between with
      | nil => simp [hfront]
      | cons c tail =>
        rw [hafter] at hearlier
        exact absurd hearlier (hno before c tail hfront)
    · rw [hbefore, List.length_append]
      omega

/-- A word that runs into a character which it does not hold stops in front of it. -/
theorem prefix_of_prefix_append_cons {word text rest : List Char} {c : Char} (hc : c ∉ word)
    (h : word <+: text ++ c :: rest) : word <+: text := by
  rcases List.prefix_or_prefix_of_prefix h (List.prefix_append text (c :: rest)) with hword | htext
  · exact hword
  · obtain ⟨extra, rfl⟩ := htext
    cases extra with
    | nil => simp
    | cons d extra =>
      rw [List.prefix_append_right_inj, List.cons_prefix_cons] at h
      exact absurd (by simp [h.1]) hc

def HoldsNoTag (text : List Char) : Prop := ∀ tag, OpensCode tag → ¬ tag <:+: text

theorem OpensCode.exists_cons {tag : List Char} (h : OpensCode tag) :
    ∃ word, tag = '<' :: word ∧ '<' ∉ word := by
  rcases h with rfl | rfl
  · exact ⟨['?', 'p', 'h', 'p'], rfl, by decide⟩
  · exact ⟨['?', '='], rfl, by decide⟩

theorem firstPlace_opensCode_iff {body tag rest : List Char} (htag : OpensCode tag) :
    FirstPlace (fun _ back => ∃ tag, OpensCode tag ∧ tag <+: back) body (tag ++ rest) ↔
      HoldsNoTag body := by
  rw [firstPlace_iff]
  constructor
  · rintro ⟨_, hno⟩ tag' htag' ⟨before, tail, hbody⟩
    obtain ⟨word, hword, _⟩ := htag'.exists_cons
    refine hno before '<' (word ++ tail) (by simp [← hbody, hword]) ⟨tag', htag', ?_⟩
    exact ⟨tail ++ (tag ++ rest), by simp [hword]⟩
  · intro hbody
    refine ⟨⟨tag, htag, List.prefix_append _ _⟩, ?_⟩
    rintro before c tail hsplit ⟨tag', htag', hearlier⟩
    -- A tag holds no second less-than sign, so an earlier one would end before this one begins.
    obtain ⟨word, rfl, hword⟩ := htag'.exists_cons
    obtain ⟨word', rfl, _⟩ := htag.exists_cons
    rw [List.cons_prefix_cons] at hearlier
    obtain ⟨rfl, hearlier⟩ := hearlier
    obtain ⟨extra, rfl⟩ := prefix_of_prefix_append_cons hword hearlier
    exact hbody _ htag' ⟨before, extra, by simp [hsplit]⟩

theorem firstPlace_lineComment_body {body rest : List Char} :
    FirstPlace (fun _ back => EndsLineComment back) body rest ↔
      ('\n' ∉ body ∧ ¬ ['?', '>'] <:+: body) ∧ EndsLineComment rest := by
  rw [firstPlace_iff, and_comm]
  refine and_congr_left fun hrest => ?_
  constructor
  · intro hno
    constructor
    · intro hmem
      obtain ⟨before, tail, hbody⟩ := List.append_of_mem hmem
      exact hno before '\n' tail hbody (.inr (.inl (by simp)))
    · rintro ⟨before, tail, hbody⟩
      have hsplit : body = before ++ '?' :: ('>' :: tail) := by simp [← hbody]
      exact hno before '?' _ hsplit (.inr (.inr (by simp)))
  · rintro ⟨hline, htag⟩ before c tail hbody (hends | hends | hends)
    · simp at hends
    · rw [List.cons_prefix_cons] at hends
      exact hline (by simp [hbody, ← hends.1])
    · rw [List.cons_prefix_cons] at hends
      obtain ⟨rfl, hends⟩ := hends
      cases tail with
      | cons d tail =>
        rw [List.cons_append, List.cons_prefix_cons] at hends
        exact htag ⟨before, tail, by simp [hbody, ← hends.1]⟩
      | nil =>
        -- The rest would begin with the second half of a tag, and no comment ends there.
        rw [List.nil_append] at hends
        obtain ⟨after, rfl⟩ := hends
        rcases hrest with h | h | h <;> simp at h

theorem firstPlace_commentBody_iff {body rest : List Char} :
    FirstPlace (fun _ back => ['*', '/'] <+: back) body (['*', '/'] ++ rest) ↔
      ¬ ['*', '/'] <:+: body := by
  rw [firstPlace_iff]
  constructor
  · rintro ⟨_, hno⟩ ⟨before, tail, hbody⟩
    have hsplit : body = before ++ '*' :: ('/' :: tail) := by simp [← hbody]
    exact hno before '*' _ hsplit (by simp)
  · intro hbody
    refine ⟨List.prefix_append _ _, fun before c tail hsplit hends => hbody ?_⟩
    rw [List.cons_prefix_cons] at hends
    obtain ⟨rfl, hends⟩ := hends
    cases tail with
    | nil => simp at hends
    | cons d tail =>
      rw [List.cons_append, List.cons_prefix_cons] at hends
      exact ⟨before, tail, by simp [hsplit, ← hends.1]⟩

/-- Lines between the two ends of a heredoc: whole lines, none of which closes it. -/
def HeredocLines (label lines : List Char) : Prop :=
  (lines = [] ∨ lines.getLast? = some '\n') ∧
    ∀ above below, above ++ below = lines → ¬ ClosesHeredoc label above below

theorem IsLabel.ne_nil {label : List Char} (h : IsLabel label) : label ≠ [] := by
  obtain ⟨c, tail, rfl, _⟩ := h
  exact List.cons_ne_nil c tail

theorem newline_not_mem_closing {label blanks : List Char} (hlabel : IsLabel label)
    (hblanks : blanks ∈ stretch isInlineBlank) : '\n' ∉ blanks ++ label := by
  rw [List.mem_append, not_or]
  exact ⟨not_mem_of_stretch hblanks (by decide), not_mem_of_stretch hlabel.all (by decide)⟩

theorem getLast?_of_append_cons {front above tail : List Char} {c : Char}
    (hstart : front = [] ∨ front.getLast? = some '\n') (hfront : front = above ++ c :: tail) :
    (c :: tail).getLast? = some '\n' := by
  rcases hstart with rfl | hlast
  · simp at hfront
  · rwa [hfront, List.getLast?_append_of_ne_nil _ (List.cons_ne_nil c tail)] at hlast

/-- Text behind a line feed neither closes a heredoc in front of it nor keeps it open. -/
theorem closesHeredoc_append_iff {label above below : List Char} (hlabel : IsLabel label)
    (hlast : below.getLast? = some '\n') (more : List Char) :
    ClosesHeredoc label above (below ++ more) ↔ ClosesHeredoc label above below := by
  refine and_congr_right fun _ => ?_
  obtain ⟨line, rfl⟩ := List.getLast?_eq_some_iff.1 hlast
  constructor
  · rintro ⟨blanks, after, hbelow, hblanks, hclear⟩
    have hfront : blanks ++ label <+: line ++ '\n' :: more := ⟨after, by rw [← hbelow]; simp⟩
    obtain ⟨extra, rfl⟩ :=
      prefix_of_prefix_append_cons (newline_not_mem_closing hlabel hblanks) hfront
    rw [List.append_assoc, List.append_assoc, List.append_cancel_left_eq] at hbelow
    refine ⟨blanks, extra ++ ['\n'], List.append_assoc _ _ _, hblanks, ?_⟩
    rw [← hbelow] at hclear
    cases extra with
    | nil => exact clear_cons.2 (clear_cons.1 hclear)
    | cons d extra => exact clear_cons.2 (clear_cons.1 hclear)
  · rintro ⟨blanks, after, hbelow, hblanks, hclear⟩
    refine ⟨blanks, after ++ more, by rw [hbelow, List.append_assoc], hblanks, ?_⟩
    cases after with
    | cons d after => exact clear_cons.2 (clear_cons.1 hclear)
    | nil =>
      -- The lines would end with the label, but they end with a line feed.
      rw [List.append_nil] at hbelow
      rw [hbelow] at hlast
      exact absurd (List.mem_of_getLast? hlast) (newline_not_mem_closing hlabel hblanks)

theorem ClosesHeredoc.ne_nil {label above below : List Char} (hlabel : IsLabel label)
    (h : ClosesHeredoc label above below) : below ≠ [] := by
  obtain ⟨_, blanks, after, rfl, _⟩ := h
  simp [hlabel.ne_nil]

theorem firstPlace_closesHeredoc_iff {label front blanks rest : List Char} (hlabel : IsLabel label)
    (hblanks : blanks ∈ stretch isInlineBlank) (hclear : Clear isLabelRest rest) :
    FirstPlace (ClosesHeredoc label) front (blanks ++ label ++ rest) ↔ HeredocLines label front := by
  rw [firstPlace_iff]
  constructor
  · rintro ⟨⟨hstart, _⟩, hno⟩
    refine ⟨hstart, fun above below hfront hcloses => ?_⟩
    obtain ⟨c, tail, rfl⟩ := List.exists_cons_of_ne_nil (hcloses.ne_nil hlabel)
    have hlast := getLast?_of_append_cons hstart hfront.symm
    exact hno above c tail hfront.symm ((closesHeredoc_append_iff hlabel hlast _).2 hcloses)
  · rintro ⟨hstart, hno⟩
    refine ⟨⟨hstart, blanks, rest, rfl, hblanks, hclear⟩, fun above c tail hfront hcloses => ?_⟩
    have hlast := getLast?_of_append_cons hstart hfront
    exact hno above _ hfront.symm ((closesHeredoc_append_iff hlabel hlast _).1 hcloses)

/-! ### Text outside code -/

theorem htmlPiece_cases {text piece rest : List Char} (h : HtmlPiece text piece rest) :
    (∃ body tag, HoldsNoTag body ∧ OpensCode tag ∧ piece = body ++ tag) ∨
      HoldsNoTag piece ∧ rest = [] := by
  cases h with
  | @tagged body tag _ htag hfirst =>
    exact .inl ⟨body, tag, (firstPlace_opensCode_iff htag).1 hfirst, htag, rfl⟩
  | untagged hno => exact .inr ⟨hno, rfl⟩

theorem HtmlPiece.append_eq {text piece rest : List Char} (h : HtmlPiece text piece rest) :
    piece ++ rest = text := by
  cases h with
  | tagged => rfl
  | untagged => simp

theorem htmlPiece_of_tag {body tag : List Char} (hbody : HoldsNoTag body) (htag : OpensCode tag)
    (rest : List Char) : HtmlPiece (body ++ tag ++ rest) (body ++ tag) rest :=
  .tagged htag ((firstPlace_opensCode_iff htag).2 hbody)

/-! ### A token and what follows it -/

/-- The words that begin a token of more than one character and are not known by their first one. -/
inductive LongMark : List Char → Prop where
  | closeTag : LongMark ['?', '>']
  | lineComment : LongMark ['/', '/']
  | blockComment : LongMark ['/', '*']
  | tripleLess : LongMark ['<', '<', '<']
  | heredoc {label opening : List Char} :
      IsLabel label → opening ∈ heredocLine label → LongMark opening
  | call {official : Bool} {head : List Char} : head ∈ dispatcherWords official → LongMark head

/-- The token's own characters are those of such a token, whatever stands around it. -/
inductive Formed : Token → Prop where
  | closeTag : Formed .closeTag
  | lineComment {mark body : List Char} :
      OpensLineComment mark → '\n' ∉ body → ¬ ['?', '>'] <:+: body →
      Formed (.lineComment (mark ++ body))
  | blockComment {body : List Char} : ¬ ['*', '/'] <:+: body → Formed (.blockComment body)
  | literal {quote : Char} {body : List Char} :
      IsQuote quote → LiteralBody quote body → Formed (.literal ⟨quote, body⟩)
  | heredoc {label opening lines blanks : List Char} :
      IsLabel label → opening ∈ heredocLine label → HeredocLines label lines →
      blanks ∈ stretch isInlineBlank → Formed (.heredoc opening (lines ++ blanks ++ label))
  | callWithLiteral {official : Bool} {head gap body : List Char} {quote : Char} :
      head ∈ dispatcherWords official → gap ∈ stretch isBlank → IsQuote quote →
      LiteralBody quote body → Formed (.call ⟨head, official, some (gap, ⟨quote, body⟩)⟩)
  | bareCall {official : Bool} {head : List Char} :
      head ∈ dispatcherWords official → Formed (.call ⟨head, official, none⟩)
  | tripleLess : Formed (.other ['<', '<', '<'])
  | single {c : Char} : c ≠ '#' → ¬ IsQuote c → Formed (.other [c])

/-- The token ends where the text begins. -/
def MayFollow : Token → List Char → Prop
  | .lineComment _, rest => EndsLineComment rest
  | .heredoc _ _, rest => Clear isLabelRest rest
  | .call ⟨_, _, none⟩, rest => ¬ GoesOnWithQuote rest
  | .other text, rest =>
    ∀ word, LongMark word → text.length < word.length → ¬ word <+: text ++ rest
  | _, _ => True

theorem three_lt_length_of_mem_heredocLine {label opening : List Char} (hlabel : IsLabel label)
    (h : opening ∈ heredocLine label) : 3 < opening.length := by
  obtain ⟨blanks, quote, ending, _, _, _, rfl⟩ := mem_heredocLine.1 h
  have hpos := List.length_pos_iff.2 hlabel.ne_nil
  simp only [List.length_append, List.length_cons, List.length_nil]
  omega

theorem one_lt_length_of_mem_dispatcherWords {official : Bool} {head : List Char}
    (h : head ∈ dispatcherWords official) : 1 < head.length := by
  obtain ⟨owner, call, howner, hcall, rfl⟩ := mem_dispatcherWords.1 h
  obtain ⟨_, _, rfl, _⟩ := StartsIn.mul (startsIn_word (p := (· == '$')) rfl) owner howner
  obtain ⟨_, _, rfl, _⟩ := startsIn_call call ((mem_call_iff []).1 hcall).1
  simp only [List.length_append, List.length_cons]
  omega

theorem LongMark.one_lt_length {word : List Char} (h : LongMark word) : 1 < word.length := by
  cases h with
  | heredoc hlabel hopening =>
    have := three_lt_length_of_mem_heredocLine hlabel hopening
    omega
  | call hhead => exact one_lt_length_of_mem_dispatcherWords hhead
  | _ => simp

/-- A longer token begins with a character that is known to begin one, or with a longer mark. -/
theorem beginsToken_iff {c : Char} {rest : List Char} :
    BeginsToken (c :: rest) ↔
      c = '#' ∨ IsQuote c ∨ ∃ word, LongMark word ∧ word <+: c :: rest := by
  constructor
  · intro h
    generalize htext : c :: rest = text at h
    have hmark {word tail : List Char} (hlong : LongMark word) (heq : c :: rest = word ++ tail) :
        ∃ word, LongMark word ∧ word <+: text :=
      ⟨word, hlong, by rw [← htext, heq]; exact List.prefix_append _ _⟩
    cases h with
    | closeTag => exact .inr (.inr (hmark .closeTag htext))
    | @lineComment mark tail hopens =>
      rcases hopens with rfl | rfl
      · exact .inl (List.cons.inj htext).1
      · exact .inr (.inr (hmark .lineComment htext))
    | blockComment => exact .inr (.inr (hmark .blockComment htext))
    | literal hquote =>
      rw [← (List.cons.inj htext).1] at hquote
      exact .inr (.inl hquote)
    | heredoc => exact .inr (.inr (hmark .tripleLess htext))
    | call hhead => exact .inr (.inr (hmark (.call hhead) htext))
  · rintro (rfl | hquote | ⟨word, hlong, tail, htail⟩)
    · exact .lineComment (.inl rfl)
    · exact .literal hquote
    · rw [← htail]
      cases hlong with
      | closeTag => exact .closeTag
      | lineComment => exact .lineComment (.inr rfl)
      | blockComment => exact .blockComment
      | tripleLess => exact .heredoc
      | heredoc _ hopening =>
        obtain ⟨after, rfl⟩ := exists_less_of_mem_heredocLine hopening
        exact .heredoc
      | call hhead => exact .call hhead

theorem first_of_beginsToken {c : Char} {rest : List Char} (h : BeginsToken (c :: rest)) :
    c ∈ ['?', '#', '/', '\'', '"', '<', '$'] := by
  rcases beginsToken_iff.1 h with rfl | (rfl | rfl) | ⟨word, hlong, hword⟩
  · simp
  · simp
  · simp
  · cases hlong with
    | heredoc _ hopening =>
      obtain ⟨tail, rfl⟩ := exists_less_of_mem_heredocLine hopening
      simp [← (List.cons_prefix_cons.1 hword).1]
    | call hhead =>
      obtain ⟨tail, rfl⟩ := exists_dollar_of_mem_dispatcherWords hhead
      simp [← (List.cons_prefix_cons.1 hword).1]
    | _ => simp [← (List.cons_prefix_cons.1 hword).1]

theorem not_beginsToken_iff {c : Char} {rest : List Char} :
    ¬ BeginsToken (c :: rest) ↔ c ≠ '#' ∧ ¬ IsQuote c ∧ MayFollow (.other [c]) rest := by
  rw [beginsToken_iff, not_or, not_or]
  refine and_congr_right fun _ => and_congr_right fun _ => ?_
  simp only [MayFollow, not_exists, not_and]
  constructor
  · exact fun h word hlong _ => h word hlong
  · exact fun h word hlong => h word hlong hlong.one_lt_length

theorem mayFollow_tripleLess_iff {rest : List Char} :
    MayFollow (.other ['<', '<', '<']) rest ↔
      ∀ label opening, IsLabel label → opening ∈ heredocLine label →
        ¬ opening <+: ['<', '<', '<'] ++ rest := by
  constructor
  · intro h label opening hlabel hopening
    exact h opening (.heredoc hlabel hopening) (three_lt_length_of_mem_heredocLine hlabel hopening)
  · intro h word hlong hlength
    cases hlong with
    | heredoc hlabel hopening => exact h _ _ hlabel hopening
    | call hhead =>
      obtain ⟨tail, rfl⟩ := exists_dollar_of_mem_dispatcherWords hhead
      simp
    | _ => simp at hlength

/-- A token stands in front of a text exactly if it is well formed and the text may follow it. -/
theorem codeToken_iff {text rest : List Char} {token : Token} :
    CodeToken text token rest ↔
      Formed token ∧ MayFollow token rest ∧ token.lexeme ++ rest = text := by
  constructor
  · intro h
    cases h with
    | closeTag => exact ⟨.closeTag, trivial, rfl⟩
    | lineComment hmark hfirst =>
      obtain ⟨⟨hline, htag⟩, hends⟩ := firstPlace_lineComment_body.1 hfirst
      exact ⟨.lineComment hmark hline htag, hends, rfl⟩
    | blockComment hfirst =>
      refine ⟨.blockComment (firstPlace_commentBody_iff.1 hfirst), trivial, ?_⟩
      simp [Token.lexeme]
    | literal hquote hbody =>
      refine ⟨.literal hquote hbody, trivial, ?_⟩
      simp [Token.lexeme, Literal.lexeme]
    | heredoc hlabel hopening hblanks hfirst hclear =>
      have hlines := (firstPlace_closesHeredoc_iff hlabel hblanks hclear).1 hfirst
      exact ⟨.heredoc hlabel hopening hlines hblanks, hclear, rfl⟩
    | callWithLiteral hhead hgap hquote hbody =>
      refine ⟨.callWithLiteral hhead hgap hquote hbody, trivial, ?_⟩
      simp [Token.lexeme, Call.lexeme, Literal.lexeme]
    | bareCall hhead hbare => exact ⟨.bareCall hhead, hbare, rfl⟩
    | tripleLess hno => exact ⟨.tripleLess, mayFollow_tripleLess_iff.2 hno, rfl⟩
    | single hno =>
      obtain ⟨hhash, hquote, hfollow⟩ := not_beginsToken_iff.1 hno
      exact ⟨.single hhash hquote, hfollow, rfl⟩
  · rintro ⟨hformed, hfollow, rfl⟩
    cases hformed with
    | closeTag => exact .closeTag
    | lineComment hmark hline htag =>
      exact .lineComment hmark (firstPlace_lineComment_body.2 ⟨⟨hline, htag⟩, hfollow⟩)
    | blockComment hbody =>
      have htoken : CodeToken _ _ rest := .blockComment (firstPlace_commentBody_iff.2 hbody)
      simpa [Token.lexeme] using htoken
    | literal hquote hbody =>
      have htoken : CodeToken _ _ rest := .literal hquote hbody
      simpa [Token.lexeme, Literal.lexeme] using htoken
    | heredoc hlabel hopening hlines hblanks =>
      have hfirst := (firstPlace_closesHeredoc_iff hlabel hblanks hfollow).2 hlines
      exact .heredoc hlabel hopening hblanks hfirst hfollow
    | callWithLiteral hhead hgap hquote hbody =>
      have htoken : CodeToken _ _ rest := .callWithLiteral hhead hgap hquote hbody
      simpa [Token.lexeme, Call.lexeme, Literal.lexeme] using htoken
    | bareCall hhead => exact .bareCall hhead hfollow
    | tripleLess => exact .tripleLess (mayFollow_tripleLess_iff.1 hfollow)
    | single hhash hquote => exact .single (not_beginsToken_iff.2 ⟨hhash, hquote, hfollow⟩)

/-! ### How far the look goes -/

/-- The characters seen behind the token do not settle whether it ends there. -/
def Undecided : Token → List Char → Prop
  | .lineComment _, seen => seen = [] ∨ seen = ['?']
  | .heredoc _ _, seen => seen = []
  | .call ⟨_, _, none⟩, seen => seen ∈ stretch isBlank
  | .other text, seen => ∃ word, LongMark word ∧ text ++ seen <+: word ∧ text ++ seen ≠ word
  | _, _ => False

theorem goesOnWithQuote_append_iff {seen : List Char} (h : seen ∉ stretch isBlank)
    (rest : List Char) : GoesOnWithQuote (seen ++ rest) ↔ GoesOnWithQuote seen := by
  have hne : seen.dropWhile isBlank ≠ [] := by
    intro hnil
    exact h (mem_stretch.2 (List.dropWhile_eq_nil_iff.1 hnil))
  obtain ⟨c, tail, hdrop⟩ := List.exists_cons_of_ne_nil hne
  simp [goesOnWithQuote_iff, List.dropWhile_append, hdrop]

/-- What decided text is followed by is of no importance for the token in front of it. -/
theorem MayFollow.congr {token : Token} {seen rest : List Char}
    (h : MayFollow token (seen ++ rest)) (hdecided : ¬ Undecided token seen)
    (rest' : List Char) : MayFollow token (seen ++ rest') := by
  match token with
  | .lineComment _ =>
    simp only [Undecided, not_or] at hdecided
    obtain ⟨c, tail, rfl⟩ := List.exists_cons_of_ne_nil hdecided.1
    rcases h with h | h | h
    · simp at h
    · rw [List.cons_append, List.cons_prefix_cons] at h
      obtain ⟨rfl, _⟩ := h
      exact .inr (.inl (by simp))
    · cases tail with
      | nil =>
        rw [List.cons_append, List.cons_prefix_cons] at h
        exact absurd (by rw [h.1]) hdecided.2
      | cons d tail =>
        simp only [List.cons_append, List.cons_prefix_cons] at h
        obtain ⟨rfl, rfl, _⟩ := h
        exact .inr (.inr (by simp))
  | .heredoc _ _ =>
    obtain ⟨c, tail, rfl⟩ := List.exists_cons_of_ne_nil hdecided
    exact clear_cons.2 (clear_cons.1 h)
  | .call ⟨_, _, none⟩ =>
    have hrest : ¬ GoesOnWithQuote (seen ++ rest) := h
    have hrest' : ¬ GoesOnWithQuote (seen ++ rest') := by
      rwa [goesOnWithQuote_append_iff hdecided] at hrest ⊢
    exact hrest'
  | .other text =>
    intro word hlong hlength hword
    rw [← List.append_assoc] at hword
    have hshort : word <+: text ++ seen := by
      rcases List.prefix_or_prefix_of_prefix hword (List.prefix_append _ rest') with h' | h'
      · exact h'
      · by_contra hne
        exact hdecided ⟨word, hlong, h', fun heq => hne (by rw [heq])⟩
    refine h word hlong hlength ?_
    rw [← List.append_assoc]
    exact hshort.trans (List.prefix_append _ _)
  | .call ⟨_, _, some _⟩ => trivial
  | .html _ => trivial
  | .closeTag => trivial
  | .blockComment _ => trivial
  | .literal _ => trivial

/-! ### What has been seen while the look goes on -/

/-- A character that stands in a dispatcher call up to its bracket, behind the first one. -/
def InCall (c : Char) : Bool := isBlank c || isLabelRest c || ['-', '>', '('].contains c

/-- A character that stands inside one of the patterns, behind its first one. -/
def InPattern (c : Char) : Bool := InCall c || ['<', '\'', '"'].contains c

theorem inPattern_of_inCall {c : Char} (h : InCall c = true) : InPattern c = true := by
  simp [InPattern, h]

theorem inCall_of_isBlank {c : Char} (h : isBlank c = true) : InCall c = true := by
  simp [InCall, h]

theorem inPattern_of_isLabelRest {c : Char} (h : isLabelRest c = true) : InPattern c = true := by
  simp [InPattern, InCall, h]

theorem isBlank_of_isInlineBlank {c : Char} (h : isInlineBlank c = true) : isBlank c = true := by
  simp only [isInlineBlank, Bool.or_eq_true, beq_iff_eq] at h
  rcases h with rfl | rfl <;> decide

theorem over_lineEnding : Over isBlank lineEnding :=
  (over_stretch fun _ => isBlank_of_isInlineBlank).mul
    ((over_one.add (over_word (by decide))).mul (over_word (by decide)))

theorem over_heredocLine {label : List Char} (hlabel : IsLabel label) :
    Over InPattern (heredocLine label) := by
  have hblank {c : Char} (hc : isBlank c = true) : InPattern c = true :=
    inPattern_of_inCall (inCall_of_isBlank hc)
  have hall : label.all InPattern = true :=
    List.all_eq_true.2 fun c hc => inPattern_of_isLabelRest (hlabel.all c hc)
  have hquoted (quote : Char) (hquote : InPattern quote = true) :
      Over InPattern ({quote :: (label ++ [quote])} : Language Char) :=
    over_word (by simp only [List.all_cons, List.all_append, List.all_nil, hquote, hall, Bool.and_true])
  have hending : Over InPattern lineEnding := fun word hword c hc =>
    hblank (over_lineEnding word hword c hc)
  exact (over_word (by decide)).mul
    ((over_stretch fun _ hc => hblank (isBlank_of_isInlineBlank hc)).mul
      ((((over_word hall).add (hquoted '\'' (by decide))).add (hquoted '"' (by decide))).mul
        hending))

theorem over_arrowWords : Over InCall arrowWords :=
  (over_stretch fun _ => inCall_of_isBlank).mul
    ((over_word (by decide)).mul (over_stretch fun _ => inCall_of_isBlank))

theorem tail_mem_stretch_of_mem_dispatcherWords {official : Bool} {head : List Char}
    (h : head ∈ dispatcherWords official) : ∃ tail, head = '$' :: tail ∧ tail ∈ stretch InCall := by
  obtain ⟨_, hdollar, tail, htail, rfl⟩ := Language.mem_mul.1 h
  rw [mem_word.1 hdollar]
  refine ⟨tail, rfl, ?_⟩
  have hmark : Over InCall (if official then {officialName} else 1 : Language Char) := by
    cases official
    · exact over_one
    · exact over_word (by decide)
  have hmethod : Over InCall
      (({"trigger_event".toList} + {"dispatch".toList}) * (stretch isBlank * {['(']})) :=
    ((over_word (by decide)).add (over_word (by decide))).mul
      ((over_stretch fun _ => inCall_of_isBlank).mul (over_word (by decide)))
  exact ((over_one.add ((over_word (by decide)).mul over_arrowWords)).mul
    (hmark.mul ((over_word (by decide)).mul (over_arrowWords.mul hmethod)))) tail htail

/-- Behind the first character of a long mark there are only characters of the patterns, as long as
the mark is not complete. -/
theorem LongMark.inPattern {word seen : List Char} {c : Char} (h : LongMark word)
    (hfront : c :: seen <+: word) (hne : c :: seen ≠ word) : seen ∈ stretch InPattern := by
  have within {tail : List Char} (htail : tail ∈ stretch InPattern) (hseen : seen <+: tail) :
      seen ∈ stretch InPattern := fun d hd => htail d (hseen.subset hd)
  have hshort : seen.length + 1 < word.length := by
    have hle := hfront.length_le
    have hlt : (c :: seen).length ≠ word.length := fun heq => hne (hfront.eq_of_length heq)
    simp only [List.length_cons] at hle hlt
    omega
  have hpair (h2 : word.length = 2) : seen ∈ stretch InPattern := by
    have hnil : seen = [] := List.length_eq_zero_iff.1 (by omega)
    rw [hnil]
    exact mem_stretch.2 (by simp)
  cases h with
  | closeTag => exact hpair rfl
  | lineComment => exact hpair rfl
  | blockComment => exact hpair rfl
  | tripleLess => exact within (over_word (by decide) _ (mem_word.2 rfl)) (List.cons_prefix_cons.1 hfront).2
  | heredoc hlabel hopening =>
    have hall := over_heredocLine hlabel _ hopening
    exact fun d hd => hall d (hfront.subset (List.mem_cons_of_mem c hd))
  | call hhead =>
    obtain ⟨tail, rfl, htail⟩ := tail_mem_stretch_of_mem_dispatcherWords hhead
    exact within (fun d hd => inPattern_of_inCall (htail d hd)) (List.cons_prefix_cons.1 hfront).2

/-- While it is undecided whether a token ends, only characters of the patterns have been seen. -/
theorem Undecided.inPattern {token : Token} {seen : List Char} (h : Undecided token seen)
    (hformed : Formed token) : seen = ['?'] ∨ seen ∈ stretch InPattern := by
  have hnil : ([] : List Char) ∈ stretch InPattern := mem_stretch.2 (by simp)
  cases hformed with
  | lineComment => exact h.elim (fun h => .inr (h ▸ hnil)) .inl
  | heredoc =>
    rw [show seen = [] from h]
    exact .inr hnil
  | bareCall => exact .inr fun c hc => inPattern_of_inCall (inCall_of_isBlank (h c hc))
  | tripleLess =>
    obtain ⟨word, hlong, hfront, hne⟩ := h
    have hall := hlong.inPattern hfront hne
    exact .inr (append_mem_stretch.1 (mem_stretch.1 hall)).2
  | single =>
    obtain ⟨word, hlong, hfront, hne⟩ := h
    exact .inr (hlong.inPattern hfront hne)
  | _ => exact h.elim

/-- A character from outside the patterns settles the look, unless it is the first one of a tag. -/
theorem not_undecided_of_mem {token : Token} {seen : List Char} {c : Char} (hformed : Formed token)
    (hc : c ∈ seen) (hout : InPattern c = false) (hlong : seen ≠ ['?']) :
    ¬ Undecided token seen := by
  intro hopen
  rcases hopen.inPattern hformed with heq | hpattern
  · exact hlong heq
  · exact not_mem_of_stretch hpattern hout hc

end ExtensionAudit.Php
