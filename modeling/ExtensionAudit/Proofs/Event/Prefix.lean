import ExtensionAudit.Proofs.Event.Search
import ExtensionAudit.Proofs.Php.Lookahead

/-!
# A longer text declares no fewer events

More text can change how the end of a text is read: half an opening tag becomes a tag, a comment goes
on, a closing label turns out to be a longer word, a variable turns out to be a call. Up to the first
token that reads differently the two searches go the same way. From there on the shorter text holds
nothing but the beginning of one pattern, and no call stands in that.
-/

namespace ExtensionAudit.Event

open ExtensionAudit.Php

namespace Search

variable {before text more : List Char}

/-- The named events of a search with the lines on which they stand. -/
def located (found : Search) : List (String × Nat) :=
  found.named.map fun (site, name) => (name, site.line)

theorem located_eq_nil_iff {found : Search} : found.located = [] ↔ found.named = [] :=
  List.map_eq_nil_iff

/-! ### Texts without calls -/

theorem dollar_mem_of_codeToken_call {rest : List Char} {call : Call}
    (h : CodeToken text (.call call) rest) : '$' ∈ text := by
  obtain ⟨hformed, _, rfl⟩ := codeToken_iff.1 h
  cases hformed with
  | callWithLiteral hhead =>
    obtain ⟨tail, rfl⟩ := exists_dollar_of_mem_dispatcherWords hhead
    simp [Token.lexeme, Call.lexeme]
  | bareCall hhead =>
    obtain ⟨tail, rfl⟩ := exists_dollar_of_mem_dispatcherWords hhead
    simp [Token.lexeme, Call.lexeme]

theorem named_eq_nil_of_dollar_not_mem (inCode : Bool) (hno : '$' ∉ text) (before : List Char) :
    (of inCode ⟨before, text⟩).named = [] := by
  induction inCode, text using reading_induction generalizing before with
  | finished inCode => rw [of_nil]
  | html text piece rest hne hpiece ih =>
    rw [of_html hpiece]
    rw [← hpiece.append_eq, List.mem_append, not_or] at hno
    exact ih hno.2 _
  | code text token rest htoken ih =>
    have hcall : ∀ call, token ≠ .call call := by
      rintro call rfl
      exact hno (dollar_mem_of_codeToken_call htoken)
    obtain ⟨_, _, rfl⟩ := codeToken_iff.1 htoken
    rw [List.mem_append, not_or] at hno
    rw [of_code htoken, meet_of_ne_call hcall]
    exact ih hno.2 _
  | broken text skipped fault hbroken => rw [of_broken hbroken]

/-- A token whose end is undecided names no event, and no call is among the characters seen behind
it. -/
theorem named_eq_nil_of_undecided {token : Token} {rest : List Char}
    (htoken : CodeToken text token rest) (hopen : Undecided token rest) :
    (of true ⟨before, text⟩).named = [] := by
  have hformed := (codeToken_iff.1 htoken).1
  have hdollar : '$' ∉ rest := by
    rcases hopen.inPattern hformed with rfl | hpattern
    · decide
    · exact Text.not_mem_of_stretch hpattern (by decide)
  have hlater := named_eq_nil_of_dollar_not_mem (token != .closeTag) hdollar
    (token.lexeme.reverse ++ before)
  rw [of_code htoken]
  cases token with
  | call call =>
    obtain ⟨head, official, argument⟩ := call
    cases argument with
    | some _ => exact hopen.elim
    | none =>
      have hname : declaredName ⟨head, official, none⟩ = .error .nameNotLiteral := rfl
      by_cases hofficial : official = true
      · rw [meet_refused hname hofficial]
      · rw [meet_passed hname hofficial]
        exact hlater
  | _ =>
    rw [meet_of_ne_call (by simp)]
    exact hlater

/-! ### The two searches -/

/-- One token more in front of both searches keeps the events of the one in front of the other's. -/
theorem located_meet_prefix {found found' : Search} (h : found.located <+: found'.located)
    (token : Token) (after after' : List Char) :
    (found.meet ⟨before, after⟩ token).located <+: (found'.meet ⟨before, after'⟩ token).located := by
  rcases meet_cases token with hpassed | ⟨name, hnamed⟩ | ⟨cause, hended⟩
  · rwa [hpassed, hpassed]
  · rw [hnamed, hnamed]
    exact List.cons_prefix_cons.2 ⟨rfl, h⟩
  · rw [hended, hended]
    exact List.prefix_refl _

theorem located_prefix (inCode : Bool) (before text more : List Char) :
    (of inCode ⟨before, text⟩).located <+: (of inCode ⟨before, text ++ more⟩).located := by
  induction inCode, text using reading_induction generalizing before with
  | finished inCode =>
    rw [of_nil]
    exact List.nil_prefix
  | html text piece rest hne hpiece ih =>
    rw [of_html hpiece]
    rcases htmlPiece_cases hpiece with ⟨body, tag, hbody, htag, rfl⟩ | ⟨_, rfl⟩
    · rw [← hpiece.append_eq, List.append_assoc,
        of_html (htmlPiece_of_tag hbody htag (rest ++ more))]
      exact ih _
    · rw [of_nil]
      exact List.nil_prefix
  | code text token rest htoken ih =>
    by_cases hopen : Undecided token rest
    · rw [located_eq_nil_iff.2 (named_eq_nil_of_undecided htoken hopen)]
      exact List.nil_prefix
    · obtain ⟨hformed, hfollow, htext⟩ := codeToken_iff.1 htoken
      have hfollow' : MayFollow token (rest ++ more) := by
        rw [← List.append_nil rest] at hfollow
        exact hfollow.congr hopen more
      have htoken' : CodeToken (text ++ more) token (rest ++ more) :=
        codeToken_iff.2 ⟨hformed, hfollow', by rw [← htext, List.append_assoc]⟩
      rw [of_code htoken, of_code htoken']
      exact located_meet_prefix (ih _) token _ _
  | broken text skipped fault hbroken =>
    rw [of_broken hbroken]
    exact List.nil_prefix

end Search

/-- **Events only ever come later.** If the events in front of a fault are kept, the events of a
text, by name, file and line, are the first ones of every longer text, wherever the text breaks off
and whether or not either search fails. -/
theorem extract_keep_prefix (text more path : String) :
    ((extract .keep text path).events.map fun event => (event.name, event.file, event.line))
      <+: (extract .keep (text ++ more) path).events.map
        fun event => (event.name, event.file, event.line) := by
  have htriples (found : Search) :
      (found.declared path).map (fun event => (event.name, event.file, event.line))
        = found.located.map fun (name, line) => (name, path, line) := by
    simp [Search.declared, Search.located, declarationAt, Function.comp_def]
  rw [Search.extract_eq, Search.extract_eq, Search.report_keep_events, Search.report_keep_events,
    htriples, htriples, String.toList_append]
  exact (Search.located_prefix false [] text.toList more.toList).map _

end ExtensionAudit.Event
