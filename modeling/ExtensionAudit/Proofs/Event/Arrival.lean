import ExtensionAudit.Proofs.Event.Grammar
import ExtensionAudit.Proofs.Event.Search
import ExtensionAudit.Proofs.Php.Lookahead

/-!
# Where a search arrives

A search goes on behind each token, unless the token is a call of the board's own dispatcher that is
refused. Places to which it goes on it arrives at, with the events that it has met before. A call
there has its say: it names an event, is refused, or is passed over. Conversely every event of a
search is named by a call at which the search arrives.

In front of a call the search depends only on what the call begins with: a dollar sign settles
whatever was undecided about the tokens before it. So the search arrives there whatever stands
behind the part of the call that is kept, and has met the same events.
-/

namespace ExtensionAudit

open ExtensionAudit.Php

/-- A token stays what it is if the text changes behind a dollar sign that follows it. -/
theorem Php.CodeToken.replace_behind {text tail passed kept rest : List Char} {token : Token}
    (htoken : CodeToken text token tail) (hkept : '$' ∈ kept)
    (htail : tail = passed ++ (kept ++ rest)) (rest' : List Char) :
    CodeToken (token.lexeme ++ (passed ++ (kept ++ rest'))) token (passed ++ (kept ++ rest')) := by
  obtain ⟨hformed, hfollow, -⟩ := codeToken_iff.1 htoken
  refine codeToken_iff.2 ⟨hformed, ?_, rfl⟩
  have hseen : '$' ∈ passed ++ kept := List.mem_append_right passed hkept
  have hlong : passed ++ kept ≠ ['?'] := by
    intro heq
    rw [heq, List.mem_singleton] at hseen
    exact absurd hseen (by decide)
  rw [htail, ← List.append_assoc] at hfollow
  rw [← List.append_assoc]
  exact hfollow.congr (not_undecided_of_mem hformed hseen (by decide) hlong) rest'

namespace Event

section Calls

variable {call : Call} {name : String} {cause : Cause}

theorem declaredName_eq_ok_iff : declaredName call = .ok name ↔ NamesEvent call name := by
  constructor
  · exact namesEvent_of_declaredName
  · intro hnames
    cases hdeclared : declaredName call with
    | error cause => exact absurd hnames (refuses_of_declaredName hdeclared).not_namesEvent
    | ok other =>
      obtain ⟨gap, l, hargument, -, -, rfl⟩ := hnames
      obtain ⟨gap', l', hargument', -, -, rfl⟩ := namesEvent_of_declaredName hdeclared
      obtain ⟨-, rfl⟩ := Prod.mk.inj (Option.some.inj (hargument.symm.trans hargument'))
      rfl

theorem declaredName_eq_error_iff : declaredName call = .error cause ↔ Refuses call cause := by
  constructor
  · exact refuses_of_declaredName
  · intro hrefuses
    cases hdeclared : declaredName call with
    | ok name => exact absurd (namesEvent_of_declaredName hdeclared) hrefuses.not_namesEvent
    | error other =>
      cases hrefuses with
      | notLiteral hnone =>
        rw [declaredName, hnone] at hdeclared
        rw [← hdeclared]
      | interpolated hargument hvariable =>
        rw [declaredName, hargument] at hdeclared
        simp only [isInterpolated_iff.2 hvariable, if_true] at hdeclared
        rw [← hdeclared]
      | blank hargument hvariable hblank =>
        have hfixed : ¬ _ := fun hholds => hvariable (isInterpolated_iff.1 hholds)
        have hall : Text.isAllBlank _ = true := List.all_eq_true.2 hblank
        rw [declaredName, hargument] at hdeclared
        simp only [hfixed, hall, if_true] at hdeclared
        rw [← hdeclared]
        rfl

end Calls

/-- The search goes on behind the token as if it were not there. -/
def IsPassed (token : Token) : Prop :=
  ∀ call, token = .call call → call.official = false ∧ ∃ cause, Refuses call cause

/-- A token is passed over, names an event, or ends the search. -/
theorem token_cases (token : Token) :
    IsPassed token ∨ (∃ call name, token = .call call ∧ NamesEvent call name)
      ∨ Offends token := by
  cases token with
  | call call =>
    cases hdeclared : declaredName call with
    | ok name => exact .inr (.inl ⟨call, name, rfl, namesEvent_of_declaredName hdeclared⟩)
    | error cause =>
      have hrefuses := refuses_of_declaredName hdeclared
      by_cases hofficial : call.official = true
      · exact .inr (.inr ⟨call, cause, rfl, hofficial, hrefuses⟩)
      · refine .inl fun other heq => ?_
        obtain rfl := Token.call.inj heq
        exact ⟨Bool.eq_false_of_not_eq_true hofficial, cause, hrefuses⟩
  | _ => exact .inl fun _ heq => Token.noConfusion heq

namespace Search

/-- The search that has met some events before. -/
def prepend (met : List (Site × String)) (later : Search) : Search :=
  ⟨met ++ later.named, later.stop⟩

/-! ### What the search does at a token -/

section Steps

variable {before text rest : List Char} {token : Token} {call : Call} {name : String}
  {cause : Cause}

theorem of_token_passed (htoken : CodeToken text token rest) (hpassed : IsPassed token) :
    of true ⟨before, text⟩
      = of (token != .closeTag) ⟨token.lexeme.reverse ++ before, rest⟩ := by
  rw [of_code htoken]
  cases token with
  | call call =>
    obtain ⟨hofficial, cause, hrefuses⟩ := hpassed call rfl
    exact meet_passed (declaredName_eq_error_iff.2 hrefuses) (by simp [hofficial]) _ _
  | _ => rfl

theorem of_token_named (htoken : CodeToken text (.call call) rest) (hnames : NamesEvent call name) :
    of true ⟨before, text⟩
      = (of true ⟨call.lexeme.reverse ++ before, rest⟩).prepend [(⟨before, text⟩, name)] := by
  rw [of_code htoken]
  exact meet_named (declaredName_eq_ok_iff.2 hnames) _ _

theorem of_token_refused (htoken : CodeToken text (.call call) rest)
    (hofficial : call.official = true) (hrefuses : Refuses call cause) :
    of true ⟨before, text⟩ = ⟨[], some (⟨before, text⟩, cause)⟩ := by
  rw [of_code htoken]
  exact meet_refused (declaredName_eq_error_iff.2 hrefuses) hofficial _ _

end Steps

/-! ### Arrivals -/

/-- The search from a site on arrives at a site in code, and has met the events before. -/
inductive Arrives : Bool → Site → List (Site × String) → Site → Prop where
  | here {site : Site} : Arrives true site [] site
  | html {before text piece rest : List Char} {met : List (Site × String)} {site : Site} :
      HtmlPiece text piece rest → Arrives true ⟨piece.reverse ++ before, rest⟩ met site →
      Arrives false ⟨before, text⟩ met site
  | passed {before text rest : List Char} {token : Token} {met : List (Site × String)}
      {site : Site} :
      CodeToken text token rest → IsPassed token →
      Arrives (token != .closeTag) ⟨token.lexeme.reverse ++ before, rest⟩ met site →
      Arrives true ⟨before, text⟩ met site
  | named {before text rest : List Char} {call : Call} {name : String}
      {met : List (Site × String)} {site : Site} :
      CodeToken text (.call call) rest → NamesEvent call name →
      Arrives true ⟨call.lexeme.reverse ++ before, rest⟩ met site →
      Arrives true ⟨before, text⟩ ((⟨before, text⟩, name) :: met) site

variable {inCode : Bool} {start site : Site} {met : List (Site × String)}

/-- From where a search arrives it goes on as a search from there. -/
theorem Arrives.of_eq (harrives : Arrives inCode start met site) :
    of inCode start = (of true site).prepend met := by
  induction harrives with
  | here => rfl
  | html hpiece _ ih => rw [of_html hpiece, ih]
  | passed htoken hpassed _ ih => rw [of_token_passed htoken hpassed, ih]
  | named htoken hnames _ ih =>
    rw [of_token_named htoken hnames, ih]
    rfl

/-- An event of a search is named by a call at which the search arrives, having met the events in
front of it. -/
theorem exists_arrival {before text : List Char} {earlier later : List (Site × String)}
    {name : String} (hnamed : (of inCode ⟨before, text⟩).named = earlier ++ (site, name) :: later) :
    Arrives inCode ⟨before, text⟩ earlier site
      ∧ ∃ call rest, CodeToken site.after (.call call) rest ∧ NamesEvent call name := by
  induction inCode, text using reading_induction generalizing before earlier with
  | finished inCode =>
    rw [of_nil] at hnamed
    simp at hnamed
  | html text piece rest hne hpiece ih =>
    rw [of_html hpiece] at hnamed
    obtain ⟨harrives, hcall⟩ := ih hnamed
    exact ⟨.html hpiece harrives, hcall⟩
  | code text token rest htoken ih =>
    rcases token_cases token with
      hpassed | ⟨call, other, rfl, hnames⟩ | ⟨call, cause, rfl, hofficial, hrefuses⟩
    · rw [of_token_passed htoken hpassed] at hnamed
      obtain ⟨harrives, hcall⟩ := ih hnamed
      exact ⟨.passed htoken hpassed harrives, hcall⟩
    · rw [of_token_named htoken hnames, prepend, List.singleton_append] at hnamed
      cases earlier with
      | nil =>
        obtain ⟨hfirst, -⟩ := List.cons.inj hnamed
        obtain ⟨rfl, rfl⟩ := Prod.mk.inj hfirst
        exact ⟨.here, call, rest, htoken, hnames⟩
      | cons first earlier =>
        obtain ⟨rfl, hlater⟩ := List.cons.inj hnamed
        obtain ⟨harrives, hcall⟩ := ih hlater
        exact ⟨.named htoken hnames harrives, hcall⟩
    · rw [of_token_refused htoken hofficial hrefuses] at hnamed
      simp at hnamed
  | broken text skipped fault hbroken =>
    rw [of_broken hbroken] at hnamed
    simp at hnamed

/-! ### What stands behind a call -/

/-- The places of events, without what stands behind them, and their names. -/
def placed (met : List (Site × String)) : List (List Char × String) :=
  met.map fun (site, name) => (site.before, name)

/-- The search arrives at a dollar sign whatever stands behind the characters that are kept from
there on. -/
theorem Arrives.replace (harrives : Arrives inCode start met site) {kept rest : List Char}
    (hkept : '$' ∈ kept) (hafter : site.after = kept ++ rest) :
    ∃ passed, start.after = passed ++ site.after ∧ site.before = passed.reverse ++ start.before
      ∧ ∀ rest', ∃ met', placed met' = placed met
        ∧ Arrives inCode ⟨start.before, passed ++ (kept ++ rest')⟩ met'
          ⟨site.before, kept ++ rest'⟩ := by
  induction harrives with
  | here => exact ⟨[], rfl, rfl, fun rest' => ⟨[], rfl, .here⟩⟩
  | @html before text piece tail met site hpiece _ ih =>
    obtain ⟨passed, htail, hbefore, hlater⟩ := ih hafter
    simp only at htail hbefore hlater
    refine ⟨piece ++ passed, ?_, ?_, fun rest' => ?_⟩
    · rw [List.append_assoc, ← htail, hpiece.append_eq]
    · rw [hbefore, List.reverse_append, List.append_assoc]
    · obtain ⟨met', hplaced, hthere⟩ := hlater rest'
      rcases htmlPiece_cases hpiece with ⟨body, tag, hbody, htag, rfl⟩ | ⟨-, rfl⟩
      · refine ⟨met', hplaced, ?_⟩
        have hpiece' := htmlPiece_of_tag hbody htag (passed ++ (kept ++ rest'))
        rw [List.append_assoc (body ++ tag)]
        exact .html hpiece' hthere
      · rw [hafter] at htail
        rw [(List.append_eq_nil_iff.1 (List.append_eq_nil_iff.1 htail.symm).2).1] at hkept
        cases hkept
  | @passed before text tail token met site htoken hpassed _ ih =>
    obtain ⟨passed, htail, hbefore, hlater⟩ := ih hafter
    simp only at htail hbefore hlater
    refine ⟨token.lexeme ++ passed, ?_, ?_, fun rest' => ?_⟩
    · rw [List.append_assoc, ← htail, (codeToken_iff.1 htoken).2.2]
    · rw [hbefore, List.reverse_append, List.append_assoc]
    · obtain ⟨met', hplaced, hthere⟩ := hlater rest'
      have htoken' := htoken.replace_behind hkept (hafter ▸ htail) rest'
      rw [List.append_assoc]
      exact ⟨met', hplaced, .passed htoken' hpassed hthere⟩
  | @named before text tail call name met site htoken hnames _ ih =>
    obtain ⟨passed, htail, hbefore, hlater⟩ := ih hafter
    simp only at htail hbefore hlater
    refine ⟨call.lexeme ++ passed, ?_, ?_, fun rest' => ?_⟩
    · rw [List.append_assoc, ← htail]
      exact (codeToken_iff.1 htoken).2.2.symm
    · rw [hbefore, List.reverse_append, List.append_assoc]
    · obtain ⟨met', hplaced, hthere⟩ := hlater rest'
      have htoken' := htoken.replace_behind hkept (hafter ▸ htail) rest'
      rw [List.append_assoc]
      exact ⟨(⟨before, _⟩, name) :: met', congrArg ((before, name) :: ·) hplaced,
        .named htoken' hnames hthere⟩

end Search

end Event

end ExtensionAudit
