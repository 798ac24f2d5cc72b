import ExtensionAudit.Proofs.Event.Search
import ExtensionAudit.Proofs.Php.Region

/-!
# What is skipped has no say

Two searches are compared, in a text and in the same text with the interior of one skipped region
replaced. In front of the region both meet the same tokens, the region adds nothing to either, and
behind it both read the same text. Only the places behind the region may lie elsewhere.
-/

namespace ExtensionAudit.Event

open ExtensionAudit.Php

namespace Search

/-- The searches find the same names, and both end early or neither does. -/
def Agree (found found' : Search) : Prop :=
  found.names = found'.names ∧ (found.stop = none ↔ found'.stop = none)

theorem Agree.meet {found found' : Search} (h : Agree found found') (site site' : Site)
    (token : Token) : Agree (found.meet site token) (found'.meet site' token) := by
  rcases meet_cases token with hpassed | ⟨name, hnamed⟩ | ⟨cause, hended⟩
  · rwa [hpassed, hpassed]
  · rw [hnamed, hnamed]
    exact ⟨congrArg (name :: ·) h.1, h.2⟩
  · rw [hended, hended]
    exact ⟨rfl, by simp⟩

/-- What a search finds does not depend on the text in front of it. -/
theorem agree_of (inCode : Bool) (before before' text : List Char) :
    Agree (of inCode ⟨before, text⟩) (of inCode ⟨before', text⟩) := by
  have hbehind (front : List Char) :
      of inCode ⟨front, text⟩ = (of inCode ⟨[], text⟩).behind front := of_append inCode text [] front
  rw [hbehind before, hbehind before']
  exact ⟨by simp, by simp⟩

/-- A region adds nothing to a search and does not lead out of code, nor does a refilled one. -/
theorem meet_refilled {token token' : Token} (h : Refilled token token') :
    (∀ site later, meet site token later = later) ∧
      (∀ site later, meet site token' later = later) ∧
      (token != .closeTag) = (token' != .closeTag) := by
  cases h <;> exact ⟨fun _ _ => rfl, fun _ _ => rfl, rfl⟩

theorem agree_refilled {inCode : Bool} {text front after : List Char} {token token' : Token}
    (hstands : Stands inCode text front token after) (hrefilled : Refilled token token')
    (hfree : ∀ l, token = .literal l → ¬ BehindTripleLess front) (before : List Char) :
    Agree (of inCode ⟨before, front ++ token'.lexeme ++ after⟩) (of inCode ⟨before, text⟩) := by
  induction hstands generalizing before with
  | html hpiece =>
    obtain ⟨piece', rfl, hpiece'⟩ := hpiece.refilled hrefilled
    rw [of_html hpiece]
    rw [List.nil_append, Token.lexeme, of_html hpiece']
    exact agree_of _ _ _ _
  | code htoken =>
    obtain ⟨hpassed, hpassed', hmode⟩ := meet_refilled hrefilled
    rw [List.nil_append, of_code (htoken.refilled hrefilled), of_code htoken, hpassed, hpassed',
      hmode]
    exact agree_of _ _ _ _
  | @behindHtml text piece rest front after token hpiece hlater ih =>
    rcases htmlPiece_cases hpiece with ⟨body, tag, hbody, htag, rfl⟩ | ⟨_, rfl⟩
    · have hpiece' := htmlPiece_of_tag hbody htag (front ++ token'.lexeme ++ after)
      have hfree' : ∀ l, token = .literal l → ¬ BehindTripleLess front :=
        fun l heq hless => hfree l heq (hless.append _)
      rw [of_html hpiece, List.append_assoc, List.append_assoc, ← List.append_assoc front,
        of_html hpiece']
      exact ih hrefilled hfree' _
    · exact absurd rfl hlater.text_ne_nil
  | @behindCode text rest front after passed token hpassed hlater ih =>
    have hfree' : ∀ l, token = .literal l → ¬ BehindTripleLess front :=
      fun l heq hless => hfree l heq (hless.append _)
    have hpassed' := hpassed.before_refilled hlater hrefilled hfree
    rw [of_code hpassed, List.append_assoc, List.append_assoc, ← List.append_assoc front,
      of_code hpassed']
    exact (ih hrefilled hfree' _).meet _ _ _

end Search

/-- **Skipped regions have no say.** Replacing the interior of a region that is skipped by any other
legal interior leaves the search as successful as it was and the names of its events the same. A
string literal counts as skipped where it is met on its own, and not behind three less-than signs. -/
theorem extract_refilled (policy : PartialPolicy) (text path : String) {front after : List Char}
    {token token' : Token} (hstands : Stands false text.toList front token after)
    (hrefilled : Refilled token token')
    (hfree : ∀ l, token = .literal l → ¬ BehindTripleLess front) :
    let refilled := String.ofList (front ++ token'.lexeme ++ after)
    ((extract policy refilled path).fault = none ↔ (extract policy text path).fault = none) ∧
      (extract policy refilled path).events.map (·.name)
        = (extract policy text path).events.map (·.name) := by
  intro refilled
  have hrefill : refilled.toList = front ++ token'.lexeme ++ after := String.toList_ofList
  have hagree : (Search.of false (Site.start refilled.toList)).Agree
      (Search.of false (Site.start text.toList)) := by
    rw [hrefill]
    exact Search.agree_refilled hstands hrefilled hfree []
  obtain ⟨hnames, hstop⟩ := hagree
  rw [Search.extract_eq, Search.extract_eq, Search.report_events_names, Search.report_events_names]
  refine ⟨?_, ?_⟩
  · rw [Search.report, Search.report, Search.fault_eq_none_iff, Search.fault_eq_none_iff]
    exact hstop
  · rw [← Option.isNone_iff_eq_none, ← Option.isNone_iff_eq_none, ← Bool.eq_iff_iff] at hstop
    rw [hnames, hstop]

/-- A comment that comes to hold a closing tag, a quote and a call. -/
theorem extract_refilled_callInComment :
    let after := "$dispatcher->dispatch('x');".toList
    let token := Token.blockComment ['a']
    let token' := Token.blockComment "?>'$dispatcher->dispatch('y')".toList
    Stands false "<?php/*a*/$dispatcher->dispatch('x');".toList "<?php".toList token after ∧
      Refilled token token' ∧ (∀ l, token = .literal l → ¬ BehindTripleLess "<?php".toList) ∧
      let refilled := String.ofList ("<?php".toList ++ token'.lexeme ++ after)
      ((extract .discard refilled "a.php").fault = none ↔
        (extract .discard "<?php/*a*/$dispatcher->dispatch('x');" "a.php").fault = none) ∧
      (extract .discard refilled "a.php").events.map (·.name)
        = (extract .discard "<?php/*a*/$dispatcher->dispatch('x');" "a.php").events.map (·.name) := by
  intro after token token'
  have hcomment : CodeToken "/*a*/$dispatcher->dispatch('x');".toList token after :=
    codeToken_iff.2 ⟨.blockComment (by decide), trivial, rfl⟩
  have hpiece : HtmlPiece "<?php/*a*/$dispatcher->dispatch('x');".toList "<?php".toList
      "/*a*/$dispatcher->dispatch('x');".toList := htmlPiece_iff.2 rfl
  have hstands : Stands false "<?php/*a*/$dispatcher->dispatch('x');".toList
      ("<?php".toList ++ []) token after := .behindHtml hpiece (.code hcomment)
  have hrefilled : Refilled token token' := .blockComment (by decide)
  have hfree : ∀ l, token = .literal l → ¬ BehindTripleLess "<?php".toList := by
    intro l heq
    exact Token.noConfusion heq
  exact ⟨hstands, hrefilled, hfree, extract_refilled _ _ _ hstands hrefilled hfree⟩

end ExtensionAudit.Event
