import ExtensionAudit.Proofs.Event.Search
import ExtensionAudit.Proofs.Php.Closing

/-!
# Texts joined behind a closing tag

A text that ends with a closing tag and a line feed, and is searched without a fault, has left code
when it ends. A text that is put behind it is therefore searched as if it stood alone: the search
finds the events of the one and then those of the other, further down by as many lines as the first
text has, and a fault of the second text is a fault of the whole.
-/

namespace ExtensionAudit.Event

open ExtensionAudit.Php

def Declaration.below (lines : Nat) (declaration : Declaration) : Declaration :=
  { declaration with line := declaration.line + lines }

def Fault.below (lines : Nat) (fault : Fault) : Fault :=
  { fault with line := fault.line.map (· + lines) }

namespace Search

/-! ### A search behind whole lines -/

theorem takeWhile_append_newline (before front : List Char) :
    (before ++ '\n' :: front).takeWhile (· != '\n') = before.takeWhile (· != '\n') := by
  induction before with
  | nil => rfl
  | cons c before ih =>
    rw [List.cons_append, List.takeWhile_cons, List.takeWhile_cons, ih]

theorem takeWhile_append_of_newline_mem {text : List Char} (h : '\n' ∈ text) (more : List Char) :
    (text ++ more).takeWhile (· != '\n') = text.takeWhile (· != '\n') := by
  obtain ⟨line, rest, rfl⟩ := List.append_of_mem h
  rw [List.append_assoc, List.cons_append, takeWhile_append_newline, takeWhile_append_newline]

/-- More text behind the end of a line is not part of it. -/
theorem declarationAt_append {before text : List Char} (h : '\n' ∈ text) (more : List Char)
    (path name : String) :
    declarationAt path ⟨before, text ++ more⟩ name = declarationAt path ⟨before, text⟩ name := by
  have hline : Site.lineText ⟨before, text ++ more⟩ = Site.lineText ⟨before, text⟩ := by
    rw [Site.lineText, Site.lineText, takeWhile_append_of_newline_mem h]
  rw [declarationAt, declarationAt, hline]
  rfl

theorem declared_cons (path : String) (site : Site) (name : String) (later : Search) :
    declared path ⟨(site, name) :: later.named, later.stop⟩
      = declarationAt path site name :: later.declared path := rfl

theorem line_behind (site : Site) (front : List Char) :
    Site.line ⟨site.before ++ front, site.after⟩ = site.line + front.count '\n' := by
  simp only [Site.line, List.count_append]
  omega

/-- Behind a text that ends with a line feed the events of a search are the same, further down. -/
theorem declared_behind (path : String) {front : List Char} (h : front.head? = some '\n')
    (found : Search) :
    (found.behind front).declared path
      = (found.declared path).map (Declaration.below (front.count '\n')) := by
  obtain ⟨front, rfl⟩ : ∃ tail, front = '\n' :: tail := by
    cases front with
    | nil => cases h
    | cons c front => exact ⟨front, by rw [Option.some.inj h]⟩
  have hsite (site : Site) (name : String) :
      declarationAt path ⟨site.before ++ '\n' :: front, site.after⟩ name
        = (declarationAt path site name).below (('\n' :: front).count '\n') := by
    have hline := line_behind site ('\n' :: front)
    have htext : Site.lineText ⟨site.before ++ '\n' :: front, site.after⟩ = site.lineText := by
      rw [Site.lineText, Site.lineText, takeWhile_append_newline]
    rw [declarationAt, htext, hline]
    rfl
  simp only [declared, behind, List.map_map]
  exact List.map_congr_left fun place _ => hsite place.1 place.2

theorem fault_behind (path : String) (front : List Char) (found : Search) :
    (found.behind front).fault path
      = (found.fault path).map (Fault.below (front.count '\n')) := by
  simp only [fault, behind, Option.map_map]
  refine Option.map_congr fun place _ => ?_
  simp [Fault.below, line_behind]

/-! ### A search through both texts -/

variable {inCode : Bool} {text : List Char}

theorem of_append_of_holdsNoTag (hno : HoldsNoTag text) (hlast : text.getLast? = some '\n')
    (before more : List Char) :
    of false ⟨before, text ++ more⟩ = of false ⟨text.reverse ++ before, more⟩ := by
  have hmore := htmlPiece_inlineHtml more
  rw [of_html (hmore.append_left hno hlast), of_html hmore, List.reverse_append, List.append_assoc]

/-- A search that comes to the end of a text that ends closed goes on outside code. -/
theorem of_append_of_endsClosed (hend : EndsClosed inCode text) (before more : List Char)
    (hstop : (of inCode ⟨before, text⟩).stop = none) (path : String) :
    (of inCode ⟨before, text ++ more⟩).stop = (of false ⟨text.reverse ++ before, more⟩).stop ∧
      (of inCode ⟨before, text ++ more⟩).declared path
        = (of inCode ⟨before, text⟩).declared path
          ++ (of false ⟨text.reverse ++ before, more⟩).declared path := by
  induction inCode, text using reading_induction generalizing before with
  | finished inCode => exact absurd hend.newline_mem (by simp)
  | html text piece rest hne hpiece ih =>
    rcases htmlPiece_cases hpiece with ⟨body, tag, hbody, htag, rfl⟩ | ⟨hno, rfl⟩
    · obtain rfl := hpiece.append_eq
      have hpiece' := htmlPiece_of_tag hbody htag (rest ++ more)
      have hlater := ih (endsClosed_of_tag htag hend) ((body ++ tag).reverse ++ before)
        (by rwa [of_html hpiece] at hstop)
      have hreverse : (body ++ tag ++ rest).reverse ++ before
          = rest.reverse ++ ((body ++ tag).reverse ++ before) := by
        rw [List.reverse_append, List.append_assoc]
      rw [List.append_assoc (body ++ tag), of_html hpiece', of_html hpiece, hreverse]
      exact hlater
    · obtain rfl : piece = text := by simpa using hpiece.append_eq
      rw [of_append_of_holdsNoTag hno hend.getLast?, of_html hpiece, of_nil]
      exact ⟨rfl, rfl⟩
  | code text token rest htoken ih =>
    have hrest := htoken.endsClosed (hend.resolve_right (by simp))
    have htoken' := htoken.append_of_endsClosed hrest more
    have hreverse : text.reverse ++ before
        = rest.reverse ++ (token.lexeme.reverse ++ before) := by
      rw [← (codeToken_iff.1 htoken).2.2, List.reverse_append, List.append_assoc]
    rw [of_code htoken] at hstop
    rw [of_code htoken, of_code htoken', hreverse]
    rcases meet_cases token with hpassed | ⟨name, hnamed⟩ | ⟨cause, hended⟩
    · rw [hpassed] at hstop
      rw [hpassed, hpassed]
      exact ih hrest _ hstop
    · rw [hnamed] at hstop
      obtain ⟨hlaterStop, hlater⟩ := ih hrest _ hstop
      rw [hnamed, hnamed]
      refine ⟨hlaterStop, ?_⟩
      rw [declared_cons, declared_cons, hlater, declarationAt_append hend.newline_mem]
      rfl
    · rw [hended] at hstop
      cases hstop
  | broken text skipped fault hbroken =>
    rw [of_broken hbroken] at hstop
    cases hstop

end Search

/-- **Texts join behind a closing tag.** If a text ends with a closing tag and a line feed and its
search succeeds, then the search of the text with more behind it has the fault of the search of the
rest, and its events are those of the two searches, one after the other, unless the rest is at fault
and events are dropped for that. What comes from the rest lies further down by the lines of the
text. -/
theorem extract_append (policy : PartialPolicy) (text more path : String)
    (hend : ['?', '>', '\n'] <:+ text.toList) (hdone : (extract policy text path).fault = none) :
    let lines := text.toList.count '\n'
    (extract policy (text ++ more) path).fault
        = (extract policy more path).fault.map (Fault.below lines) ∧
      (policy = .keep ∨ (extract policy more path).fault = none →
        (extract policy (text ++ more) path).events
          = (extract policy text path).events
            ++ (extract policy more path).events.map (Declaration.below lines)) := by
  intro lines
  simp only [Search.extract_eq, Site.start, String.toList_append] at hdone ⊢
  have hstop : (Search.of false ⟨[], text.toList⟩).stop = none := Search.fault_eq_none_iff.1 hdone
  obtain ⟨hwholeStop, hwhole⟩ :=
    Search.of_append_of_endsClosed (.inl hend) [] more.toList hstop path
  have hhead : text.toList.reverse.head? = some '\n' := by
    have hclosed : EndsClosed false text.toList := .inl hend
    rw [List.head?_reverse, hclosed.getLast?]
  have hlines : text.toList.reverse.count '\n' = lines := List.count_reverse
  have hrest : Search.of false ⟨text.toList.reverse, more.toList⟩
      = (Search.of false ⟨[], more.toList⟩).behind text.toList.reverse :=
    Search.of_append false more.toList [] text.toList.reverse
  rw [List.append_nil, hrest] at hwholeStop
  rw [List.append_nil, hrest, Search.declared_behind path hhead, hlines] at hwhole
  refine ⟨?_, ?_⟩
  · have hfault : (Search.of false ⟨[], text.toList ++ more.toList⟩).fault path
        = ((Search.of false ⟨[], more.toList⟩).behind text.toList.reverse).fault path := by
      rw [Search.fault, Search.fault, hwholeStop]
    rw [Search.fault_behind, hlines] at hfault
    exact hfault
  · rintro (rfl | hmoreDone)
    · simp only [Search.report_keep_events, hwhole]
    · have hmoreStop := Search.fault_eq_none_iff.1 hmoreDone
      have hwholeDone := hwholeStop.trans (Search.stop_behind_eq_none_iff.2 hmoreStop)
      rw [Search.report_events_of_stop_eq_none policy path hwholeDone,
        Search.report_events_of_stop_eq_none policy path hstop,
        Search.report_events_of_stop_eq_none policy path hmoreStop, hwhole]

/-- The text behind the tag ends within a comment, behind an event of its own. -/
theorem extract_append_brokenRest :
    let text := "<?= $dispatcher->dispatch('x') ?>\n"
    let more := "\n<?= $dispatcher->dispatch('y') /*"
    ['?', '>', '\n'] <:+ text.toList ∧ (extract .keep text "a.php").fault = none ∧
      let lines := text.toList.count '\n'
      (extract .keep (text ++ more) "a.php").fault
          = (extract .keep more "a.php").fault.map (Fault.below lines) ∧
        (PartialPolicy.keep = .keep ∨ (extract .keep more "a.php").fault = none →
          (extract .keep (text ++ more) "a.php").events
            = (extract .keep text "a.php").events
              ++ (extract .keep more "a.php").events.map (Declaration.below lines)) := by
  intro text more
  have hend : ['?', '>', '\n'] <:+ text.toList := by decide
  have hdone : (extract .keep text "a.php").fault = none := by decide +kernel
  exact ⟨hend, hdone, extract_append .keep text more "a.php" hend hdone⟩

end ExtensionAudit.Event
