import Mathlib
import ExtensionAudit.Proofs.Audit.Schedule
import ExtensionAudit.Proofs.Event.Grammar
import ExtensionAudit.Proofs.Event.Search
import ExtensionAudit.Proofs.Php.Region
import ExtensionAudit.Proofs.Text.Lines

/-!
# The lines of events and the lines of files

The line of an event is counted by newlines, the lines of a file by all line breaks. A call stands
at a character that is no break, so each event lies on a line of the file, and no breaks besides
newlines in front of it means that both ways of counting give that line the same number. The text of
the event is the line up to its newline, which other breaks may divide further.
-/

namespace ExtensionAudit.Event

open ExtensionAudit.Php ExtensionAudit.Text

/-! ### Where events stand -/

theorem Search.mem_tokens_of_named {stop : Option (Site × Cause)} {tokens : List (Site × Token)}
    {site : Site} {name : String} (hnamed : (site, name) ∈ (along stop tokens).named) :
    ∃ call, (site, .call call) ∈ tokens := by
  induction tokens with
  | nil => cases hnamed
  | cons place rest ih =>
    have hlater (hmem : (site, name) ∈ (along stop rest).named) :
        ∃ call, (site, .call call) ∈ place :: rest := by
      obtain ⟨call, hcall⟩ := ih hmem
      exact ⟨call, List.mem_cons_of_mem place hcall⟩
    have hstep : along stop (place :: rest) = (along stop rest).meet place.1 place.2 := rfl
    rw [hstep] at hnamed
    obtain ⟨here, token⟩ := place
    cases token with
    | call call =>
      cases hname : declaredName call with
      | ok given =>
        rw [meet_named hname] at hnamed
        obtain heq | hmem := List.mem_cons.mp hnamed
        · obtain ⟨rfl, rfl⟩ := Prod.mk.inj heq
          exact ⟨call, List.mem_cons_self⟩
        · exact hlater hmem
      | error cause =>
        by_cases hofficial : call.official = true
        · rw [meet_refused hname hofficial] at hnamed
          cases hnamed
        · rw [meet_passed hname hofficial] at hnamed
          exact hlater hnamed
    | _ => exact hlater hnamed

/-- A call begins with a dollar sign. -/
theorem head?_lexeme_of_formed {call : Call} (hformed : Formed (.call call)) :
    (Token.call call).lexeme.head? = some '$' := by
  cases hformed with
  | callWithLiteral hhead =>
    obtain ⟨tail, rfl⟩ := exists_dollar_of_mem_dispatcherWords hhead
    rfl
  | bareCall hhead =>
    obtain ⟨tail, rfl⟩ := exists_dollar_of_mem_dispatcherWords hhead
    rfl

/-- Each event is that of a site in the text, at which a dollar sign stands. -/
theorem exists_site_of_event {text path : String} {event : Declaration}
    (hevent : event ∈ (extract .keep text path).events) :
    ∃ site : Site, site.before.reverse ++ site.after = text.toList
      ∧ site.after.head? = some '$' ∧ event.line = site.line
      ∧ event.text = String.ofList (trim site.lineText) := by
  rw [Search.extract_eq, Search.report_keep_events] at hevent
  obtain ⟨⟨site, name⟩, hnamed, rfl⟩ := List.mem_map.mp hevent
  obtain ⟨call, hcall⟩ := Search.mem_tokens_of_named hnamed
  obtain ⟨front, after, hstands, rfl⟩ := Stands.of_mem_listing hcall
  have hdollar : (Token.call call).lexeme.head? = some '$' := by
    obtain ⟨piece, hpiece⟩ | hformed := hstands.formed
    · cases hpiece
    · exact head?_lexeme_of_formed hformed
  refine ⟨_, ?_, ?_, rfl, rfl⟩
  · rw [List.append_nil, List.reverse_reverse, ← List.append_assoc]
    exact hstands.append_eq
  · rw [List.head?_append, hdollar]
    rfl

/-! ### The line of a site -/

/-- The text up to the line of a site, and from there on. -/
theorem exists_front_of_site (site : Site) :
    ∃ front rest, site.before.reverse ++ site.after = front ++ rest
      ∧ (front = [] ∨ front.getLast? = some '\n') ∧ front.count '\n' + 1 = site.line
      ∧ rest.takeWhile (· != '\n') = site.lineText ∧ site.after <:+ rest := by
  obtain ⟨front, left, right, back, hbefore, hafter, hline, hnone, hfront, hback⟩ :=
    isLineOf_lineText site
  rw [hline, List.mem_append, not_or] at hnone
  have hkeep {part : List Char} (hpart : '\n' ∉ part) : ∀ c ∈ part, (c != '\n') = true :=
    fun c hc => bne_iff_ne.mpr (ne_of_mem_of_not_mem hc hpart)
  have hstop : back.takeWhile (· != '\n') = [] := by
    obtain rfl | hnewline := hback
    · rfl
    · obtain ⟨more, rfl⟩ := List.head?_eq_some_iff.mp hnewline
      rfl
  refine ⟨front, left ++ site.after, ?_, hfront, ?_, ?_, List.suffix_append left site.after⟩
  · rw [hbefore, List.append_assoc]
  · have hcount := congrArg (List.count '\n') hbefore
    rw [List.count_reverse, List.count_append, List.count_eq_zero_of_not_mem hnone.1] at hcount
    rw [Site.line, hcount]
  · rw [hafter, hline, List.takeWhile_append_of_pos (hkeep hnone.1),
      List.takeWhile_append_of_pos (hkeep hnone.2), hstop, List.append_nil]

theorem mem_numberedLines {file : SourceFile} {text : String} {index : Nat}
    (htext : file.lines[index]? = some text) :
    (⟨file, index + 1, text⟩ : SourceLine) ∈ file.numberedLines := by
  rw [SourceFile.numberedLines, Audit.numberLines_eq]
  have hplace : (text, index + 1) ∈ file.lines.zipIdx 1 :=
    List.mk_mem_zipIdx_iff_le_and_getElem?_sub.mpr ⟨Nat.le_add_left 1 index, htext⟩
  exact List.mem_map.mpr ⟨_, hplace, rfl⟩

/-- **Lines of events and lines of files.** Every event found in a text lies on one of the lines into
which the text divides as a file. The line that begins where the event's own one does has the number
of the event's line, or a number that is larger by the number of other line breaks in front of it.
It holds the event's own line up to the first break in that, and trimmed it is the text of the event
exactly if nothing but blanks follows. So in a text whose only breaks are newlines, alone or behind a
carriage return, the line of the file with the number of the event's line is its text. -/
theorem extract_keep_lines (text path : String) (event : Declaration)
    (hevent : event ∈ (extract .keep text path).events) (file : Path) (relative : String) :
    let source := SourceFile.ofText file relative text
    let front := firstLines (event.line - 1) text.toList
    let own := lineBehind (event.line - 1) text.toList
    1 ≤ event.line ∧ event.line ≤ source.lines.length
      ∧ ∃ line ∈ source.numberedLines, line.number = event.line + otherBreaks front
        ∧ line.text = String.ofList (uptoBreak own)
        ∧ (String.ofList (trim line.text.toList) = event.text
            ↔ isAllBlank (own.dropWhile (!isLineBreak ·)) = true)
        ∧ (OnlyNewlines text.toList →
            line.number = event.line ∧ String.ofList (trim line.text.toList) = event.text) := by
  intro source front own
  obtain ⟨site, htext, hdollar, hnumber, hdeclared⟩ := exists_site_of_event hevent
  obtain ⟨before, rest, hsplit, hbefore, hcount, hline, hsuffix⟩ := exists_front_of_site site
  have hcount : event.line - 1 = before.count '\n' := by
    rw [hnumber, ← hcount, Nat.add_sub_cancel]
  have hwhole : text.toList = before ++ rest := by rw [← htext, hsplit]
  have hfront : front = before := by
    change firstLines (event.line - 1) text.toList = before
    rw [hcount, hwhole, firstLines_append hbefore]
  have hown : own = site.lineText := by
    change lineBehind (event.line - 1) text.toList = site.lineText
    rw [hcount, hwhole, lineBehind_append hbefore, hline]
  -- The call's dollar sign is in what is left, so the file has a line there.
  have hsome : rest ≠ [] := by
    rintro rfl
    rw [List.suffix_nil.mp hsuffix] at hdollar
    cases hdollar
  have hfirst : 1 ≤ event.line := by
    rw [hnumber]
    exact Nat.succ_pos _
  have hlisted : source.lines[before.count '\n' + otherBreaks before]?
      = some (String.ofList (uptoBreak rest)) := by
    change ((linesFrom [] text.toList).map String.ofList)[_]? = _
    rw [List.getElem?_map, hwhole, linesFrom_getElem? hbefore hsome, Option.map_some]
  have hbound := (List.getElem?_eq_some_iff.mp hlisted).1
  have hupto : uptoBreak rest = uptoBreak own := by
    rw [hown, ← hline, uptoBreak_takeWhile]
  have hahead : before.count '\n' + otherBreaks before + 1 = event.line + otherBreaks front := by
    rw [hfront]
    omega
  have htrimmed : String.ofList (trim (String.ofList (uptoBreak rest)).toList) = event.text
      ↔ isAllBlank (own.dropWhile (!isLineBreak ·)) = true := by
    -- The own line is what the file's one holds and what follows its first break.
    have hdivided : uptoBreak own ++ own.dropWhile (!isLineBreak ·) = own :=
      List.takeWhile_append_dropWhile
    rw [String.toList_ofList, hdeclared, ← hown, hupto, String.ofList_inj, eq_comm,
      ← trim_append_eq_iff, hdivided]
  refine ⟨hfirst, by omega, _, mem_numberedLines hlisted, hahead, by rw [hupto], htrimmed, ?_⟩
  intro honly
  rw [hwhole] at honly
  constructor
  · rw [hfront, honly.otherBreaks_eq_zero hbefore] at hahead
    rw [honly.otherBreaks_eq_zero hbefore]
    exact hahead
  · apply htrimmed.mpr
    rw [hown, ← hline]
    exact (honly.behind before).isAllBlank_behind_break

/-- A call behind a form feed, on the third line of the file by one count and on the second by the
other. -/
theorem extract_keep_lines_formFeed :
    let text := "<?php \x0c\r\n  $dispatcher->dispatch('x'); \x0c"
    let event : Declaration := ⟨"x", "a.php", "$dispatcher->dispatch('x');", 2⟩
    event ∈ (extract .keep text "a.php").events
      ∧ ∃ line ∈ (SourceFile.ofText (.parse "a.php") "a.php" text).numberedLines,
          line.number = 3 ∧ String.ofList (trim line.text.toList) = event.text := by
  intro text event
  have hevent : event ∈ (extract .keep text "a.php").events := by decide +kernel
  obtain ⟨-, -, line, hline, hnumber, -, htrimmed, -⟩ :=
    extract_keep_lines text "a.php" event hevent (.parse "a.php") "a.php"
  have hahead : event.line + otherBreaks (firstLines (event.line - 1) text.toList) = 3 := by decide
  exact ⟨hevent, line, hline, hnumber.trans hahead, htrimmed.mpr (by decide)⟩

/-- A carriage return by itself divides the lines of a file. The call behind it is on the second one
and is given the number of the first, whose text is another. -/
theorem lines_apart_carriageReturn :
    let text := "<?php\r$dispatcher->dispatch('x');"
    let event : Declaration := ⟨"x", "a.php", "<?php\r$dispatcher->dispatch('x');", 1⟩
    let source := SourceFile.ofText (.parse "a.php") "a.php" text
    event ∈ (extract .keep text "a.php").events
      ∧ ∃ line ∈ source.numberedLines, line.number = event.line
        ∧ String.ofList (trim line.text.toList) ≠ event.text := by
  intro text event source
  refine ⟨by decide +kernel, ⟨source, 1, "<?php"⟩, by decide, rfl, by decide⟩

end ExtensionAudit.Event
