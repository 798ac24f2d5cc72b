import ExtensionAudit.Proofs.Event.Search
import ExtensionAudit.Proofs.Php.LineEnds
import ExtensionAudit.SourceFile

/-!
# The search with other line ends

A text with a carriage return in front of each line feed is searched as the text without them: the
same calls are met on the same lines, and the search ends for the same cause at the same line. Only
where a name runs over the end of a line does it hold the carriage return.
-/

namespace ExtensionAudit.Event

open ExtensionAudit.Php ExtensionAudit.Text

/-! ### Calls -/

theorem declaredName_withReturns {call : Call}
    (hquote : ∀ gap l, call.argument = some (gap, l) → IsQuote l.quote) :
    declaredName call.withReturns = (declaredName call).map windowsLineEnds := by
  obtain ⟨head, official, argument⟩ := call
  cases argument with
  | none => rfl
  | some argument =>
    obtain ⟨gap, l⟩ := argument
    have hvalue := Literal.value_withReturns (hquote gap l rfl)
    simp only [declaredName, Call.withReturns, Option.map_some, Literal.isInterpolated_withReturns,
      hvalue, isAllBlank_withReturns]
    by_cases hvariable : l.isInterpolated = true
    · rw [if_pos hvariable, if_pos hvariable]
      rfl
    · rw [if_neg hvariable, if_neg hvariable]
      by_cases hname : isAllBlank l.value = true
      · rw [if_pos hname, if_pos hname]
        rfl
      · rw [if_neg hname, if_neg hname]
        simp [Except.map, windowsLineEnds]

/-! ### Sites -/

/-- The place of a site in the text with carriage returns. -/
def siteWithReturns (site : Site) : Site :=
  ⟨(withReturns site.before.reverse).reverse, withReturns site.after⟩

theorem line_siteWithReturns (site : Site) : (siteWithReturns site).line = site.line := by
  rw [Site.line, Site.line, siteWithReturns, List.count_reverse, count_newline_withReturns,
    List.count_reverse]

theorem trim_lineText_siteWithReturns (site : Site) :
    trim (siteWithReturns site).lineText = trim site.lineText := by
  rw [Site.lineText, Site.lineText, siteWithReturns, takeWhile_line_reverse_withReturns]
  rcases takeWhile_line_withReturns site.after with hrest | hrest
  · rw [hrest]
  · rw [hrest, ← List.append_assoc, trim_append_return]

/-- The declaration without the carriage returns in front of line feeds in its name. -/
def Declaration.unixName (declaration : Declaration) : Declaration :=
  { declaration with name := unixLineEnds declaration.name }

theorem unixName_declarationAt (path : String) (site : Site) (name : String) :
    (declarationAt path (siteWithReturns site) (windowsLineEnds name)).unixName
      = declarationAt path site name := by
  rw [declarationAt, declarationAt, trim_lineText_siteWithReturns, line_siteWithReturns,
    Declaration.unixName, unixLineEnds_windowsLineEnds]

namespace Search

/-- The search that meets the same calls in the text with carriage returns. -/
def windows (found : Search) : Search where
  named := found.named.map fun (site, name) => (siteWithReturns site, windowsLineEnds name)
  stop := found.stop.map fun (site, cause) => (siteWithReturns site, cause)

theorem unixName_declared_windows (path : String) (found : Search) :
    (found.windows.declared path).map Declaration.unixName = found.declared path := by
  simp only [declared, windows, List.map_map]
  refine List.map_congr_left fun place _ => ?_
  exact unixName_declarationAt path place.1 place.2

theorem fault_windows (path : String) (found : Search) :
    found.windows.fault path = found.fault path := by
  rw [fault, fault, windows, Option.map_map]
  refine Option.map_congr fun place _ => ?_
  simp [line_siteWithReturns]

theorem report_windows (policy : PartialPolicy) (path : String) (found : Search) :
    (found.windows.report policy path).fault = (found.report policy path).fault ∧
      (found.windows.report policy path).events.map Declaration.unixName
        = (found.report policy path).events := by
  have hstop : found.windows.stop.isNone = found.stop.isNone := by
    rw [windows, Option.isNone_map]
  refine ⟨fault_windows path found, ?_⟩
  rw [report, report, hstop]
  by_cases hkept : policy = .keep ∨ found.stop.isNone = true
  · rw [if_pos hkept, if_pos hkept, unixName_declared_windows]
  · rw [if_neg hkept, if_neg hkept]
    rfl

/-! ### One token -/

variable {before text rest : List Char}

theorem windows_meet {token : Token} (hformed : Formed token) (site : Site) (later : Search) :
    (later.meet site token).windows
      = later.windows.meet (siteWithReturns site) token.withReturns := by
  have hcall {call : Call} (hquote : ∀ gap l, call.argument = some (gap, l) → IsQuote l.quote) :
      (later.meet site (.call call)).windows
        = later.windows.meet (siteWithReturns site) (.call call.withReturns) := by
    have hname := declaredName_withReturns hquote
    cases hread : declaredName call with
    | ok name =>
      rw [hread] at hname
      rw [meet_named hread, meet_named hname]
      rfl
    | error cause =>
      rw [hread] at hname
      by_cases hofficial : call.official = true
      · rw [meet_refused hread hofficial, meet_refused hname hofficial]
        rfl
      · rw [meet_passed hread hofficial, meet_passed hname hofficial]
  cases hformed with
  | callWithLiteral hhead hgap hquote hbody =>
    refine hcall fun gap l heq => ?_
    cases heq
    exact hquote
  | bareCall hhead => exact hcall fun gap l heq => by cases heq
  | _ => rfl

/-- A character that begins no longer token is passed over. -/
theorem of_passed {c : Char} (hc : c ∉ ['?', '#', '/', '\'', '"', '<', '$'])
    (before rest : List Char) : of true ⟨before, c :: rest⟩ = of true ⟨c :: before, rest⟩ :=
  of_code (.single (mt first_of_beginsToken hc))

theorem of_lineComment {comment : List Char} (h : CodeToken text (.lineComment comment) rest) :
    of true ⟨before, text⟩ = of true ⟨comment.reverse ++ before, rest⟩ :=
  of_code h

theorem siteWithReturns_mk (before after : List Char) :
    siteWithReturns ⟨before, after⟩ = ⟨(withReturns before.reverse).reverse, withReturns after⟩ := rfl

theorem siteWithReturns_behind (lexeme before rest : List Char) :
    siteWithReturns ⟨lexeme.reverse ++ before, rest⟩
      = ⟨(withReturns lexeme).reverse ++ (withReturns before.reverse).reverse, withReturns rest⟩ := by
  simp [siteWithReturns]

/-- One token of the text is one step of the search with carriage returns. A line feed on its own has
become two characters, and a comment that a line feed ends has taken the carriage return in; what is
passed over there is the same. -/
theorem of_code_withReturns {token : Token} (h : CodeToken text token rest) (hreturn : '\r' ∉ text) :
    of true (siteWithReturns ⟨before, text⟩)
      = meet (siteWithReturns ⟨before, text⟩) token.withReturns
          (of (token != .closeTag) (siteWithReturns ⟨token.lexeme.reverse ++ before, rest⟩)) := by
  have hformed := (codeToken_iff.1 h).1
  rw [siteWithReturns_behind, siteWithReturns_mk]
  by_cases hline : ['\n'] <+: text
  · obtain ⟨tail, rfl⟩ := hline
    have hsingle : CodeToken ('\n' :: tail) (.other ['\n']) tail :=
      .single (mt first_of_beginsToken (by decide))
    obtain ⟨rfl, rfl⟩ := h.unique hsingle
    rw [List.singleton_append, withReturns_newline, of_passed (by decide), of_passed (by decide)]
    rfl
  by_cases hcomment : ∃ comment, token = .lineComment comment
  · obtain ⟨comment, rfl⟩ := hcomment
    rw [Token.lexeme, withReturns_of_not_mem (newline_not_mem_lineComment hformed)]
    rcases lineComment_withReturns h with hsame | ⟨tail, rfl, hlonger⟩
    · exact of_lineComment hsame
    · have hmode : (Token.lineComment comment != .closeTag) = true := rfl
      rw [hmode, of_lineComment hlonger, List.reverse_append, List.append_assoc]
      exact (of_passed (by decide) _ _).symm
  · have htoken := h.withReturns hreturn hline fun comment heq => hcomment ⟨comment, heq⟩
    have hmode : (token.withReturns != .closeTag) = (token != .closeTag) := by
      cases token <;> rfl
    rw [of_code htoken, hmode, lexeme_withReturns hformed]

/-- The search in a text with carriage returns is that in the text, its line ends changed. -/
theorem of_withReturns (inCode : Bool) {text : List Char} (h : '\r' ∉ text) (before : List Char) :
    of inCode (siteWithReturns ⟨before, text⟩) = (of inCode ⟨before, text⟩).windows := by
  induction inCode, text using reading_induction generalizing before with
  | finished inCode =>
    rw [of_nil, siteWithReturns, withReturns_nil, of_nil]
    rfl
  | html text piece rest hne hpiece ih =>
    rw [← hpiece.append_eq, List.mem_append, not_or] at h
    rw [siteWithReturns_mk, of_html hpiece.withReturns, of_html hpiece, ← ih h.2,
      siteWithReturns_behind]
  | code text token rest htoken ih =>
    obtain ⟨hformed, _, happend⟩ := codeToken_iff.1 htoken
    rw [of_code_withReturns htoken h, of_code htoken, windows_meet hformed]
    rw [← happend, List.mem_append, not_or] at h
    rw [ih h.2]
  | broken text skipped fault hbroken =>
    rw [siteWithReturns_mk, of_broken (hbroken.withReturns h), of_broken hbroken]
    simp [windows, siteWithReturns]

end Search

/-- **Windows line ends change nothing.** A text without carriage returns, and the same text with one
in front of each line feed, have the same lines. The searches of the two end with the same fault, or
none, and find the same events, but for the carriage returns in names that run over a line end. -/
theorem extract_windowsLineEnds (policy : PartialPolicy) (text path : String)
    (h : '\r' ∉ text.toList) (file : Path) (relative : String) :
    (SourceFile.ofText file relative (windowsLineEnds text)).lines
        = (SourceFile.ofText file relative text).lines ∧
      (extract policy (windowsLineEnds text) path).fault = (extract policy text path).fault ∧
      (extract policy (windowsLineEnds text) path).events.map Declaration.unixName
        = (extract policy text path).events := by
  have htext : (windowsLineEnds text).toList = withReturns text.toList := String.toList_ofList
  have hlines : Text.lines (windowsLineEnds text) = Text.lines text := by
    rw [Text.lines, Text.lines, htext, linesFrom_withReturns h]
  have hfound : Search.of false (Site.start (windowsLineEnds text).toList)
      = (Search.of false (Site.start text.toList)).windows := by
    rw [htext]
    exact Search.of_withReturns false h []
  rw [Search.extract_eq, Search.extract_eq, hfound]
  refine ⟨?_, Search.report_windows policy path _⟩
  simp only [SourceFile.ofText, hlines]

/-- A call over two lines, behind a comment, whose name holds a line feed. -/
theorem extract_windowsLineEnds_nameOverLines :
    let text := "<?php // a\n$dispatcher->dispatch(\n'x\\\ny');\n"
    '\r' ∉ text.toList ∧
      (SourceFile.ofText (.parse "a.php") "a.php" (windowsLineEnds text)).lines
          = (SourceFile.ofText (.parse "a.php") "a.php" text).lines ∧
        (extract .keep (windowsLineEnds text) "a.php").fault = (extract .keep text "a.php").fault ∧
        (extract .keep (windowsLineEnds text) "a.php").events.map Declaration.unixName
          = (extract .keep text "a.php").events := by
  intro text
  have hreturn : '\r' ∉ text.toList := by decide
  exact ⟨hreturn, extract_windowsLineEnds .keep text "a.php" hreturn (.parse "a.php") "a.php"⟩

end ExtensionAudit.Event
