import ExtensionAudit.Proofs.Event.Arrival
import ExtensionAudit.Proofs.Php.Literal

/-!
# The name that a call gives

An event is named by the literal with which the first argument of its call begins, and the name is
the value of that literal: its escapes undone, once and from the left. A call whose argument is an
escaped text names just that text.

Two questions about the argument are answered by less than they ask for. Whether a variable is
written into the literal is told by the one character in front of its sign, so a sign behind two
backslashes passes for an escaped one, though the backslashes only escape each other. And whether
the literal is the whole argument is not asked: the search goes on behind its closing quote,
whatever stands there.
-/

namespace ExtensionAudit.Event

open ExtensionAudit.Php

/-- The call's first argument begins with the literal, behind a gap of blanks. -/
structure TakesLiteral (call : Call) (gap : List Char) (l : Literal) : Prop where
  head : call.head ∈ dispatcherWords call.official
  argument : call.argument = some (gap, l)
  blank : gap ∈ Text.stretch Text.isBlank
  quote : IsQuote l.quote
  body : LiteralBody l.quote l.body

section TakesLiteral

variable {call : Call} {gap : List Char} {l : Literal} {text rest : List Char}

/-- The literal ends the call, whatever stands behind it. -/
theorem TakesLiteral.codeToken (htakes : TakesLiteral call gap l) (rest : List Char) :
    CodeToken (call.lexeme ++ rest) (.call call) rest := by
  obtain ⟨head, official, argument⟩ := call
  obtain ⟨quote, body⟩ := l
  obtain rfl : argument = some (gap, ⟨quote, body⟩) := htakes.argument
  exact codeToken_iff.2
    ⟨.callWithLiteral htakes.head htakes.blank htakes.quote htakes.body, trivial, rfl⟩

theorem takesLiteral_of_codeToken (htoken : CodeToken text (.call call) rest)
    (hargument : call.argument = some (gap, l)) : TakesLiteral call gap l := by
  have hformed := (codeToken_iff.1 htoken).1
  cases hformed with
  | callWithLiteral hhead hgap hquote hbody =>
    obtain ⟨rfl, rfl⟩ := Prod.mk.inj (Option.some.inj hargument)
    exact ⟨hhead, rfl, hgap, hquote, hbody⟩
  | bareCall hhead => cases hargument

theorem TakesLiteral.dollar_mem_lexeme (htakes : TakesLiteral call gap l) : '$' ∈ call.lexeme := by
  obtain ⟨tail, hhead⟩ := exists_dollar_of_mem_dispatcherWords htakes.head
  rw [Call.lexeme, htakes.argument, hhead]
  simp

theorem TakesLiteral.namesEvent (htakes : TakesLiteral call gap l) (hfixed : ¬ HoldsVariable l)
    (hsome : ∃ c ∈ l.value, Text.isBlank c = false) : NamesEvent call (String.ofList l.value) :=
  ⟨gap, l, htakes.argument, hfixed, hsome, rfl⟩

end TakesLiteral

/-- The search that has met some events, records the call at which it has arrived, and goes on right
behind the call's last character. -/
def Search.recording (met : List (Site × String)) (before lexeme : List Char) (name : String)
    (rest : List Char) : Search :=
  (Search.of true ⟨lexeme.reverse ++ before, rest⟩).prepend
    (met ++ [(⟨before, lexeme ++ rest⟩, name)])

section Arrived

variable {before rest : List Char} {met : List (Site × String)} {call : Call} {gap : List Char}
  {l : Literal}

/-- A call with a fixed name is recorded, and the search goes on right behind the closing quote. -/
theorem extract_of_arrives (policy : PartialPolicy) (path : String) {text : String}
    (harrives : Search.Arrives false (.start text.toList) met ⟨before, call.lexeme ++ rest⟩)
    (htakes : TakesLiteral call gap l) (hfixed : ¬ HoldsVariable l)
    (hsome : ∃ c ∈ l.value, Text.isBlank c = false) :
    extract policy text path
      = (Search.recording met before call.lexeme (String.ofList l.value) rest).report policy
          path := by
  rw [Search.extract_eq, harrives.of_eq,
    Search.of_token_named (htakes.codeToken rest) (htakes.namesEvent hfixed hsome)]
  simp only [Search.recording, Search.prepend, List.append_assoc]

/-- A recorded event is named by a literal without a variable, with which the first argument of a
call begins at which the search arrives. -/
theorem exists_call_of_mem_events {policy : PartialPolicy} {text path : String}
    {event : Declaration} (hevent : event ∈ (extract policy text path).events) :
    ∃ met before call gap l rest,
      Search.Arrives false (.start text.toList) met ⟨before, call.lexeme ++ rest⟩
        ∧ TakesLiteral call gap l ∧ ¬ HoldsVariable l
        ∧ (∃ c ∈ l.value, Text.isBlank c = false)
        ∧ event = declarationAt path ⟨before, call.lexeme ++ rest⟩ (String.ofList l.value) := by
  rw [Search.extract_eq, Search.report] at hevent
  simp only at hevent
  split at hevent
  · obtain ⟨⟨site, name⟩, hmem, rfl⟩ := List.mem_map.1 hevent
    obtain ⟨earlier, later, hnamed⟩ := List.append_of_mem hmem
    obtain ⟨harrives, call, rest, htoken, hnames⟩ := Search.exists_arrival hnamed
    obtain ⟨gap, l, hargument, hfixed, hsome, rfl⟩ := hnames
    obtain ⟨before, after⟩ := site
    obtain rfl : call.lexeme ++ rest = after := (codeToken_iff.1 htoken).2.2
    exact ⟨earlier, before, call, gap, l, rest, harrives,
      takesLiteral_of_codeToken htoken hargument, hfixed, hsome, rfl⟩
  · cases hevent

/-- A call whose literal holds a variable is refused if it is one of the board's own dispatcher, and
passed over otherwise. -/
theorem extract_of_arrives_interpolated (policy : PartialPolicy) (path : String) {text : String}
    (harrives : Search.Arrives false (.start text.toList) met ⟨before, call.lexeme ++ rest⟩)
    (htakes : TakesLiteral call gap l) (hvariable : HoldsVariable l) :
    extract policy text path
      = (if call.official then ⟨met, some (⟨before, call.lexeme ++ rest⟩, .nameInterpolated)⟩
        else (Search.of true ⟨call.lexeme.reverse ++ before, rest⟩).prepend met).report policy
          path := by
  have hrefuses : Refuses call .nameInterpolated := .interpolated htakes.argument hvariable
  rw [Search.extract_eq, harrives.of_eq]
  by_cases hofficial : call.official = true
  · rw [Search.of_token_refused (htakes.codeToken rest) hofficial hrefuses, if_pos hofficial,
      Search.prepend, List.append_nil]
  · have hpassed : IsPassed (.call call) := by
      intro other heq
      obtain rfl := Token.call.inj heq
      exact ⟨Bool.eq_false_of_not_eq_true hofficial, .nameInterpolated, hrefuses⟩
    rw [Search.of_token_passed (htakes.codeToken rest) hpassed, if_neg hofficial]
    rfl

end Arrived

/-! ### Escaped names -/

/-- **Names are decoded exactly.** The value of a literal is its body with the escapes undone in one
pass from the left. So a text that is not blank, written between single quotes with its quotes and
backslashes escaped, as the argument of a call at which the search arrives, is the name of exactly
one event more, and the search goes on right behind the closing quote. -/
theorem extract_escapedName (policy : PartialPolicy) (text path : String) :
    (∀ quote cs body rest, IsQuote quote → literalBody quote cs = some (body, rest) →
      Literal.value ⟨quote, body⟩ = unescape quote body)
    ∧ ∀ met before official head gap name rest, head ∈ dispatcherWords official →
        gap ∈ Text.stretch Text.isBlank → (∃ c ∈ String.toList name, Text.isBlank c = false) →
        let written := head ++ gap ++ '\'' :: (escape '\'' name.toList ++ ['\''])
        Search.Arrives false (.start text.toList) met ⟨before, written ++ rest⟩ →
        extract policy text path
          = (Search.recording met before written name rest).report policy path := by
  refine ⟨fun quote cs body rest hquote hread => ?_, ?_⟩
  · exact (literalBody_of_eq_some hread).value_eq hquote
  · intro met before official head gap name rest hhead hgap hsome written harrives
    have hquote : IsQuote '\'' := .inl rfl
    have hvalue : Literal.value ⟨'\'', escape '\'' name.toList⟩ = name.toList :=
      value_escape hquote name.toList
    have htakes : TakesLiteral ⟨head, official, some (gap, ⟨'\'', escape '\'' name.toList⟩)⟩ gap
        ⟨'\'', escape '\'' name.toList⟩ :=
      ⟨hhead, rfl, hgap, hquote, literalBody_escape '\'' name.toList⟩
    have hfixed : ¬ HoldsVariable ⟨'\'', escape '\'' name.toList⟩ := by
      have hsingle : '\'' ≠ '"' := by decide
      exact fun hvariable => hsingle hvariable.1
    have hrecorded := extract_of_arrives policy path harrives htakes hfixed (by rwa [hvalue])
    rwa [hvalue, String.ofList_toList] at hrecorded

/-- A name that holds a quote and ends with a backslash. -/
theorem extract_escapedName_apostrophe :
    let text := "<?php$dispatcher->dispatch( 'it\\'s\\\\');"
    let call := "$dispatcher->dispatch( 'it\\'s\\\\'".toList
    let site : Site := ⟨"php?<".toList, call ++ ");".toList⟩
    "$dispatcher->dispatch(".toList ∈ dispatcherWords false
      ∧ Search.Arrives false (.start text.toList) [] site
      ∧ extract .discard text "a.php"
        = (Search.recording [] site.before call "it's\\" ");".toList).report .discard "a.php"
      ∧ (extract .discard text "a.php").events.map (·.name) = ["it's\\"] := by
  intro text call site
  have hhead : "$dispatcher->dispatch(".toList ∈ dispatcherWords false :=
    (callHead_eq_some_iff.1
      (rfl : callHead "$dispatcher->dispatch(".toList = some (_, false, []))).1
  have hpiece : HtmlPiece text.toList "<?php".toList site.after :=
    htmlPiece_iff.2 (by decide +kernel)
  have harrives : Search.Arrives false (.start text.toList) [] site := .html hpiece .here
  have hgap : [' '] ∈ Text.stretch Text.isBlank :=
    Text.mem_stretch.2 (List.forall_mem_singleton.2 (by decide))
  have hsome : ∃ c ∈ "it's\\".toList, Text.isBlank c = false := ⟨'i', by decide, by decide⟩
  refine ⟨hhead, harrives, ?_, by decide +kernel⟩
  exact (extract_escapedName .discard text "a.php").2 [] site.before false
    "$dispatcher->dispatch(".toList [' '] "it's\\" ");".toList hhead hgap hsome harrives

/-! ### Variables in names -/

/-- A text begins like a variable, or with the brace in front of one. -/
def OpensVariable (back : List Char) : Prop := VariableAt back ∨ ['{', '$'] <+: back

theorem holdsVariable_iff_unescaped {l : Literal} :
    HoldsVariable l ↔ l.quote = '"' ∧ ∃ front back, l.body = front ++ back ∧ OpensVariable back
      ∧ trailingBackslashes front = 0 := by
  refine and_congr_right fun _ => ⟨?_, ?_⟩
  · rintro ⟨front, c, next, back, hbody, hlast, hbegins⟩
    refine ⟨front, c :: next :: back, hbody, ?_, trailingBackslashes_eq_zero_iff.2 hlast⟩
    rcases beginsVariable_iff.1 hbegins with ⟨rfl, hnext⟩ | ⟨rfl, rfl⟩
    · exact .inl ⟨next, back, rfl, hnext⟩
    · exact .inr ⟨back, rfl⟩
  · rintro ⟨front, back, hbody, hopens, hnone⟩
    have hlast := trailingBackslashes_eq_zero_iff.1 hnone
    rcases hopens with ⟨next, rest, rfl, hnext⟩ | ⟨rest, rfl⟩
    · exact ⟨front, '$', next, rest, hbody, hlast, beginsVariable_iff.2 (.inl ⟨rfl, hnext⟩)⟩
    · exact ⟨front, '{', '$', rest, hbody, hlast, beginsVariable_iff.2 (.inr ⟨rfl, rfl⟩)⟩

/-- **Only the character in front of a sign is looked at.** A recorded literal between double quotes
has no live variable but behind two backslashes or more. A call is refused or passed over if a
variable in its literal has no backslash in front; if all of them have one, paired or not, and the
name is not blank, then the call is recorded. -/
theorem extract_variables (policy : PartialPolicy) (text path : String) :
    (∀ event ∈ (extract policy text path).events, ∃ met before call gap l rest,
      Search.Arrives false (.start text.toList) met ⟨before, call.lexeme ++ rest⟩
        ∧ TakesLiteral call gap l
        ∧ event = declarationAt path ⟨before, call.lexeme ++ rest⟩ (String.ofList l.value)
        ∧ (l.quote = '"' → ∀ front back, l.body = front ++ back → LiveVariable front back →
          2 ≤ trailingBackslashes front))
    ∧ ∀ met before call gap l rest,
        Search.Arrives false (.start text.toList) met ⟨before, call.lexeme ++ rest⟩ →
        TakesLiteral call gap l → l.quote = '"' →
        ((∃ front back, l.body = front ++ back ∧ VariableAt back ∧ trailingBackslashes front = 0) →
          extract policy text path
            = (if call.official then
                ⟨met, some (⟨before, call.lexeme ++ rest⟩, .nameInterpolated)⟩
              else (Search.of true ⟨call.lexeme.reverse ++ before, rest⟩).prepend met).report policy
                path)
        ∧ ((∀ front back, l.body = front ++ back → OpensVariable back →
              trailingBackslashes front ≠ 0) →
          (∃ c ∈ l.value, Text.isBlank c = false) →
          extract policy text path
            = (Search.recording met before call.lexeme (String.ofList l.value) rest).report policy
                path) := by
  refine ⟨fun event hevent => ?_, fun met before call gap l rest harrives htakes hdouble =>
    ⟨fun hlive => ?_, fun hescaped hsome => ?_⟩⟩
  · obtain ⟨met, before, call, gap, l, rest, harrives, htakes, hfixed, -, hevent⟩ :=
      exists_call_of_mem_events hevent
    refine ⟨met, before, call, gap, l, rest, harrives, htakes, hevent, ?_⟩
    intro hdouble front back hbody ⟨heven, hvariable⟩
    have hne : trailingBackslashes front ≠ 0 := fun hnone =>
      hfixed (holdsVariable_iff_unescaped.2 ⟨hdouble, front, back, hbody, .inl hvariable, hnone⟩)
    obtain ⟨half, hhalf⟩ := heven
    omega
  · obtain ⟨front, back, hbody, hvariable, hnone⟩ := hlive
    have hholds : HoldsVariable l :=
      holdsVariable_iff_unescaped.2 ⟨hdouble, front, back, hbody, .inl hvariable, hnone⟩
    exact extract_of_arrives_interpolated policy path harrives htakes hholds
  · have hfixed : ¬ HoldsVariable l := by
      intro hholds
      obtain ⟨-, front, back, hbody, hopens, hnone⟩ := holdsVariable_iff_unescaped.1 hholds
      exact hescaped front back hbody hopens hnone
    exact extract_of_arrives policy path harrives htakes hfixed hsome

theorem extract_variables_refused :
    let text := "<?php$phpbb_dispatcher->dispatch(\"$a\");"
    let site : Site := ⟨"php?<".toList, "$phpbb_dispatcher->dispatch(\"$a\");".toList⟩
    Search.Arrives false (.start text.toList) [] site
      ∧ extract .discard text "a.php"
        = Search.report .discard "a.php" ⟨[], some (site, .nameInterpolated)⟩ := by
  intro text site
  have hpiece : HtmlPiece text.toList "<?php".toList site.after :=
    htmlPiece_iff.2 (by decide +kernel)
  have harrives : Search.Arrives false (.start text.toList) [] site := .html hpiece .here
  let call : Call :=
    ⟨"$phpbb_dispatcher->dispatch(".toList, true, some ([], ⟨'"', ['$', 'a']⟩)⟩
  have hhead : call.head ∈ dispatcherWords true :=
    (callHead_eq_some_iff.1 (rfl : callHead call.head = some (_, true, []))).1
  have hbody : LiteralBody '"' ['$', 'a'] :=
    .plain (by decide) (by decide) (.plain (by decide) (by decide) .nil)
  have htakes : TakesLiteral call [] ⟨'"', ['$', 'a']⟩ :=
    ⟨hhead, rfl, Text.mem_stretch.2 (List.forall_mem_nil _), .inr rfl, hbody⟩
  obtain ⟨hrefused, -⟩ := (extract_variables .discard text "a.php").2 [] site.before call []
    ⟨'"', ['$', 'a']⟩ ");".toList harrives htakes rfl
  exact ⟨harrives, hrefused ⟨[], ['$', 'a'], rfl, ⟨'a', [], rfl, .inl (by decide)⟩, rfl⟩⟩

/-- Two backslashes escape each other, and the variable behind them is a live one. -/
theorem live_variable_recorded :
    let text := "<?php\n$phpbb_dispatcher->trigger_event(\"acme.\\\\$name\");"
    extract .discard text "a.php"
        = ⟨"a.php", [⟨"acme.\\$name", "a.php",
          "$phpbb_dispatcher->trigger_event(\"acme.\\\\$name\");", 2⟩], none⟩
      ∧ LiveVariable "acme.\\\\".toList "$name".toList := by
  refine ⟨by decide +kernel, by decide, 'n', "ame".toList, rfl, .inl ⟨by decide, by decide⟩⟩

/-! ### What stands behind a name -/

/-- Behind blanks and comments comes the end of an argument. -/
inductive ArgumentEnds : List Char → Prop where
  | mark {c : Char} {rest : List Char} : c = ',' ∨ c = ')' → ArgumentEnds (c :: rest)
  | blank {c : Char} {rest : List Char} :
      Text.isBlank c = true → ArgumentEnds rest → ArgumentEnds (c :: rest)
  | comment {text body rest : List Char} {token : Token} :
      token = .lineComment body ∨ token = .blockComment body → CodeToken text token rest →
      ArgumentEnds rest → ArgumentEnds text

theorem argumentEnds_cons {c : Char} {rest : List Char} (hcomment : c ≠ '#' ∧ c ≠ '/') :
    ArgumentEnds (c :: rest)
      ↔ (c = ',' ∨ c = ')') ∨ (Text.isBlank c = true ∧ ArgumentEnds rest) := by
  constructor
  · intro hends
    cases hends with
    | mark hmark => exact .inl hmark
    | blank hblank hrest => exact .inr ⟨hblank, hrest⟩
    | @comment _ body tail token hkind htoken _ =>
      obtain ⟨hformed, -, htext⟩ := codeToken_iff.1 htoken
      rcases hkind with rfl | rfl
      · cases hformed with
        | @lineComment mark _ hmark _ _ =>
          rcases hmark with rfl | rfl
          · exact absurd (List.cons.inj htext).1.symm hcomment.1
          · exact absurd (List.cons.inj htext).1.symm hcomment.2
      · exact absurd (List.cons.inj htext).1.symm hcomment.2
  · rintro (hmark | ⟨hblank, hrest⟩)
    · exact .mark hmark
    · exact .blank hblank hrest

/-- **What stands behind the literal has no say.** A recorded event is named by the literal with
which the first argument of its call begins. With any other text behind the closing quote, whether
the argument ends there or goes on, the search meets the same events up to the call, records it
under the same name, and goes on right behind the quote. -/
theorem extract_behind_literal (policy : PartialPolicy) (text path : String) (event : Declaration)
    (hevent : event ∈ (extract policy text path).events) :
    ∃ before call gap l rest, text.toList = before.reverse ++ (call.lexeme ++ rest)
      ∧ TakesLiteral call gap l
      ∧ event = declarationAt path ⟨before, call.lexeme ++ rest⟩ (String.ofList l.value)
      ∧ ∃ places, ∀ rest', ∃ met, Search.placed met = places
        ∧ extract policy (String.ofList (before.reverse ++ (call.lexeme ++ rest'))) path
          = (Search.recording met before call.lexeme (String.ofList l.value) rest').report policy
              path := by
  obtain ⟨met, before, call, gap, l, rest, harrives, htakes, hfixed, hsome, rfl⟩ :=
    exists_call_of_mem_events hevent
  obtain ⟨passed, htext, hbefore, hlater⟩ := harrives.replace htakes.dollar_mem_lexeme rfl
  simp only [Site.start, List.append_nil] at htext hbefore hlater
  obtain rfl : passed = before.reverse := by rw [hbefore, List.reverse_reverse]
  refine ⟨before, call, gap, l, rest, htext, htakes, rfl, Search.placed met, fun rest' => ?_⟩
  obtain ⟨met', hplaced, hthere⟩ := hlater rest'
  refine ⟨met', hplaced, extract_of_arrives policy path ?_ htakes hfixed hsome⟩
  rw [String.toList_ofList]
  exact hthere

theorem extract_behind_literal_call :
    let text := "<?php$dispatcher->dispatch('x');"
    let event : Declaration := ⟨"x", "a.php", "<?php$dispatcher->dispatch('x');", 1⟩
    event ∈ (extract .keep text "a.php").events
      ∧ ∃ before call gap l, TakesLiteral call gap l ∧ String.ofList l.value = "x"
        ∧ ∀ rest', ∃ met,
          extract .keep (String.ofList (before.reverse ++ (call.lexeme ++ rest'))) "a.php"
            = (Search.recording met before call.lexeme "x" rest').report .keep "a.php" := by
  intro text event
  have hevent : event ∈ (extract .keep text "a.php").events := by decide +kernel
  obtain ⟨before, call, gap, l, rest, -, htakes, hdeclared, places, hlater⟩ :=
    extract_behind_literal .keep text "a.php" event hevent
  have hname : String.ofList l.value = "x" := (congrArg Declaration.name hdeclared).symm
  refine ⟨hevent, before, call, gap, l, htakes, hname, fun rest' => ?_⟩
  obtain ⟨met, -, hextract⟩ := hlater rest'
  rw [hname] at hextract
  exact ⟨met, hextract⟩

/-- Only the beginning of a longer argument is recorded. -/
theorem concatenation_recorded :
    let text := "<?php\n$phpbb_dispatcher->trigger_event('acme.' . $name);"
    extract .discard text "a.php"
        = ⟨"a.php", [⟨"acme.", "a.php",
          "$phpbb_dispatcher->trigger_event('acme.' . $name);", 2⟩], none⟩
      ∧ ¬ ArgumentEnds " . $name);".toList := by
  refine ⟨by decide +kernel, fun hends => ?_⟩
  rcases (argumentEnds_cons (by decide)).1 hends with hmark | ⟨-, hrest⟩
  · exact absurd hmark (by decide)
  · rcases (argumentEnds_cons (by decide)).1 hrest with hmark | ⟨hblank, -⟩
    · exact absurd hmark (by decide)
    · exact absurd hblank (by decide)

end ExtensionAudit.Event
