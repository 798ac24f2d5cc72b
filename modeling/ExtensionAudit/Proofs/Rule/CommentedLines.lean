import Mathlib
import ExtensionAudit.Proofs.Php.Lookahead
import ExtensionAudit.Proofs.Rule.CallSites
import ExtensionAudit.Proofs.Text.Words

/-!
# Calls behind a comment

A line that begins as a comment does is not searched for calls. Where the comment ends has no say in
that: if it ends on the line, the code behind it is passed over as well, whatever it calls. A comment
with code in front of it hides nothing. No name of a function holds the mark that ends the comment,
so no call runs over that mark, and the line has the calls up to it and those behind it.
-/

namespace ExtensionAudit

namespace Text

def blankCodes : List Nat :=
  List.range' 0x09 5 ++ List.range' 0x1C 5 ++ [0x85, 0xA0, 0x1680] ++ List.range' 0x2000 11
    ++ [0x2028, 0x2029, 0x202F, 0x205F, 0x3000]

/-- What holds of each code of a blank holds of every blank. -/
theorem of_blank {motive : Char → Prop} (hall : ∀ n ∈ blankCodes, motive (Char.ofNat n)) {c : Char}
    (hc : isBlank c = true) : motive c := by
  have hcode : c.toNat ∈ blankCodes := by
    simp only [isBlank, Bool.or_eq_true, Bool.and_eq_true, decide_eq_true_eq, beq_iff_eq] at hc
    simp only [blankCodes, List.mem_append, List.mem_range'_1, List.mem_cons, List.not_mem_nil,
      or_false]
    omega
  have hchar := hall c.toNat hcode
  rwa [Char.ofNat_toNat] at hchar

theorem lowerChar_of_isBlank {c : Char} (hc : isBlank c = true) : lowerChar c = c :=
  of_blank (motive := fun c => lowerChar c = c) (by decide +kernel) hc

theorem isWord_of_isBlank {c : Char} (hc : isBlank c = true) : isWord c = false :=
  of_blank (motive := fun c => isWord c = false) (by decide +kernel) hc

theorem not_mem_strayLetters_of_isBlank {c : Char} (hc : isBlank c = true) : c ∉ strayLetters :=
  of_blank (motive := fun c => c ∉ strayLetters) (by decide +kernel) hc

end Text

/-! ### Outcomes one after another -/

theorem Outcome.andThen_assoc (first second third : Outcome) :
    (first.andThen second).andThen third = first.andThen (second.andThen third) := by
  obtain ⟨effects, failure⟩ := first
  obtain ⟨effects', failure'⟩ := second
  cases failure <;> cases failure' <;> simp [Outcome.andThen]

namespace ForbiddenCalls

variable {names : List (List Char)} {name left right cs gap : List Char} {mark : Char}

/-! ### A mark that no call runs over -/

/-- The character stands in no call of one of the names, be it in the name, in front of the bracket
or as the bracket. -/
structure Separates (mark : Char) (names : List (List Char)) : Prop where
  letters : ∀ name ∈ names, ∀ p ∈ name, Text.sameLetter p mark = false
  blank : Text.isBlank mark = false
  bracket : mark ≠ '('

theorem matchName_append_cons (hname : ∀ p ∈ name, Text.sameLetter p mark = false) :
    matchName name (left ++ mark :: right)
      = (matchName name left).map fun found => (found.1, found.2 ++ mark :: right) := by
  induction name generalizing left with
  | nil => rfl
  | cons p name ih =>
    obtain ⟨hp, hname⟩ := List.forall_mem_cons.mp hname
    cases left with
    | nil => simp [matchName, hp]
    | cons c left =>
      rw [List.cons_append, matchName, matchName, ih hname]
      split
      · rw [Option.map_map, Option.map_map]
        rfl
      · rfl

theorem openingBracket_append_cons (hblank : Text.isBlank mark = false) (hbracket : mark ≠ '(') :
    openingBracket (left ++ mark :: right)
      = (openingBracket left).map fun rest => rest ++ mark :: right := by
  have hdrop : Text.dropBlanks (left ++ mark :: right) = Text.dropBlanks left ++ mark :: right := by
    rw [Text.dropBlanks, Text.dropBlanks, List.dropWhile_append,
      List.dropWhile_cons_of_neg (by rw [hblank]; decide)]
    split
    · next hnothing => rw [List.isEmpty_iff.mp hnothing, List.nil_append]
    · rfl
  rw [openingBracket, openingBracket, hdrop]
  cases Text.dropBlanks left with
  | nil => simp [hbracket]
  | cons c rest => by_cases hc : c = '(' <;> simp [hc]

theorem callAt_append_cons (hmark : Separates mark names) :
    callAt names (left ++ mark :: right)
      = (callAt names left).map fun found => (found.1, found.2 ++ mark :: right) := by
  have hall : ∀ name ∈ names, ∀ p ∈ name, Text.sameLetter p mark = false := hmark.letters
  unfold callAt
  induction names with
  | nil => rfl
  | cons name names ih =>
    obtain ⟨hname, hnames⟩ := List.forall_mem_cons.mp hall
    rw [List.findSome?_cons, List.findSome?_cons, matchName_append_cons hname,
      ih ⟨hnames, hmark.blank, hmark.bracket⟩ hnames]
    cases matchName name left with
    | none => rfl
    | some found =>
      simp only [Option.map_some, openingBracket_append_cons hmark.blank hmark.bracket]
      cases openingBracket found.2 <;> rfl

theorem callAt_nil (names : List (List Char)) : callAt names [] = none := by
  refine List.findSome?_eq_none_iff.mpr fun name _ => ?_
  cases name <;> rfl

/-- The calls of a text are those in front of the mark and those behind it. -/
theorem callsFrom_append_cons (hmark : Separates mark names) {skip : Nat} (before : Option Char)
    (hskip : skip ≤ left.length) :
    callsFrom names skip before (left ++ mark :: right)
      = callsFrom names skip before left ++ callsFrom names 0 (some mark) right := by
  induction left generalizing skip before with
  | nil =>
    obtain rfl : skip = 0 := Nat.le_zero.mp hskip
    have hmissed : callAt names (mark :: right) = none := by
      have hempty : callAt names ([] ++ mark :: right) = _ := callAt_append_cons hmark
      rwa [callAt_nil] at hempty
    simp [callsFrom, hmissed]
  | cons c left ih =>
    cases skip with
    | succ skip => exact ih (some c) (Nat.le_of_succ_le_succ hskip)
    | zero =>
      have hfound : callAt names (c :: left ++ mark :: right) = _ := callAt_append_cons hmark
      rw [List.cons_append] at hfound ⊢
      have hpassed := ih (some c) (Nat.zero_le left.length)
      rw [callsFrom, callsFrom, hfound]
      by_cases hboundary : isBoundary before = true
      · rw [if_pos hboundary, if_pos hboundary]
        cases hcall : callAt names (c :: left) with
        | none => exact hpassed
        | some found =>
          -- The same characters are left of the call, whatever stands behind the mark.
          have hskip : (left ++ mark :: right).length - (found.2 ++ mark :: right).length
              = left.length - found.2.length := by
            simp only [List.length_append]
            omega
          have hlater := ih (some c) (Nat.sub_le left.length found.2.length)
          simp only [Option.map_some, hskip, hlater, List.cons_append]
      · rw [if_neg hboundary, if_neg hboundary]
        exact hpassed

/-! ### Names, marks and blanks -/

/-- A character of no name that is its own lower case is no letter of a name. -/
theorem sameLetter_eq_false {p c : Char} (hp : isNameCharacter p = true)
    (hc : isNameCharacter c = false) (hlower : Text.lowerChar c = c)
    (hstray : c ∉ Text.strayLetters) : Text.sameLetter p c = false := by
  rw [← Bool.not_eq_true]
  intro hsame
  have hascii := toNat_lt_of_isNameCharacter hp
  rw [← hlower, Text.lowerChar_of_sameLetter hascii hsame hstray, isNameCharacter_toLower hascii,
    hp] at hc
  cases hc

theorem isIdentifier_of_mem_alternatives {settings : Settings}
    (hentries : ∀ entry ∈ settings.forbiddenCalls, IsIdentifier entry.1.toList)
    (hname : name ∈ alternatives (lowerCalls settings)) : IsIdentifier name := by
  obtain ⟨entry, hentry, rfl⟩ := mem_alternatives_iff.mp hname
  rw [Text.toList_lower_of_ascii (hentries entry hentry).isAscii]
  exact (hentries entry hentry).map_toLower

theorem separates_slash (hnames : ∀ name ∈ names, IsIdentifier name) : Separates '/' names where
  letters name hname p hp :=
    sameLetter_eq_false ((hnames name hname).characters p hp) (by decide)
      (Text.lowerChar_of_ascii (by decide)) (Text.not_mem_strayLetters (by decide))
  blank := by decide
  bracket := by decide

theorem callAt_blank (hnames : ∀ name ∈ names, IsIdentifier name) {blank : Char}
    (hblank : Text.isBlank blank = true) (cs : List Char) : callAt names (blank :: cs) = none := by
  rw [Option.eq_none_iff_forall_ne_some]
  rintro ⟨written, behind⟩ hfound
  obtain ⟨name, hname, hspells, gap, -, hsplit⟩ := exists_of_callAt hfound
  obtain ⟨p, later, rfl⟩ := List.exists_cons_of_ne_nil (hnames name hname).nonempty
  obtain ⟨c, written, hletter, -, hfirst⟩ := List.forall₂_cons_left_iff.mp hspells
  rw [hfirst, List.cons_append] at hsplit
  obtain ⟨rfl, -⟩ := List.cons.inj hsplit
  have hp := (hnames _ hname).characters p List.mem_cons_self
  rw [sameLetter_eq_false hp (isNameCharacter_eq_false_of_isBlank hblank)
    (Text.lowerChar_of_isBlank hblank) (Text.not_mem_strayLetters_of_isBlank hblank)] at hletter
  cases hletter

theorem isBoundary_blank {blank : Char} (hblank : Text.isBlank blank = true) :
    isBoundary (some blank) = true := by
  have hsign (c : Char) (hc : Text.isBlank c = false) : blank ≠ c := by
    rintro rfl
    rw [hblank] at hc
    cases hc
  simp [isBoundary, Text.isWord_of_isBlank hblank, hsign '$' (by decide), hsign '>' (by decide),
    hsign ':' (by decide)]

/-- Blanks in front of a text change nothing, nor does what stands in front of them. -/
theorem callsFrom_gap_append (hnames : ∀ name ∈ names, IsIdentifier name)
    (hgap : ∀ c ∈ gap, Text.isBlank c = true) {before : Option Char}
    (hbefore : isBoundary before = true) (cs : List Char) :
    callsFrom names 0 before (gap ++ cs) = callsFrom names 0 none cs := by
  induction gap generalizing before with
  | nil =>
    cases cs with
    | nil => rfl
    | cons c rest =>
      rw [List.nil_append, callsFrom, callsFrom, if_pos hbefore]
      rfl
  | cons c gap ih =>
    obtain ⟨hc, hgap⟩ := List.forall_mem_cons.mp hgap
    rw [List.cons_append, callsFrom, if_pos hbefore, callAt_blank hnames hc]
    exact ih hgap (isBoundary_blank hc)

/-! ### A comment on a line -/

/-- The mark that begins a comment begins a line with that comment behind any blanks. -/
theorem isComment_of_blanks {blanks : List Char} (hblanks : ∀ c ∈ blanks, Text.isBlank c = true)
    (rest : List Char) : isComment (blanks ++ ('/' :: '*' :: rest)) = true := by
  have hslash : ¬ Text.isBlank '/' = true := by decide
  rw [isComment, Text.dropBlanks_append_of_all (List.all_eq_true.mpr hblanks),
    Text.dropBlanks_cons_of_not_blank hslash]
  simp [commentMarks]

/-- Whether a line is a comment is settled where it holds a comment. -/
theorem isComment_append (front body rest : List Char) :
    isComment (front ++ (Php.Token.blockComment body).lexeme ++ rest)
      = isComment (front ++ (Php.Token.blockComment body).lexeme) := by
  obtain ⟨c, d, later, hfirst⟩ : ∃ c d later,
      Text.dropBlanks (front ++ (Php.Token.blockComment body).lexeme) = c :: d :: later := by
    have hslash : ¬ Text.isBlank '/' = true := by decide
    rw [Php.Token.lexeme, Text.dropBlanks, List.dropWhile_append,
      List.dropWhile_cons_of_neg hslash]
    split
    · exact ⟨'/', '*', _, rfl⟩
    · next hcode =>
      obtain ⟨c, tail, hcode⟩ := List.exists_cons_of_ne_nil (mt List.isEmpty_iff.mpr hcode)
      rw [hcode]
      cases tail with
      | nil => exact ⟨c, '/', _, rfl⟩
      | cons d tail => exact ⟨c, d, _, rfl⟩
  have hdrop : Text.dropBlanks (front ++ (Php.Token.blockComment body).lexeme ++ rest)
      = c :: d :: (later ++ rest) := by
    rw [Text.dropBlanks] at hfirst ⊢
    rw [List.dropWhile_append, hfirst]
    rfl
  rw [isComment, isComment, hdrop, hfirst]
  simp [commentMarks, List.isPrefixOf]

/-- A line with a comment in it that does not begin as a comment has the calls up to the end of the
comment and those behind it. -/
theorem callsOfLine_append {settings : Settings}
    (hnames : ∀ entry ∈ settings.forbiddenCalls, IsIdentifier entry.1.toList)
    {front body rest : List Char} (hgap : ∀ c ∈ gap, Text.isBlank c = true)
    (hfront : isComment (front ++ (Php.Token.blockComment body).lexeme) = false)
    (hrest : isComment rest = false) :
    callsOfLine (lowerCalls settings) (front ++ (Php.Token.blockComment body).lexeme ++ (gap ++ rest))
      = callsOfLine (lowerCalls settings) (front ++ (Php.Token.blockComment body).lexeme)
        ++ callsOfLine (lowerCalls settings) rest := by
  have hkeys (name : List Char) (hname : name ∈ alternatives (lowerCalls settings)) :=
    isIdentifier_of_mem_alternatives hnames hname
  have hslash : isBoundary (some '/') = true := by decide
  obtain ⟨left, hleft⟩ : ∃ left, front ++ (Php.Token.blockComment body).lexeme = left ++ ['/'] :=
    ⟨front ++ ('/' :: '*' :: (body ++ ['*'])), by simp [Php.Token.lexeme]⟩
  have hbefore : callsFrom (alternatives (lowerCalls settings)) 0 none (left ++ ['/'])
      = callsFrom (alternatives (lowerCalls settings)) 0 none left := by
    rw [callsFrom_append_cons (separates_slash hkeys) none (Nat.zero_le _), callsFrom,
      List.append_nil]
  rw [callsOfLine_eq, callsOfLine_eq, callsOfLine_eq, isComment_append, hfront, hrest, hleft]
  simp only [Bool.false_eq_true, if_false]
  rw [hbefore, List.append_assoc, List.singleton_append,
    callsFrom_append_cons (separates_slash hkeys) none (Nat.zero_le _),
    callsFrom_gap_append hkeys hgap hslash]

theorem check_append (calls : List (String × Severity)) (location : String)
    {line front behind : String}
    (hsplit : callsOfLine calls line.toList
      = callsOfLine calls front.toList ++ callsOfLine calls behind.toList) :
    check calls location line
      = (check calls location front).andThen (check calls location behind) := by
  rw [check, check, check, hsplit]
  induction callsOfLine calls front.toList with
  | nil => rfl
  | cons written rest ih =>
    rw [List.cons_append, List.foldr_cons, List.foldr_cons, ih, Outcome.andThen_assoc]

/-- Whatever is found, a unit of work is announced for the first of it. -/
theorem Ends.declare_mem {entries : List (String × Severity)} {location : String}
    {found : List (List Char)} {outcome : Outcome} (hends : Ends entries location found outcome)
    (hfound : found ≠ []) : Effect.declare 1 ∈ outcome.effects := by
  cases hends with
  | reported hreports =>
    cases hreports with
    | nil => exact absurd rfl hfound
    | cons => exact List.mem_cons_self
  | failed => exact List.mem_append_right _ (List.mem_singleton_self _)

/-- **A comment hides the calls behind it exactly where the line begins with it.** On a line a
comment ends, and behind it and any blanks stands code with calls, for which units of work are
announced where it is a line of its own. If the comment begins the line, nothing at all is reported,
so what the code has reported alone is not. If the line does not begin as a comment, first the calls
up to the end of the comment are reported, and after them, unless the rule failed over one of those,
all that the code has reported alone. -/
theorem check_behind_comment {σ : Type} (context : RuleContext) (file : SourceFile) (number : Nat)
    (state : σ) {body gap rest : List Char}
    (hbody : ¬ ['*', '/'] <:+: body) (hgap : ∀ c ∈ gap, Text.isBlank c = true)
    (hrest : ∀ mark ∈ ["//", "#", "*", "/*"],
      ¬ mark.toList <+: rest.dropWhile Text.isBlank)
    (hcalls : callsOfLine (lowerCalls context.settings) rest ≠ []) :
    let comment := (Php.Token.blockComment body).lexeme
    let report (text : List Char) : Outcome :=
      ((rule context).check (.line ⟨file, number, String.ofList text⟩) state).1
    Php.CodeToken (comment ++ (gap ++ rest)) (.blockComment body) (gap ++ rest)
      ∧ .declare 1 ∈ (report rest).effects
      ∧ (∀ blanks, (∀ c ∈ blanks, Text.isBlank c = true) →
          report (blanks ++ comment ++ (gap ++ rest)) = {}
            ∧ ¬ (report rest).effects.Sublist (report (blanks ++ comment ++ (gap ++ rest))).effects)
      ∧ ((∀ entry ∈ context.settings.forbiddenCalls, IsIdentifier entry.1.toList) →
          ∀ front, (∀ mark ∈ ["//", "#", "*", "/*"],
              ¬ mark.toList <+: (front ++ comment).dropWhile Text.isBlank) →
            report (front ++ comment ++ (gap ++ rest))
              = (report (front ++ comment)).andThen (report rest)) := by
  intro comment report
  have hreport (text : List Char) : report text = check (lowerCalls context.settings)
      (SourceLine.location ⟨file, number, String.ofList text⟩) (String.ofList text) := rfl
  have hunits : Effect.declare 1 ∈ (report rest).effects := by
    have hends := reportAll_ends context.settings
      (SourceLine.location ⟨file, number, String.ofList rest⟩)
      (callsOfLine (lowerCalls context.settings) rest)
    rw [hreport, check, String.toList_ofList]
    exact hends.declare_mem hcalls
  refine ⟨?_, hunits, fun blanks hblanks => ?_, fun hnames front hfront => ?_⟩
  · have htoken : Php.CodeToken _ _ (gap ++ rest) := .blockComment
      (Php.firstPlace_commentBody_iff.mpr hbody)
    simpa [comment, Php.Token.lexeme] using htoken
  · have hnothing : report (blanks ++ comment ++ (gap ++ rest)) = {} := by
      have hexempt : isComment (blanks ++ comment ++ (gap ++ rest)) = true := by
        rw [List.append_assoc]
        exact isComment_of_blanks hblanks _
      rw [hreport, check, String.toList_ofList, callsOfLine_eq, if_pos hexempt]
      rfl
    refine ⟨hnothing, fun hsublist => ?_⟩
    rw [hnothing] at hsublist
    exact List.not_mem_nil (hsublist.mem hunits)
  · rw [← isComment_eq_false_iff] at hfront hrest
    have hsplit := callsOfLine_append hnames hgap hfront hrest
    rw [hreport, hreport, hreport]
    exact check_append _ _ (by simpa only [String.toList_ofList] using hsplit)

theorem callsOfLine_eval :
    callsOfLine (lowerCalls {}) "eval($y);".toList = ["eval".toList] := by
  rw [callsOfLine_eq, alternatives_usual]
  decide +kernel

/-- One comment, at the beginning of a line and behind a statement. -/
theorem check_behind_comment_eval :
    let comment := (Php.Token.blockComment " x ".toList).lexeme
    let rest := "eval($y);".toList
    let report (text : List Char) : Outcome := ((rule {} : Rule Unit).check
      (.line ⟨.ofText ⟨0, ["main.php"]⟩ "main.php" "", 2, String.ofList text⟩) ()).1
    ¬ ['*', '/'] <:+: " x ".toList
      ∧ (∀ c ∈ [' '], Text.isBlank c = true)
      ∧ (∀ mark ∈ ["//", "#", "*", "/*"], ¬ mark.toList <+: rest.dropWhile Text.isBlank)
      ∧ callsOfLine (lowerCalls {}) rest ≠ []
      ∧ (∀ c ∈ ['\t', ' '], Text.isBlank c = true)
      ∧ report (['\t', ' '] ++ comment ++ ([' '] ++ rest)) = {}
      ∧ (∀ entry ∈ ({} : Settings).forbiddenCalls, IsIdentifier entry.1.toList)
      ∧ (∀ mark ∈ ["//", "#", "*", "/*"],
          ¬ mark.toList <+: (" $z = 1; ".toList ++ comment).dropWhile Text.isBlank)
      ∧ report (" $z = 1; ".toList ++ comment ++ ([' '] ++ rest))
          = (report (" $z = 1; ".toList ++ comment)).andThen (report rest) := by
  intro comment rest report
  have hbody : ¬ ['*', '/'] <:+: " x ".toList := by decide +kernel
  have hgap : ∀ c ∈ [' '], Text.isBlank c = true := List.all_eq_true.mp (by decide)
  have hrest : ∀ mark ∈ ["//", "#", "*", "/*"],
      ¬ mark.toList <+: rest.dropWhile Text.isBlank := by decide +kernel
  have hcalls : callsOfLine (lowerCalls {}) rest ≠ [] := by
    rw [callsOfLine_eval]
    decide
  have hblanks : ∀ c ∈ ['\t', ' '], Text.isBlank c = true := List.all_eq_true.mp (by decide)
  have hnames : ∀ entry ∈ ({} : Settings).forbiddenCalls, IsIdentifier entry.1.toList := by
    decide +kernel
  have hfront : ∀ mark ∈ ["//", "#", "*", "/*"],
      ¬ mark.toList <+: (" $z = 1; ".toList ++ comment).dropWhile Text.isBlank := by
    decide +kernel
  obtain ⟨-, -, hhidden, hshown⟩ := check_behind_comment {}
    (.ofText ⟨0, ["main.php"]⟩ "main.php" "") 2 () hbody hgap hrest hcalls
  exact ⟨hbody, hgap, hrest, hcalls, hblanks, (hhidden _ hblanks).1, hnames, hfront,
    hshown hnames _ hfront⟩

/-- With the usual settings, a call is reported on a line of its own and not behind a comment. -/
theorem call_hidden_by_comment :
    let source (text : String) : SourceLine :=
      ⟨.ofText ⟨0, ["main.php"]⟩ "main.php" text, 2, text⟩
    let report (text : String) : Outcome := ((rule {} : Rule Unit).check (.line (source text)) ()).1
    Text.IsAscii "eval($y);".toList
      ∧ report "eval($y);"
          = { effects := [.declare 1,
              .message .error "Usage of eval() is not allowed in main.php:2"] }
      ∧ report "/* x */ eval($y);" = {} := by
  intro source report
  have hreport (text : String) :
      report text = check (lowerCalls {}) (source text).location text := rfl
  refine ⟨by decide +kernel, ?_, ?_⟩
  · rw [hreport, check, callsOfLine_eval]
    decide +kernel
  · rw [hreport, check, callsOfLine_eq, if_pos (by decide +kernel)]
    rfl

end ForbiddenCalls

end ExtensionAudit
