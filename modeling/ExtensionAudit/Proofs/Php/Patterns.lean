import ExtensionAudit.Proofs.Php.Lexemes

/-!
# The patterns of a heredoc and of a dispatcher call

The line that opens a heredoc and the head of a dispatcher call are patterns, and the scans built for
them read the languages that the grammar gives. No word of either language is a proper beginning of
another one, so in front of a text there is at most one.
-/

namespace ExtensionAudit.Php

open ExtensionAudit.Text

/-! ### Classes of characters -/

theorem isLabelRest_of_isLabelStart {c : Char} (h : isLabelStart c = true) :
    isLabelRest c = true := by
  simp only [isLabelStart, isLabelRest, isAsciiAlphanumeric, Bool.or_eq_true] at h ⊢
  rcases h with (h | h) | h
  · exact .inl (.inl (.inl h))
  · exact .inl (.inl (.inr h))
  · exact .inr h

theorem isInlineBlank_of_isLabelRest {c : Char} (h : isLabelRest c = true) :
    isInlineBlank c = false := by
  cases hblank : isInlineBlank c with
  | false => rfl
  | true =>
    simp only [isInlineBlank, Bool.or_eq_true, beq_iff_eq] at hblank
    rcases hblank with rfl | rfl <;> simp [isLabelRest, isAsciiAlphanumeric] at h

theorem isLabelRest_of_isInlineBlank {c : Char} (h : isInlineBlank c = true) :
    isLabelRest c = false := by
  cases hrest : isLabelRest c with
  | false => rfl
  | true =>
    rw [isInlineBlank_of_isLabelRest hrest] at h
    cases h

theorem IsLabel.all {label : List Char} (h : IsLabel label) : label ∈ stretch isLabelRest := by
  obtain ⟨c, tail, rfl, hc, htail⟩ := h
  intro d hd
  rcases List.mem_cons.1 hd with rfl | hd
  · exact isLabelRest_of_isLabelStart hc
  · exact htail d hd

theorem IsLabel.startsIn {label : List Char} (h : IsLabel label) :
    StartsIn isLabelRest ({label} : Language Char) := by
  obtain ⟨c, tail, rfl, hc, _⟩ := h
  exact startsIn_word (isLabelRest_of_isLabelStart hc)

theorem isLabel_iff {label : List Char} :
    IsLabel label ↔ label ∈ stretch isLabelRest ∧ label.head?.any isLabelStart = true := by
  constructor
  · intro h
    refine ⟨h.all, ?_⟩
    obtain ⟨c, tail, rfl, hc, _⟩ := h
    simpa using hc
  · rintro ⟨hall, hhead⟩
    cases label with
    | nil => simp at hhead
    | cons c tail => exact ⟨c, tail, rfl, by simpa using hhead, fun d hd => hall d (by simp [hd])⟩

/-! ### The line that opens a heredoc -/

def IsLabelQuote (quote : List Char) : Prop := quote = [] ∨ quote = ['\''] ∨ quote = ['"']

theorem mem_heredocLine {label opening : List Char} :
    opening ∈ heredocLine label ↔
      ∃ blanks quote ending, blanks ∈ stretch isInlineBlank ∧ IsLabelQuote quote ∧
        ending ∈ lineEnding ∧
        opening = ['<', '<', '<'] ++ blanks ++ (quote ++ label ++ quote ++ ending) := by
  simp only [heredocLine, Language.mem_mul, Language.mem_add, mem_word, IsLabelQuote]
  constructor
  · rintro ⟨_, rfl, _, ⟨blanks, hblanks, _, ⟨word, hword, ending, hending, rfl⟩, rfl⟩, rfl⟩
    rcases hword with (rfl | rfl) | rfl
    · exact ⟨blanks, [], ending, hblanks, .inl rfl, hending, by simp⟩
    · exact ⟨blanks, ['\''], ending, hblanks, .inr (.inl rfl), hending, by simp⟩
    · exact ⟨blanks, ['"'], ending, hblanks, .inr (.inr rfl), hending, by simp⟩
  · rintro ⟨blanks, quote, ending, hblanks, hquote, hending, rfl⟩
    refine ⟨_, rfl, _, ⟨blanks, hblanks, _, ⟨quote ++ label ++ quote, ?_, ending, hending, rfl⟩, rfl⟩,
      by simp⟩
    rcases hquote with rfl | rfl | rfl
    · exact .inl (.inl (by simp))
    · exact .inl (.inr (by simp))
    · exact .inr (by simp)

theorem isLabelQuote_labelQuote (cs : List Char) : IsLabelQuote (labelQuote cs) := by
  unfold labelQuote
  split
  · exact .inr (.inl rfl)
  · exact .inr (.inr rfl)
  · exact .inl rfl

/-- The quote in front of a label is found by looking at one character. -/
theorem labelQuote_append {quote label tail : List Char} (hquote : IsLabelQuote quote)
    (hlabel : IsLabel label) : labelQuote (quote ++ label ++ tail) = quote := by
  rcases hquote with rfl | rfl | rfl
  · obtain ⟨c, rest, rfl, hc, _⟩ := hlabel
    have hsingle : c ≠ '\'' := by rintro rfl; simp [isLabelStart] at hc
    have hdouble : c ≠ '"' := by rintro rfl; simp [isLabelStart] at hc
    simp only [List.nil_append, List.cons_append]
    unfold labelQuote
    split <;> simp_all
  · rfl
  · rfl

theorem startsIn_lineBreak :
    StartsIn (fun c => c == '\r' || c == '\n') ((1 + {['\r']}) * {['\n']} : Language Char) :=
  (startsIn_word (by simp)).opt_mul (startsIn_word (by simp))

theorem lineEnding_reads :
    (Scan.andThen (.many isInlineBlank)
      (.andThen (.opt (.exactly ['\r'])) (.exactly ['\n']))).Reads lineEnding fun _ => false := by
  have hbreak : (Scan.andThen (.opt (.exactly ['\r'])) (.exactly ['\n'])).Reads
      ((1 + {['\r']}) * {['\n']}) fun _ => false :=
    ((Scan.exactly_reads ['\r']).opt (f := (· == '\r')) (startsIn_word (by simp))).andThen
      (Scan.exactly_reads ['\n']) (f := (· == '\n')) (startsIn_word (by simp)) (by simp)
  refine (Scan.many_reads isInlineBlank).andThen hbreak startsIn_lineBreak fun c hc => ?_
  simp only [Bool.or_eq_true, beq_iff_eq] at hc
  rcases hc with rfl | rfl <;> decide

/-- Behind a label comes its quote or the end of the line, but no longer word. -/
theorem clear_behind_label {quote ending : List Char} (hquote : IsLabelQuote quote)
    (hending : ending ∈ lineEnding) (rest : List Char) : Clear isLabelRest (quote ++ ending ++ rest) := by
  have hclear : Clear isLabelRest (ending ++ rest) := by
    obtain ⟨blanks, hblanks, lineBreak, hbreak, rfl⟩ := Language.mem_mul.1 hending
    cases blanks with
    | nil =>
      rw [List.nil_append]
      refine startsIn_lineBreak.clear hbreak fun c hc => ?_
      simp only [Bool.or_eq_true, beq_iff_eq] at hc
      rcases hc with rfl | rfl <;> decide
    | cons c blanks =>
      exact clear_cons.2 (isLabelRest_of_isInlineBlank (hblanks c (by simp)))
  rcases hquote with rfl | rfl | rfl
  · exact hclear
  · exact clear_cons.2 (by decide)
  · exact clear_cons.2 (by decide)

/-- In front of a label comes its quote, and no blank. -/
theorem clear_before_label {quote label : List Char} (hquote : IsLabelQuote quote)
    (hlabel : IsLabel label) (rest : List Char) :
    Clear isInlineBlank (quote ++ label ++ rest) := by
  rcases hquote with rfl | rfl | rfl
  · obtain ⟨c, tail, rfl, hc, _⟩ := hlabel
    exact clear_cons.2 (isInlineBlank_of_isLabelRest (isLabelRest_of_isLabelStart hc))
  · exact clear_cons.2 (by decide)
  · exact clear_cons.2 (by decide)

/-- A label is what can be one behind its quote. -/
theorem takeWhile_drop_quote {quote label ending : List Char} (hquote : IsLabelQuote quote)
    (hlabel : IsLabel label) (hending : ending ∈ lineEnding) (rest : List Char) :
    ((quote ++ label ++ quote ++ ending ++ rest).drop quote.length).takeWhile isLabelRest
      = label := by
  have hdrop : (quote ++ label ++ quote ++ ending ++ rest).drop quote.length
      = label ++ (quote ++ ending ++ rest) := by simp
  have hmany := Scan.many_append hlabel.all (clear_behind_label hquote hending rest)
  rw [hdrop]
  exact congrArg Prod.fst (Option.some.inj hmany)

theorem heredocStart_reads :
    (Scan.andThen (.exactly ['<', '<', '<']) (.many isInlineBlank)).Reads
      ({['<', '<', '<']} * stretch isInlineBlank) isInlineBlank :=
  (Scan.many_reads isInlineBlank).exactly_andThen

theorem heredocEnding_reads (word : List Char) :
    (Scan.andThen (.exactly word) (.andThen (.many isInlineBlank)
      (.andThen (.opt (.exactly ['\r'])) (.exactly ['\n'])))).Reads
      ({word} * lineEnding) fun _ => false :=
  lineEnding_reads.exactly_andThen

theorem heredocOpening_eq_some_iff {cs opening label rest : List Char} :
    heredocOpening cs = some (opening, label, rest) ↔
      IsLabel label ∧ opening ∈ heredocLine label ∧ opening ++ rest = cs := by
  constructor
  · intro h
    have happend := heredocOpening_append h
    unfold heredocOpening at h
    split at h
    · cases h
    · next start after hstart =>
      simp only at h
      split at h
      · next hhead =>
        obtain ⟨⟨line, tail⟩, hline, heq⟩ := Option.map_eq_some_iff.1 h
        simp only [Prod.mk.injEq] at heq
        obtain ⟨rfl, rfl, rfl⟩ := heq
        obtain ⟨_, hwords, blanks, hblanks, rfl⟩ :=
          Language.mem_mul.1 (heredocStart_reads.sound hstart).1
        obtain ⟨_, hword, ending, hending, rfl⟩ :=
          Language.mem_mul.1 ((heredocEnding_reads _).sound hline).1
        refine ⟨isLabel_iff.2 ⟨List.all_eq_true.1 List.all_takeWhile, hhead⟩, ?_, happend⟩
        rw [mem_heredocLine, mem_word.1 hwords, mem_word.1 hword]
        exact ⟨blanks, _, ending, hblanks, isLabelQuote_labelQuote _, hending, rfl⟩
      · cases h
  · rintro ⟨hlabel, hopening, rfl⟩
    obtain ⟨blanks, quote, ending, hblanks, hquote, hending, rfl⟩ := mem_heredocLine.1 hopening
    obtain ⟨-, hhead⟩ := isLabel_iff.1 hlabel
    have hassoc : quote ++ label ++ quote ++ ending ++ rest
        = quote ++ label ++ (quote ++ ending ++ rest) := by simp
    have hafter : Clear isInlineBlank (quote ++ label ++ quote ++ ending ++ rest) := by
      rw [hassoc]
      exact clear_before_label hquote hlabel _
    have hstart := heredocStart_reads.complete
      (Language.append_mem_mul (mem_word.2 rfl) hblanks) hafter
    have hquoted : labelQuote (quote ++ label ++ quote ++ ending ++ rest) = quote := by
      rw [hassoc]
      exact labelQuote_append hquote hlabel
    have hlabelled := takeWhile_drop_quote hquote hlabel hending rest
    have hline := (heredocEnding_reads (quote ++ label ++ quote)).complete
      (Language.append_mem_mul (mem_word.2 rfl) hending) (clear_nothing rest)
    rw [List.append_assoc]
    unfold heredocOpening
    rw [hstart]
    simp only [hquoted, hlabelled, hhead, if_true, hline, Option.map_some]

/-! ### The closing label of a heredoc -/

theorem closingLabel_eq_some_iff {label cs text rest : List Char} (hlabel : IsLabel label) :
    closingLabel label cs = some (text, rest) ↔
      ∃ blanks, blanks ∈ stretch isInlineBlank ∧ text = blanks ++ label ∧ Clear isLabelRest rest ∧
        text ++ rest = cs := by
  have hreads : (Scan.andThen (.many isInlineBlank) (.exactly label)).Reads
      (stretch isInlineBlank * {label}) fun _ => false :=
    (Scan.many_reads _).andThen (Scan.exactly_reads label) hlabel.startsIn
      fun c => isInlineBlank_of_isLabelRest
  constructor
  · intro h
    unfold closingLabel at h
    split at h
    · cases h
    · next piece after hscan =>
      split at h
      · cases h
      · next hclear =>
        simp only [Option.some.injEq, Prod.mk.injEq] at h
        obtain ⟨rfl, rfl⟩ := h
        obtain ⟨hword, happend⟩ := hreads.sound hscan
        obtain ⟨blanks, hblanks, word, hlabel', rfl⟩ := Language.mem_mul.1 hword
        refine ⟨blanks, hblanks, by rw [mem_word.1 hlabel'], ?_, happend⟩
        intro c hc
        simpa [Option.mem_def.1 hc] using hclear
  · rintro ⟨blanks, hblanks, rfl, hclear, rfl⟩
    have hscan := hreads.complete
      (Language.append_mem_mul hblanks (mem_word.2 rfl)) (clear_nothing rest)
    have hany : ¬ rest.head?.any isLabelRest = true := by
      cases rest with
      | nil => simp
      | cons c rest => simpa using clear_cons.1 hclear
    simp only [closingLabel, hscan, hany]
    rfl

/-- A closing label at the place, where the start of the text counts as the start of a line or does
not. -/
def ClosesFrom (atLineStart : Bool) (label front back : List Char) : Prop :=
  (front = [] ∧ atLineStart = true ∨ front.getLast? = some '\n') ∧
    ∃ text rest, closingLabel label back = some (text, rest)

theorem closesHeredoc_iff {label front back : List Char} (hlabel : IsLabel label) :
    ClosesHeredoc label front back ↔ ClosesFrom true label front back := by
  simp only [ClosesHeredoc, ClosesFrom, and_true, closingLabel_eq_some_iff hlabel]
  refine and_congr_right fun _ => ?_
  constructor
  · rintro ⟨blanks, rest, rfl, hblanks, hclear⟩
    exact ⟨blanks ++ label, rest, blanks, hblanks, rfl, hclear, rfl⟩
  · rintro ⟨_, rest, blanks, hblanks, rfl, hclear, rfl⟩
    exact ⟨blanks, rest, rfl, hblanks, hclear⟩

theorem closesFrom_nil {atLineStart : Bool} {label back : List Char} :
    ClosesFrom atLineStart label [] back ↔
      atLineStart = true ∧ ∃ text rest, closingLabel label back = some (text, rest) := by
  simp [ClosesFrom]

theorem closesFrom_cons {atLineStart : Bool} {label front back : List Char} {c : Char} :
    ClosesFrom atLineStart label (c :: front) back ↔ ClosesFrom (c == '\n') label front back := by
  unfold ClosesFrom
  refine and_congr_left fun _ => ?_
  cases front with
  | nil => simp
  | cons d front => simp [List.getLast?_cons_cons]

/-- What is split off is the text up to the first closing label, and the label. -/
theorem firstPlace_heredocBody {label cs body rest : List Char} {atLineStart : Bool}
    (h : heredocBody label atLineStart cs = some (body, rest)) :
    ∃ front text, body = front ++ text ∧ closingLabel label (text ++ rest) = some (text, rest) ∧
      FirstPlace (ClosesFrom atLineStart label) front (text ++ rest) := by
  induction cs generalizing atLineStart body rest with
  | nil => simp [heredocBody] at h
  | cons c cs ih =>
    unfold heredocBody at h
    split at h
    · next text after htext =>
      simp only [Option.some.injEq, Prod.mk.injEq] at h
      obtain ⟨rfl, rfl⟩ := h
      split at htext
      · next hstart =>
        have happend := closingLabel_lossless label _ _ _ htext
        rw [← happend] at htext
        exact ⟨[], text, rfl, htext, firstPlace_nil.2 (closesFrom_nil.2 ⟨hstart, _, _, htext⟩)⟩
      · cases htext
    · next hnone =>
      obtain ⟨⟨b, s⟩, hb, heq⟩ := Option.map_eq_some_iff.1 h
      simp only [Prod.mk.injEq] at heq
      obtain ⟨rfl, rfl⟩ := heq
      obtain ⟨front, text, rfl, hclosing, hfirst⟩ := ih hb
      have happend := heredocBody_append hb
      rw [List.append_assoc] at happend
      refine ⟨c :: front, text, rfl, hclosing, firstPlace_cons.2 ⟨?_, ?_⟩⟩
      · rw [happend, closesFrom_nil]
        rintro ⟨hstart, t, r, htext⟩
        rw [if_pos hstart, htext] at hnone
        cases hnone
      · simpa only [closesFrom_cons] using hfirst

theorem not_closesFrom_of_heredocBody {label cs : List Char} {atLineStart : Bool}
    (hlabel : IsLabel label) (h : heredocBody label atLineStart cs = none) :
    ∀ front back, front ++ back = cs → ¬ ClosesFrom atLineStart label front back := by
  induction cs generalizing atLineStart with
  | nil =>
    intro front back happend hcloses
    obtain ⟨rfl, rfl⟩ := List.append_eq_nil_iff.1 happend
    obtain ⟨_, text, rest, htext⟩ := closesFrom_nil.1 hcloses
    obtain ⟨blanks, _, rfl, _, happend⟩ := (closingLabel_eq_some_iff hlabel).1 htext
    obtain ⟨c, tail, rfl, _⟩ := hlabel
    simp at happend
  | cons c cs ih =>
    unfold heredocBody at h
    split at h
    · cases h
    · next hnone =>
      rw [Option.map_eq_none_iff] at h
      intro front back happend hcloses
      cases front with
      | nil =>
        obtain ⟨hstart, text, rest, htext⟩ := closesFrom_nil.1 hcloses
        rw [List.nil_append] at happend
        rw [happend] at htext
        rw [if_pos hstart, htext] at hnone
        cases hnone
      | cons d front =>
        simp only [List.cons_append, List.cons.injEq] at happend
        obtain ⟨rfl, happend⟩ := happend
        exact ih h front back happend (closesFrom_cons.1 hcloses)

theorem heredocBody_eq_some_iff {label cs body rest : List Char} (hlabel : IsLabel label) :
    heredocBody label true cs = some (body, rest) ↔
      ∃ front blanks, body = front ++ blanks ++ label ∧ blanks ∈ stretch isInlineBlank ∧
        FirstPlace (ClosesHeredoc label) front (blanks ++ label ++ rest) ∧
        Clear isLabelRest rest ∧ body ++ rest = cs := by
  have hcongr : ClosesHeredoc label = ClosesFrom true label := by
    funext front back
    exact propext (closesHeredoc_iff hlabel)
  rw [hcongr]
  constructor
  · intro h
    obtain ⟨front, text, rfl, hclosing, hfirst⟩ := firstPlace_heredocBody h
    obtain ⟨blanks, hblanks, rfl, hclear, _⟩ := (closingLabel_eq_some_iff hlabel).1 hclosing
    exact ⟨front, blanks, by rw [List.append_assoc], hblanks, hfirst, hclear, heredocBody_append h⟩
  · rintro ⟨front, blanks, rfl, hblanks, hfirst, hclear, rfl⟩
    have hclosing : closingLabel label (blanks ++ label ++ rest) = some (blanks ++ label, rest) :=
      (closingLabel_eq_some_iff hlabel).2 ⟨blanks, hblanks, rfl, hclear, rfl⟩
    cases h : heredocBody label true (front ++ blanks ++ label ++ rest) with
    | none =>
      refine absurd hfirst.1 (not_closesFrom_of_heredocBody hlabel h front _ ?_)
      simp only [List.append_assoc]
    | some r =>
      obtain ⟨body', rest'⟩ := r
      have happend := heredocBody_append h
      obtain ⟨front', text', rfl, hclosing', hfirst'⟩ := firstPlace_heredocBody h
      simp only [List.append_assoc] at happend hclosing
      obtain ⟨rfl, htail⟩ := hfirst'.unique hfirst (by simpa only [List.append_assoc] using happend)
      rw [htail, List.append_assoc] at hclosing'
      rw [hclosing'] at hclosing
      simp only [Option.some.injEq, Prod.mk.injEq] at hclosing
      rw [hclosing.1, hclosing.2, List.append_assoc]

theorem heredocBody_eq_none_iff {label cs : List Char} (hlabel : IsLabel label) :
    heredocBody label true cs = none ↔
      ∀ front back, front ++ back = cs → ¬ ClosesHeredoc label front back := by
  constructor
  · intro h front back happend hcloses
    exact not_closesFrom_of_heredocBody hlabel h front back happend
      ((closesHeredoc_iff hlabel).1 hcloses)
  · intro h
    cases hread : heredocBody label true cs with
    | none => rfl
    | some r =>
      obtain ⟨body, rest⟩ := r
      obtain ⟨front, blanks, hbody, _, hfirst, _, happend⟩ :=
        (heredocBody_eq_some_iff hlabel).1 hread
      refine absurd hfirst.1 (h front _ ?_)
      rw [← happend, hbody]
      simp only [List.append_assoc]

/-! ### The head of a dispatcher call -/

def methodWords : Language Char :=
  ({"trigger_event".toList} + {"dispatch".toList}) * (stretch isBlank * {['(']})

theorem bracket_reads :
    (Scan.andThen (.many isBlank) (.exactly ['('])).Reads (stretch isBlank * {['(']})
      fun _ => false :=
  (Scan.many_reads isBlank).andThen (Scan.exactly_reads _) (f := (· == '('))
    (startsIn_word (by decide)) (by simp; decide)

theorem methodWords_reads :
    (Scan.andThen (.orElse (.exactly "trigger_event".toList) (.exactly "dispatch".toList))
      (.andThen (.many isBlank) (.exactly ['(']))).Reads methodWords fun _ => false :=
  ((Scan.exactly_reads _).orElse (Scan.exactly_reads _) (f := (· == 't'))
    (startsIn_word (by decide)) (startsIn_word (by decide))).andThen_of_clear bracket_reads
      fun _ _ _ _ => by simpa using clear_nothing _

theorem startsIn_methodWords : StartsIn (fun c => !isBlank c) methodWords :=
  ((startsIn_word (by decide)).add (startsIn_word (by decide))).mul

theorem arrow_reads : arrow.Reads arrowWords isBlank :=
  (Scan.many_reads isBlank).andThen ((Scan.many_reads isBlank).exactly_andThen)
    (f := (· == '-')) (startsIn_word (by decide)).mul (by simp; decide)

/-- The dispatcher's name without the mark of the board's own one, and all behind it. -/
def nameWords : Language Char := {"dispatcher".toList} * (arrowWords * methodWords)

theorem nameWords_reads :
    (Scan.andThen (.exactly "dispatcher".toList) (.andThen arrow
      (.andThen (.orElse (.exactly "trigger_event".toList) (.exactly "dispatch".toList))
        (.andThen (.many isBlank) (.exactly ['(']))))).Reads nameWords fun _ => false :=
  (arrow_reads.andThen methodWords_reads startsIn_methodWords (by simp)).exactly_andThen

theorem startsIn_nameWords : StartsIn (· == 'd') nameWords :=
  StartsIn.mul (startsIn_word (by decide))

theorem dispatcherCall_reads :
    dispatcherCall.Reads ((1 + {officialName}) * nameWords) fun _ => false :=
  ((Scan.exactly_reads _).opt (f := (· == 'p')) (startsIn_word (by decide))).andThen
    nameWords_reads startsIn_nameWords (by simp)

theorem dispatcherOwner_reads :
    dispatcherOwner.Reads ({['$']} * (1 + {"this".toList} * arrowWords))
      fun c => isBlank c || c == 't' :=
  ((arrow_reads.exactly_andThen).opt (f := (· == 't'))
    (StartsIn.mul (startsIn_word (by decide)))).exactly_andThen

theorem startsIn_call : StartsIn (fun c => c == 'p' || c == 'd') ((1 + {officialName}) * nameWords) :=
  (startsIn_word (by decide)).opt_mul (startsIn_nameWords.mono (by simp))

theorem mem_dispatcherWords {official : Bool} {head : List Char} :
    head ∈ dispatcherWords official ↔
      ∃ owner call, owner ∈ ({['$']} * (1 + {"this".toList} * arrowWords) : Language Char) ∧
        call ∈ ((if official then {officialName} else 1) * nameWords : Language Char) ∧
        owner ++ call = head := by
  have h : dispatcherWords official
      = ({['$']} * (1 + {"this".toList} * arrowWords)) *
        ((if official then {officialName} else 1) * nameWords) := by
    rw [mul_assoc]
    rfl
  rw [h, Language.mem_mul]
  constructor
  · rintro ⟨owner, howner, call, hcall, rfl⟩
    exact ⟨owner, call, howner, hcall, rfl⟩
  · rintro ⟨owner, call, howner, hcall, rfl⟩
    exact ⟨owner, howner, call, hcall, rfl⟩

/-- The mark of the board's own dispatcher stands in front of a call exactly if it is part of it. -/
theorem mem_call_iff {call : List Char} {official : Bool} (rest : List Char) :
    call ∈ ((if official then {officialName} else 1) * nameWords : Language Char) ↔
      call ∈ ((1 + {officialName}) * nameWords : Language Char) ∧
        officialName.isPrefixOf (call ++ rest) = official := by
  have hofficial {word : List Char} (h : word ∈ ({officialName} * nameWords : Language Char)) :
      officialName.isPrefixOf (word ++ rest) = true := by
    obtain ⟨_, hname, tail, _, rfl⟩ := Language.mem_mul.1 h
    rw [mem_word.1 hname, List.append_assoc, List.isPrefixOf_iff_prefix]
    exact List.prefix_append _ _
  have hother {word : List Char} (h : word ∈ nameWords) :
      officialName.isPrefixOf (word ++ rest) = false := by
    obtain ⟨c, tail, rfl, hc⟩ := startsIn_nameWords word h
    rw [beq_iff_eq.1 hc]
    rfl
  rw [add_mul, one_mul, Language.mem_add]
  cases official with
  | true =>
    simp only [if_true]
    constructor
    · exact fun h => ⟨.inr h, hofficial h⟩
    · rintro ⟨h | h, hmark⟩
      · rw [hother h] at hmark
        cases hmark
      · exact h
  | false =>
    simp only [Bool.false_eq_true, if_false, one_mul]
    constructor
    · exact fun h => ⟨.inl h, hother h⟩
    · rintro ⟨h | h, hmark⟩
      · exact h
      · rw [hofficial h] at hmark
        cases hmark

theorem callHead_eq_some_iff {cs head rest : List Char} {official : Bool} :
    callHead cs = some (head, official, rest) ↔
      head ∈ dispatcherWords official ∧ head ++ rest = cs := by
  constructor
  · intro h
    have happend := callHead_append h
    unfold callHead at h
    split at h
    · cases h
    · next owner after howner =>
      obtain ⟨⟨call, tail⟩, hcall, heq⟩ := Option.map_eq_some_iff.1 h
      simp only [Prod.mk.injEq] at heq
      obtain ⟨rfl, rfl, rfl⟩ := heq
      obtain ⟨hword, rfl⟩ := dispatcherCall_reads.sound hcall
      refine ⟨mem_dispatcherWords.2 ⟨owner, call, ?_, (mem_call_iff tail).2 ⟨hword, rfl⟩, rfl⟩, happend⟩
      exact (dispatcherOwner_reads.sound howner).1
  · rintro ⟨hhead, rfl⟩
    obtain ⟨owner, call, howner, hcall, rfl⟩ := mem_dispatcherWords.1 hhead
    obtain ⟨hword, hofficial⟩ := (mem_call_iff rest).1 hcall
    have hclear : Clear (fun c => isBlank c || c == 't') (call ++ rest) := by
      refine startsIn_call.clear hword fun c hc => ?_
      simp only [Bool.or_eq_true, beq_iff_eq] at hc
      rcases hc with rfl | rfl <;> decide
    have hread := dispatcherOwner_reads.complete howner hclear
    unfold callHead
    rw [List.append_assoc, hread]
    simp only [dispatcherCall_reads.complete hword (clear_nothing rest), Option.map_some, hofficial]

end ExtensionAudit.Php
