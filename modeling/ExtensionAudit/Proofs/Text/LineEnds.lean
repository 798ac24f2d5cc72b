import ExtensionAudit.Proofs.Text.Scan
import ExtensionAudit.Text.Blank
import ExtensionAudit.Text.Lines

/-!
# Line ends

A text in which a carriage return is put in front of each line feed. To a class of characters that
does not tell the two apart the text looks as before, and so it does to whatever is built from such
classes and from words without line ends: it splits the new text where it splits the old one.
-/

namespace ExtensionAudit.Text

def lineEnd (c : Char) : List Char := if c = '\n' then ['\r', '\n'] else [c]

/-- The text with a carriage return in front of each line feed. -/
def withReturns (cs : List Char) : List Char := cs.flatMap lineEnd

/-- The text without the carriage returns that stand in front of line feeds. -/
def withoutReturns : List Char → List Char
  | '\r' :: '\n' :: rest => '\n' :: withoutReturns rest
  | c :: rest => c :: withoutReturns rest
  | [] => []

def windowsLineEnds (s : String) : String := String.ofList (withReturns s.toList)

def unixLineEnds (s : String) : String := String.ofList (withoutReturns s.toList)

/-! ### The characters of the new text -/

@[simp] theorem withReturns_nil : withReturns [] = [] := rfl

@[simp] theorem withReturns_newline (cs : List Char) :
    withReturns ('\n' :: cs) = '\r' :: '\n' :: withReturns cs := rfl

theorem withReturns_cons {c : Char} (h : c ≠ '\n') (cs : List Char) :
    withReturns (c :: cs) = c :: withReturns cs := by
  rw [withReturns, List.flatMap_cons, lineEnd, if_neg h]
  rfl

theorem withReturns_eq_nil_iff {cs : List Char} : withReturns cs = [] ↔ cs = [] := by
  cases cs with
  | nil => simp
  | cons c cs =>
    by_cases hc : c = '\n'
    · subst hc
      simp
    · simp [withReturns_cons hc]

@[simp] theorem withReturns_append (cs ds : List Char) :
    withReturns (cs ++ ds) = withReturns cs ++ withReturns ds := List.flatMap_append

/-- What the new text begins with is what the old one begins with, or belongs to a line end. -/
theorem exists_withReturns_cons (c : Char) (cs : List Char) :
    ∃ d tail, withReturns (c :: cs) = d :: tail ∧ (d = c ∨ c = '\n' ∧ d = '\r') := by
  by_cases hc : c = '\n'
  · subst hc
    exact ⟨'\r', _, rfl, .inr ⟨rfl, rfl⟩⟩
  · exact ⟨c, _, withReturns_cons hc cs, .inl rfl⟩

theorem withReturns_of_not_mem {cs : List Char} (h : '\n' ∉ cs) : withReturns cs = cs := by
  induction cs with
  | nil => rfl
  | cons c cs ih =>
    rw [List.mem_cons, not_or] at h
    rw [withReturns_cons (Ne.symm h.1), ih h.2]

theorem withoutReturns_withReturns (cs : List Char) : withoutReturns (withReturns cs) = cs := by
  induction cs with
  | nil => rfl
  | cons c cs ih =>
    by_cases hc : c = '\n'
    · subst hc
      rw [withReturns_newline, withoutReturns, ih]
    · rw [withReturns_cons hc, withoutReturns, ih]
      -- A carriage return of the text itself is never in front of a line feed of the new one.
      rintro rest rfl hrest
      cases cs with
      | nil => cases hrest
      | cons d cs =>
        by_cases hd : d = '\n'
        · subst hd
          exact absurd (List.cons.inj hrest).1 (by decide)
        · rw [withReturns_cons hd] at hrest
          exact hd (List.cons.inj hrest).1

theorem unixLineEnds_windowsLineEnds (s : String) : unixLineEnds (windowsLineEnds s) = s := by
  rw [unixLineEnds, windowsLineEnds, String.toList_ofList, withoutReturns_withReturns,
    String.ofList_toList]

theorem count_newline_withReturns (cs : List Char) :
    (withReturns cs).count '\n' = cs.count '\n' := by
  induction cs with
  | nil => rfl
  | cons c cs ih =>
    by_cases hc : c = '\n'
    · subst hc
      simp [ih]
    · rw [withReturns_cons hc, List.count_cons, List.count_cons, ih]

/-! ### Classes that do not tell a carriage return from a line feed -/

section Classes

variable {p : Char → Bool}

theorem all_withReturns (hp : p '\r' = p '\n') (cs : List Char) :
    (withReturns cs).all p = cs.all p := by
  induction cs with
  | nil => rfl
  | cons c cs ih =>
    by_cases hc : c = '\n'
    · subst hc
      simp [hp, ih]
    · rw [withReturns_cons hc, List.all_cons, List.all_cons, ih]

theorem isAllBlank_withReturns (cs : List Char) : isAllBlank (withReturns cs) = isAllBlank cs :=
  all_withReturns (by decide) cs

theorem any_head?_withReturns (hp : p '\r' = p '\n') (cs : List Char) :
    (withReturns cs).head?.any p = cs.head?.any p := by
  cases cs with
  | nil => rfl
  | cons c cs =>
    by_cases hc : c = '\n'
    · subst hc
      exact hp
    · rw [withReturns_cons hc]
      rfl

theorem takeWhile_withReturns (hp : p '\r' = p '\n') (cs : List Char) :
    (withReturns cs).takeWhile p = withReturns (cs.takeWhile p) := by
  induction cs with
  | nil => rfl
  | cons c cs ih =>
    by_cases hc : c = '\n'
    · subst hc
      cases hline : p '\n' <;> simp [hp, hline, ih]
    · rw [withReturns_cons hc, List.takeWhile_cons, List.takeWhile_cons]
      cases p c with
      | false => rfl
      | true => simp only [if_true, ih, withReturns_cons hc]

theorem dropWhile_withReturns (hp : p '\r' = p '\n') (cs : List Char) :
    (withReturns cs).dropWhile p = withReturns (cs.dropWhile p) := by
  induction cs with
  | nil => rfl
  | cons c cs ih =>
    by_cases hc : c = '\n'
    · subst hc
      cases hline : p '\n' <;> simp [hp, hline, ih]
    · rw [withReturns_cons hc, List.dropWhile_cons, List.dropWhile_cons]
      cases p c with
      | false => simp only [Bool.false_eq_true, if_false, withReturns_cons hc]
      | true => simp only [if_true, ih]

end Classes

/-! ### Words without line ends -/

/-- The word holds no part of a line end. -/
def WithinLine (word : List Char) : Prop := '\n' ∉ word ∧ '\r' ∉ word

instance (word : List Char) : Decidable (WithinLine word) :=
  inferInstanceAs (Decidable (_ ∧ _))

theorem prefix_withReturns_iff {word cs : List Char} (hword : WithinLine word) :
    word <+: withReturns cs ↔ word <+: cs := by
  induction word generalizing cs with
  | nil => simp
  | cons c word ih =>
    simp only [WithinLine, List.mem_cons, not_or] at hword
    obtain ⟨⟨hnewline, hn⟩, hreturn, hr⟩ := hword
    cases cs with
    | nil => rfl
    | cons d cs =>
      by_cases hd : d = '\n'
      · subst hd
        simp [List.cons_prefix_cons, Ne.symm hnewline, Ne.symm hreturn]
      · rw [withReturns_cons hd, List.cons_prefix_cons, List.cons_prefix_cons, ih ⟨hn, hr⟩]

theorem isPrefixOf_withReturns {word : List Char} (hword : WithinLine word) (cs : List Char) :
    word.isPrefixOf (withReturns cs) = word.isPrefixOf cs := by
  rw [Bool.eq_iff_iff, List.isPrefixOf_iff_prefix, List.isPrefixOf_iff_prefix]
  exact prefix_withReturns_iff hword

theorem drop_length_withReturns {word cs : List Char} (hword : '\n' ∉ word) (h : word <+: cs) :
    (withReturns cs).drop word.length = withReturns (cs.drop word.length) := by
  obtain ⟨tail, rfl⟩ := h
  rw [withReturns_append, withReturns_of_not_mem hword, List.drop_left, List.drop_left]

theorem infix_withReturns_iff {word cs : List Char} (hword : WithinLine word) :
    word <:+: withReturns cs ↔ word <:+: cs := by
  induction cs with
  | nil => rfl
  | cons c cs ih =>
    by_cases hc : c = '\n'
    · subst hc
      have hline : word <+: withReturns ('\n' :: cs) ↔ word <+: '\n' :: cs :=
        prefix_withReturns_iff hword
      have hsecond : word <+: '\n' :: withReturns cs ↔ word <+: '\n' :: cs := by
        cases word with
        | nil => simp
        | cons d word =>
          rw [List.cons_prefix_cons, List.cons_prefix_cons]
          exact and_congr_right fun hd => absurd (by simp [hd]) hword.1
      rw [withReturns_newline] at hline ⊢
      rw [List.infix_cons_iff, List.infix_cons_iff, List.infix_cons_iff, hline, hsecond, ih,
        ← or_assoc, or_self]
    · rw [withReturns_cons hc, List.infix_cons_iff, List.infix_cons_iff, ih, ← withReturns_cons hc,
        prefix_withReturns_iff hword]

/-! ### Scans -/

/-- The scan splits a text with carriage returns where it splits the text without them. -/
def Scan.LineEndNeutral (scan : Scan) : Prop :=
  ∀ cs, '\r' ∉ cs → scan (withReturns cs) = (scan cs).map (Prod.map withReturns withReturns)

namespace Scan

variable {a b : Scan}

theorem Lossless.return_not_mem (ha : a.Lossless) {cs piece rest : List Char} (h : '\r' ∉ cs)
    (hscan : a cs = some (piece, rest)) : '\r' ∉ rest := by
  rw [← ha _ _ _ hscan, List.mem_append, not_or] at h
  exact h.2

theorem exactly_neutral {word : List Char} (hword : WithinLine word) :
    (exactly word).LineEndNeutral := by
  intro cs _
  rw [exactly, exactly, isPrefixOf_withReturns hword]
  by_cases h : word.isPrefixOf cs = true
  · rw [if_pos h, if_pos h, drop_length_withReturns hword.1 (List.isPrefixOf_iff_prefix.1 h)]
    simp [withReturns_of_not_mem hword.1]
  · rw [if_neg h, if_neg h]
    rfl

theorem many_neutral {p : Char → Bool} (hp : p '\r' = p '\n') : (many p).LineEndNeutral := by
  intro cs _
  rw [many, many, takeWhile_withReturns hp, dropWhile_withReturns hp]
  rfl

/-- A line break with its carriage return is read where there was one without. -/
theorem lineBreak_neutral :
    (Scan.andThen (.opt (.exactly ['\r'])) (.exactly ['\n'])).LineEndNeutral := by
  intro cs h
  cases cs with
  | nil => rfl
  | cons c cs =>
    rw [List.mem_cons, not_or] at h
    by_cases hc : c = '\n'
    · subst hc
      rfl
    · rw [withReturns_cons hc]
      simp [Scan.andThen, Scan.opt, Scan.exactly, h.1, Ne.symm hc]

theorem LineEndNeutral.andThen (ha : a.LineEndNeutral) (hlossless : a.Lossless)
    (hb : b.LineEndNeutral) : (a.andThen b).LineEndNeutral := by
  intro cs h
  rw [Scan.andThen, Scan.andThen, ha cs h]
  cases hscan : a cs with
  | none => rfl
  | some split =>
    obtain ⟨first, rest⟩ := split
    simp only [Option.map_some, Prod.map_apply, hb rest (hlossless.return_not_mem h hscan)]
    cases b rest with
    | none => rfl
    | some split => simp

theorem LineEndNeutral.orElse (ha : a.LineEndNeutral) (hb : b.LineEndNeutral) :
    (a.orElse b).LineEndNeutral := by
  intro cs h
  rw [Scan.orElse, Scan.orElse, ha cs h]
  cases a cs with
  | none => exact hb cs h
  | some split => rfl

theorem LineEndNeutral.opt (ha : a.LineEndNeutral) : a.opt.LineEndNeutral := by
  intro cs h
  rw [Scan.opt, Scan.opt, ha cs h]
  cases a cs with
  | none => rfl
  | some split => rfl

end Scan

/-! ### Lines -/

theorem linesFrom_withReturns {cs : List Char} (h : '\r' ∉ cs) (line : List Char) :
    linesFrom line (withReturns cs) = linesFrom line cs := by
  induction cs generalizing line with
  | nil => rfl
  | cons c cs ih =>
    rw [List.mem_cons, not_or] at h
    by_cases hc : c = '\n'
    · subst hc
      rw [withReturns_newline, linesFrom, linesFrom, if_pos (by decide), ih h.2]
      simp
    · have hne : c ≠ '\r' := Ne.symm h.1
      rw [withReturns_cons hc, linesFrom, linesFrom, ih h.2, ih h.2]
      · simp [hne]
      · simp [hne]

/-- The rest of the line takes the carriage return in, if a line feed ends it. -/
theorem takeWhile_line_withReturns (cs : List Char) :
    (withReturns cs).takeWhile (· != '\n') = cs.takeWhile (· != '\n') ∨
      (withReturns cs).takeWhile (· != '\n') = cs.takeWhile (· != '\n') ++ ['\r'] := by
  induction cs with
  | nil => exact .inl rfl
  | cons c cs ih =>
    by_cases hc : c = '\n'
    · subst hc
      exact .inr rfl
    · have hkeep : (c != '\n') = true := by simpa using hc
      rw [withReturns_cons hc, List.takeWhile_cons, List.takeWhile_cons, if_pos hkeep, if_pos hkeep]
      rcases ih with ih | ih
      · exact .inl (by rw [ih])
      · exact .inr (by rw [ih, List.cons_append])

theorem takeWhile_line_reverse_withReturns (before : List Char) :
    (withReturns before.reverse).reverse.takeWhile (· != '\n') = before.takeWhile (· != '\n') := by
  induction before with
  | nil => rfl
  | cons c before ih =>
    rw [List.reverse_cons, withReturns_append, List.reverse_append]
    by_cases hc : c = '\n'
    · subst hc
      rfl
    · rw [withReturns_cons hc, withReturns_nil, List.reverse_singleton, List.singleton_append,
        List.takeWhile_cons, List.takeWhile_cons, ih]

theorem trim_append_return (cs : List Char) : trim (cs ++ ['\r']) = trim cs := by
  have hblank : isBlank '\r' = true := by decide
  rw [trim, trim, dropBlanks, dropBlanks, List.dropWhile_append]
  by_cases hall : cs.dropWhile isBlank = []
  · simp [hall, hblank]
  · simp [hall, dropTrailingBlanks, hblank]

end ExtensionAudit.Text
