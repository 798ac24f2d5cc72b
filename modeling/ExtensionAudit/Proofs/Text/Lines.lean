import Mathlib
import ExtensionAudit.Proofs.Text.LineEnds

/-!
# Two ways of counting lines

One way to count the lines of a text knows newlines only, the other one every line break. Where a
line of the first kind begins, one of the second kind begins too, and its number is ahead by the
number of the other breaks in front of it; a carriage return that a newline follows counts together
with that newline. The line itself may be longer than the one of the second kind, which ends at the
first break of any kind.
-/

namespace ExtensionAudit.Text

/-- Whether the character is a line break besides newlines: no newline, and no carriage return in
front of one. -/
def isOtherBreak (c : Char) (rest : List Char) : Bool :=
  isLineBreak c && c != '\n' && !(c == '\r' && rest.head? == some '\n')

def otherBreaks : List Char → Nat
  | [] => 0
  | c :: rest => (if isOtherBreak c rest then 1 else 0) + otherBreaks rest

/-- The first lines of a text, as many as are asked for, each with the newline that ends it. -/
def firstLines : Nat → List Char → List Char
  | 0, _ => []
  | _, [] => []
  | n + 1, c :: rest => c :: firstLines (if c = '\n' then n else n + 1) rest

/-- The line behind the first lines of a text, up to the newline that ends it. -/
def lineBehind (n : Nat) (cs : List Char) : List Char :=
  (cs.drop (firstLines n cs).length).takeWhile (· != '\n')

/-- A text up to its first line break of any kind. -/
def uptoBreak (cs : List Char) : List Char := cs.takeWhile (!isLineBreak ·)

/-! ### Dividing a text into lines -/

section Division

variable {line front : List Char}

theorem linesFrom_return_newline (line rest : List Char) :
    linesFrom line ('\r' :: '\n' :: rest) = line.reverse :: linesFrom [] rest := by
  rw [linesFrom]

theorem linesFrom_break {c : Char} (hbreak : isLineBreak c = true) (line : List Char)
    {rest : List Char} (hnext : c = '\r' → rest.head? ≠ some '\n') :
    linesFrom line (c :: rest) = line.reverse :: linesFrom [] rest := by
  rw [linesFrom, if_pos hbreak]
  rintro others rfl rfl
  exact hnext rfl rfl

theorem linesFrom_plain {c : Char} (hplain : isLineBreak c = false) (line rest : List Char) :
    linesFrom line (c :: rest) = linesFrom (c :: line) rest := by
  rw [linesFrom, if_neg (by simp [hplain])]
  rintro others rfl rfl
  exact absurd hplain (by decide)

theorem linesFrom_newline (line rest : List Char) :
    linesFrom line ('\n' :: rest) = line.reverse :: linesFrom [] rest :=
  linesFrom_break (by decide) line fun hreturn => absurd hreturn (by decide)

/-- Behind a newline a text is divided as it would be alone, and the lines up to there are as many
as the newlines and the other breaks. -/
theorem linesFrom_append_newline (line front : List Char) :
    ∃ before : List (List Char),
      before.length = (front ++ ['\n']).count '\n' + otherBreaks (front ++ ['\n'])
        ∧ ∀ back, linesFrom line (front ++ '\n' :: back) = before ++ linesFrom [] back := by
  -- Along the division itself, where a carriage return takes the newline behind it along.
  have hlast (line : List Char) :
      ∃ before : List (List Char), before.length = 1
        ∧ ∀ back, linesFrom line ('\n' :: back) = before ++ linesFrom [] back :=
    ⟨[line.reverse], rfl, fun back => linesFrom_newline line back⟩
  induction line, front using linesFrom.induct with
  | case1 line | case2 line => exact hlast line
  | case3 line rest ih =>
    obtain ⟨before, hlength, hback⟩ := ih
    refine ⟨line.reverse :: before, ?_, fun back => ?_⟩
    · simp [otherBreaks, isOtherBreak, hlength]
      omega
    · rw [List.cons_append, List.cons_append, linesFrom_return_newline, hback, List.cons_append]
  | case4 line c rest hpair hbreak ih =>
    by_cases hreturn : c = '\r' ∧ rest = []
    · obtain ⟨rfl, rfl⟩ := hreturn
      have hcount : ['\r', '\n'].count '\n' + otherBreaks ['\r', '\n'] = 1 := by decide
      exact ⟨[line.reverse], hcount.symm, fun back => linesFrom_return_newline line back⟩
    obtain ⟨before, hlength, hback⟩ := ih
    have hnext (back : List Char) (hc : c = '\r') : (rest ++ '\n' :: back).head? ≠ some '\n' := by
      cases rest with
      | nil => exact absurd ⟨hc, rfl⟩ hreturn
      | cons d others =>
        intro hd
        exact hpair others hc (by rw [Option.some.inj hd])
    refine ⟨line.reverse :: before, ?_, fun back => ?_⟩
    · have hother : isOtherBreak c (rest ++ ['\n']) = (c != '\n') := by
        by_cases hc : c = '\r'
        · rw [isOtherBreak, beq_false_of_ne (hnext [] hc), hbreak, Bool.and_false, Bool.not_false,
            Bool.true_and, Bool.and_true]
        · simp [isOtherBreak, hbreak, hc]
      rw [List.length_cons, hlength, List.cons_append, otherBreaks, hother, List.count_cons]
      by_cases hc : c = '\n'
      · simp [hc]
        omega
      · simp [hc]
        omega
    · rw [List.cons_append, linesFrom_break hbreak line (hnext back), hback, List.cons_append]
  | case5 line c rest hpair hplain ih =>
    obtain ⟨before, hlength, hback⟩ := ih
    rw [Bool.not_eq_true] at hplain
    have hc : c ≠ '\n' := fun hc => absurd hplain (by rw [hc]; decide)
    refine ⟨before, ?_, fun back => ?_⟩
    · simpa [otherBreaks, isOtherBreak, hplain, hc] using hlength
    · rw [List.cons_append, linesFrom_plain hplain, hback]

/-- The first line of what is left of a text ends at the first break of any kind. -/
theorem head?_linesFrom {cs : List Char} (hsome : cs ≠ []) (line : List Char) :
    (linesFrom line cs).head? = some (line.reverse ++ uptoBreak cs) := by
  induction cs generalizing line with
  | nil => exact absurd rfl hsome
  | cons c rest ih =>
    rw [uptoBreak, List.takeWhile_cons]
    by_cases hbreak : isLineBreak c = true
    · rw [hbreak, Bool.not_true, if_neg Bool.false_ne_true, List.append_nil]
      by_cases hpair : c = '\r' ∧ rest.head? = some '\n'
      · obtain ⟨rfl, hnewline⟩ := hpair
        obtain ⟨others, rfl⟩ := List.head?_eq_some_iff.mp hnewline
        rw [linesFrom_return_newline]
        rfl
      · rw [linesFrom_break hbreak line fun hc hnewline => hpair ⟨hc, hnewline⟩]
        rfl
    · rw [Bool.not_eq_true] at hbreak
      rw [linesFrom_plain hbreak, hbreak, Bool.not_false, if_pos rfl]
      cases rest with
      | nil => simp [linesFrom]
      | cons d others => rw [ih (List.cons_ne_nil d others), List.reverse_cons,
          List.append_assoc, uptoBreak, List.singleton_append]

end Division

/-! ### The line behind the first ones -/

/-- In front of a line there are as many lines as newlines. -/
theorem firstLines_append {front : List Char} (hfront : front = [] ∨ front.getLast? = some '\n')
    (rest : List Char) : firstLines (front.count '\n') (front ++ rest) = front := by
  induction front with
  | nil => cases rest <;> rfl
  | cons c others ih =>
    have hlast : others = [] ∧ c = '\n' ∨ others ≠ [] ∧ others.getLast? = some '\n' := by
      cases others with
      | nil => simpa using hfront
      | cons d more => simpa using hfront
    have hothers : firstLines (others.count '\n') (others ++ rest) = others :=
      ih (hlast.imp And.left And.right)
    by_cases hc : c = '\n'
    · rw [hc, List.count_cons_self, List.cons_append, firstLines, if_pos rfl, hothers]
    · obtain ⟨-, hnewline⟩ | ⟨-, hnewline⟩ := hlast
      · exact absurd hnewline hc
      · have hmem : 0 < others.count '\n' :=
          List.count_pos_iff.mpr (List.mem_of_getLast? hnewline)
        obtain ⟨n, hn⟩ := Nat.exists_eq_add_one_of_ne_zero hmem.ne'
        rw [List.count_cons_of_ne hc, hn, List.cons_append, firstLines, if_neg hc, ← hn, hothers]

theorem lineBehind_append {front : List Char} (hfront : front = [] ∨ front.getLast? = some '\n')
    (rest : List Char) :
    lineBehind (front.count '\n') (front ++ rest) = rest.takeWhile (· != '\n') := by
  rw [lineBehind, firstLines_append hfront, List.drop_left]

theorem uptoBreak_takeWhile (cs : List Char) :
    uptoBreak (cs.takeWhile (· != '\n')) = uptoBreak cs := by
  have hnewline : isLineBreak '\n' = true := by decide
  rw [uptoBreak, uptoBreak, List.takeWhile_takeWhile]
  congr 1
  funext c
  by_cases hc : c = '\n' <;> simp [hc, hnewline]

/-- The line that begins where one behind newlines does, and its number. -/
theorem linesFrom_getElem? {front : List Char} (hfront : front = [] ∨ front.getLast? = some '\n')
    {rest : List Char} (hsome : rest ≠ []) :
    (linesFrom [] (front ++ rest))[front.count '\n' + otherBreaks front]?
      = some (uptoBreak rest) := by
  have hhead : (linesFrom [] rest)[0]? = some (uptoBreak rest) := by
    rw [← List.head?_eq_getElem?, head?_linesFrom hsome]
    rfl
  obtain rfl | hnewline := hfront
  · exact hhead
  · obtain ⟨others, rfl⟩ := List.getLast?_eq_some_iff.mp hnewline
    obtain ⟨before, hlength, hback⟩ := linesFrom_append_newline [] others
    rw [List.append_assoc, List.singleton_append, hback, ← hlength,
      List.getElem?_append_right (Nat.le_refl _), Nat.sub_self, hhead]

/-! ### Texts without other breaks -/

/-- The only line breaks of a text are newlines, and carriage returns in front of them. -/
def OnlyNewlines (cs : List Char) : Prop :=
  ∀ front c rest, cs = front ++ c :: rest → isLineBreak c = true →
    c = '\n' ∨ c = '\r' ∧ rest.head? = some '\n'

theorem OnlyNewlines.behind (front : List Char) {rest : List Char}
    (honly : OnlyNewlines (front ++ rest)) : OnlyNewlines rest := by
  rintro before c back rfl hbreak
  exact honly (front ++ before) c back (List.append_assoc _ _ _).symm hbreak

/-- In front of a line there are no other breaks. -/
theorem OnlyNewlines.otherBreaks_eq_zero {front rest : List Char}
    (honly : OnlyNewlines (front ++ rest)) (hfront : front = [] ∨ front.getLast? = some '\n') :
    otherBreaks front = 0 := by
  induction front with
  | nil => rfl
  | cons c others ih =>
    have hplain : isOtherBreak c others = false := by
      by_cases hbreak : isLineBreak c = true
      · obtain rfl | ⟨rfl, hnewline⟩ := honly [] c (others ++ rest) rfl hbreak
        · rfl
        · cases others with
          | nil => simp at hfront
          | cons d more =>
            obtain rfl := Option.some.inj hnewline
            rfl
      · rw [Bool.not_eq_true] at hbreak
        rw [isOtherBreak, hbreak, Bool.false_and, Bool.false_and]
    have hlast : others = [] ∨ others.getLast? = some '\n' := by
      cases others with
      | nil => exact .inl rfl
      | cons d more => simpa using hfront
    have hlater : OnlyNewlines (others ++ rest) := honly.behind [c]
    rw [otherBreaks, hplain, ih hlater hlast]
    rfl

/-- A line holds nothing behind its first break but the carriage return in front of its end. -/
theorem OnlyNewlines.isAllBlank_behind_break {cs : List Char} (honly : OnlyNewlines cs) :
    isAllBlank ((cs.takeWhile (· != '\n')).dropWhile (!isLineBreak ·)) = true := by
  induction cs with
  | nil => rfl
  | cons c rest ih =>
    have hrest : OnlyNewlines rest := honly.behind [c]
    by_cases hnewline : c = '\n'
    · simp [hnewline, isAllBlank]
    rw [List.takeWhile_cons, if_pos (bne_iff_ne.mpr hnewline)]
    by_cases hbreak : isLineBreak c = true
    · obtain rfl | ⟨rfl, hhead⟩ := honly [] c rest rfl hbreak
      · exact absurd rfl hnewline
      · obtain ⟨others, rfl⟩ := List.head?_eq_some_iff.mp hhead
        rfl
    · rw [List.dropWhile_cons_of_pos (by simpa using hbreak)]
      exact ih hrest

/-! ### Trimming part of a line -/

theorem dropTrailingBlanks_eq_nil_iff {cs : List Char} :
    dropTrailingBlanks cs = [] ↔ isAllBlank cs = true := by
  rw [dropTrailingBlanks, List.reverse_eq_nil_iff, List.dropWhile_eq_nil_iff, isAllBlank,
    List.all_eq_true]
  simp only [List.mem_reverse]

theorem dropTrailingBlanks_append (front rest : List Char) :
    dropTrailingBlanks (front ++ rest)
      = if isAllBlank rest then dropTrailingBlanks front else front ++ dropTrailingBlanks rest := by
  have hrest : (rest.reverse.dropWhile isBlank).isEmpty = isAllBlank rest := by
    rw [Bool.eq_iff_iff, List.isEmpty_iff, ← dropTrailingBlanks_eq_nil_iff, dropTrailingBlanks,
      List.reverse_eq_nil_iff]
  rw [dropTrailingBlanks, List.reverse_append, List.dropWhile_append, hrest]
  split
  · rfl
  · rw [List.reverse_append, List.reverse_reverse, dropTrailingBlanks]

theorem isAllBlank_dropBlanks (cs : List Char) : isAllBlank (dropBlanks cs) = isAllBlank cs := by
  have hall := congrArg isAllBlank (List.takeWhile_append_dropWhile (p := isBlank) (l := cs))
  rwa [isAllBlank, List.all_append, List.all_takeWhile, Bool.true_and] at hall

theorem length_dropTrailingBlanks_le (cs : List Char) :
    (dropTrailingBlanks cs).length ≤ cs.length := by
  have hreverse : cs.reverse.length = cs.length := List.length_reverse
  rw [dropTrailingBlanks, List.length_reverse, ← hreverse]
  exact (List.dropWhile_sublist _).length_le

/-- The front of a text has the same trimmed text as the whole exactly if the rest is blank. -/
theorem trim_append_eq_iff (front rest : List Char) :
    trim (front ++ rest) = trim front ↔ isAllBlank rest = true := by
  rw [trim, trim, dropBlanks, List.dropWhile_append]
  change dropTrailingBlanks (if (dropBlanks front).isEmpty then dropBlanks rest
    else dropBlanks front ++ rest) = dropTrailingBlanks (dropBlanks front) ↔ _
  split
  · next hfront =>
    rw [List.isEmpty_iff.mp hfront]
    change dropTrailingBlanks (dropBlanks rest) = [] ↔ _
    rw [dropTrailingBlanks_eq_nil_iff, isAllBlank_dropBlanks]
  · rw [dropTrailingBlanks_append]
    by_cases hrest : isAllBlank rest = true
    · simp [hrest]
    · -- What follows the front is kept up to its last character that is no blank.
      rw [if_neg hrest]
      refine iff_of_false (fun hsame => ?_) hrest
      have hlength := congrArg List.length hsame
      have hkept := List.length_pos_iff.mpr (mt dropTrailingBlanks_eq_nil_iff.mp hrest)
      have hle := length_dropTrailingBlanks_le (dropBlanks front)
      rw [List.length_append] at hlength
      omega

end ExtensionAudit.Text
