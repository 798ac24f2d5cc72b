import Mathlib
import ExtensionAudit.Proofs.Text.Lines

/-!
# Words and the gaps between them

The words of a text are its stretches without blanks, and line breaks are blanks. Two texts can have
the same words with other gaps between them: what begins the first word of one begins that of the
other, and what ends the last word does so as well.
-/

namespace ExtensionAudit.Text

/-! ### Blanks around a text -/

/-- Every line break is a blank. -/
theorem isBlank_of_isLineBreak {c : Char} (hbreak : isLineBreak c = true) : isBlank c = true := by
  simp only [isLineBreak, isBlank, Bool.or_eq_true, Bool.and_eq_true, decide_eq_true_eq,
    beq_iff_eq] at hbreak ⊢
  omega

theorem dropBlanks_cons_of_blank {c : Char} (hblank : isBlank c = true) (cs : List Char) :
    dropBlanks (c :: cs) = dropBlanks cs := by
  rw [dropBlanks, List.dropWhile_cons_of_pos hblank, dropBlanks]

theorem dropBlanks_cons_of_not_blank {c : Char} (hword : ¬ isBlank c = true) (cs : List Char) :
    dropBlanks (c :: cs) = c :: cs := by
  rw [dropBlanks, List.dropWhile_cons_of_neg hword]

theorem dropBlanks_append_of_all {front : List Char} (hfront : isAllBlank front = true)
    (rest : List Char) : dropBlanks (front ++ rest) = dropBlanks rest := by
  have hall : ∀ c ∈ front, isBlank c = true := by simpa [isAllBlank] using hfront
  rw [dropBlanks, List.dropWhile_append_of_pos hall, dropBlanks]

/-- What is left of a text that begins with no blank begins as before. -/
theorem trim_cons_of_not_blank {c : Char} (hword : ¬ isBlank c = true) (rest : List Char) :
    trim (c :: rest) = c :: dropTrailingBlanks rest := by
  have hone : dropTrailingBlanks [c] = [c] := by
    simp [dropTrailingBlanks, hword]
  rw [trim, dropBlanks_cons_of_not_blank hword, ← List.singleton_append, dropTrailingBlanks_append]
  split
  · next hblank => rw [dropTrailingBlanks_eq_nil_iff.mpr hblank, hone]
  · rfl

/-- A word that holds no break begins a text if and only if it begins the text up to a break. -/
theorem prefix_takeWhile_iff {p : Char → Bool} {word cs : List Char} (hword : ∀ c ∈ word, p c) :
    word <+: cs.takeWhile p ↔ word <+: cs := by
  constructor
  · exact fun hbegins => hbegins.trans (List.takeWhile_prefix p)
  · rintro ⟨rest, rfl⟩
    rw [List.takeWhile_append_of_pos hword]
    exact List.prefix_append word _

/-! ### Texts that differ in their gaps -/

/-- The texts have the same words in the same order. Where one of them has a gap the other has one,
and each gap is made of breaks and other blanks of its own. -/
inductive SameWords : List Char → List Char → Prop
  | nil : SameWords [] []
  | char (c : Char) {a b : List Char} (hrest : SameWords a b) : SameWords (c :: a) (c :: b)
  | gap {x y a b : List Char} (hx : isAllBlank x = true) (hy : isAllBlank y = true)
      (hsome : x ≠ [] ∧ y ≠ []) (hrest : SameWords a b) : SameWords (x ++ a) (y ++ b)

namespace SameWords

variable {a b : List Char}

theorem append (hsame : SameWords a b) {c d : List Char} (hlater : SameWords c d) :
    SameWords (a ++ c) (b ++ d) := by
  induction hsame with
  | nil => exact hlater
  | char e _ ih => exact .char e ih
  | gap hx hy hsome _ ih =>
    rw [List.append_assoc, List.append_assoc]
    exact .gap hx hy hsome ih

theorem reverse (hsame : SameWords a b) : SameWords a.reverse b.reverse := by
  induction hsame with
  | nil => exact .nil
  | char c _ ih =>
    rw [List.reverse_cons, List.reverse_cons]
    exact ih.append (.char c .nil)
  | @gap x y a b hx hy hsome _ ih =>
    have hgap : SameWords (x.reverse ++ []) (y.reverse ++ []) := by
      refine .gap ?_ ?_ (by simpa using hsome) .nil
      · rwa [isAllBlank, List.all_reverse]
      · rwa [isAllBlank, List.all_reverse]
    rw [List.append_nil, List.append_nil] at hgap
    rw [List.reverse_append, List.reverse_append]
    exact ih.append hgap

theorem takeWhile_eq (hsame : SameWords a b) :
    a.takeWhile (!isBlank ·) = b.takeWhile (!isBlank ·) := by
  have hgap {x : List Char} (hx : isAllBlank x = true) (hsome : x ≠ []) (rest : List Char) :
      (x ++ rest).takeWhile (!isBlank ·) = [] := by
    obtain ⟨c, others, rfl⟩ := List.exists_cons_of_ne_nil hsome
    have hc : isBlank c = true := by
      rw [isAllBlank, List.all_cons, Bool.and_eq_true] at hx
      exact hx.1
    simp [hc]
  induction hsame with
  | nil => rfl
  | char c _ ih => rw [List.takeWhile_cons, List.takeWhile_cons, ih]
  | gap hx hy hsome _ _ => rw [hgap hx hsome.1, hgap hy hsome.2]

/-- The first words of the texts are the same. -/
theorem firstWord_eq (hsame : SameWords a b) :
    (dropBlanks a).takeWhile (!isBlank ·) = (dropBlanks b).takeWhile (!isBlank ·) := by
  induction hsame with
  | nil => rfl
  | @char c a b hrest ih =>
    by_cases hblank : isBlank c = true
    · rw [dropBlanks_cons_of_blank hblank, dropBlanks_cons_of_blank hblank, ih]
    · rw [dropBlanks_cons_of_not_blank hblank, dropBlanks_cons_of_not_blank hblank]
      exact (SameWords.char c hrest).takeWhile_eq
  | gap hx hy _ _ ih => rw [dropBlanks_append_of_all hx, dropBlanks_append_of_all hy, ih]

theorem prefix_iff (hsame : SameWords a b) {word : List Char} (hword : ∀ c ∈ word, !isBlank c) :
    word <+: dropBlanks a ↔ word <+: dropBlanks b := by
  rw [← prefix_takeWhile_iff hword, hsame.firstWord_eq, prefix_takeWhile_iff hword]

theorem suffix_iff (hsame : SameWords a b) {word : List Char} (hword : ∀ c ∈ word, !isBlank c) :
    word <:+ dropTrailingBlanks a ↔ word <:+ dropTrailingBlanks b := by
  have hback (cs : List Char) :
      word <:+ dropTrailingBlanks cs ↔ word.reverse <+: dropBlanks cs.reverse := by
    rw [← List.reverse_prefix, dropTrailingBlanks, List.reverse_reverse, dropBlanks]
  rw [hback, hback]
  exact hsame.reverse.prefix_iff fun c hc => hword c (List.mem_reverse.mp hc)

end SameWords

end ExtensionAudit.Text
