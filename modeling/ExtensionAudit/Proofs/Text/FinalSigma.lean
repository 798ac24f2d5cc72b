import Mathlib
import ExtensionAudit.Proofs.Text.Case

/-!
# Lower case and what follows

What a character is in lower case depends on its neighbours in one case only: a capital sigma has a
form of its own at the end of a word. So a text in lower case begins as its front does in lower
case, unless the front ends in a sigma that ends a word there and ends none in the whole text. A
front that is in lower case already holds no capital sigma.
-/

namespace ExtensionAudit.Text

/-! ### Characters that are in lower case -/

/-- Whether none of the code points to which a run moves others is moved by the other run: they lie
beside its range, or between the ones of it that every second step leaves out. -/
def CaseRun.isClearOf (run other : CaseRun) : Bool :=
  (run.last + run.shift).toNat.blt other.first || other.last.blt (run.first + run.shift).toNat
    || (other.step == 2 && (run.step == 2 || run.first == run.last)
      && ((run.first + run.shift).toNat + other.first) % 2 == 1)

theorem lowerRuns_clear : ∀ run ∈ lowerRuns, 0 ≤ run.first + run.shift
    ∧ lowerRuns.all run.isClearOf = true := by
  decide +kernel

theorem applyRuns_lowerRuns (n : Nat) :
    applyRuns (applyRuns n lowerRuns) lowerRuns = applyRuns n lowerRuns := by
  obtain hsame | ⟨run, hmem, hfirst, hlast, hmoved, hstep⟩ := applyRuns_cases n lowerRuns
  · rw [hsame, hsame]
  obtain hfixed | ⟨other, hother, hlow, hhigh, -, hotherStep⟩ :=
    applyRuns_cases (applyRuns n lowerRuns) lowerRuns
  · exact hfixed
  · obtain ⟨hnonneg, hclear⟩ := lowerRuns_clear run hmem
    have hclear := List.all_eq_true.mp hclear other hother
    simp only [CaseRun.isClearOf, Bool.or_eq_true, Bool.and_eq_true, Nat.blt_eq,
      beq_iff_eq] at hclear
    rw [hmoved] at hlow hhigh hotherStep
    obtain (hbelow | habove) | ⟨⟨htwo, heven⟩, hodd⟩ := hclear
    · omega
    · omega
    · rw [htwo] at hotherStep
      obtain hrun | hone := heven
      · rw [hrun] at hstep
        omega
      · omega

theorem lowerChar_lowerChar (c : Char) : lowerChar (lowerChar c) = lowerChar c := by
  by_cases hc : c.toNat < 128
  · rw [lowerChar_of_ascii hc, lowerChar_of_ascii (toNat_toLower_lt hc), toLower_toLower hc]
  by_cases hsign : c = '\u212A'
  · rw [hsign, lowerChar_kelvin]
    exact lowerChar_of_ascii (by decide)
  have hbeyond := le_toNat_lowerChar (Nat.le_of_not_lt hc) hsign
  have hlower : lowerChar c = Char.ofNat (applyRuns c.toNat lowerRuns) := by
    rw [lowerChar, if_neg hc]
  have hcode : (lowerChar c).toNat = applyRuns c.toNat lowerRuns := by
    rw [hlower, Char.toNat_ofNat] at hbeyond ⊢
    split at hbeyond
    · next hvalid => rw [if_pos hvalid]
    · omega
  calc
    lowerChar (lowerChar c) = Char.ofNat (applyRuns (lowerChar c).toNat lowerRuns) := by
      rw [lowerChar, if_neg (Nat.not_lt.mpr hbeyond)]
    _ = Char.ofNat (applyRuns c.toNat lowerRuns) := by rw [hcode, applyRuns_lowerRuns]
    _ = lowerChar c := hlower.symm

/-- The character stays as it is in lower case, wherever it stands. -/
def IsLower (c : Char) : Prop := ∀ before after, lowerChars before c after = [c]

theorem isLower_of_lowerChar {c : Char} (hfixed : lowerChar c = c) (hdotted : c ≠ '\u0130') :
    IsLower c := by
  have hsigma : c ≠ '\u03A3' := by
    rintro rfl
    rw [lowerChar_sigma] at hfixed
    exact absurd hfixed (by decide)
  intro before after
  rw [lowerChars, if_neg (by simpa using hsigma), if_neg (by simpa using hdotted), hfixed]

theorem isLower_of_mem_lowerChars {before after : List Char} {c d : Char}
    (hmem : d ∈ lowerChars before c after) : IsLower d := by
  rw [lowerChars] at hmem
  split at hmem
  · have hsigma : d = '\u03C2' ∨ d = '\u03C3' := by
      split at hmem
      · exact .inl (List.mem_singleton.mp hmem)
      · exact .inr (List.mem_singleton.mp hmem)
    obtain rfl | rfl := hsigma <;>
      exact isLower_of_lowerChar (lowerChar_fixed (by decide)) (by decide)
  split at hmem
  · simp only [List.mem_cons, List.not_mem_nil, or_false] at hmem
    obtain rfl | rfl := hmem
    · exact isLower_of_lowerChar (lowerChar_of_ascii (by decide)) (by decide)
    · exact isLower_of_lowerChar (lowerChar_fixed (by decide)) (by decide)
  · next hdotted =>
    rw [List.mem_singleton.mp hmem]
    refine isLower_of_lowerChar (lowerChar_lowerChar c) fun hlower => hdotted ?_
    rw [beq_iff_eq]
    exact eq_of_lowerChar (by decide) hlower

theorem isLower_of_mem_lowerAfter {before cs : List Char} {d : Char}
    (hmem : d ∈ lowerAfter before cs) : IsLower d := by
  induction cs generalizing before with
  | nil => cases hmem
  | cons c rest ih =>
    rw [lowerAfter, List.mem_append] at hmem
    obtain hfirst | hlater := hmem
    · exact isLower_of_mem_lowerChars hfirst
    · exact ih hlater

/-! ### A front in lower case -/

theorem lowerAfter_append_of_isLower {front : List Char} (hfront : ∀ c ∈ front, IsLower c)
    (before rest : List Char) :
    lowerAfter before (front ++ rest) = front ++ lowerAfter (front.reverse ++ before) rest := by
  induction front generalizing before with
  | nil => rfl
  | cons c front ih =>
    obtain ⟨hc, hlater⟩ := List.forall_mem_cons.mp hfront
    rw [List.cons_append, lowerAfter, hc, ih hlater, List.reverse_cons, List.append_assoc]
    rfl

theorem isLower_of_mem_lower {s : String} {c : Char} (hmem : c ∈ (lower s).toList) : IsLower c := by
  rw [lower, String.toList_ofList] at hmem
  exact isLower_of_mem_lowerAfter hmem

/-- What is in lower case is left as it is by lower-casing, whatever follows. -/
theorem toList_lower_lower_append (front rest : String) :
    (lower (lower front ++ rest)).toList
      = (lower front).toList ++ lowerAfter (lower front).toList.reverse rest.toList := by
  rw [lower, String.toList_ofList, String.toList_append,
    lowerAfter_append_of_isLower (fun c hmem => isLower_of_mem_lower hmem), List.append_nil]

theorem lower_lower (s : String) : lower (lower s) = lower s := by
  have hself := toList_lower_lower_append s ""
  rw [String.append_empty] at hself
  exact String.toList_inj.mp (hself.trans (List.append_nil _))

/-! ### A front in any case -/

/-- The front ends in a capital sigma that ends a word, and in the text that goes on it ends none.
Characters that are passed over when the letters of a word are looked for may stand between. -/
def BreaksAfterSigma (front rest : List Char) : Prop :=
  ∃ word marks, front = word ++ '\u03A3' :: marks ∧ startsCased word.reverse = true
    ∧ (∀ c ∈ marks, isIgnorable c = true) ∧ startsCased rest = true

theorem not_breaksAfterSigma {front : List Char} (hfront : '\u03A3' ∉ front) (rest : List Char) :
    ¬ BreaksAfterSigma front rest := by
  rintro ⟨word, marks, rfl, -⟩
  exact hfront (List.mem_append_right word List.mem_cons_self)

/-- The lower-case form of a text that stands between `before`, nearest character first, and
`after`. -/
def lowerBetween : List Char → List Char → List Char → List Char
  | _, [], _ => []
  | before, c :: rest, after =>
    lowerChars before c (rest ++ after) ++ lowerBetween (c :: before) rest after

theorem lowerAfter_append (before front rest : List Char) :
    lowerAfter before (front ++ rest)
      = lowerBetween before front rest ++ lowerAfter (front.reverse ++ before) rest := by
  induction front generalizing before with
  | nil => rfl
  | cons c front ih =>
    rw [List.cons_append, lowerAfter, lowerBetween, ih, List.append_assoc, List.reverse_cons,
      List.append_assoc, List.singleton_append]

theorem length_lowerChars (before after later : List Char) (c : Char) :
    (lowerChars before c after).length = (lowerChars before c later).length := by
  rw [lowerChars, lowerChars]
  split
  · rfl
  · rfl

theorem length_lowerBetween (before front rest : List Char) :
    (lowerBetween before front rest).length = (lowerAfter before front).length := by
  induction front generalizing before with
  | nil => rfl
  | cons c front ih =>
    rw [lowerBetween, lowerAfter, List.length_append, List.length_append, ih,
      length_lowerChars before (front ++ rest) front]

theorem startsCased_of_ignorable {marks : List Char} (hmarks : ∀ c ∈ marks, isIgnorable c = true) :
    startsCased marks = false := by
  rw [startsCased, List.dropWhile_eq_nil_iff.mpr hmarks]

theorem startsCased_append_of_ignorable {marks : List Char}
    (hmarks : ∀ c ∈ marks, isIgnorable c = true) (rest : List Char) :
    startsCased (marks ++ rest) = startsCased rest := by
  rw [startsCased, List.dropWhile_append_of_pos hmarks, startsCased]

theorem startsCased_append_of_not_ignorable {front : List Char}
    (hfront : ¬ ∀ c ∈ front, isIgnorable c = true) (rest : List Char) :
    startsCased (front ++ rest) = startsCased front := by
  rw [startsCased, startsCased, List.dropWhile_append]
  cases hletters : front.dropWhile isIgnorable with
  | nil => exact absurd (List.dropWhile_eq_nil_iff.mp hletters) hfront
  | cons c letters => rfl

/-- A character is the same in lower case in front of a text and in front of more, unless it is a
sigma at the end of a word that goes on there. -/
theorem lowerChars_append_eq_iff {before front rest : List Char} {c : Char} :
    lowerChars before c (front ++ rest) = lowerChars before c front
      ↔ ¬ (c = '\u03A3' ∧ startsCased before = true ∧ (∀ d ∈ front, isIgnorable d = true)
        ∧ startsCased rest = true) := by
  by_cases hsigma : c = '\u03A3'
  · by_cases hfront : ∀ d ∈ front, isIgnorable d = true
    · rw [lowerChars, lowerChars, startsCased_append_of_ignorable hfront,
        startsCased_of_ignorable hfront]
      cases startsCased before <;> cases startsCased rest <;> simp [hsigma]
      exact hfront
    · rw [lowerChars, lowerChars, startsCased_append_of_not_ignorable hfront]
      simp [hfront]
  · simp [lowerChars, hsigma]

theorem lowerBetween_eq_iff {before front rest : List Char} :
    lowerBetween before front rest = lowerAfter before front
      ↔ ∀ word c marks, front = word ++ c :: marks →
        lowerChars (word.reverse ++ before) c (marks ++ rest)
          = lowerChars (word.reverse ++ before) c marks := by
  induction front generalizing before with
  | nil => simp [lowerBetween, lowerAfter]
  | cons first front ih =>
    rw [lowerBetween, lowerAfter]
    constructor
    · intro hsame word c marks hsplit
      have hlength := length_lowerChars before (front ++ rest) front first
      obtain ⟨hfirst, hlater⟩ := List.append_inj hsame hlength
      cases word with
      | nil =>
        obtain ⟨rfl, rfl⟩ := List.cons_eq_cons.mp hsplit
        exact hfirst
      | cons d word =>
        obtain ⟨rfl, htail⟩ := List.cons_eq_cons.mp hsplit
        rw [List.reverse_cons, List.append_assoc]
        exact ih.mp hlater word c marks htail
    · intro hall
      have hfirst : lowerChars before first (front ++ rest) = lowerChars before first front :=
        hall [] first front rfl
      rw [hfirst, ih.mpr fun word c marks hsplit => ?_]
      have hlater := hall (first :: word) c marks (congrArg _ hsplit)
      rwa [List.reverse_cons, List.append_assoc] at hlater

/-- A text in lower case begins as its front does in lower case, unless the front breaks off after a
sigma. -/
theorem lower_prefix_append_iff {front rest : String} :
    (lower front).toList <+: (lower (front ++ rest)).toList
      ↔ ¬ BreaksAfterSigma front.toList rest.toList := by
  rw [lower, lower, String.toList_ofList, String.toList_ofList, String.toList_append,
    lowerAfter_append, List.append_nil]
  have hlength := length_lowerBetween [] front.toList rest.toList
  have hfront : lowerAfter [] front.toList <+: lowerBetween [] front.toList rest.toList
        ++ lowerAfter front.toList.reverse rest.toList
      ↔ lowerBetween [] front.toList rest.toList = lowerAfter [] front.toList := by
    constructor
    · rintro ⟨later, hsame⟩
      exact (List.append_inj_left hsame hlength.symm).symm
    · intro hsame
      rw [hsame]
      exact List.prefix_append _ _
  rw [hfront, lowerBetween_eq_iff]
  simp only [List.append_nil, lowerChars_append_eq_iff]
  constructor
  · rintro hnone ⟨word, marks, hsplit, hword, hmarks, hrest⟩
    exact hnone word _ marks hsplit ⟨rfl, hword, hmarks, hrest⟩
  · rintro hnone word c marks hsplit ⟨rfl, hword, hmarks, hrest⟩
    exact hnone ⟨word, marks, hsplit, hword, hmarks, hrest⟩

end ExtensionAudit.Text
