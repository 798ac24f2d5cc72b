import Mathlib
import ExtensionAudit.Text.Case

/-!
# Letter case around ASCII

There are two notions of the same letter: to be the same ignoring case, and to have the same
lower-case form. On ASCII they agree, and both are the letter case that the core library knows. A
character beyond ASCII may be the same as an ASCII letter ignoring case, and most often it is not
that letter in lower case: the dotless i and the long s are letters in lower case themselves, and
the capital i with a dot keeps the dot. The sign of the kelvin is the one exception.
-/

namespace ExtensionAudit.Text

def IsAscii (cs : List Char) : Prop := ∀ c ∈ cs, c.toNat < 128

instance (cs : List Char) : Decidable (IsAscii cs) :=
  List.decidableBAll _ cs

/-- The characters that are an ASCII letter ignoring case and none in lower case. -/
def strayLetters : List Char := ['\u0130', '\u0131', '\u017F']

/-! ### Characters of ASCII -/

/-- What holds of the characters below 128, one by one, holds of a character of ASCII. -/
theorem of_ascii {motive : Char → Prop} (hall : ∀ n < 128, motive (Char.ofNat n)) {c : Char}
    (hc : c.toNat < 128) : motive c := by
  have hmotive := hall c.toNat hc
  rwa [Char.ofNat_toNat] at hmotive

theorem toNat_toLower_lt {c : Char} (hc : c.toNat < 128) : c.toLower.toNat < 128 :=
  of_ascii (motive := fun c => c.toLower.toNat < 128) (by decide) hc

theorem toLower_toLower {c : Char} (hc : c.toNat < 128) : c.toLower.toLower = c.toLower :=
  of_ascii (motive := fun c => c.toLower.toLower = c.toLower) (by decide) hc

theorem toLower_toUpper {c : Char} (hc : c.toNat < 128) : c.toUpper.toLower = c.toLower :=
  of_ascii (motive := fun c => c.toUpper.toLower = c.toLower) (by decide) hc

theorem toNat_toUpper_lt {c : Char} (hc : c.toNat < 128) : c.toUpper.toNat < 128 :=
  of_ascii (motive := fun c => c.toUpper.toNat < 128) (by decide) hc

/-! ### Runs of a case mapping -/

theorem applyRuns_cases (n : Nat) (runs : List CaseRun) :
    applyRuns n runs = n
      ∨ ∃ run ∈ runs, run.first ≤ n ∧ n ≤ run.last ∧ applyRuns n runs = (n + run.shift).toNat
        ∧ run.step ∣ n - run.first := by
  induction runs with
  | nil => exact .inl rfl
  | cons run rest ih =>
    have hlater : applyRuns n (run :: rest) = applyRuns n rest →
        applyRuns n (run :: rest) = n ∨ ∃ other ∈ run :: rest, other.first ≤ n ∧ n ≤ other.last
          ∧ applyRuns n (run :: rest) = (n + other.shift).toNat ∧ other.step ∣ n - other.first := by
      intro hrest
      rw [hrest]
      obtain hsame | ⟨other, hmem, hother⟩ := ih
      · exact .inl hsame
      · exact .inr ⟨other, List.mem_cons_of_mem run hmem, hother⟩
    rw [applyRuns] at hlater ⊢
    split
    · exact .inl rfl
    · next hfirst =>
      split
      · next hlast =>
        split
        · next hstep =>
          exact .inr ⟨run, List.mem_cons_self, Nat.le_of_not_lt hfirst, hlast, rfl,
            Nat.dvd_of_mod_eq_zero (beq_iff_eq.mp hstep)⟩
        · next hstep =>
          rw [if_neg hfirst, if_pos hlast, if_neg hstep] at hlater
          exact hlater rfl
      · next hlast =>
        rw [if_neg hfirst, if_neg hlast] at hlater
        exact hlater rfl

/-- What the run maps goes to characters, and to none of ASCII. -/
def CaseRun.StaysBeyond (run : CaseRun) : Prop :=
  128 ≤ run.first + run.shift
    ∧ (run.last + run.shift < 0xD800
        ∨ 0xDFFF < run.first + run.shift ∧ run.last + run.shift < 0x110000)

instance (run : CaseRun) : Decidable run.StaysBeyond :=
  inferInstanceAs (Decidable (_ ∧ (_ ∨ _ ∧ _)))

/-- A character beyond ASCII stays there, but for the ones that a table names. -/
theorem le_toNat_applyRuns {runs : List CaseRun} {named : List Nat}
    (hruns : ∀ run ∈ runs, run.StaysBeyond ∨ run.first = run.last ∧ run.first ∈ named) {c : Char}
    (hc : 128 ≤ c.toNat) (hother : c.toNat ∉ named) :
    128 ≤ (Char.ofNat (applyRuns c.toNat runs)).toNat := by
  obtain hsame | ⟨run, hmem, hfirst, hlast, hmoved, -⟩ := applyRuns_cases c.toNat runs
  · rwa [hsame, Char.ofNat_toNat]
  · obtain ⟨hlow, hvalid⟩ | ⟨hone, hnamed⟩ := hruns run hmem
    · have hchar : Nat.isValidChar (c.toNat + run.shift).toNat := by
        unfold Nat.isValidChar
        omega
      rw [hmoved, Char.toNat_ofNat, if_pos hchar]
      omega
    · exact absurd (Nat.le_antisymm (hone ▸ hlast) hfirst ▸ hnamed) hother

theorem eq_of_applyRuns {runs : List CaseRun} {n m : Nat} (hm : 0 < m)
    (hruns : ∀ run ∈ runs, run.last + run.shift < m ∨ m < run.first + run.shift)
    (hmapped : applyRuns n runs = m) : n = m := by
  obtain hsame | ⟨run, hmem, hfirst, hlast, hmoved, -⟩ := applyRuns_cases n runs
  · rw [← hmapped, hsame]
  · have hout := hruns run hmem
    omega

/-- Of what the table maps, only the sign of the kelvin goes to ASCII, and nothing goes to a stray
letter. -/
theorem lowerRuns_checked : ∀ run ∈ lowerRuns,
    (run.StaysBeyond ∨ run.first = run.last ∧ run.first ∈ [0x212A])
      ∧ ∀ code ∈ ([0x130, 0x131, 0x17F] : List Nat),
        run.last + run.shift < code ∨ code < run.first + run.shift := by
  decide +kernel

theorem upperTables_checked :
    (∀ run ∈ upperRuns, run.StaysBeyond ∨ run.first = run.last ∧ run.first ∈ [0x131, 0x17F])
      ∧ ∀ entry ∈ upperSequences, 2 ≤ entry.2.length := by
  decide +kernel

/-! ### The same letter -/

theorem lowerChar_of_ascii {c : Char} (hc : c.toNat < 128) : lowerChar c = c.toLower := if_pos hc

/-- The table at the sign of the kelvin, at the capital sigma, and at characters in lower case. -/
theorem lowerChar_beyond : lowerChar '\u212A' = 'k' ∧ lowerChar '\u03A3' = '\u03C3'
    ∧ lowerChar '\u0131' = '\u0131' ∧ lowerChar '\u017F' = '\u017F'
    ∧ lowerChar '\u0307' = '\u0307' ∧ lowerChar '\u03C2' = '\u03C2'
    ∧ lowerChar '\u03C3' = '\u03C3' := by
  decide +kernel

theorem lowerChar_kelvin : lowerChar '\u212A' = 'k' := lowerChar_beyond.1

theorem lowerChar_sigma : lowerChar '\u03A3' = '\u03C3' := lowerChar_beyond.2.1

theorem lowerChar_fixed {c : Char}
    (hc : c ∈ ['\u0131', '\u017F', '\u0307', '\u03C2', '\u03C3']) : lowerChar c = c := by
  obtain ⟨-, -, hdotless, hlong, hdot, hfinal, hmedial⟩ := lowerChar_beyond
  simp only [List.mem_cons, List.not_mem_nil, or_false] at hc
  obtain rfl | rfl | rfl | rfl | rfl := hc
  · exact hdotless
  · exact hlong
  · exact hdot
  · exact hfinal
  · exact hmedial

/-- What a character beyond ASCII is in lower case lies beyond ASCII too, but for one sign. -/
theorem le_toNat_lowerChar {c : Char} (hc : 128 ≤ c.toNat) (hsign : c ≠ '\u212A') :
    128 ≤ (lowerChar c).toNat := by
  rw [lowerChar, if_neg (Nat.not_lt.mpr hc)]
  apply le_toNat_applyRuns (fun run hmem => (lowerRuns_checked run hmem).1) hc
  rw [List.mem_singleton]
  exact fun hcode => hsign (Char.toNat_inj.mp hcode)

/-- No other character is a stray letter in lower case. -/
theorem eq_of_lowerChar {c d : Char} (hd : d ∈ strayLetters) (hlower : lowerChar c = d) : c = d := by
  have hstray : d.toNat ∈ [0x130, 0x131, 0x17F] := List.mem_map_of_mem hd
  have hbeyond : 128 ≤ d.toNat := by
    simp only [List.mem_cons, List.not_mem_nil, or_false] at hstray
    omega
  by_cases hc : c.toNat < 128
  · rw [lowerChar_of_ascii hc] at hlower
    have hascii := toNat_toLower_lt hc
    rw [hlower] at hascii
    omega
  · rw [lowerChar, if_neg hc] at hlower
    have hcode : (Char.ofNat (applyRuns c.toNat lowerRuns)).toNat = d.toNat := by rw [hlower]
    rw [Char.toNat_ofNat] at hcode
    split at hcode
    · have hmissed := fun run hmem => (lowerRuns_checked run hmem).2 d.toNat hstray
      exact Char.toNat_inj.mp (eq_of_applyRuns (by omega) hmissed hcode)
    · omega

theorem upperChars_of_ascii {c : Char} (hc : c.toNat < 128) : upperChars c = [c.toUpper] :=
  if_pos hc

/-- Beyond ASCII only the dotless i and the long s are an ASCII letter in upper case. -/
theorem upperChars_ne_of_ascii {c d : Char} (hc : 128 ≤ c.toNat) (hd : d.toNat < 128)
    (hother : c ≠ '\u0131' ∧ c ≠ '\u017F') : upperChars c ≠ [d] := by
  intro hupper
  rw [upperChars, if_neg (Nat.not_lt.mpr hc)] at hupper
  split at hupper
  · next codes hcodes =>
    obtain ⟨front, behind, hentries, -⟩ := List.lookup_eq_some_iff.mp hcodes
    have hlong : 2 ≤ codes.length := by
      apply upperTables_checked.2 (c.toNat, codes)
      rw [hentries]
      exact List.mem_append_right front List.mem_cons_self
    have hone : codes.length = 1 := by simpa using congrArg List.length hupper
    omega
  · have hbeyond : 128 ≤ (Char.ofNat (applyRuns c.toNat upperRuns)).toNat := by
      apply le_toNat_applyRuns upperTables_checked.1 hc
      rw [List.mem_cons, List.mem_singleton, not_or]
      exact ⟨fun hcode => hother.1 (Char.toNat_inj.mp hcode),
        fun hcode => hother.2 (Char.toNat_inj.mp hcode)⟩
    rw [List.singleton_inj.mp hupper] at hbeyond
    omega

theorem lowerLetter_of_ne {c : Char} (hc : c ≠ '\u0130') : lowerLetter c = lowerChar c :=
  if_neg (by simpa using hc)

/-- A character that is the same as an ASCII one ignoring case is also the same in lower case, but
for the stray letters. -/
theorem lowerChar_of_sameLetter {p c : Char} (hp : p.toNat < 128) (hsame : sameLetter p c = true)
    (hstray : c ∉ strayLetters) : lowerChar c = p.toLower := by
  simp only [strayLetters, List.mem_cons, List.not_mem_nil, or_false, not_or] at hstray
  obtain ⟨hdotted, hdotless, hlong⟩ := hstray
  have hpdot : p ≠ '\u0130' := by
    rintro rfl
    exact absurd hp (by decide)
  rw [sameLetter, lowerLetter_of_ne hpdot, lowerLetter_of_ne hdotted, lowerChar_of_ascii hp,
    upperChars_of_ascii (toNat_toLower_lt hp), Bool.or_eq_true, beq_iff_eq, beq_iff_eq] at hsame
  obtain hlower | hupper := hsame
  · exact hlower.symm
  -- The two are written alike in upper case, so the lower-case form is of ASCII as well.
  have hascii : (lowerChar c).toNat < 128 := by
    by_contra hbeyond
    refine upperChars_ne_of_ascii (Nat.le_of_not_lt hbeyond)
      (toNat_toUpper_lt (toNat_toLower_lt hp)) ⟨?_, ?_⟩ hupper.symm
    · exact fun hlower => hdotless (eq_of_lowerChar (by decide) hlower)
    · exact fun hlower => hlong (eq_of_lowerChar (by decide) hlower)
  have hfixed : (lowerChar c).toLower = lowerChar c := by
    by_cases hc : c.toNat < 128
    · rw [lowerChar_of_ascii hc, toLower_toLower hc]
    · by_cases hsign : c = '\u212A'
      · rw [hsign, lowerChar_kelvin]
        decide
      · exact absurd (le_toNat_lowerChar (Nat.le_of_not_lt hc) hsign) (Nat.not_le.mpr hascii)
  rw [upperChars_of_ascii hascii] at hupper
  calc
    lowerChar c = (lowerChar c).toLower := hfixed.symm
    _ = (lowerChar c).toUpper.toLower := (toLower_toUpper hascii).symm
    _ = p.toLower.toUpper.toLower := by rw [List.singleton_inj.mp hupper]
    _ = p.toLower.toLower := toLower_toUpper (toNat_toLower_lt hp)
    _ = p.toLower := toLower_toLower hp

theorem not_mem_strayLetters {c : Char} (hc : c.toNat < 128) : c ∉ strayLetters := by
  intro hmem
  simp only [strayLetters, List.mem_cons, List.not_mem_nil, or_false] at hmem
  obtain rfl | rfl | rfl := hmem <;> exact absurd hc (by decide)

theorem sameLetter_iff_of_ascii {p c : Char} (hp : p.toNat < 128) (hc : c.toNat < 128) :
    sameLetter p c = true ↔ p.toLower = c.toLower := by
  constructor
  · intro hsame
    rw [← lowerChar_of_sameLetter hp hsame (not_mem_strayLetters hc), lowerChar_of_ascii hc]
  · have hdot {d : Char} (hd : d.toNat < 128) : d ≠ '\u0130' := by
      rintro rfl
      exact absurd hd (by decide)
    intro hlower
    rw [sameLetter, lowerLetter_of_ne (hdot hp), lowerLetter_of_ne (hdot hc),
      lowerChar_of_ascii hp, lowerChar_of_ascii hc, hlower, beq_self_eq_true, Bool.true_or]

/-! ### Texts in lower case -/

/-- A text that is the same as an ASCII one ignoring case has the same lower-case form, if it holds
no stray letter. -/
theorem lowerAfter_of_sameLetters {name written : List Char} (hname : IsAscii name)
    (hsame : List.Forall₂ (fun p c => sameLetter p c = true) name written)
    (hstray : ∀ c ∈ written, c ∉ strayLetters) (before : List Char) :
    lowerAfter before written = name.map Char.toLower := by
  induction hsame generalizing before with
  | nil => rfl
  | @cons p c name rest hletter _ ih =>
    obtain ⟨hp, hlater⟩ := List.forall_mem_cons.mp hname
    obtain ⟨hplain, hothers⟩ := List.forall_mem_cons.mp hstray
    have hlower : lowerChar c = p.toLower := lowerChar_of_sameLetter hp hletter hplain
    have hdotted : c ≠ '\u0130' := by
      rintro rfl
      exact hplain (by decide)
    have hsigma : c ≠ '\u03A3' := by
      rintro rfl
      have hascii := toNat_toLower_lt hp
      rw [← hlower, lowerChar_sigma] at hascii
      exact absurd hascii (by decide)
    have hone : lowerChars before c rest = [p.toLower] := by
      rw [lowerChars, if_neg (by simpa using hsigma), if_neg (by simpa using hdotted), hlower]
    rw [lowerAfter, hone, ih hlater hothers]
    rfl

theorem toList_lower_of_ascii {s : String} (hs : IsAscii s.toList) :
    (lower s).toList = s.toList.map Char.toLower := by
  have hself : List.Forall₂ (fun p c => sameLetter p c = true) s.toList s.toList :=
    List.forall₂_same.mpr fun c hc => (sameLetter_iff_of_ascii (hs c hc) (hs c hc)).mpr rfl
  rw [lower, String.toList_ofList]
  exact lowerAfter_of_sameLetters hs hself (fun c hc => not_mem_strayLetters (hs c hc)) []

theorem not_isAscii_lowerAfter {written : List Char}
    (hstray : ∃ c ∈ written, c ∈ strayLetters) (before : List Char) :
    ¬ IsAscii (lowerAfter before written) := by
  induction written generalizing before with
  | nil => simp at hstray
  | cons c rest ih =>
    intro hascii
    rw [lowerAfter] at hascii
    obtain ⟨d, hd, hletter⟩ := hstray
    obtain rfl | hlater := List.mem_cons.mp hd
    · have hbeyond : ∃ e ∈ lowerChars before d rest, 128 ≤ e.toNat := by
        simp only [strayLetters, List.mem_cons, List.not_mem_nil, or_false] at hletter
        obtain rfl | rfl | rfl := hletter
        · exact ⟨'\u0307', by simp [lowerChars], by decide⟩
        · exact ⟨'\u0131', by simp [lowerChars, lowerChar_fixed], by decide⟩
        · exact ⟨'\u017F', by simp [lowerChars, lowerChar_fixed], by decide⟩
      obtain ⟨e, he, hcode⟩ := hbeyond
      exact absurd (hascii e (List.mem_append_left _ he)) (Nat.not_lt.mpr hcode)
    · exact ih ⟨d, hlater, hletter⟩ (c :: before)
        fun e he => hascii e (List.mem_append_right _ he)

/-! ### Slashes -/

/-- Nothing but a slash is a slash in lower case. -/
theorem lowerChar_eq_slash_iff {c : Char} : lowerChar c = '/' ↔ c = '/' := by
  by_cases hc : c.toNat < 128
  · rw [lowerChar_of_ascii hc]
    exact of_ascii (motive := fun c => c.toLower = '/' ↔ c = '/') (by decide) hc
  · have hbeyond := Nat.not_lt.mp hc
    refine iff_of_false (fun hslash => ?_) fun hslash => ?_
    · by_cases hsign : c = '\u212A'
      · rw [hsign, lowerChar_kelvin] at hslash
        exact absurd hslash (by decide)
      · have hcode := le_toNat_lowerChar hbeyond hsign
        rw [hslash] at hcode
        exact absurd hcode (by decide)
    · rw [hslash] at hbeyond
      exact absurd hbeyond (by decide)

theorem slash_mem_lowerChars_iff {before after : List Char} {c : Char} :
    '/' ∈ lowerChars before c after ↔ c = '/' := by
  rw [lowerChars]
  split
  · next hsigma =>
    rw [beq_iff_eq.mp hsigma]
    split <;> simp
  · split
    · next hdotted =>
      rw [beq_iff_eq.mp hdotted]
      simp
    · rw [List.mem_singleton, eq_comm, lowerChar_eq_slash_iff]

/-- A text holds a slash if and only if it does in lower case. -/
theorem slash_mem_lower_iff {s : String} : '/' ∈ (lower s).toList ↔ '/' ∈ s.toList := by
  have hafter (before written : List Char) : '/' ∈ lowerAfter before written ↔ '/' ∈ written := by
    induction written generalizing before with
    | nil => rfl
    | cons c rest ih =>
      rw [lowerAfter, List.mem_append, slash_mem_lowerChars_iff, ih, List.mem_cons, eq_comm]
  rw [lower, String.toList_ofList]
  exact hafter [] s.toList

end ExtensionAudit.Text
