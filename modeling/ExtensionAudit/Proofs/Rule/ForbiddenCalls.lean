import Mathlib
import ExtensionAudit.Rule.ForbiddenCalls
import ExtensionAudit.Proofs.Text.Case

/-!
# How a forbidden call is reported

A call is found by its letters, whatever their case, and its severity is then looked up under the
name in lower case. Where the two agree on what is the same name, each call that is found has its
unit of work announced and its message made. Where they do not, a call is found that has no
severity, and the rule fails over it.

For names of ASCII the two disagree over three letters only, the stray ones: a line fails exactly if
a call on it is written with one of them.
-/

namespace ExtensionAudit.ForbiddenCalls

variable {names : List (List Char)} {name written rest cs : List Char}

/-! ### Calls that are found -/

/-- The text spells the name, letter by letter and ignoring case. -/
def Spells (name written : List Char) : Prop :=
  List.Forall₂ (fun p c => Text.sameLetter p c = true) name written

theorem matchName_eq_some_iff :
    matchName name cs = some (written, rest) ↔ cs = written ++ rest ∧ Spells name written := by
  induction name generalizing cs written with
  | nil =>
    rw [matchName, Spells, List.forall₂_nil_left_iff]
    constructor
    · intro hfound
      obtain ⟨rfl, rfl⟩ := Prod.mk.inj (Option.some.inj hfound)
      exact ⟨rfl, rfl⟩
    · rintro ⟨rfl, rfl⟩
      rfl
  | cons p name ih =>
    cases cs with
    | nil =>
      rw [matchName, Spells, List.forall₂_cons_left_iff]
      constructor
      · intro hfound
        cases hfound
      · rintro ⟨hsplit, c, later, -, -, rfl⟩
        cases hsplit
    | cons c cs =>
      rw [matchName, Spells, List.forall₂_cons_left_iff]
      constructor
      · intro hfound
        split at hfound
        · next hletter =>
          obtain ⟨⟨later, tail⟩, hlater, hpair⟩ := Option.map_eq_some_iff.mp hfound
          obtain ⟨rfl, rfl⟩ := Prod.mk.inj hpair
          obtain ⟨rfl, hspells⟩ := ih.mp hlater
          exact ⟨rfl, c, later, hletter, hspells, rfl⟩
        · cases hfound
      · rintro ⟨hsplit, d, later, hletter, hspells, rfl⟩
        obtain ⟨rfl, hrest⟩ := List.cons.inj hsplit
        rw [if_pos hletter, ih.mpr ⟨hrest, hspells⟩]
        rfl

theorem openingBracket_eq_some_iff :
    openingBracket cs = some rest
      ↔ ∃ gap, (∀ c ∈ gap, Text.isBlank c = true) ∧ cs = gap ++ '(' :: rest := by
  have hbracket : Text.isBlank '(' = false := by decide
  rw [openingBracket, Text.dropBlanks]
  constructor
  · intro hfound
    split at hfound
    · next behind hbehind =>
      obtain rfl := Option.some.inj hfound
      refine ⟨cs.takeWhile Text.isBlank, fun c hc => List.mem_takeWhile_imp hc, ?_⟩
      rw [← hbehind, List.takeWhile_append_dropWhile]
    · cases hfound
  · rintro ⟨gap, hgap, rfl⟩
    rw [List.dropWhile_append_of_pos hgap, List.dropWhile_cons_of_neg (by rw [hbracket]; decide)]
    rfl

theorem exists_of_callAt (hfound : callAt names cs = some (written, rest)) :
    ∃ name ∈ names, Spells name written
      ∧ ∃ gap, (∀ c ∈ gap, Text.isBlank c = true) ∧ cs = written ++ (gap ++ '(' :: rest) := by
  obtain ⟨name, hmem, hmatch⟩ := List.exists_of_findSome?_eq_some hfound
  split at hmatch
  · cases hmatch
  · next matched behind hmatched =>
    obtain ⟨after, hbracket, hpair⟩ := Option.map_eq_some_iff.mp hmatch
    obtain ⟨rfl, rfl⟩ := Prod.mk.inj hpair
    obtain ⟨rfl, hspells⟩ := matchName_eq_some_iff.mp hmatched
    obtain ⟨gap, hgap, rfl⟩ := openingBracket_eq_some_iff.mp hbracket
    exact ⟨name, hmem, hspells, gap, hgap, rfl⟩

theorem callAt_ne_none {gap : List Char} (hname : name ∈ names) (hspells : Spells name written)
    (hgap : ∀ c ∈ gap, Text.isBlank c = true) :
    callAt names (written ++ (gap ++ '(' :: rest)) ≠ none := by
  intro hnone
  have hmiss := List.findSome?_eq_none_iff.mp hnone name hname
  have hbracket : openingBracket (gap ++ '(' :: rest) = some rest :=
    openingBracket_eq_some_iff.mpr ⟨gap, hgap, rfl⟩
  rw [matchName_eq_some_iff.mpr ⟨rfl, hspells⟩] at hmiss
  dsimp only at hmiss
  rw [hbracket] at hmiss
  cases hmiss

theorem exists_name_of_mem_callsFrom {skip : Nat} {before : Option Char}
    (hmem : written ∈ callsFrom names skip before cs) : ∃ name ∈ names, Spells name written := by
  induction cs generalizing skip before with
  | nil => cases skip <;> simp [callsFrom] at hmem
  | cons c rest ih =>
    cases skip with
    | succ skip => exact ih hmem
    | zero =>
      rw [callsFrom] at hmem
      split at hmem
      · next found after hfound =>
        obtain rfl | hlater := List.mem_cons.mp hmem
        · split at hfound
          · obtain ⟨name, hname, hspells, -⟩ := exists_of_callAt hfound
            exact ⟨name, hname, hspells⟩
          · cases hfound
        · exact ih hlater
      · exact ih hmem

/-! ### Names and severities -/

/-- The last of the entries whose key is the same name has the severity. -/
def IsLastEntry (same : String → Prop) (entries : List (String × Severity)) (severity : Severity) :
    Prop :=
  ∃ earlier key later, entries = earlier ++ (key, severity) :: later ∧ same key
    ∧ ∀ entry ∈ later, ¬ same entry.1

section LastEntry

variable {same : String → Prop} {entries : List (String × Severity)} {severity : Severity}

theorem isLastEntry_concat_iff {entry : String × Severity} :
    IsLastEntry same (entries ++ [entry]) severity
      ↔ same entry.1 ∧ entry.2 = severity ∨ ¬ same entry.1 ∧ IsLastEntry same entries severity := by
  constructor
  · rintro ⟨earlier, key, later, hsplit, hsame, hlast⟩
    obtain rfl | ⟨front, last, rfl⟩ := List.eq_nil_or_concat' later
    · obtain ⟨rfl, hentry⟩ := List.append_inj' hsplit rfl
      obtain rfl := List.singleton_inj.mp hentry
      exact .inl ⟨hsame, rfl⟩
    · rw [← List.cons_append, ← List.append_assoc] at hsplit
      obtain ⟨rfl, hentry⟩ := List.append_inj' hsplit rfl
      obtain rfl := List.singleton_inj.mp hentry
      obtain ⟨hfront, hother⟩ := List.forall_mem_append.mp hlast
      exact .inr ⟨hother entry (List.mem_singleton_self entry), earlier, key, front, rfl, hsame,
        hfront⟩
  · rintro (⟨hsame, rfl⟩ | ⟨hother, earlier, key, later, rfl, hsame, hlast⟩)
    · exact ⟨entries, entry.1, [], rfl, hsame, fun _ hmem => absurd hmem List.not_mem_nil⟩
    · refine ⟨earlier, key, later ++ [entry], by simp, hsame, ?_⟩
      exact List.forall_mem_append.mpr ⟨hlast, by simpa using hother⟩

theorem exists_isLastEntry_iff :
    (∃ severity, IsLastEntry same entries severity) ↔ ∃ entry ∈ entries, same entry.1 := by
  constructor
  · rintro ⟨severity, earlier, key, later, rfl, hsame, -⟩
    exact ⟨(key, severity), List.mem_append_right earlier List.mem_cons_self, hsame⟩
  · induction entries using List.reverseRecOn with
    | nil => simp
    | append_singleton entries entry ih =>
      rintro ⟨other, hmem, hsame⟩
      by_cases hentry : same entry.1
      · exact ⟨entry.2, isLastEntry_concat_iff.mpr (.inl ⟨hentry, rfl⟩)⟩
      · obtain hearlier | hlast := List.mem_append.mp hmem
        · obtain ⟨severity, hseverity⟩ := ih ⟨other, hearlier, hsame⟩
          exact ⟨severity, isLastEntry_concat_iff.mpr (.inr ⟨hentry, hseverity⟩)⟩
        · rw [List.mem_singleton.mp hlast] at hsame
          exact absurd hsame hentry

theorem IsLastEntry.unique {other : Severity} (hlast : IsLastEntry same entries severity)
    (hother : IsLastEntry same entries other) : severity = other := by
  induction entries using List.reverseRecOn with
  | nil =>
    obtain ⟨earlier, key, later, hsplit, -⟩ := hlast
    simp at hsplit
  | append_singleton entries entry ih =>
    rw [isLastEntry_concat_iff] at hlast hother
    obtain ⟨hsame, rfl⟩ | ⟨hdiffers, hearlier⟩ := hlast
    · obtain ⟨-, rfl⟩ | ⟨hdiffers, -⟩ := hother
      · rfl
      · exact absurd hsame hdiffers
    · obtain ⟨hsame, -⟩ | ⟨-, hother⟩ := hother
      · exact absurd hsame hdiffers
      · exact ih hearlier hother

theorem isLastEntry_congr {same' : String → Prop}
    (hsame : ∀ entry ∈ entries, same entry.1 ↔ same' entry.1) :
    IsLastEntry same entries severity ↔ IsLastEntry same' entries severity := by
  induction entries using List.reverseRecOn with
  | nil => simp [IsLastEntry]
  | append_singleton entries entry ih =>
    obtain ⟨hearlier, hentry⟩ := List.forall_mem_append.mp hsame
    rw [isLastEntry_concat_iff, isLastEntry_concat_iff, ih hearlier,
      hentry entry (List.mem_singleton_self entry)]

end LastEntry

theorem lookup_cons_eq_ite (call : String × Severity) (calls : List (String × Severity))
    (key : String) :
    (call :: calls).lookup key = if key = call.1 then some call.2 else calls.lookup key := by
  rw [List.lookup_cons]
  by_cases hkey : key = call.1
  · rw [if_pos hkey, beq_iff_eq.mpr hkey]
  · rw [if_neg hkey, beq_false_of_ne hkey]

theorem lookup_putCall (calls : List (String × Severity)) (name key : String)
    (severity : Severity) :
    (Settings.putCall calls name severity).lookup key
      = if key = name then some severity else calls.lookup key := by
  induction calls with
  | nil => exact lookup_cons_eq_ite (name, severity) [] key
  | cons call others ih =>
    rw [Settings.putCall, lookup_cons_eq_ite]
    by_cases hcall : call.1 = name
    · rw [if_pos (beq_iff_eq.mpr hcall), lookup_cons_eq_ite, hcall]
      split <;> rfl
    · rw [if_neg (by simpa using hcall), lookup_cons_eq_ite, ih]
      by_cases hkey : key = call.1
      · rw [if_pos hkey, if_pos hkey, if_neg (hkey ▸ hcall)]
      · rw [if_neg hkey, if_neg hkey]

theorem lookup_lowerCalls_eq_some_iff {settings : Settings} {name : String} {severity : Severity} :
    (lowerCalls settings).lookup name = some severity
      ↔ IsLastEntry (Text.lower · = name) settings.forbiddenCalls severity := by
  rw [lowerCalls]
  induction settings.forbiddenCalls using List.reverseRecOn with
  | nil =>
    constructor
    · intro hfound
      cases hfound
    · rintro ⟨earlier, key, later, hsplit, -⟩
      simp at hsplit
  | append_singleton entries entry ih =>
    rw [List.foldl_append, List.foldl_cons, List.foldl_nil, lookup_putCall,
      isLastEntry_concat_iff, ← ih]
    by_cases hname : name = Text.lower entry.1
    · simp [hname]
    · simp [hname, eq_comm (b := name)]

theorem lookup_lowerCalls_eq_none_iff {settings : Settings} {name : String} :
    (lowerCalls settings).lookup name = none
      ↔ ∀ entry ∈ settings.forbiddenCalls, Text.lower entry.1 ≠ name := by
  rw [Option.eq_none_iff_forall_ne_some]
  simp only [ne_eq, lookup_lowerCalls_eq_some_iff]
  rw [← not_exists, exists_isLastEntry_iff]
  push Not
  rfl

theorem mem_alternatives_iff {settings : Settings} :
    name ∈ alternatives (lowerCalls settings)
      ↔ ∃ entry ∈ settings.forbiddenCalls, (Text.lower entry.1).toList = name := by
  rw [alternatives, List.mem_mergeSort, List.mem_map]
  have hlookup (key : String) : (∃ call ∈ lowerCalls settings, call.1 = key)
      ↔ ∃ entry ∈ settings.forbiddenCalls, Text.lower entry.1 = key := by
    rw [← not_iff_not]
    push Not
    rw [← lookup_lowerCalls_eq_none_iff, List.lookup_eq_none_iff]
    exact forall₂_congr fun call _ => by rw [bne_iff_ne, ne_comm]
  constructor
  · rintro ⟨call, hcall, rfl⟩
    obtain ⟨entry, hentry, hname⟩ := (hlookup call.1).mp ⟨call, hcall, rfl⟩
    exact ⟨entry, hentry, by rw [hname]⟩
  · rintro ⟨entry, hentry, rfl⟩
    obtain ⟨call, hcall, hname⟩ := (hlookup (Text.lower entry.1)).mpr ⟨entry, hentry, rfl⟩
    exact ⟨call, hcall, by rw [hname]⟩

theorem callsOfLine_eq (settings : Settings) (line : List Char) :
    callsOfLine (lowerCalls settings) line
      = if isComment line then []
        else callsFrom (alternatives (lowerCalls settings)) 0 none line := by
  have hnone (before : Option Char) (cs : List Char) : callsFrom [] 0 before cs = [] := by
    induction cs generalizing before with
    | nil => rfl
    | cons c rest ih => simp [callsFrom, callAt, ih]
  rw [callsOfLine]
  cases hcalls : lowerCalls settings with
  | nil => simp [alternatives, hnone]
  | cons call others => simp

/-! ### The outcome of a line -/

/-- The name of a call, as it is looked up. -/
def lookedUp (written : List Char) : String := Text.lower (String.ofList written)

/-- The effects are a unit of work and a message for each of the calls, in their order. The message
gives the name in lower case, and has the severity of the last entry for it. -/
inductive Reports (entries : List (String × Severity)) (location : String) :
    List (List Char) → List Effect → Prop
  | nil : Reports entries location [] []
  | cons {written : List Char} {later : List (List Char)} {severity : Severity}
      {effects : List Effect}
      (hlast : IsLastEntry (Text.lower · = lookedUp written) entries severity)
      (hlater : Reports entries location later effects) :
      Reports entries location (written :: later)
        (.declare 1 :: .message severity
          ("Usage of " ++ lookedUp written ++ "() is not allowed in " ++ location) :: effects)

/-- The failure over a call without a severity. -/
def lookupFailure (written : List Char) : Failure where
  kind := "KeyError"
  text := Text.quoted (lookedUp written)
  places := [lookupPlace]

/-- How the reporting of calls can end: with all of them reported, or over the first one that has no
entry, after its unit of work was announced. -/
inductive Ends (entries : List (String × Severity)) (location : String) :
    List (List Char) → Outcome → Prop
  | reported {found : List (List Char)} {effects : List Effect}
      (hreports : Reports entries location found effects) :
      Ends entries location found { effects }
  | failed {front behind : List (List Char)} {written : List Char} {effects : List Effect}
      (hreports : Reports entries location front effects)
      (hunknown : ∀ entry ∈ entries, Text.lower entry.1 ≠ lookedUp written) :
      Ends entries location (front ++ written :: behind)
        { effects := effects ++ [.declare 1], failure := some (.told (lookupFailure written)) }

theorem Reports.exists_entry {entries : List (String × Severity)} {location : String}
    {found : List (List Char)} {effects : List Effect}
    (hreports : Reports entries location found effects) (hmem : written ∈ found) :
    ∃ entry ∈ entries, Text.lower entry.1 = lookedUp written := by
  induction hreports with
  | nil => cases hmem
  | cons hlast _ ih =>
    obtain rfl | hlater := List.mem_cons.mp hmem
    · exact exists_isLastEntry_iff.mp ⟨_, hlast⟩
    · exact ih hlater

theorem reportAll_ends (settings : Settings) (location : String) (found : List (List Char)) :
    Ends settings.forbiddenCalls location found
      (found.foldr
        (fun written later => (reportCall (lowerCalls settings) location written).andThen later)
        {}) := by
  induction found with
  | nil => exact .reported .nil
  | cons written rest ih =>
    rw [List.foldr_cons, reportCall]
    cases hlookup : (lowerCalls settings).lookup (lookedUp written) with
    | none =>
      rw [lookedUp] at hlookup
      simp only [hlookup]
      exact @Ends.failed _ _ [] rest written [] .nil (lookup_lowerCalls_eq_none_iff.mp hlookup)
    | some severity =>
      have hlast := lookup_lowerCalls_eq_some_iff.mp hlookup
      rw [lookedUp] at hlookup
      simp only [hlookup]
      generalize houtcome : rest.foldr
        (fun written later => (reportCall (lowerCalls settings) location written).andThen later)
        {} = outcome at ih
      cases ih with
      | reported hreports => exact .reported (.cons hlast hreports)
      | @failed front _ _ _ hreports hunknown =>
        exact @Ends.failed _ _ (written :: front) _ _ _ (.cons hlast hreports) hunknown

theorem Ends.failure_eq_none_iff {entries : List (String × Severity)} {location : String}
    {found : List (List Char)} {outcome : Outcome} (hends : Ends entries location found outcome) :
    outcome.failure = none
      ↔ ∀ written ∈ found, ∃ entry ∈ entries, Text.lower entry.1 = lookedUp written := by
  cases hends with
  | reported hreports => exact iff_of_true rfl fun _ => hreports.exists_entry
  | failed hreports hunknown =>
    refine iff_of_false nofun fun hall => ?_
    obtain ⟨entry, hentry, hname⟩ := hall _ (List.mem_append_right _ List.mem_cons_self)
    exact hunknown entry hentry hname

theorem Ends.reports {entries : List (String × Severity)} {location : String}
    {found : List (List Char)} {outcome : Outcome} (hends : Ends entries location found outcome)
    (hnone : outcome.failure = none) :
    ∃ effects, Reports entries location found effects ∧ outcome = { effects } := by
  cases hends with
  | reported hreports => exact ⟨_, hreports, rfl⟩
  | failed => cases hnone

/-! ### Names of ASCII -/

/-- A call of an ASCII name has an entry unless it is written with a stray letter. -/
theorem exists_entry_iff_of_ascii {entries : List (String × Severity)}
    (hascii : ∀ entry ∈ entries, Text.IsAscii entry.1.toList)
    (hspells : ∃ entry ∈ entries, Spells (Text.lower entry.1).toList written) :
    (∃ entry ∈ entries, Text.lower entry.1 = lookedUp written)
      ↔ ∀ c ∈ written, c ∉ Text.strayLetters := by
  have hlower {entry : String × Severity} (hentry : entry ∈ entries) :
      Text.IsAscii (Text.lower entry.1).toList
        ∧ (Text.lower entry.1).toList.map Char.toLower = (Text.lower entry.1).toList := by
    rw [Text.toList_lower_of_ascii (hascii entry hentry)]
    constructor
    · intro c hc
      obtain ⟨d, hd, rfl⟩ := List.mem_map.mp hc
      exact Text.toNat_toLower_lt (hascii entry hentry d hd)
    · rw [List.map_map]
      exact List.map_congr_left fun d hd => Text.toLower_toLower (hascii entry hentry d hd)
  constructor
  · rintro ⟨entry, hentry, hname⟩ c hc hstray
    have hbeyond := Text.not_isAscii_lowerAfter ⟨c, hc, hstray⟩ []
    have hsame : Text.lowerAfter [] written = (Text.lower entry.1).toList := by
      rw [hname, lookedUp, Text.lower, String.toList_ofList, String.toList_ofList]
    rw [hsame] at hbeyond
    exact hbeyond (hlower hentry).1
  · intro hplain
    obtain ⟨entry, hentry, hspelt⟩ := hspells
    have hsame : (lookedUp written).toList = (Text.lower entry.1).toList := by
      rw [lookedUp, Text.lower, String.toList_ofList, String.toList_ofList,
        Text.lowerAfter_of_sameLetters (hlower hentry).1 hspelt hplain, (hlower hentry).2]
    exact ⟨entry, hentry, (String.toList_inj.mp hsame).symm⟩

theorem exists_entry_of_mem_callsOfLine {settings : Settings} {line : List Char}
    (hmem : written ∈ callsOfLine (lowerCalls settings) line) :
    ∃ entry ∈ settings.forbiddenCalls, Spells (Text.lower entry.1).toList written := by
  rw [callsOfLine_eq] at hmem
  split at hmem
  · cases hmem
  · obtain ⟨name, hname, hspells⟩ := exists_name_of_mem_callsFrom hmem
    obtain ⟨entry, hentry, rfl⟩ := mem_alternatives_iff.mp hname
    exact ⟨entry, hentry, hspells⟩

/-- **A line fails over a call that is no forbidden name in lower case.** Each call that is found on
a line spells a forbidden name, ignoring case. The rule returns exactly if each of them is also a
forbidden name in lower case; then each has its unit of work and its message, and else the rule
fails over the first one that is not, with those before it reported. If the names are of ASCII, the
ones that are not are those written with a capital i with a dot, a dotless i or a long s. -/
theorem check_returns_iff {σ : Type} (context : RuleContext) (source : SourceLine) (state : σ) :
    let entries := context.settings.forbiddenCalls
    let found := callsOfLine (lowerCalls context.settings) source.text.toList
    let outcome := ((rule context).check (.line source) state).1
    (∀ written ∈ found, ∃ entry ∈ entries, Spells (Text.lower entry.1).toList written)
      ∧ Ends entries source.location found outcome
      ∧ (outcome.failure = none
          ↔ ∀ written ∈ found, ∃ entry ∈ entries, Text.lower entry.1 = lookedUp written)
      ∧ ((∀ entry ∈ entries, Text.IsAscii entry.1.toList) →
          (outcome.failure = none ↔ ∀ written ∈ found, ∀ c ∈ written, c ∉ Text.strayLetters)) := by
  intro entries found outcome
  have hspells (written : List Char) (hmem : written ∈ found) :=
    exists_entry_of_mem_callsOfLine hmem
  have hends : Ends entries source.location found outcome :=
    reportAll_ends context.settings source.location found
  refine ⟨hspells, hends, hends.failure_eq_none_iff, fun hascii => ?_⟩
  rw [hends.failure_eq_none_iff]
  exact forall₂_congr fun written hmem => exists_entry_iff_of_ascii hascii (hspells written hmem)

/-- The names of the usual settings, longer ones first. -/
def usualNames : List (List Char) :=
  ["debug_print_backtrace", "var_export", "var_dump", "print_r", "eval"].map String.toList

theorem alternatives_usual : alternatives (lowerCalls {}) = usualNames := by
  have hperm : (alternatives (lowerCalls {})).Perm usualNames :=
    (List.mergeSort_perm _ _).trans (by decide +kernel)
  have hsorted : (alternatives (lowerCalls {})).Pairwise fun a b => b.length ≤ a.length := by
    have hordered : (alternatives (lowerCalls {})).Pairwise fun a b =>
        decide (b.length ≤ a.length) = true := by
      apply List.pairwise_mergeSort
      · intro a b c hab hbc
        exact decide_eq_true (le_trans (of_decide_eq_true hbc) (of_decide_eq_true hab))
      · intro a b
        rw [Bool.or_eq_true, decide_eq_true_eq, decide_eq_true_eq]
        exact le_total b.length a.length
    exact hordered.imp of_decide_eq_true
  -- No two of the names are of one length, so there is only one order.
  have hapart : ∀ a ∈ usualNames, ∀ b ∈ usualNames, a.length = b.length → a = b := by
    decide +kernel
  apply hperm.eq_of_pairwise _ hsorted (by decide +kernel)
  intro a b ha hb hab hba
  exact hapart a (hperm.mem_iff.mp ha) b hb (Nat.le_antisymm hba hab)

/-- With the usual settings, a call with a dotless i is found and has no severity. -/
theorem check_fails_dotless :
    let text := "pr\u0131nt_r($x);"
    let source : SourceLine := ⟨.ofText ⟨0, ["a.php"]⟩ "a.php" text, 1, text⟩
    callsOfLine (lowerCalls {}) source.text.toList = ["pr\u0131nt_r".toList]
      ∧ (lowerCalls {}).lookup (lookedUp "pr\u0131nt_r".toList) = none
      ∧ ((rule {} : Rule Unit).check (.line source) ()).1
          = { effects := [.declare 1]
              failure := some (.told (lookupFailure "pr\u0131nt_r".toList)) } := by
  intro text source
  have hfound : callsOfLine (lowerCalls {}) source.text.toList = ["pr\u0131nt_r".toList] := by
    rw [callsOfLine_eq, alternatives_usual]
    decide +kernel
  refine ⟨hfound, by decide +kernel, ?_⟩
  change check (lowerCalls {}) source.location source.text = _
  rw [check, hfound]
  decide +kernel

end ExtensionAudit.ForbiddenCalls
