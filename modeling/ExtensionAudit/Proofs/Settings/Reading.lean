import Mathlib
import ExtensionAudit.Proofs.Setup.Ends

/-!
# How the reading of settings ends

The settings of a document are read one after the other, and what is wrong with one of them is told
to users. Two things are not: keys that are no texts come up when the unknown keys are to be listed,
and in a forbidden call an integer can be too long to be written in the message about it. The first
one ends the reading before anything else does. The second one does so at its place: behind all other
settings, and behind the calls in front of it.
-/

namespace ExtensionAudit.Settings

variable {entries : List (Value × Value)}

/-! ### Keys -/

theorem mapM_id_eq_none_iff {α : Type} {items : List (Option α)} :
    items.mapM id = none ↔ none ∈ items := by
  induction items with
  | nil => simp
  | cons item rest ih =>
    rw [List.mapM_cons]
    cases item with
    | none => simp
    | some value =>
      cases hrest : rest.mapM id with
      | none => simpa [hrest] using ih.mp hrest
      | some values =>
        have hsome : none ∉ rest := fun hmem => by
          rw [ih.mpr hmem] at hrest
          cases hrest
        simp [hsome]

/-- What is unknown about the key of an entry, if anything: a text that names no setting, or `none`
for what is no text. -/
def unknownKey (entry : Value × Value) : Option (Option String) :=
  match entry.1 with
  | .text key => if keys.contains key then none else some (some key)
  | _ => some none

theorem checkKeys_eq (entries : List (Value × Value)) :
    checkKeys entries =
      if (entries.filterMap unknownKey).isEmpty then .ok ()
      else match (entries.filterMap unknownKey).mapM id with
        | some unknown => .error (.unknownKeys (sorted unknown))
        | none => .error .keysNotTexts := rfl

/-- Keys that are no texts come up when the unknown keys are listed. -/
theorem checkKeys_eq_error_iff {fault : SettingsFault} (hfault : fault.isConfiguration = false) :
    checkKeys entries = .error fault
      ↔ fault = .keysNotTexts ∧ ∃ entry ∈ entries, ∀ key, entry.1 ≠ .text key := by
  have hnone : none ∈ entries.filterMap unknownKey
      ↔ ∃ entry ∈ entries, ∀ key, entry.1 ≠ .text key := by
    rw [List.mem_filterMap]
    refine exists_congr fun entry => and_congr_right fun _ => ?_
    rw [unknownKey]
    cases entry.1 with
    | _ => simp
  rw [← hnone, checkKeys_eq]
  generalize entries.filterMap _ = unknown
  cases hlisted : unknown.mapM id with
  | none =>
    have hmem := mapM_id_eq_none_iff.mp hlisted
    have hsome : unknown.isEmpty = false := List.isEmpty_eq_false_iff.mpr (List.ne_nil_of_mem hmem)
    simp [hsome, hmem, eq_comm]
  | some texts =>
    have hmem : none ∉ unknown := by
      rw [← mapM_id_eq_none_iff, hlisted]
      exact Option.some_ne_none texts
    constructor
    · intro hfails
      split at hfails
      · cases hfails
      · obtain rfl := Except.error.inj hfails
        cases hfault
    · exact fun hboth => absurd hboth.2 hmem

/-! ### Single settings -/

/-- A step that fails, if at all, over the configuration. -/
def Mild {α : Type} (step : Except SettingsFault α) : Prop :=
  ∀ fault, step = .error fault → fault.isConfiguration = true

theorem mild_readText (key default : String) : Mild (readText entries key default) := by
  intro fault hfails
  rw [readText] at hfails
  split at hfails
  · cases hfails
  · split at hfails
    · obtain rfl := Except.error.inj hfails
      rfl
    · cases hfails
  · obtain rfl := Except.error.inj hfails
    rfl

theorem mild_readTexts (key : String) (default : List String) :
    Mild (readTexts entries key default) := by
  intro fault hfails
  rw [readTexts] at hfails
  split at hfails
  · cases hfails
  · cases hfails
  · split at hfails
    · cases hfails
    · obtain rfl := Except.error.inj hfails
      rfl
  · cases hfails
  · obtain rfl := Except.error.inj hfails
    rfl

theorem mild_readPolicy (default : Event.PartialPolicy) : Mild (readPolicy entries default) := by
  intro fault hfails
  rw [readPolicy] at hfails
  split at hfails
  · cases hfails
  · split at hfails
    · cases hfails
    · obtain rfl := Except.error.inj hfails
      rfl

/-! ### Forbidden calls -/

/-- A call that can be read: no integer in it is too long to be written, and it has a severity. -/
def IsReadable (call : Value × Value) : Prop :=
  (call.1.isWritable && call.2.isWritable) = true
    ∧ ∃ severity, Severity.parse call.2.plain = .ok severity

/-- The first of the calls that cannot be read holds an integer that is too long to be written. -/
def StopsAtLongNumber (calls : List (Value × Value)) : Prop :=
  ∃ front call rest, calls = front ++ call :: rest ∧ (∀ earlier ∈ front, IsReadable earlier)
    ∧ (call.1.isWritable && call.2.isWritable) = false

theorem stopsAtLongNumber_cons_iff {call : Value × Value} {rest : List (Value × Value)} :
    StopsAtLongNumber (call :: rest)
      ↔ (call.1.isWritable && call.2.isWritable) = false
          ∨ IsReadable call ∧ StopsAtLongNumber rest := by
  constructor
  · rintro ⟨front, stop, later, hsplit, hfront, hlong⟩
    cases front with
    | nil =>
      obtain ⟨rfl, -⟩ := List.cons.inj hsplit
      exact .inl hlong
    | cons first others =>
      obtain ⟨rfl, hothers⟩ := List.cons.inj hsplit
      obtain ⟨hfirst, hreadable⟩ := List.forall_mem_cons.mp hfront
      exact .inr ⟨hfirst, others, stop, later, hothers, hreadable, hlong⟩
  · rintro (hlong | ⟨hcall, front, stop, later, rfl, hfront, hlong⟩)
    · exact ⟨[], call, rest, rfl, nofun, hlong⟩
    · exact ⟨call :: front, stop, later, rfl, List.forall_mem_cons.mpr ⟨hcall, hfront⟩, hlong⟩

theorem readCallEntries_eq_error {calls : List (String × Severity)} {fault : SettingsFault}
    (hfault : fault.isConfiguration = false) :
    readCallEntries calls entries = .error fault
      ↔ fault = .tooManyDigits ∧ StopsAtLongNumber entries := by
  induction entries generalizing calls with
  | nil =>
    refine iff_of_false (by simp [readCallEntries]) ?_
    rintro ⟨-, front, call, rest, hsplit, -⟩
    simp at hsplit
  | cons entry rest ih =>
    rw [readCallEntries, stopsAtLongNumber_cons_iff, IsReadable]
    cases hwritable : entry.1.isWritable && entry.2.isWritable with
    | false => simp [eq_comm]
    | true =>
      cases hseverity : Severity.parse entry.2.plain with
      | ok severity => simpa using ih
      | error wrong =>
        have hother : SettingsFault.unknownSeverity entry.2.shown entry.1.plain ≠ fault := by
          rintro rfl
          cases hfault
        simp [hother]

theorem readCalls_eq_error {default : List (String × Severity)} {fault : SettingsFault}
    (hfault : fault.isConfiguration = false) :
    readCalls entries default = .error fault
      ↔ fault = .tooManyDigits ∧ ∃ calls,
          Value.lookupText entries "forbidden_calls" = some (.mapping calls)
            ∧ StopsAtLongNumber calls := by
  have hother : SettingsFault.callsNotMapping ≠ fault := by
    rintro rfl
    cases hfault
  rw [readCalls]
  cases Value.lookupText entries "forbidden_calls" with
  | none => simp
  | some value =>
    cases value with
    | mapping calls => simp [readCallEntries_eq_error hfault]
    | _ => simp [hother]

/-! ### All settings -/

section Steps

variable {α β : Type} {step : Except SettingsFault α} {next : α → Except SettingsFault β}
  {fault : SettingsFault}

theorem bind_eq_error_iff : (step >>= next) = .error fault
    ↔ step = .error fault ∨ ∃ value, step = .ok value ∧ next value = .error fault := by
  cases step with
  | error other => simp [bind, Except.bind]
  | ok value => simp [bind, Except.bind]

theorem bind_eq_ok_iff {last : β} : (step >>= next) = .ok last
    ↔ ∃ value, step = .ok value ∧ next value = .ok last := by
  cases step with
  | error other => simp [bind, Except.bind]
  | ok value => simp [bind, Except.bind]

/-- A fault that is none of the configuration comes up behind a mild step. -/
theorem Mild.next_eq_error (hmild : Mild step) (hfault : fault.isConfiguration = false)
    (hfails : (step >>= next) = .error fault) : ∃ value, next value = .error fault := by
  obtain hstep | ⟨value, -, hnext⟩ := bind_eq_error_iff.mp hfails
  · rw [hmild fault hstep] at hfault
    cases hfault
  · exact ⟨value, hnext⟩

end Steps

/-- All settings but the forbidden calls, as a function of these. -/
def readOthers (entries : List (Value × Value)) :
    Except SettingsFault (List (String × Severity) → Settings) := do
  let default : Settings := {}
  checkKeys entries
  let manifest ← readText entries "manifest" default.manifest
  let composerFile ← readText entries "composer_file" default.composerFile
  let sourceExtension ← readText entries "source_extension" default.sourceExtension
  let reservedVendor ← readText entries "reserved_vendor" default.reservedVendor
  let reservedCore ← readText entries "reserved_core" default.reservedCore
  let partialEvents ← readPolicy entries default.partialEvents
  let disabledRules ← readTexts entries "disabled_rules" default.disabledRules
  let requiredFiles ← readTexts entries "required_files" default.requiredFiles
  return fun forbiddenCalls =>
    { manifest, composerFile, sourceExtension, reservedVendor, reservedCore, partialEvents,
      disabledRules, requiredFiles, forbiddenCalls }

theorem ofEntries_eq (entries : List (Value × Value)) :
    ofEntries entries = readOthers entries >>= fun settings =>
      settings <$> readCalls entries ({} : Settings).forbiddenCalls := by
  simp only [ofEntries, readOthers, bind_assoc, pure_bind, map_eq_pure_bind]

theorem readOthers_eq_error {fault : SettingsFault} (hfault : fault.isConfiguration = false) :
    readOthers entries = .error fault ↔ checkKeys entries = .error fault := by
  constructor
  · intro hfails
    rw [readOthers] at hfails
    obtain hkeys | ⟨_, -, hfails⟩ := bind_eq_error_iff.mp hfails
    · exact hkeys
    · -- Behind the keys there are mild steps only.
      obtain ⟨_, hfails⟩ := (mild_readText _ _).next_eq_error hfault hfails
      obtain ⟨_, hfails⟩ := (mild_readText _ _).next_eq_error hfault hfails
      obtain ⟨_, hfails⟩ := (mild_readText _ _).next_eq_error hfault hfails
      obtain ⟨_, hfails⟩ := (mild_readText _ _).next_eq_error hfault hfails
      obtain ⟨_, hfails⟩ := (mild_readText _ _).next_eq_error hfault hfails
      obtain ⟨_, hfails⟩ := (mild_readPolicy _).next_eq_error hfault hfails
      obtain ⟨_, hfails⟩ := (mild_readTexts _ _).next_eq_error hfault hfails
      obtain ⟨_, hfails⟩ := (mild_readTexts _ _).next_eq_error hfault hfails
      cases hfails
  · intro hkeys
    rw [readOthers, hkeys]
    rfl

/-! ### Without the forbidden calls -/

theorem sameKey_text_iff {value : Value} {key : String} :
    value.sameKey (.text key) = true ↔ value = .text key := by
  cases value <;> simp [Value.sameKey, Value.asInt?]

/-- The entries of a document without its forbidden calls. -/
def withoutCalls (entries : List (Value × Value)) : List (Value × Value) :=
  entries.filter fun entry => !entry.1.sameKey (.text "forbidden_calls")

theorem lookupText_withoutCalls {key : String} (hkey : key ≠ "forbidden_calls") :
    Value.lookupText (withoutCalls entries) key = Value.lookupText entries key := by
  rw [Value.lookupText, Value.lookupText, withoutCalls, List.find?_filter]
  congr 2
  funext entry
  cases hsame : entry.1.sameKey (.text key) with
  | false => simp
  | true =>
    have hother : entry.1.sameKey (.text "forbidden_calls") = false := by
      rw [sameKey_text_iff.mp hsame, ← Bool.not_eq_true, sameKey_text_iff]
      simpa using hkey
    simp [hother]

theorem lookupText_withoutCalls_self :
    Value.lookupText (withoutCalls entries) "forbidden_calls" = none := by
  rw [Value.lookupText, withoutCalls, List.find?_filter]
  simp

theorem checkKeys_withoutCalls : checkKeys (withoutCalls entries) = checkKeys entries := by
  have hunknown : (withoutCalls entries).filterMap unknownKey = entries.filterMap unknownKey := by
    rw [withoutCalls, List.filterMap_filter]
    refine List.filterMap_congr fun entry _ => ?_
    cases hsame : entry.1.sameKey (.text "forbidden_calls") with
    | false => rfl
    | true =>
      rw [unknownKey, sameKey_text_iff.mp hsame]
      decide
  rw [checkKeys_eq, checkKeys_eq, hunknown]

theorem readOthers_withoutCalls : readOthers (withoutCalls entries) = readOthers entries := by
  have htext {key : String} (hkey : key ≠ "forbidden_calls") (default : String) :
      readText (withoutCalls entries) key default = readText entries key default := by
    rw [readText, readText, lookupText_withoutCalls hkey]
  have htexts {key : String} (hkey : key ≠ "forbidden_calls") (default : List String) :
      readTexts (withoutCalls entries) key default = readTexts entries key default := by
    rw [readTexts, readTexts, lookupText_withoutCalls hkey]
  have hpolicy (default : Event.PartialPolicy) :
      readPolicy (withoutCalls entries) default = readPolicy entries default := by
    rw [readPolicy, readPolicy, lookupText_withoutCalls (by decide)]
  rw [readOthers, readOthers, checkKeys_withoutCalls, htext (by decide), htext (by decide),
    htext (by decide), htext (by decide), htext (by decide), hpolicy, htexts (by decide),
    htexts (by decide)]

/-- Whether a document could be loaded but for its forbidden calls. -/
theorem exists_ofEntries_withoutCalls_iff :
    (∃ settings, ofEntries (withoutCalls entries) = .ok settings)
      ↔ ∃ settings, readOthers entries = .ok settings := by
  have hcalls : readCalls (withoutCalls entries) ({} : Settings).forbiddenCalls
      = .ok ({} : Settings).forbiddenCalls := by
    rw [readCalls, lookupText_withoutCalls_self]
  rw [ofEntries_eq, readOthers_withoutCalls, hcalls]
  cases readOthers entries with
  | error fault => simp [bind, Except.bind]
  | ok settings => simp [bind, Except.bind]

/-- When the reading of settings ends unexpectedly: over a key that is no text, or, if nothing else
is wrong, over too long an integer in a forbidden call. -/
theorem ofEntries_eq_error_iff {fault : SettingsFault} (hfault : fault.isConfiguration = false) :
    ofEntries entries = .error fault
      ↔ (fault = .keysNotTexts ∧ ∃ entry ∈ entries, ∀ key, entry.1 ≠ .text key)
          ∨ fault = .tooManyDigits
            ∧ (∃ settings, ofEntries (withoutCalls entries) = .ok settings)
            ∧ ∃ calls, Value.lookupText entries "forbidden_calls" = some (.mapping calls)
              ∧ StopsAtLongNumber calls := by
  rw [exists_ofEntries_withoutCalls_iff, ofEntries_eq, bind_eq_error_iff,
    readOthers_eq_error hfault, checkKeys_eq_error_iff hfault]
  refine or_congr_right ?_
  have hlast (settings : List (String × Severity) → Settings) :
      settings <$> readCalls entries ({} : Settings).forbiddenCalls = .error fault
        ↔ readCalls entries ({} : Settings).forbiddenCalls = .error fault := by
    cases readCalls entries ({} : Settings).forbiddenCalls <;> simp
  simp only [hlast, readCalls_eq_error hfault]
  constructor
  · rintro ⟨settings, hothers, hdigits, hcalls⟩
    exact ⟨hdigits, ⟨settings, hothers⟩, hcalls⟩
  · rintro ⟨hdigits, ⟨settings, hothers⟩, hcalls⟩
    exact ⟨settings, hothers, hdigits, hcalls⟩

end ExtensionAudit.Settings
