import Mathlib
import ExtensionAudit.Proofs.Settings.Document

/-!
# Which settings documents can be read

A document can be read exactly if it keeps to the schema: it names only settings that exist, and
gives each of them a value of its kind. The settings that come of it can be written as a document
again, and that document means the same settings: what was spelled in one of several ways is written
in one way, and what was not given is written out.

A document that does not keep to the schema is refused with a fault that users are told of, with one
exception. A severity is shown in the fault about it, and an integer of too many digits cannot be
shown; so where such an integer stands as or in a severity, the reading ends unexpectedly.
-/

namespace ExtensionAudit.Settings

variable {members : List (String × Json)}

/-! ### The schema -/

def textKeys : List String :=
  ["manifest", "composer_file", "source_extension", "reserved_vendor", "reserved_core"]

def textListKeys : List String := ["disabled_rules", "required_files"]

/-- The printed value is the name of a severity, without the blanks around it and in upper case. -/
def NamesSeverity (value : Json) : Prop :=
  ∃ severity : Severity, Severity.normalised (printed value) = severity.name

/-- The schema of settings documents. -/
structure Conforms (members : List (String × Json)) : Prop where
  keys : ∀ member ∈ members, member.1 ∈ keys
  texts : ∀ key ∈ textKeys, ∀ value, members.lookup key = some value →
    ∃ s, value = .text s ∧ s ≠ ""
  policy : ∀ value, members.lookup "partial_events" = some value →
    Text.lower (printed value) = "discard" ∨ Text.lower (printed value) = "keep"
  textLists : ∀ key ∈ textListKeys, ∀ value, members.lookup key = some value →
    (∃ s, value = .text s) ∨ ∃ texts : List String, value = .list (texts.map .text)
  calls : ∀ value, members.lookup "forbidden_calls" = some value →
    ∃ listed, value = .object listed ∧ ∀ member ∈ listed, NamesSeverity member.2

section Means

variable {value : Json}

theorem exists_meansTexts_iff : (∃ texts, MeansTexts value texts)
    ↔ (∃ s, value = .text s) ∨ ∃ texts : List String, value = .list (texts.map .text) := by
  constructor
  · rintro ⟨texts, hlist | ⟨s, htext, -⟩⟩
    · exact .inr ⟨texts, hlist⟩
    · exact .inl ⟨s, htext⟩
  · rintro (⟨s, htext⟩ | ⟨texts, hlist⟩)
    · exact ⟨[s], .inr ⟨s, htext, rfl⟩⟩
    · exact ⟨texts, .inl hlist⟩

theorem exists_meansPolicy_iff : (∃ policy, MeansPolicy value policy)
    ↔ Text.lower (printed value) = "discard" ∨ Text.lower (printed value) = "keep" := by
  constructor
  · rintro ⟨policy, hpolicy⟩
    cases policy with
    | discard => exact .inl hpolicy
    | keep => exact .inr hpolicy
  · rintro (hdiscard | hkeep)
    · exact ⟨.discard, hdiscard⟩
    · exact ⟨.keep, hkeep⟩

theorem exists_spelled_iff {listed : List (String × Json)} :
    (∃ spelled, List.Forall₂ MeansCall listed spelled)
      ↔ ∀ member ∈ listed, NamesSeverity member.2 := by
  induction listed with
  | nil => simp
  | cons member rest ih =>
    rw [List.forall_mem_cons, ← ih]
    constructor
    · rintro ⟨_, hspelled⟩
      obtain ⟨call, calls, hcall, hcalls, -⟩ := List.forall₂_cons_left_iff.mp hspelled
      exact ⟨⟨call.2, hcall.2⟩, calls, hcalls⟩
    · rintro ⟨⟨severity, hseverity⟩, calls, hcalls⟩
      exact ⟨(member.1, severity) :: calls, .cons ⟨rfl, hseverity⟩ hcalls⟩

theorem exists_meansCalls_iff : (∃ calls, MeansCalls value calls)
    ↔ ∃ listed, value = .object listed ∧ ∀ member ∈ listed, NamesSeverity member.2 := by
  constructor
  · rintro ⟨_, listed, spelled, hobject, hspelled, -⟩
    exact ⟨listed, hobject, exists_spelled_iff.mp ⟨spelled, hspelled⟩⟩
  · rintro ⟨listed, hobject, hnamed⟩
    obtain ⟨spelled, hspelled⟩ := exists_spelled_iff.mpr hnamed
    exact ⟨_, listed, spelled, hobject, hspelled, rfl⟩

end Means

theorem exists_given_iff {α : Type} {value : Option Json} {default : α} {Means : Json → α → Prop} :
    (∃ a, Given value default Means a) ↔ ∀ given, value = some given → ∃ a, Means given a := by
  cases value with
  | none => simp [Given]
  | some given => simp [Given]

theorem Denotes.conforms {settings : Settings} (hdenotes : Denotes members settings) :
    Conforms members where
  keys := hdenotes.keys
  texts key hkey := by
    simp only [textKeys, List.mem_cons, List.not_mem_nil, or_false] at hkey
    obtain rfl | rfl | rfl | rfl | rfl := hkey
    · exact exists_given_iff.mp ⟨_, hdenotes.manifest⟩
    · exact exists_given_iff.mp ⟨_, hdenotes.composerFile⟩
    · exact exists_given_iff.mp ⟨_, hdenotes.sourceExtension⟩
    · exact exists_given_iff.mp ⟨_, hdenotes.reservedVendor⟩
    · exact exists_given_iff.mp ⟨_, hdenotes.reservedCore⟩
  policy value hvalue :=
    exists_meansPolicy_iff.mp (exists_given_iff.mp ⟨_, hdenotes.partialEvents⟩ value hvalue)
  textLists key hkey value hvalue := by
    simp only [textListKeys, List.mem_cons, List.not_mem_nil, or_false] at hkey
    apply exists_meansTexts_iff.mp
    obtain rfl | rfl := hkey
    · exact exists_given_iff.mp ⟨_, hdenotes.disabledRules⟩ value hvalue
    · exact exists_given_iff.mp ⟨_, hdenotes.requiredFiles⟩ value hvalue
  calls value hvalue :=
    exists_meansCalls_iff.mp (exists_given_iff.mp ⟨_, hdenotes.forbiddenCalls⟩ value hvalue)

theorem Conforms.exists_denotes (hconforms : Conforms members) :
    ∃ settings, Denotes members settings := by
  have htext (key : String) (hkey : key ∈ textKeys) (default : String) :
      ∃ s, Given (members.lookup key) default MeansText s :=
    exists_given_iff.mpr (hconforms.texts key hkey)
  have htexts (key : String) (hkey : key ∈ textListKeys) (default : List String) :
      ∃ texts, Given (members.lookup key) default MeansTexts texts :=
    exists_given_iff.mpr fun value hvalue =>
      exists_meansTexts_iff.mpr (hconforms.textLists key hkey value hvalue)
  have hpolicy (default : Event.PartialPolicy) :
      ∃ policy, Given (members.lookup "partial_events") default MeansPolicy policy :=
    exists_given_iff.mpr fun value hvalue =>
      exists_meansPolicy_iff.mpr (hconforms.policy value hvalue)
  have hcalls (default : List (String × Severity)) :
      ∃ calls, Given (members.lookup "forbidden_calls") default MeansCalls calls :=
    exists_given_iff.mpr fun value hvalue =>
      exists_meansCalls_iff.mpr (hconforms.calls value hvalue)
  obtain ⟨manifest, hmanifest⟩ := htext "manifest" (by decide) _
  obtain ⟨composerFile, hcomposerFile⟩ := htext "composer_file" (by decide) _
  obtain ⟨sourceExtension, hsourceExtension⟩ := htext "source_extension" (by decide) _
  obtain ⟨reservedVendor, hreservedVendor⟩ := htext "reserved_vendor" (by decide) _
  obtain ⟨reservedCore, hreservedCore⟩ := htext "reserved_core" (by decide) _
  obtain ⟨partialEvents, hpartialEvents⟩ := hpolicy _
  obtain ⟨disabledRules, hdisabledRules⟩ := htexts "disabled_rules" (by decide) _
  obtain ⟨requiredFiles, hrequiredFiles⟩ := htexts "required_files" (by decide) _
  obtain ⟨forbiddenCalls, hforbiddenCalls⟩ := hcalls _
  exact ⟨{ manifest, composerFile, sourceExtension, reservedVendor, reservedCore, partialEvents,
           disabledRules, requiredFiles, forbiddenCalls },
    hconforms.keys, hmanifest, hcomposerFile, hsourceExtension, hreservedVendor, hreservedCore,
    hpartialEvents, hdisabledRules, hrequiredFiles, hforbiddenCalls⟩

/-- A document means some settings if and only if it keeps to the schema. -/
theorem exists_denotes_iff : (∃ settings, Denotes members settings) ↔ Conforms members :=
  ⟨fun ⟨_, hdenotes⟩ => hdenotes.conforms, fun hconforms => hconforms.exists_denotes⟩

/-! ### Writing settings -/

section Calls

variable {calls later : List (String × Severity)}

theorem putCall_of_not_mem {name : String} (hnew : name ∉ calls.map Prod.fst)
    (severity : Severity) : putCall calls name severity = calls ++ [(name, severity)] := by
  induction calls with
  | nil => rfl
  | cons call rest ih =>
    rw [List.map_cons, List.mem_cons, not_or] at hnew
    have hother : ¬ (call.1 == name) = true := by simpa using Ne.symm hnew.1
    rw [putCall, if_neg hother, ih hnew.2, List.cons_append]

theorem names_putCall_of_mem {name : String} (hmem : name ∈ calls.map Prod.fst)
    (severity : Severity) : (putCall calls name severity).map Prod.fst = calls.map Prod.fst := by
  induction calls with
  | nil => simp at hmem
  | cons call rest ih =>
    rw [putCall]
    by_cases hname : call.1 = name
    · rw [if_pos (beq_iff_eq.mpr hname), List.map_cons, List.map_cons, hname]
    · have hrest : name ∈ rest.map Prod.fst := by
        rw [List.map_cons, List.mem_cons] at hmem
        exact hmem.resolve_left (Ne.symm hname)
      rw [if_neg (by simpa using hname), List.map_cons, List.map_cons, ih hrest]

/-- No name comes up twice among calls that are put together one by one. -/
theorem nodup_putCalls (hdistinct : (calls.map Prod.fst).Nodup) :
    ((putCalls calls later).map Prod.fst).Nodup := by
  induction later generalizing calls with
  | nil => exact hdistinct
  | cons call rest ih =>
    apply ih
    change ((putCall calls call.1 call.2).map Prod.fst).Nodup
    by_cases hmem : call.1 ∈ calls.map Prod.fst
    · rwa [names_putCall_of_mem hmem]
    · have hgrown := hdistinct.concat hmem
      rw [List.concat_eq_append] at hgrown
      rw [putCall_of_not_mem hmem, List.map_append]
      exact hgrown

theorem putCalls_of_nodup (hdistinct : ((calls ++ later).map Prod.fst).Nodup) :
    putCalls calls later = calls ++ later := by
  induction later generalizing calls with
  | nil => rw [List.append_nil]; rfl
  | cons call rest ih =>
    have hnew : call.1 ∉ calls.map Prod.fst := by
      intro hmem
      rw [List.map_append, List.nodup_append] at hdistinct
      exact hdistinct.2.2 _ hmem _ List.mem_cons_self rfl
    rw [List.append_cons] at hdistinct ⊢
    rw [← ih hdistinct, ← putCall_of_not_mem hnew]
    rfl

theorem Given.nodup_calls {value : Option Json} {default : List (String × Severity)}
    (hdefault : (default.map Prod.fst).Nodup) (hgiven : Given value default MeansCalls calls) :
    (calls.map Prod.fst).Nodup := by
  cases value with
  | none =>
    obtain rfl : calls = default := hgiven
    exact hdefault
  | some given =>
    obtain ⟨_, _, -, -, rfl⟩ := hgiven
    exact nodup_putCalls List.nodup_nil

/-- Calls of different names, each with the name of its severity, mean themselves. -/
theorem meansCalls_written (hdistinct : (calls.map Prod.fst).Nodup) :
    MeansCalls (.object (calls.map fun call => (call.1, .text call.2.name))) calls := by
  have hput : putCalls [] calls = calls := @putCalls_of_nodup [] calls hdistinct
  refine ⟨_, calls, rfl, ?_, hput.symm⟩
  rw [List.forall₂_map_left_iff, List.forall₂_same]
  intro call _
  have hname (severity : Severity) : Severity.normalised severity.name = severity.name := by
    cases severity <;> decide
  exact ⟨rfl, hname call.2⟩

end Calls

theorem Given.ne_empty {value : Option Json} {default s : String} (hdefault : default ≠ "")
    (hgiven : Given value default MeansText s) : s ≠ "" := by
  cases value with
  | none =>
    obtain rfl : s = default := hgiven
    exact hdefault
  | some given => exact hgiven.2

/-- Settings that a document means are meant by the document that is written of them. -/
theorem Denotes.written {settings : Settings} (hdenotes : Denotes members settings) :
    ∃ written, settings.toJson = .object written ∧ Denotes written settings := by
  have hpolicy (policy : Event.PartialPolicy) : MeansPolicy (.text policy.name) policy := by
    cases policy with
    | discard =>
      change Text.lower "discard" = "discard"
      decide
    | keep =>
      change Text.lower "keep" = "keep"
      decide
  refine ⟨_, rfl, ?_⟩
  exact {
    keys := by simp [Settings.keys]
    manifest := ⟨rfl, hdenotes.manifest.ne_empty (by decide)⟩
    composerFile := ⟨rfl, hdenotes.composerFile.ne_empty (by decide)⟩
    sourceExtension := ⟨rfl, hdenotes.sourceExtension.ne_empty (by decide)⟩
    reservedVendor := ⟨rfl, hdenotes.reservedVendor.ne_empty (by decide)⟩
    reservedCore := ⟨rfl, hdenotes.reservedCore.ne_empty (by decide)⟩
    partialEvents := hpolicy settings.partialEvents
    disabledRules := .inl rfl
    requiredFiles := .inl rfl
    forbiddenCalls := meansCalls_written (hdenotes.forbiddenCalls.nodup_calls (by decide)) }

/-! ### Integers of too many digits -/

/-- A severity that holds too long an integer stands in front of all others that name none. -/
def StopsAtLongSeverity (listed : List (String × Json)) : Prop :=
  ∃ front member rest, listed = front ++ member :: rest
    ∧ (∀ earlier ∈ front, NamesSeverity earlier.2) ∧ (Value.ofJson member.2).isWritable = false

theorem isReadable_iff {name : String} {value : Json} :
    IsReadable (.text name, .ofJson value) ↔ NamesSeverity value := by
  constructor
  · rintro ⟨-, severity, hparsed⟩
    exact ⟨severity, Severity.parse_eq_ok_iff.mp hparsed⟩
  · rintro ⟨severity, hname⟩
    exact ⟨isWritable_of_normalised hname, severity, Severity.parse_eq_ok_iff.mpr hname⟩

theorem stopsAtLongNumber_iff {listed : List (String × Json)} :
    StopsAtLongNumber (Value.ofJsonMembers listed) ↔ StopsAtLongSeverity listed := by
  rw [ofJsonMembers_eq]
  constructor
  · rintro ⟨front, call, rest, hsplit, hreadable, hlong⟩
    obtain ⟨before, later, rfl, rfl, hlater⟩ := List.map_eq_append_iff.mp hsplit
    obtain ⟨member, others, rfl, rfl, rfl⟩ := List.map_eq_cons_iff.mp hlater
    refine ⟨before, member, others, rfl, fun earlier hmem => ?_, hlong⟩
    exact isReadable_iff.mp (hreadable _ (List.mem_map_of_mem hmem))
  · rintro ⟨front, member, rest, rfl, hnamed, hlong⟩
    refine ⟨_, _, _, List.map_append.trans (congrArg _ (List.map_cons ..)), ?_, hlong⟩
    intro call hmem
    obtain ⟨earlier, hearlier, rfl⟩ := List.mem_map.mp hmem
    exact isReadable_iff.mpr (hnamed earlier hearlier)

theorem withoutCalls_ofJsonMembers (members : List (String × Json)) :
    withoutCalls (Value.ofJsonMembers members)
      = Value.ofJsonMembers (members.filter fun member => member.1 != "forbidden_calls") := by
  rw [ofJsonMembers_eq, ofJsonMembers_eq, withoutCalls, List.filter_map]
  rfl

/-- A document is refused unexpectedly exactly over a severity that holds too long an integer, if
nothing else is wrong and no severity in front of it. -/
theorem ofEntries_unexpected_iff {fault : SettingsFault} (hfault : fault.isConfiguration = false) :
    ofEntries (Value.ofJsonMembers members) = .error fault
      ↔ fault = .tooManyDigits
        ∧ Conforms (members.filter fun member => member.1 != "forbidden_calls")
        ∧ ∃ listed, members.lookup "forbidden_calls" = some (.object listed)
          ∧ StopsAtLongSeverity listed := by
  have hkeys : ¬ ∃ entry ∈ Value.ofJsonMembers members, ∀ key, entry.1 ≠ .text key := by
    rintro ⟨entry, hmem, hother⟩
    rw [ofJsonMembers_eq] at hmem
    obtain ⟨member, -, rfl⟩ := List.mem_map.mp hmem
    exact hother member.1 rfl
  have hcalls : (∃ calls, Value.lookupText (Value.ofJsonMembers members) "forbidden_calls"
        = some (.mapping calls) ∧ StopsAtLongNumber calls)
      ↔ ∃ listed, members.lookup "forbidden_calls" = some (.object listed)
        ∧ StopsAtLongSeverity listed := by
    rw [lookupText_ofJsonMembers]
    cases members.lookup "forbidden_calls" with
    | none => simp
    | some value =>
      cases value with
      | object listed => simp [Value.ofJson, stopsAtLongNumber_iff]
      | _ => simp [Value.ofJson]
  rw [ofEntries_eq_error_iff hfault, withoutCalls_ofJsonMembers, ← exists_denotes_iff]
  simp only [ofEntries_eq_ok_iff, hcalls, hkeys, and_false, false_or]

/-! ### Reading a document -/

/-- **Reading a document.** The settings that are read are those that the document means, in which
what it does not give keeps its default, and some are read exactly if it keeps to the schema. They
can be written as a document from which they are read again. Any other document is refused with a
fault that users are told of, unless all is well but for the forbidden calls and the first of them
that names no severity holds too long an integer. -/
theorem ofEntries_document (members : List (String × Json)) :
    (∀ settings, ofEntries (Value.ofJsonMembers members) = .ok settings ↔ Denotes members settings)
      ∧ ((∃ settings, ofEntries (Value.ofJsonMembers members) = .ok settings) ↔ Conforms members)
      ∧ (∀ settings, ofEntries (Value.ofJsonMembers members) = .ok settings →
          ∃ written, settings.toJson = .object written
            ∧ ofEntries (Value.ofJsonMembers written) = .ok settings)
      ∧ ∀ fault, fault.isConfiguration = false →
          (ofEntries (Value.ofJsonMembers members) = .error fault
            ↔ fault = .tooManyDigits
              ∧ Conforms (members.filter fun member => member.1 != "forbidden_calls")
              ∧ ∃ listed, members.lookup "forbidden_calls" = some (.object listed)
                ∧ StopsAtLongSeverity listed) := by
  refine ⟨fun settings => ofEntries_eq_ok_iff, ?_, fun settings hread => ?_,
    fun fault hfault => ofEntries_unexpected_iff hfault⟩
  · simp only [ofEntries_eq_ok_iff, exists_denotes_iff]
  · obtain ⟨written, hwritten, hdenotes⟩ := (ofEntries_eq_ok_iff.mp hread).written
    exact ⟨written, hwritten, ofEntries_eq_ok_iff.mpr hdenotes⟩

/-- A document that forbids one call and gives it an integer as its severity. -/
def numericSeverity (n : Int) : List (String × Json) :=
  [("forbidden_calls", .object [("eval", .int n)])]

theorem isWritable_int_iff (n : Int) :
    (Value.ofJson (.int n)).isWritable = true ↔ n.natAbs < 10 ^ Numeral.maxDigits := by
  have hdigits : (Nat.toDigits 10 n.natAbs).length ≤ Numeral.maxDigits
      ↔ n.natAbs < 10 ^ Numeral.maxDigits :=
    Nat.length_toDigits_le_iff (by decide) (by decide)
  rw [Value.ofJson, Value.isWritable, Numeral.isWritable, decide_eq_true_iff, hdigits]

theorem numericSeverity_unexpected (n : Int) (hlong : 10 ^ Numeral.maxDigits ≤ n.natAbs) :
    ¬ Conforms (numericSeverity n)
      ∧ ofEntries (Value.ofJsonMembers (numericSeverity n)) = .error .tooManyDigits := by
  have hwritable : (Value.ofJson (.int n)).isWritable = false := by
    rw [← Bool.not_eq_true, isWritable_int_iff]
    exact not_lt.mpr hlong
  constructor
  · intro hconforms
    obtain ⟨listed, hobject, hnamed⟩ := hconforms.calls _ rfl
    obtain rfl := Json.object.inj hobject
    obtain ⟨severity, hname⟩ := hnamed _ List.mem_cons_self
    exact Bool.false_ne_true (hwritable.symm.trans (isWritable_of_normalised hname))
  · have hrest : (numericSeverity n).filter (fun member => member.1 != "forbidden_calls") = [] := by
      simp [numericSeverity]
    have hstops : StopsAtLongSeverity [("eval", .int n)] := ⟨[], _, [], rfl, nofun, hwritable⟩
    rw [ofEntries_unexpected_iff rfl, hrest]
    refine ⟨rfl, ?_, _, rfl, hstops⟩
    constructor <;> simp

/-- A document can break the schema and still be refused with a fault that users are not told of. -/
theorem numericSeverity_unexpected_hex : ¬ Conforms (numericSeverity (16 ^ 3600))
    ∧ ofEntries (Value.ofJsonMembers (numericSeverity (16 ^ 3600))) = .error .tooManyDigits
    ∧ SettingsFault.tooManyDigits.isConfiguration = false := by
  have hbase : (16 : Int).natAbs = 16 := rfl
  have hlong : 10 ^ Numeral.maxDigits ≤ (16 ^ 3600 : Int).natAbs :=
    calc 10 ^ Numeral.maxDigits = (10 ^ 43) ^ 100 := by rw [← pow_mul, Numeral.maxDigits]
      _ ≤ (16 ^ 36) ^ 100 := Nat.pow_le_pow_left (by norm_num) 100
      _ = 16 ^ 3600 := by rw [← pow_mul]
      _ = (16 ^ 3600 : Int).natAbs := by rw [Int.natAbs_pow, hbase]
  obtain ⟨hbroken, hstopped⟩ := numericSeverity_unexpected (16 ^ 3600) hlong
  exact ⟨hbroken, hstopped, rfl⟩

end ExtensionAudit.Settings
