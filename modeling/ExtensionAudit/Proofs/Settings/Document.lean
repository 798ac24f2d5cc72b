import Mathlib
import ExtensionAudit.Proofs.Settings.Reading
import ExtensionAudit.Proofs.Text.Case
import ExtensionAudit.Proofs.Text.Words

/-!
# What a settings document means

A document is a mapping whose keys are texts. It gives some of the settings, and the others keep
their defaults. What a value means is said here setting by setting, without the order in which they
are read or what is told to users if one of them means nothing. The settings that are read from a
document are the ones that it means, and only a document that means some can be read.
-/

namespace ExtensionAudit

theorem Event.PartialPolicy.ofName?_eq_some_iff {name : String} {policy : PartialPolicy} :
    PartialPolicy.ofName? name = some policy ↔ name = policy.name := by
  constructor
  · intro hfound
    rw [ofName?] at hfound
    have hname : (policy.name == name) = true := by simpa using List.find?_some hfound
    exact (beq_iff_eq.mp hname).symm
  · rintro rfl
    cases policy <;> decide

theorem Severity.parse_eq_ok_iff {text : String} {severity : Severity} :
    parse text = .ok severity ↔ normalised text = severity.name := by
  rw [parse]
  generalize normalised text = name
  cases hfound : ofName? name with
  | none =>
    refine iff_of_false nofun ?_
    rintro rfl
    rw [ofName?_name] at hfound
    cases hfound
  | some found =>
    rw [ofName?] at hfound
    have hname : (found.name == name) = true := by simpa using List.find?_some hfound
    obtain rfl := beq_iff_eq.mp hname
    constructor
    · intro hparsed
      rw [Except.ok.inj hparsed]
    · cases found <;> cases severity <;> decide

namespace Settings

/-- The text that a value of a document is printed as. -/
def printed (value : Json) : String := (Value.ofJson value).plain

/-! ### What values mean -/

/-- A setting that a document may give: what its value means, or the default if there is none. -/
def Given {α : Type} (value : Option Json) (default : α) (Means : Json → α → Prop) (a : α) : Prop :=
  match value with
  | none => a = default
  | some value => Means value a

def MeansText (value : Json) (s : String) : Prop := value = .text s ∧ s ≠ ""

/-- A list of texts means itself, and a text the list of it alone. -/
def MeansTexts (value : Json) (texts : List String) : Prop :=
  value = .list (texts.map .text) ∨ ∃ s, value = .text s ∧ texts = [s]

def MeansPolicy (value : Json) (policy : Event.PartialPolicy) : Prop :=
  Text.lower (printed value) = policy.name

def MeansCall (member : String × Json) (call : String × Severity) : Prop :=
  call.1 = member.1 ∧ Severity.normalised (printed member.2) = call.2.name

def putCalls (calls later : List (String × Severity)) : List (String × Severity) :=
  later.foldl (fun calls call => putCall calls call.1 call.2) calls

/-- Each member of a mapping means a call. Among members of one name the last one counts. -/
def MeansCalls (value : Json) (calls : List (String × Severity)) : Prop :=
  ∃ listed spelled, value = .object listed ∧ List.Forall₂ MeansCall listed spelled
    ∧ calls = putCalls [] spelled

/-- The settings that a document with the given members means. -/
structure Denotes (members : List (String × Json)) (settings : Settings) : Prop where
  keys : ∀ member ∈ members, member.1 ∈ keys
  manifest : Given (members.lookup "manifest") ({} : Settings).manifest MeansText settings.manifest
  composerFile : Given (members.lookup "composer_file") ({} : Settings).composerFile MeansText
    settings.composerFile
  sourceExtension : Given (members.lookup "source_extension") ({} : Settings).sourceExtension
    MeansText settings.sourceExtension
  reservedVendor : Given (members.lookup "reserved_vendor") ({} : Settings).reservedVendor
    MeansText settings.reservedVendor
  reservedCore : Given (members.lookup "reserved_core") ({} : Settings).reservedCore MeansText
    settings.reservedCore
  partialEvents : Given (members.lookup "partial_events") ({} : Settings).partialEvents MeansPolicy
    settings.partialEvents
  disabledRules : Given (members.lookup "disabled_rules") ({} : Settings).disabledRules MeansTexts
    settings.disabledRules
  requiredFiles : Given (members.lookup "required_files") ({} : Settings).requiredFiles MeansTexts
    settings.requiredFiles
  forbiddenCalls : Given (members.lookup "forbidden_calls") ({} : Settings).forbiddenCalls
    MeansCalls settings.forbiddenCalls

/-! ### Members of a document -/

theorem ofJsonMembers_eq (members : List (String × Json)) :
    Value.ofJsonMembers members = members.map fun member => (.text member.1, .ofJson member.2) := by
  induction members with
  | nil => rfl
  | cons member rest ih => rw [Value.ofJsonMembers, ih, List.map_cons]

theorem ofJsonItems_eq (items : List Json) : Value.ofJsonItems items = items.map .ofJson := by
  induction items with
  | nil => rfl
  | cons item rest ih => rw [Value.ofJsonItems, ih, List.map_cons]

theorem lookupText_ofJsonMembers (members : List (String × Json)) (key : String) :
    Value.lookupText (Value.ofJsonMembers members) key = (members.lookup key).map .ofJson := by
  rw [ofJsonMembers_eq, Value.lookupText]
  induction members with
  | nil => rfl
  | cons member rest ih =>
    have hsame : Value.sameKey (.text member.1) (.text key) = (key == member.1) := by
      rw [Bool.eq_iff_iff, sameKey_text_iff, beq_iff_eq, Value.text.injEq, eq_comm]
    rw [List.map_cons, List.lookup_cons, List.find?_cons]
    dsimp only
    rw [hsame]
    cases key == member.1 with
    | true => rfl
    | false => exact ih

variable {members : List (String × Json)}

theorem checkKeys_eq_ok_iff :
    checkKeys (Value.ofJsonMembers members) = .ok () ↔ ∀ member ∈ members, member.1 ∈ keys := by
  have hunknown : (Value.ofJsonMembers members).filterMap unknownKey = []
      ↔ ∀ member ∈ members, member.1 ∈ keys := by
    rw [ofJsonMembers_eq, List.filterMap_map, List.filterMap_eq_nil_iff]
    refine forall₂_congr fun member _ => ?_
    simp [unknownKey]
  rw [checkKeys_eq, ← hunknown]
  cases (Value.ofJsonMembers members).filterMap unknownKey with
  | nil => simp
  | cons first rest =>
    refine iff_of_false ?_ (List.cons_ne_nil first rest)
    rw [List.isEmpty_cons, if_neg Bool.false_ne_true]
    split <;> simp

/-! ### Reading single settings -/

theorem readText_eq_ok_iff {key default s : String} :
    readText (Value.ofJsonMembers members) key default = .ok s
      ↔ Given (members.lookup key) default MeansText s := by
  rw [readText, lookupText_ofJsonMembers]
  cases members.lookup key with
  | none => simp [Given, eq_comm]
  | some value =>
    cases value with
    | text other =>
      by_cases hempty : other = ""
      · simp [Given, MeansText, Value.ofJson, hempty]
      · simp [Given, MeansText, Value.ofJson, hempty]
        exact fun hsame => hsame ▸ hempty
    | _ => simp [Given, MeansText, Value.ofJson]

theorem textsOf_eq_some_iff {items : List Json} {texts : List String} :
    textsOf (Value.ofJsonItems items) = some texts ↔ items = texts.map .text := by
  rw [ofJsonItems_eq, textsOf]
  induction items generalizing texts with
  | nil => simp [eq_comm]
  | cons item rest ih =>
    rw [List.map_cons, List.mapM_cons]
    cases item with
    | text s =>
      cases texts <;>
        simp [Value.ofJson, Option.bind_eq_some_iff, ih, and_comm, -List.mapM_map]
    | _ => cases texts <;> simp [Value.ofJson]

theorem readTexts_eq_ok_iff {key : String} {default texts : List String} :
    readTexts (Value.ofJsonMembers members) key default = .ok texts
      ↔ Given (members.lookup key) default MeansTexts texts := by
  rw [readTexts, lookupText_ofJsonMembers]
  cases members.lookup key with
  | none => simp [Given, eq_comm]
  | some value =>
    cases value with
    | text s => simp [Given, MeansTexts, Value.ofJson, eq_comm]
    | list items =>
      have hitems : Given (some (.list items)) default MeansTexts texts
          ↔ textsOf (Value.ofJsonItems items) = some texts := by
        simp [Given, MeansTexts, textsOf_eq_some_iff]
      rw [hitems, Option.map_some, Value.ofJson]
      dsimp only
      cases textsOf (Value.ofJsonItems items) <;> simp
    | _ => simp [Given, MeansTexts, Value.ofJson]

theorem readPolicy_eq_ok_iff {default policy : Event.PartialPolicy} :
    readPolicy (Value.ofJsonMembers members) default = .ok policy
      ↔ Given (members.lookup "partial_events") default MeansPolicy policy := by
  rw [readPolicy, lookupText_ofJsonMembers]
  cases members.lookup "partial_events" with
  | none => simp [Given, eq_comm]
  | some value =>
    have hmeans : Given (some value) default MeansPolicy policy
        ↔ Event.PartialPolicy.ofName? (Text.lower (printed value)) = some policy :=
      Event.PartialPolicy.ofName?_eq_some_iff.symm
    rw [hmeans, Option.map_some, printed]
    dsimp only
    cases Event.PartialPolicy.ofName? (Text.lower (Value.ofJson value).plain) <;> simp

/-! ### Reading forbidden calls -/

/-- The characters with which the printed text of a number or of a collection begins. -/
def BeginsNoName (c : Char) : Prop := c.isDigit = true ∨ c ∈ ['-', '[', '{']

theorem not_severity_of_beginsNoName {text : String} {c : Char} {rest : List Char}
    (htext : text.toList = c :: rest) (hc : BeginsNoName c) (severity : Severity) :
    Severity.normalised text ≠ severity.name := by
  have hascii : c.toNat < 128 ∧ ¬ Text.isBlank c = true ∧ c.toUpper ∉ ['N', 'W', 'E', 'F'] := by
    obtain hdigit | hsign := hc
    · have hcode : c.toNat < 128 := by
        simp only [Char.isDigit, Bool.and_eq_true, decide_eq_true_eq] at hdigit
        have hupper : c.toNat ≤ '9'.toNat := hdigit.2
        exact lt_of_le_of_lt hupper (by decide)
      refine ⟨hcode, Text.of_ascii (motive := fun c => c.isDigit = true →
        ¬ Text.isBlank c = true ∧ c.toUpper ∉ ['N', 'W', 'E', 'F']) (by decide) hcode hdigit⟩
    · simp only [List.mem_cons, List.not_mem_nil, or_false] at hsign
      obtain rfl | rfl | rfl := hsign <;> decide
  obtain ⟨hcode, hblank, hletter⟩ := hascii
  have hupper : (Severity.normalised text).toList
      = c.toUpper :: (Text.dropTrailingBlanks rest).flatMap Text.upperChars := by
    rw [Severity.normalised, Text.upper, String.toList_ofList, String.toList_ofList, htext,
      Text.trim_cons_of_not_blank hblank, List.flatMap_cons, Text.upperChars_of_ascii hcode]
    rfl
  intro hname
  have hfirst : ∃ first ∈ ['N', 'W', 'E', 'F'], severity.name.toList.head? = some first := by
    cases severity with
    | notice => exact ⟨'N', by decide, rfl⟩
    | warning => exact ⟨'W', by decide, rfl⟩
    | error => exact ⟨'E', by decide, rfl⟩
    | fatal => exact ⟨'F', by decide, rfl⟩
  obtain ⟨first, hmem, hhead⟩ := hfirst
  rw [← hname, hupper, List.head?_cons, Option.some.injEq] at hhead
  exact hletter (hhead ▸ hmem)

theorem exists_head_printed {value : Json} (hlong : (Value.ofJson value).isWritable = false) :
    ∃ c rest, (printed value).toList = c :: rest ∧ BeginsNoName c := by
  cases value with
  | int n =>
    have hdigits (m : Nat) : ∃ c rest, m.repr.toList = c :: rest ∧ c.isDigit = true := by
      obtain ⟨c, rest, hlist⟩ := List.exists_cons_of_ne_nil (Nat.toDigits_ne_nil (n := m) (b := 10))
      refine ⟨c, rest, by rw [Nat.repr_eq_ofList_toDigits, String.toList_ofList, hlist], ?_⟩
      exact Nat.isDigit_of_mem_toDigits (by decide) (by decide) (hlist ▸ List.mem_cons_self)
    have hprinted : printed (.int n) = n.repr := rfl
    rw [hprinted]
    cases n with
    | ofNat m =>
      obtain ⟨c, rest, hlist, hdigit⟩ := hdigits m
      exact ⟨c, rest, hlist, .inl hdigit⟩
    | negSucc m =>
      refine ⟨'-', m.succ.repr.toList, ?_, .inr (by decide)⟩
      have hsign : (Int.negSucc m).repr = "-" ++ m.succ.repr := rfl
      rw [hsign, String.toList_append]
      rfl
  | list items =>
    refine ⟨'[', (String.intercalate ", " (Value.shownItems (Value.ofJsonItems items))
      ++ "]").toList, ?_, .inr (by decide)⟩
    have hprinted : printed (.list items)
        = "[" ++ String.intercalate ", " (Value.shownItems (Value.ofJsonItems items)) ++ "]" := rfl
    rw [hprinted, String.append_assoc, String.toList_append]
    rfl
  | object listed =>
    refine ⟨'{', (String.intercalate ", " (Value.shownEntries (Value.ofJsonMembers listed))
      ++ "\x7d").toList, ?_, .inr (by decide)⟩
    have hprinted : printed (.object listed)
        = "\x7b" ++ String.intercalate ", " (Value.shownEntries (Value.ofJsonMembers listed))
          ++ "\x7d" := rfl
    rw [hprinted, String.append_assoc, String.toList_append]
    rfl
  | _ => cases hlong

/-- What names a severity can be printed. -/
theorem isWritable_of_normalised {value : Json} {severity : Severity}
    (hname : Severity.normalised (printed value) = severity.name) :
    (Value.ofJson value).isWritable = true := by
  rw [← Bool.not_eq_false]
  intro hlong
  obtain ⟨c, rest, htext, hc⟩ := exists_head_printed hlong
  exact not_severity_of_beginsNoName htext hc severity hname

theorem readCallEntries_eq_ok_iff {listed : List (String × Json)}
    {calls result : List (String × Severity)} :
    readCallEntries calls (Value.ofJsonMembers listed) = .ok result
      ↔ ∃ spelled, List.Forall₂ MeansCall listed spelled ∧ result = putCalls calls spelled := by
  induction listed generalizing calls with
  | nil => simp [readCallEntries, Value.ofJsonMembers, putCalls, eq_comm]
  | cons member rest ih =>
    have hname : (Value.text member.1).isWritable = true := rfl
    rw [Value.ofJsonMembers, readCallEntries, hname, Bool.true_and]
    simp only [List.forall₂_cons_left_iff]
    cases hparsed : Severity.parse (Value.ofJson member.2).plain with
    | error wrong =>
      have hnone (severity : Severity) :
          Severity.normalised (printed member.2) ≠ severity.name := by
        intro hname
        rw [printed, ← Severity.parse_eq_ok_iff, hparsed] at hname
        cases hname
      refine iff_of_false ?_ ?_
      · split <;> simp
      · rintro ⟨_, ⟨call, _, hcall, -, -⟩, -⟩
        exact hnone call.2 hcall.2
    | ok severity =>
      have hseverity : Severity.normalised (printed member.2) = severity.name :=
        Severity.parse_eq_ok_iff.mp hparsed
      rw [isWritable_of_normalised hseverity, Bool.not_true, if_neg Bool.false_ne_true]
      dsimp only
      rw [ih]
      constructor
      · rintro ⟨spelled, hspelled, rfl⟩
        exact ⟨_, ⟨(member.1, severity), spelled, ⟨rfl, hseverity⟩, hspelled, rfl⟩, rfl⟩
      · rintro ⟨_, ⟨⟨name, other⟩, spelled, ⟨hsame, hother⟩, hspelled, rfl⟩, rfl⟩
        obtain rfl : name = member.1 := hsame
        obtain rfl : severity = other := by
          rw [← Severity.parse_eq_ok_iff, printed, hparsed] at hother
          exact Except.ok.inj hother
        exact ⟨spelled, hspelled, rfl⟩

theorem readCalls_eq_ok_iff {default calls : List (String × Severity)} :
    readCalls (Value.ofJsonMembers members) default = .ok calls
      ↔ Given (members.lookup "forbidden_calls") default MeansCalls calls := by
  rw [readCalls, lookupText_ofJsonMembers]
  cases members.lookup "forbidden_calls" with
  | none => simp [Given, eq_comm]
  | some value =>
    cases value with
    | object listed => simp [Given, MeansCalls, Value.ofJson, readCallEntries_eq_ok_iff]
    | _ => simp [Given, MeansCalls, Value.ofJson]

/-! ### Reading all settings -/

/-- The settings that can be read from a document are the ones that it means. -/
theorem ofEntries_eq_ok_iff {settings : Settings} :
    ofEntries (Value.ofJsonMembers members) = .ok settings ↔ Denotes members settings := by
  simp only [ofEntries, bind_eq_ok_iff, readText_eq_ok_iff, readPolicy_eq_ok_iff,
    readTexts_eq_ok_iff, readCalls_eq_ok_iff]
  constructor
  · rintro ⟨⟨⟩, hkeys, manifest, hmanifest, composerFile, hcomposerFile, sourceExtension,
      hsourceExtension, reservedVendor, hreservedVendor, reservedCore, hreservedCore, partialEvents,
      hpartialEvents, disabledRules, hdisabledRules, requiredFiles, hrequiredFiles, forbiddenCalls,
      hforbiddenCalls, hsettings⟩
    obtain rfl := Except.ok.inj hsettings
    exact ⟨checkKeys_eq_ok_iff.mp hkeys, hmanifest, hcomposerFile, hsourceExtension,
      hreservedVendor, hreservedCore, hpartialEvents, hdisabledRules, hrequiredFiles,
      hforbiddenCalls⟩
  · intro hdenotes
    exact ⟨(), checkKeys_eq_ok_iff.mpr hdenotes.keys, _, hdenotes.manifest, _,
      hdenotes.composerFile, _, hdenotes.sourceExtension, _, hdenotes.reservedVendor, _,
      hdenotes.reservedCore, _, hdenotes.partialEvents, _, hdenotes.disabledRules, _,
      hdenotes.requiredFiles, _, hdenotes.forbiddenCalls, rfl⟩

end Settings

end ExtensionAudit
