import Mathlib
import ExtensionAudit.Registry.Basic
import ExtensionAudit.Proofs.Setup.Ends

/-!
# Making the rules of a registry

Rules are made entry by entry. A disabled entry is passed over, and its factory is never called; any
other factory is called once, and an object that lacks a member of the contract, or that fails to
answer what it wants to see, ends the making there and then. So which factories are called is
settled by the first such object: those of the entries that are not disabled, up to it, or all of
them if there is none.

What a factory does when it is called is a parameter here: the lines that it writes and the object
that it makes. A factory that writes a line is seen in the log wherever it is called.
-/

namespace ExtensionAudit

/-! ### Answers of an object -/

/-- What is raised in place of an answer, if anything is. -/
def failure? : Except Raised Bool → Option Raised
  | .ok _ => none
  | .error raised => some raised

def isYes : Except Raised Bool → Bool
  | .ok wanted => wanted
  | .error _ => false

theorem failure?_eq_none_iff {answer : Except Raised Bool} :
    failure? answer = none ↔ ∃ wanted, answer = .ok wanted := by
  cases answer <;> simp [failure?]

/-- The first answer that fails settles what comes of asking for types one after the other. -/
theorem wantedAmong_eq (wants : FileType → Except Raised Bool) (types : List FileType) :
    wantedAmong wants types =
      match (types.map wants).findSome? failure? with
      | some raised => .error raised
      | none => .ok (types.filter fun type => isYes (wants type)) := by
  induction types with
  | nil => rfl
  | cons type rest ih =>
    rw [wantedAmong, ih, List.map_cons, List.findSome?_cons, List.filter_cons]
    cases wants type with
    | error raised => rfl
    | ok wanted =>
      simp only [failure?, isYes]
      cases (rest.map wants).findSome? failure? <;> rfl

namespace Candidate

variable {σ : Type} (candidate : Candidate σ)

/-- The answers of an object, in the order in which it is asked for them. -/
def answers : List (Except Raised Bool) :=
  candidate.wantsDirectory
    :: (FileType.all.map candidate.wantsFile ++ FileType.all.map candidate.wantsLine)

/-- What an object says it wants to see, no answer counting as no. -/
def capabilities : Capabilities where
  directory := isYes candidate.wantsDirectory
  fileTypes := FileType.all.filter fun type => isYes (candidate.wantsFile type)
  lineTypes := FileType.all.filter fun type => isYes (candidate.wantsLine type)

theorem probe_eq :
    Capabilities.probe candidate =
      match candidate.answers.findSome? failure? with
      | some raised => .error raised
      | none => .ok candidate.capabilities := by
  rw [Capabilities.probe, wantedAmong_eq, wantedAmong_eq, answers, List.findSome?_cons,
    List.findSome?_append, capabilities]
  cases candidate.wantsDirectory with
  | error raised => rfl
  | ok wanted =>
    simp only [failure?]
    cases (FileType.all.map candidate.wantsFile).findSome? failure? with
    | some raised => rfl
    | none => cases (FileType.all.map candidate.wantsLine).findSome? failure? <;> rfl

/-- The object is a rule: it lacks nothing and answers whatever it is asked. -/
structure IsRule : Prop where
  whole : candidate.lacks = []
  answers : ∀ answer ∈ candidate.answers, ∃ wanted, answer = .ok wanted

variable {candidate}

theorem IsRule.probe_eq (hrule : candidate.IsRule) :
    Capabilities.probe candidate = .ok candidate.capabilities := by
  have hnone : candidate.answers.findSome? failure? = none :=
    List.findSome?_eq_none_iff.mpr fun answer hmem =>
      failure?_eq_none_iff.mpr (hrule.answers answer hmem)
  rw [Candidate.probe_eq, hnone]

/-- Asking ends with the first answer that fails. -/
theorem probe_eq_error {front rest : List (Except Raised Bool)} {raised : Raised}
    (hanswers : candidate.answers = front ++ .error raised :: rest)
    (hfront : ∀ answer ∈ front, ∃ wanted, answer = .ok wanted) :
    Capabilities.probe candidate = .error raised := by
  have hnone : front.findSome? failure? = none :=
    List.findSome?_eq_none_iff.mpr fun answer hmem => failure?_eq_none_iff.mpr (hfront answer hmem)
  rw [probe_eq, hanswers, List.findSome?_append, hnone, List.findSome?_cons]
  rfl

theorem answered_of_mem {answer : Except Raised Bool} (hrule : candidate.IsRule)
    (hmem : answer ∈ candidate.answers) : answer = .ok (isYes answer) := by
  obtain ⟨wanted, rfl⟩ := hrule.answers answer hmem
  rfl

/-- What is written down is what the object answered. -/
theorem IsRule.wantsDirectory_eq (hrule : candidate.IsRule) :
    candidate.wantsDirectory = .ok candidate.capabilities.directory :=
  answered_of_mem hrule List.mem_cons_self

theorem IsRule.wantsFile_eq (hrule : candidate.IsRule) (type : FileType) :
    candidate.wantsFile type = .ok (candidate.capabilities.fileTypes.contains type) := by
  have hmem : candidate.wantsFile type ∈ candidate.answers :=
    List.mem_cons_of_mem _ (List.mem_append_left _ (List.mem_map_of_mem (FileType.mem_all type)))
  have hcontains : candidate.capabilities.fileTypes.contains type
      = isYes (candidate.wantsFile type) := by
    rw [Bool.eq_iff_iff, List.contains_iff_mem, capabilities, List.mem_filter]
    exact and_iff_right (FileType.mem_all type)
  rw [hcontains]
  exact answered_of_mem hrule hmem

theorem IsRule.wantsLine_eq (hrule : candidate.IsRule) (type : FileType) :
    candidate.wantsLine type = .ok (candidate.capabilities.lineTypes.contains type) := by
  have hmem : candidate.wantsLine type ∈ candidate.answers :=
    List.mem_cons_of_mem _ (List.mem_append_right _ (List.mem_map_of_mem (FileType.mem_all type)))
  have hcontains : candidate.capabilities.lineTypes.contains type
      = isYes (candidate.wantsLine type) := by
    rw [Bool.eq_iff_iff, List.contains_iff_mem, capabilities, List.mem_filter]
    exact and_iff_right (FileType.mem_all type)
  rw [hcontains]
  exact answered_of_mem hrule hmem

/-- The object of a rule answers as the rule's capabilities say. -/
theorem isRule_ofRule (rule : Rule σ) : (ofRule rule).IsRule where
  whole := rfl
  answers := by
    intro answer hmem
    simp only [Candidate.answers, ofRule, List.mem_cons, List.mem_append, List.mem_map] at hmem
    obtain rfl | ⟨type, -, rfl⟩ | ⟨type, -, rfl⟩ := hmem <;> exact ⟨_, rfl⟩

end Candidate

namespace Registry

variable {σ φ : Type}

/-! ### Unknown identifiers -/

/-- What is left of a sorted list without its doubles is sorted strictly. -/
theorem pairwise_lt_eraseDups {texts : List String} (hsorted : texts.Pairwise (· ≤ ·)) :
    texts.eraseDups.Pairwise (· < ·) := by
  induction hlength : texts.length using Nat.strong_induction_on generalizing texts with
  | _ length ih =>
    cases texts with
    | nil => exact List.Pairwise.nil
    | cons text rest =>
      obtain ⟨hfirst, hrest⟩ := List.pairwise_cons.mp hsorted
      have hshorter : (rest.filter fun other => !other == text).length < length := by
        have hle := List.length_filter_le (fun other => !other == text) rest
        rw [← hlength, List.length_cons]
        omega
      rw [List.eraseDups_cons]
      refine List.pairwise_cons.mpr ⟨?_, ih _ hshorter (hrest.filter _) rfl⟩
      intro other hother
      obtain ⟨hmem, hne⟩ := List.mem_filter.mp (List.mem_eraseDups.mp hother)
      apply lt_of_le_of_ne (hfirst other hmem)
      rintro rfl
      simp at hne

section Unknown

variable {registry : Registry σ} {disabled : List String}

theorem mem_unknownIn_iff {identifier : String} :
    identifier ∈ registry.unknownIn disabled
      ↔ identifier ∈ disabled ∧ identifier ∉ registry.identifiers := by
  rw [unknownIn, List.mem_eraseDups, (Settings.sorted_perm _).mem_iff, List.mem_filter, contains]
  simp

theorem unknownIn_pairwise : (registry.unknownIn disabled).Pairwise (· < ·) :=
  pairwise_lt_eraseDups (Settings.sorted_pairwise _)

theorem unknownIn_eq_nil_iff :
    registry.unknownIn disabled = [] ↔ disabled ⊆ registry.identifiers := by
  rw [List.eq_nil_iff_forall_not_mem]
  constructor
  · intro hnone identifier hdisabled
    by_contra hnew
    exact hnone identifier (mem_unknownIn_iff.mpr ⟨hdisabled, hnew⟩)
  · intro hknown identifier hmem
    obtain ⟨hdisabled, hnew⟩ := mem_unknownIn_iff.mp hmem
    exact hnew (hknown hdisabled)

end Unknown

/-! ### What is written and what comes of it -/

section Making

variable (context : RuleContext) (object : String × φ → Candidate σ)
  (note : String × φ → List LogLine)

/-- The entry does not end the making: it is passed over, or what its factory makes is a rule. -/
def GoesOn (entry : String × φ) : Prop :=
  entry.1 ∉ context.settings.disabledRules → (object entry).IsRule

/-- The rule of an entry as a check knows it, its answers being written down. -/
def namedRule (entry : String × φ) : NamedRule σ :=
  ⟨entry.1, (object entry).capabilities, (object entry).check⟩

/-- The rules of the entries that are not disabled. -/
def enabledOf (entries : List (String × φ)) : List (NamedRule σ) :=
  (entries.filter fun entry => !context.settings.disabledRules.contains entry.1).map
    (namedRule object)

/-- What is written about an object that is a rule. -/
def acceptanceLines (entry : String × φ) : List LogLine :=
  (if (object entry).capabilities.isEmpty then
      [⟨.warning, "Rule " ++ entry.1 ++ " does not ask for any directory, file or line checks"⟩]
    else [])
    ++ Setup.traceLines context.debug ("Loaded rule " ++ entry.1)

/-- What is written when the making comes to an entry. The factory's own lines are among it exactly
if the factory is called. -/
def linesAt (entry : String × φ) : List LogLine :=
  if context.settings.disabledRules.contains entry.1 then
    Setup.traceLines context.debug ("Skipping disabled rule " ++ entry.1)
  else
    note entry
      ++ if (object entry).lacks.isEmpty && (Capabilities.probe (object entry)).isOk then
          acceptanceLines context object entry
        else []

variable {entry : String × φ}

theorem accept_writes (hrule : (object entry).IsRule) :
    (accept context entry.1 (object entry)).Writes (acceptanceLines context object entry)
      (.ok (namedRule object entry)) := by
  have htraced : Setup.Writes (do
      Setup.trace context.debug ("Loaded rule " ++ entry.1)
      return namedRule object entry)
      (Setup.traceLines context.debug ("Loaded rule " ++ entry.1))
      (.ok (namedRule object entry)) := by
    rw [← List.append_nil (Setup.traceLines _ _)]
    exact (Setup.Writes.trace _ _).bind (Setup.Writes.pure _)
  rw [accept, hrule.whole, hrule.probe_eq, acceptanceLines]
  change Setup.Writes (if (object entry).capabilities.isEmpty = true then do
      Setup.log .warning ("Rule " ++ entry.1 ++
        " does not ask for any directory, file or line checks")
      Setup.trace context.debug ("Loaded rule " ++ entry.1)
      return namedRule object entry
    else do
      Setup.trace context.debug ("Loaded rule " ++ entry.1)
      return namedRule object entry) _ _
  split
  · exact (Setup.Writes.log _ _).bind htraced
  · exact htraced

theorem accept_stops_of_lacking (hlacks : (object entry).lacks ≠ []) :
    (accept context entry.1 (object entry)).Writes [] (.error (.rules (.incomplete entry.1))) := by
  have hsome : (!(object entry).lacks.isEmpty) = true := by
    rw [Bool.not_eq_true', List.isEmpty_eq_false_iff]
    exact hlacks
  rw [accept, if_pos hsome]
  exact (Setup.Writes.throw _).stop

theorem accept_stops_of_failing (hwhole : (object entry).lacks = []) {raised : Raised}
    (hprobe : Capabilities.probe (object entry) = .error raised) :
    (accept context entry.1 (object entry)).Writes [] (.error (.escaped raised)) := by
  rw [accept, hwhole, hprobe]
  exact (Setup.Writes.throw _).stop

section Steps

variable {context object note} {call : String × φ → Setup (Candidate σ)} {entry : String × φ}
  {rest : List (String × φ)} {lines : List LogLine}
  {result : Except SetupFault (List (NamedRule σ))}

/-- A disabled entry is passed over, whatever its factory would do. -/
theorem makeAllBy_cons_of_disabled (hdisabled : entry.1 ∈ context.settings.disabledRules)
    (hrest : (makeAllBy call context rest).Writes lines result) :
    (makeAllBy call context (entry :: rest)).Writes (linesAt context object note entry ++ lines)
      result := by
  have hcontains := List.contains_iff_mem.mpr hdisabled
  rw [makeAllBy, linesAt, if_pos hcontains, if_pos hcontains]
  exact (Setup.Writes.trace _ _).bind hrest

theorem makeAllBy_cons_of_rule (henabled : entry.1 ∉ context.settings.disabledRules)
    (hrule : (object entry).IsRule)
    (hcall : (call entry).Writes (note entry) (.ok (object entry)))
    (hrest : (makeAllBy call context rest).Writes lines result) :
    (makeAllBy call context (entry :: rest)).Writes (linesAt context object note entry ++ lines)
      (result.map (namedRule object entry :: ·)) := by
  have hcontains : ¬ context.settings.disabledRules.contains entry.1 = true :=
    fun hmem => henabled (List.contains_iff_mem.mp hmem)
  have hlines : linesAt context object note entry
      = note entry ++ acceptanceLines context object entry := by
    rw [linesAt, if_neg hcontains, hrule.whole, hrule.probe_eq]
    rfl
  rw [makeAllBy, if_neg hcontains, hlines, List.append_assoc]
  refine hcall.bind ((accept_writes context object hrule).bind ?_)
  cases result with
  | error fault => exact hrest.stop
  | ok rules =>
    rw [← List.append_nil lines]
    exact hrest.bind (Setup.Writes.pure _)

/-- An object that is no rule ends the making, and the rest of the entries is not looked at. -/
theorem makeAllBy_cons_of_stop (henabled : entry.1 ∉ context.settings.disabledRules)
    (hnone : ((object entry).lacks.isEmpty && (Capabilities.probe (object entry)).isOk) = false)
    {fault : SetupFault}
    (hstops : (accept context entry.1 (object entry)).Writes [] (.error fault))
    (hcall : (call entry).Writes (note entry) (.ok (object entry))) :
    (makeAllBy call context (entry :: rest)).Writes (linesAt context object note entry)
      (.error fault) := by
  have hcontains : ¬ context.settings.disabledRules.contains entry.1 = true :=
    fun hmem => henabled (List.contains_iff_mem.mp hmem)
  have hlines : linesAt context object note entry = note entry ++ [] := by
    rw [linesAt, if_neg hcontains, hnone]
    rfl
  rw [makeAllBy, if_neg hcontains, hlines]
  exact hcall.bind hstops.stop

end Steps

variable {context object note} {call : String × φ → Setup (Candidate σ)}

/-- Entries that do not end the making give their rules, and the making goes on behind them. -/
theorem makeAllBy_append {before rest : List (String × φ)} {lines : List LogLine}
    {result : Except SetupFault (List (NamedRule σ))}
    (hcall : ∀ entry ∈ before, (call entry).Writes (note entry) (.ok (object entry)))
    (hgoes : ∀ entry ∈ before, GoesOn context object entry)
    (hrest : (makeAllBy call context rest).Writes lines result) :
    (makeAllBy call context (before ++ rest)).Writes
      (before.flatMap (linesAt context object note) ++ lines)
      (result.map (enabledOf context object before ++ ·)) := by
  induction before with
  | nil =>
    have hsame : result.map (enabledOf context object [] ++ ·) = result := by
      cases result <;> rfl
    rw [hsame]
    exact hrest
  | cons entry before ih =>
    obtain ⟨hcalled, hcall⟩ := List.forall_mem_cons.mp hcall
    obtain ⟨hfirst, hgoes⟩ := List.forall_mem_cons.mp hgoes
    have hlater := ih hcall hgoes
    rw [List.cons_append, List.flatMap_cons, List.append_assoc]
    by_cases hdisabled : entry.1 ∈ context.settings.disabledRules
    · have hrules : enabledOf context object (entry :: before)
          = enabledOf context object before := by
        simp [enabledOf, hdisabled]
      rw [hrules]
      exact makeAllBy_cons_of_disabled hdisabled hlater
    · have hrules : enabledOf context object (entry :: before)
          = namedRule object entry :: enabledOf context object before := by
        simp [enabledOf, hdisabled]
      have hresult : result.map (enabledOf context object (entry :: before) ++ ·)
          = (result.map (enabledOf context object before ++ ·)).map
            (namedRule object entry :: ·) := by
        rw [hrules]
        cases result <;> rfl
      rw [hresult]
      exact makeAllBy_cons_of_rule hdisabled (hfirst hdisabled) hcalled hlater

theorem makeAllBy_complete {entries : List (String × φ)}
    (hcall : ∀ entry ∈ entries, (call entry).Writes (note entry) (.ok (object entry)))
    (hgoes : ∀ entry ∈ entries, GoesOn context object entry) :
    (makeAllBy call context entries).Writes (entries.flatMap (linesAt context object note))
      (.ok (enabledOf context object entries)) := by
  have hnone : (makeAllBy call context []).Writes [] (.ok ([] : List (NamedRule σ))) :=
    Setup.Writes.pure []
  have hmade := makeAllBy_append hcall hgoes hnone
  rw [List.append_nil, List.append_nil] at hmade
  rw [← List.append_nil (enabledOf context object entries)]
  exact hmade

section Stop

variable {before later : List (String × φ)} {entry : String × φ}
  (hcall : ∀ other ∈ before ++ [entry], (call other).Writes (note other) (.ok (object other)))
  (hgoes : ∀ other ∈ before, GoesOn context object other)
  (henabled : entry.1 ∉ context.settings.disabledRules)

include hcall hgoes henabled

theorem makeAllBy_stop
    (hnone : ((object entry).lacks.isEmpty && (Capabilities.probe (object entry)).isOk) = false)
    {fault : SetupFault}
    (hstops : (accept context entry.1 (object entry)).Writes [] (.error fault)) :
    (makeAllBy call context (before ++ entry :: later)).Writes
      ((before ++ [entry]).flatMap (linesAt context object note)) (.error fault) := by
  rw [List.flatMap_append, List.flatMap_singleton]
  exact makeAllBy_append (fun other hmem => hcall other (List.mem_append_left _ hmem)) hgoes
    (makeAllBy_cons_of_stop henabled hnone hstops
      (hcall entry (List.mem_append_right _ (List.mem_singleton_self entry))))

theorem makeAllBy_incomplete (hlacks : (object entry).lacks ≠ []) :
    (makeAllBy call context (before ++ entry :: later)).Writes
      ((before ++ [entry]).flatMap (linesAt context object note))
      (.error (.rules (.incomplete entry.1))) := by
  apply makeAllBy_stop hcall hgoes henabled _ (accept_stops_of_lacking context object hlacks)
  rw [List.isEmpty_eq_false_iff.mpr hlacks, Bool.false_and]

theorem makeAllBy_unanswered (hwhole : (object entry).lacks = []) {raised : Raised}
    (hprobe : Capabilities.probe (object entry) = .error raised) :
    (makeAllBy call context (before ++ entry :: later)).Writes
      ((before ++ [entry]).flatMap (linesAt context object note)) (.error (.escaped raised)) := by
  apply makeAllBy_stop hcall hgoes henabled _
    (accept_stops_of_failing context object hwhole hprobe)
  rw [hprobe]
  exact Bool.and_false _

end Stop

end Making

/-- Entries that are changed but for their identifiers are as good as calls that are changed. -/
theorem makeAllBy_map {ψ : Type} (call : String × φ → Setup (Candidate σ)) (context : RuleContext)
    (change : String × ψ → String × φ) (hsame : ∀ entry, (change entry).1 = entry.1)
    (entries : List (String × ψ)) :
    makeAllBy call context (entries.map change)
      = makeAllBy (fun entry => call (change entry)) context entries := by
  induction entries with
  | nil => rfl
  | cons entry rest ih => rw [List.map_cons, makeAllBy, makeAllBy, ih, hsame]

/-! ### Making the rules of a check -/

section Instantiate

variable {registry : Registry σ} {context : RuleContext}
  {call : String × RuleFactory σ → Setup (Candidate σ)}

/-- If an identifier is disabled that is not registered, no factory is called. -/
theorem instantiateBy_unknown
    (hunknown : ¬ context.settings.disabledRules ⊆ registry.identifiers) :
    (registry.instantiateBy call context).Writes []
      (.error (.rules (.unknownIdentifiers
        (registry.unknownIn context.settings.disabledRules)))) := by
  have hsome : (!(registry.unknownIn context.settings.disabledRules).isEmpty) = true := by
    rw [Bool.not_eq_true', List.isEmpty_eq_false_iff]
    exact fun hnil => hunknown (unknownIn_eq_nil_iff.mp hnil)
  rw [instantiateBy]
  simp only [hsome, if_true]
  exact (Setup.Writes.throw _).stop

theorem instantiateBy_known (hknown : context.settings.disabledRules ⊆ registry.identifiers) :
    registry.instantiateBy call context = makeAllBy call context registry.factories := by
  rw [instantiateBy, unknownIn_eq_nil_iff.mpr hknown]
  rfl

end Instantiate

end Registry

end ExtensionAudit
