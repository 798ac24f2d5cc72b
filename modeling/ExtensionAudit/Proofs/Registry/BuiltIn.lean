import Mathlib
import ExtensionAudit.Package.Check
import ExtensionAudit.Proofs.Registry.Making

/-!
# What disabling does to the set of rules

Setting up a check writes a log as it goes and may end in a fault at any step. The rules of a
registry whose factories make their rules come about without a fault, and disabling leaves out the
named ones and does nothing else: the order of the others stays, and so do they, since a rule is not
told which others are disabled.
-/

namespace ExtensionAudit

/-! ### Steps of a set-up that come through -/

/-- The computation comes to a value, whatever the log holds before it. -/
def Setup.Yields {α : Type} (setup : Setup α) (value : α) : Prop :=
  ∀ log, ((ExceptT.run setup).run log).1 = .ok value

namespace Setup.Yields

variable {α β : Type}

theorem pure (value : α) : Setup.Yields (Pure.pure value) value := Setup.Ends.pure value

theorem bind {setup : Setup α} {next : α → Setup β} {a : α} {b : β}
    (hfirst : setup.Yields a) (hnext : (next a).Yields b) : Setup.Yields (setup >>= next) b := by
  have hends : (setup >>= next).Ends ((.ok a : Except SetupFault α).bind fun _ => .ok b) := by
    refine Setup.Ends.bind hfirst fun value hvalue => ?_
    obtain rfl := Except.ok.inj hvalue
    exact hnext
  exact hends

theorem log (level : LogLevel) (text : String) : (Setup.log level text).Yields () :=
  Setup.Ends.log level text

theorem trace (debug : Bool) (text : String) : (Setup.trace debug text).Yields () :=
  Setup.Ends.trace debug text

theorem execute {setup : Setup α} {value : α} (hyields : setup.Yields value) :
    setup.execute.1 = .ok value := hyields #[]

end Setup.Yields

/-! ### Making rules -/

namespace Registry

variable {σ : Type}

def alwaysMakes (entry : String × (RuleContext → Rule σ)) : String × RuleFactory σ :=
  (entry.1, fun context => .ok (.ofRule (entry.2 context)))

/-- The rule of an entry as a check knows it. -/
def named (context : RuleContext) (entry : String × (RuleContext → Rule σ)) : NamedRule σ :=
  ⟨entry.1, entry.2 context⟩

/-- A rule whose capabilities are what is written down of its answers, each type in its turn. -/
def IsProbed (rule : Rule σ) : Prop := (Candidate.ofRule rule).capabilities = rule.capabilities

/-- What the factory of an entry makes: the object of its rule. -/
def wholeObject (context : RuleContext) (entry : String × (RuleContext → Rule σ)) : Candidate σ :=
  .ofRule (entry.2 context)

theorem enabledOf_wholeObject (context : RuleContext)
    {entries : List (String × (RuleContext → Rule σ))}
    (hprobed : ∀ entry ∈ entries, IsProbed (entry.2 context)) :
    enabledOf context (wholeObject context) entries
      = (entries.map (named context)).filter fun entry =>
        !context.settings.disabledRules.contains entry.identifier := by
  rw [enabledOf, List.filter_map]
  refine List.map_congr_left fun entry hmem => ?_
  have hanswers : (wholeObject context entry).capabilities = (entry.2 context).capabilities :=
    hprobed entry (List.mem_of_mem_filter hmem)
  rw [namedRule, hanswers]
  rfl

theorem makeAll_yields (context : RuleContext)
    {entries : List (String × (RuleContext → Rule σ))}
    (hprobed : ∀ entry ∈ entries, IsProbed (entry.2 context)) :
    (makeAll context (entries.map alwaysMakes)).Yields
      ((entries.map (named context)).filter fun entry =>
        !context.settings.disabledRules.contains entry.identifier) := by
  have hwrites : (makeAllBy (fun entry => callFactory context (alwaysMakes entry)) context
      entries).Writes (entries.flatMap (linesAt context (wholeObject context) fun _ => []))
        (.ok (enabledOf context (wholeObject context) entries)) :=
    makeAllBy_complete (fun entry _ => Setup.Writes.pure (wholeObject context entry))
      fun entry _ _ => Candidate.isRule_ofRule (entry.2 context)
  rw [enabledOf_wholeObject context hprobed] at hwrites
  rw [makeAll, makeAllBy_map (callFactory context) context alwaysMakes fun _ => rfl]
  exact hwrites.ends

theorem instantiate_yields (context : RuleContext)
    {entries : List (String × (RuleContext → Rule σ))}
    (hprobed : ∀ entry ∈ entries, IsProbed (entry.2 context))
    (hknown : ∀ identifier ∈ context.settings.disabledRules, identifier ∈ entries.map (·.1)) :
    (instantiate ⟨entries.map alwaysMakes⟩ context).Yields
      ((entries.map (named context)).filter fun entry =>
        !context.settings.disabledRules.contains entry.identifier) := by
  have hnames : identifiers ⟨entries.map alwaysMakes⟩ = entries.map (·.1) := by
    rw [identifiers, List.map_map]
    rfl
  rw [instantiate, instantiateBy_known fun identifier hmem => hnames ▸ hknown identifier hmem]
  exact makeAll_yields context hprobed

end Registry

/-! ### Registering rules -/

namespace RulePackage

variable {σ : Type}

/-- An entry under the identifier that the name of its module gives its rule. -/
def identified (entry : String × (RuleContext → Rule σ)) : String × (RuleContext → Rule σ) :=
  (identifierOf (RuleModule.ofRule entry.1 entry.2), entry.2)

def modulesOf (entries : List (String × (RuleContext → Rule σ))) : List (RuleModule σ) :=
  entries.map fun entry => RuleModule.ofRule entry.1 entry.2

theorem register_yields {registry : Registry σ} {entry : String × (RuleContext → Rule σ)}
    (hnew : registry.contains entry.1 = false) :
    registry.register entry.1 (some (Registry.alwaysMakes entry).2)
      = .ok ⟨registry.factories ++ [Registry.alwaysMakes entry]⟩ := by
  rw [Registry.register, hnew]
  rfl

/-- Modules whose rules have different identifiers are all registered, in their order. -/
theorem registerAll_yields (package : RulePackage σ)
    (entries : List (String × (RuleContext → Rule σ))) (registry : Registry σ)
    (hdistinct : (registry.identifiers ++ (entries.map identified).map (·.1)).Nodup) :
    (package.registerAll registry (modulesOf entries)).Yields
      ⟨registry.factories ++ (entries.map identified).map Registry.alwaysMakes⟩ := by
  induction entries generalizing registry with
  | nil =>
    rw [List.map_nil, List.map_nil, List.append_nil]
    exact Setup.Yields.pure registry
  | cons entry rest ih =>
    rw [List.map_cons, List.map_cons, List.append_cons] at hdistinct
    have hnew : registry.contains (identified entry).1 = false := by
      rw [Registry.contains, ← Bool.not_eq_true, List.contains_iff_mem]
      intro hmem
      have hfront := (List.nodup_append.mp hdistinct).1
      exact (List.nodup_append.mp hfront).2.2 _ hmem _ (List.mem_singleton_self _) rfl
    have hidentifiers : Registry.identifiers
        ⟨registry.factories ++ [Registry.alwaysMakes (identified entry)]⟩
          = registry.identifiers ++ [(identified entry).1] := by
      rw [Registry.identifiers, List.map_append]
      rfl
    have hregistered : (Setup.lift SetupFault.rules (registry.register (identified entry).1
        (some (Registry.alwaysMakes (identified entry)).2))).Yields
          ⟨registry.factories ++ [Registry.alwaysMakes (identified entry)]⟩ := by
      rw [register_yields hnew]
      exact Setup.Yields.pure _
    have hlater := ih ⟨registry.factories ++ [Registry.alwaysMakes (identified entry)]⟩
      (by rwa [hidentifiers])
    rw [List.append_assoc] at hlater
    exact (Setup.Yields.log _ _).bind
      ((Setup.Yields.pure _).bind ((Setup.Yields.pure _).bind (hregistered.bind hlater)))

/-! ### The built-in rules -/

/-- The built-in rules under the names of their modules, in the order of those names. -/
def builtInEntries : List (String × (RuleContext → Rule σ)) :=
  [("check_directory_structure", DirectoryStructure.rule), ("check_event_names", EventNames.rule),
    ("check_php_functions", ForbiddenCalls.rule), ("check_php_header", fun _ => PhpTags.rule)]

def builtInNames : List String :=
  ["check_directory_structure", "check_event_names", "check_php_functions", "check_php_header"]

def builtInIdentifiers : List String :=
  ["directory_structure", "event_names", "php_functions", "php_header"]

theorem identified_builtIn :
    ((builtInEntries.map identified : List (String × (RuleContext → Rule σ))).map (·.1))
      = builtInIdentifiers := by
  have hnames : (builtInNames.map fun name => String.ofList (name.toList.drop ruleMark.length))
      = builtInIdentifiers := by
    decide
  exact hnames

theorem builtInNames_marked : ∀ name ∈ builtInNames,
    (ruleMark.isPrefixOf name.toList && !name.toList.contains '.') = true := by
  decide

theorem builtInNames_sorted :
    builtInNames.Pairwise fun a b => Settings.textOrder a b = true := by
  decide

theorem ruleModules_builtIn :
    (builtIn : RulePackage σ).ruleModules = modulesOf builtInEntries := by
  have hmodules : (builtIn : RulePackage σ).modules = modulesOf builtInEntries := rfl
  have hnames : (modulesOf builtInEntries : List (RuleModule σ)).map (·.name) = builtInNames := rfl
  have hall : (modulesOf builtInEntries : List (RuleModule σ)).filter isRuleModule
      = modulesOf builtInEntries := by
    refine List.filter_eq_self.mpr fun module hmem => ?_
    have hmarked := builtInNames_marked module.name
      (hnames ▸ List.mem_map_of_mem hmem)
    obtain ⟨entry, -, rfl⟩ := List.mem_map.mp hmem
    exact hmarked
  rw [ruleModules, hmodules, hall]
  refine List.mergeSort_of_pairwise ?_
  have hsorted := builtInNames_sorted
  rw [← hnames, List.pairwise_map] at hsorted
  exact hsorted

theorem discover_builtIn :
    (builtIn : RulePackage σ).discover.Yields
      ⟨(builtInEntries.map identified).map Registry.alwaysMakes⟩ := by
  rw [discover, discoverBy, ruleModules_builtIn]
  refine registerAll_yields builtIn builtInEntries {} ?_
  rw [identified_builtIn]
  have hnodup : builtInIdentifiers.Nodup := by decide
  exact hnodup

theorem builtIn_isProbed (context : RuleContext) :
    ∀ entry ∈ (builtInEntries.map identified : List (String × (RuleContext → Rule σ))),
      Registry.IsProbed (entry.2 context) := by
  intro entry hmem
  obtain ⟨source, hsource, rfl⟩ := List.mem_map.mp hmem
  simp only [builtInEntries, List.mem_cons, List.not_mem_nil, or_false] at hsource
  rcases hsource with rfl | rfl | rfl | rfl <;> rfl

/-- The built-in rules of a check, with none of them disabled. -/
def builtInRules (context : RuleContext) : List (NamedRule σ) :=
  (builtInEntries.map identified).map (Registry.named context)

theorem builtInRules_eq (context : RuleContext) :
    (builtInRules context : List (NamedRule σ))
      = [⟨"directory_structure", DirectoryStructure.rule context⟩,
        ⟨"event_names", EventNames.rule context⟩,
        ⟨"php_functions", ForbiddenCalls.rule context⟩, ⟨"php_header", PhpTags.rule⟩] := by
  have hnames : builtInNames.map (fun name => String.ofList (name.toList.drop ruleMark.length))
      = builtInIdentifiers := by
    decide
  simp only [builtInNames, builtInIdentifiers, List.map_cons, List.map_nil, List.cons.injEq,
    and_true] at hnames
  obtain ⟨hstructure, hevents, hcalls, htags⟩ := hnames
  simp only [builtInRules, builtInEntries, List.map_cons, List.map_nil, identified, identifierOf,
    RuleModule.ofRule, hstructure, hevents, hcalls, htags, Registry.named]

end RulePackage

def RuleContext.disabling (context : RuleContext) (disabled : List String) : RuleContext :=
  { context with settings := { context.settings with disabledRules := disabled } }

theorem RulePackage.filter_builtInRules_ne_nil {σ : Type} (context : RuleContext)
    {disabled : List String}
    (hleft : ∃ identifier ∈ builtInIdentifiers, identifier ∉ disabled) :
    ((builtInRules context : List (NamedRule σ)).filter fun entry =>
      !disabled.contains entry.identifier) ≠ [] := by
  obtain ⟨identifier, hmem, hnot⟩ := hleft
  have hnames : (builtInRules context : List (NamedRule σ)).map (·.identifier)
      = builtInIdentifiers := by
    rw [builtInRules, List.map_map]
    exact identified_builtIn
  rw [← hnames] at hmem
  obtain ⟨entry, hentry, rfl⟩ := List.mem_map.mp hmem
  exact List.ne_nil_of_mem (List.mem_filter.mpr ⟨hentry, by simpa using hnot⟩)

/-- Disabling some of the built-in rules, not all, makes the others, in their order. -/
theorem Package.rulesFor_builtIn {σ : Type} (context : RuleContext) {disabled : List String}
    (hknown : ∀ identifier ∈ disabled, identifier ∈ RulePackage.builtInIdentifiers)
    (hleft : ∃ identifier ∈ RulePackage.builtInIdentifiers, identifier ∉ disabled) :
    (Package.rulesFor (context.disabling disabled) (RulePackage.builtIn : RulePackage σ)).Yields
      ((RulePackage.builtInRules context).filter fun entry =>
        !disabled.contains entry.identifier) := by
  have hmade : Setup.Yields
      (Registry.instantiate
        ⟨(RulePackage.builtInEntries.map RulePackage.identified).map Registry.alwaysMakes⟩
        (context.disabling disabled))
      ((RulePackage.builtInRules context : List (NamedRule σ)).filter fun entry =>
        !disabled.contains entry.identifier) := by
    refine Registry.instantiate_yields (context.disabling disabled)
      (RulePackage.builtIn_isProbed _) ?_
    rwa [RulePackage.identified_builtIn]
  have hsome : ((RulePackage.builtInRules context : List (NamedRule σ)).filter fun entry =>
      !disabled.contains entry.identifier).isEmpty = false :=
    List.isEmpty_eq_false_iff.mpr (RulePackage.filter_builtInRules_ne_nil context hleft)
  refine RulePackage.discover_builtIn.bind (hmade.bind ?_)
  simp only [hsome]
  exact Setup.Yields.pure _

/-- With none of them disabled, all of the built-in rules are made. -/
theorem Package.rulesFor_builtIn_all {σ : Type} (context : RuleContext) :
    (Package.rulesFor (context.disabling []) (RulePackage.builtIn : RulePackage σ)).Yields
      (RulePackage.builtInRules context) := by
  have hleft : ∃ identifier ∈ RulePackage.builtInIdentifiers, identifier ∉ ([] : List String) :=
    ⟨"event_names", by decide, List.not_mem_nil⟩
  have hmade : (Package.rulesFor (context.disabling [])
      (RulePackage.builtIn : RulePackage σ)).Yields _ :=
    Package.rulesFor_builtIn context (fun _ hmem => absurd hmem List.not_mem_nil) hleft
  have hall : ((RulePackage.builtInRules context : List (NamedRule σ)).filter fun entry =>
      !([] : List String).contains entry.identifier) = RulePackage.builtInRules context :=
    List.filter_eq_self.mpr fun _ _ => rfl
  rwa [hall] at hmade

end ExtensionAudit
