import Mathlib
import ExtensionAudit.Proofs.Setup.Ends
import ExtensionAudit.Registry.Discovery

/-!
# Discovering the rules of a package

The modules that offer rules are taken in the order of their names, so the order in which a package
lists its modules does not matter. They are loaded one by one, and each one is registered before the
next one is loaded: the first module that gives no factory ends the discovery, and those behind it
are never loaded. A package cannot hold two modules of one name, so no rule is registered twice.

What is written while a module is loaded is a parameter here. A module that writes a line is seen in
the log if it is loaded, and the log says in which order.
-/

namespace ExtensionAudit

/-- The module can be loaded and gives a factory that can be called. -/
def RuleModule.GivesFactory {σ : Type} (module : RuleModule σ) : Prop :=
  ∃ make, module.load = .ok (.factory make)

def RuleModule.factory? {σ : Type} (module : RuleModule σ) : Option (RuleFactory σ) :=
  match module.load with
  | .ok (.factory make) => some make
  | _ => none

namespace RulePackage

variable {σ : Type}

/-! ### The modules that are considered -/

theorem isRuleModule_iff {module : RuleModule σ} :
    isRuleModule module = true
      ↔ module.isPackage = false ∧ "check_".toList <+: module.name.toList
          ∧ '.' ∉ module.name.toList := by
  rw [isRuleModule, Bool.and_eq_true, Bool.and_eq_true, Bool.not_eq_true', Bool.not_eq_true',
    List.isPrefixOf_iff_prefix, List.contains_eq_mem, decide_eq_false_iff_not, and_assoc]
  rfl

theorem mem_ruleModules_iff {package : RulePackage σ} {module : RuleModule σ} :
    module ∈ package.ruleModules
      ↔ module ∈ package.modules ∧ isRuleModule module = true := by
  rw [ruleModules, List.mem_mergeSort, List.mem_filter]

/-- The name of a rule module is the mark and then the identifier. -/
theorem name_eq_of_isRuleModule {module : RuleModule σ} (hrule : isRuleModule module = true) :
    module.name = "check_" ++ identifierOf module := by
  have hmark : ruleMark <+: module.name.toList := (isRuleModule_iff.mp hrule).2.1
  obtain ⟨rest, hname⟩ := hmark
  have hidentifier : (identifierOf module).toList = rest := by
    rw [identifierOf, String.toList_ofList, ← hname, List.drop_left]
  rw [← String.toList_inj, String.toList_append, hidentifier, ← hname]
  rfl

section Order

variable {package : RulePackage σ}

theorem ruleModules_pairwise :
    package.ruleModules.Pairwise fun a b => Settings.textOrder a.name b.name = true := by
  apply List.pairwise_mergeSort
  · exact fun a b c => Settings.textOrder_trans a.name b.name c.name
  · exact fun a b => Settings.textOrder_total a.name b.name

theorem nodup_names_ruleModules (hdistinct : (package.modules.map RuleModule.name).Nodup) :
    (package.ruleModules.map RuleModule.name).Nodup := by
  have hperm : package.ruleModules.Perm (package.modules.filter isRuleModule) :=
    List.mergeSort_perm _ _
  exact (hperm.map _).nodup_iff.mpr (hdistinct.sublist (List.filter_sublist.map _))

/-- The names of the modules increase strictly. -/
theorem names_ruleModules_pairwise (hdistinct : (package.modules.map RuleModule.name).Nodup) :
    (package.ruleModules.map RuleModule.name).Pairwise (· < ·) := by
  have hle : (package.ruleModules.map RuleModule.name).Pairwise (· ≤ ·) :=
    List.pairwise_map.mpr (ruleModules_pairwise.imp Settings.textOrder_iff.mp)
  exact hle.imp₂ (fun _ _ hle hne => lt_of_le_of_ne hle hne) (nodup_names_ruleModules hdistinct)

theorem nodup_identifiers_ruleModules (hdistinct : (package.modules.map RuleModule.name).Nodup) :
    (package.ruleModules.map identifierOf).Nodup := by
  have hnames : package.ruleModules.map RuleModule.name
      = (package.ruleModules.map identifierOf).map ("check_" ++ ·) := by
    rw [List.map_map]
    exact List.map_congr_left fun module hmem =>
      name_eq_of_isRuleModule (mem_ruleModules_iff.mp hmem).2
  have hnodup := nodup_names_ruleModules hdistinct
  rw [hnames] at hnodup
  exact hnodup.of_map _

/-- The modules that offer rules have one order in which their names increase strictly. -/
theorem ruleModules_eq {order : List (RuleModule σ)}
    (hsorted : (order.map RuleModule.name).Pairwise (· < ·))
    (hperm : order.Perm (package.modules.filter isRuleModule)) : package.ruleModules = order := by
  have hboth : package.ruleModules.Perm order := (List.mergeSort_perm _ _).trans hperm.symm
  have hle : order.Pairwise fun a b => Settings.textOrder a.name b.name = true :=
    (List.pairwise_map.mp hsorted).imp fun hlt => Settings.textOrder_iff.mpr (le_of_lt hlt)
  refine List.Perm.eq_of_pairwise ?_ ruleModules_pairwise hle hboth
  intro a b ha hb hab hba
  have hname : a.name = b.name :=
    String.le_antisymm (Settings.textOrder_iff.mp hab) (Settings.textOrder_iff.mp hba)
  exact List.inj_on_of_nodup_map (hsorted.imp ne_of_lt) (hboth.mem_iff.mp ha) hb hname

theorem ruleModules_of_perm {other : RulePackage σ}
    (hdistinct : (package.modules.map RuleModule.name).Nodup)
    (hperm : other.modules.Perm package.modules) : other.ruleModules = package.ruleModules :=
  ruleModules_eq (names_ruleModules_pairwise hdistinct)
    ((List.mergeSort_perm _ _).trans (hperm.symm.filter _))

end Order

/-! ### Loading and registering -/

/-- Loads a module, writing the lines about it before anything else happens. -/
def loadNoting (note : RuleModule σ → List LogLine) (package : RulePackage σ)
    (module : RuleModule σ) : Setup (Offer σ) := do
  Setup.write (note module)
  package.loadModule module

def discoverNoting (note : RuleModule σ → List LogLine) (package : RulePackage σ) :
    Setup (Registry σ) :=
  package.discoverBy (package.loadNoting note)

/-- What is written about the modules that are loaded, one after the other. -/
def loadedLines (note : RuleModule σ → List LogLine) (package : RulePackage σ)
    (modules : List (RuleModule σ)) : List LogLine :=
  modules.flatMap fun module =>
    ⟨.debug, "Got rule module " ++ package.qualifiedName module⟩ :: note module

/-- Loading the module raises what cannot be told. -/
def IsUntold (module : RuleModule σ) : Prop :=
  ∃ kind places instead, module.load = .error (.untold kind places instead)

/-- The fault is about the module: it cannot be loaded, gives nothing under the name of the factory,
or gives what cannot be called. If what it raises cannot be told, there is only what the attempt to
tell it raises. -/
inductive Blames (package : RulePackage σ) (module : RuleModule σ) : SetupFault → Prop
  | notLoaded {failure : Failure} (hload : module.load = .error (.told failure)) :
      Blames package module (.rules (.moduleNotLoaded (package.qualifiedName module) failure))
  | untold {kind : String} {places : List TracePlace} {instead : Raised}
      (hload : module.load = .error (.untold kind places instead)) :
      Blames package module (.escaped instead)
  | nothing (hload : module.load = .ok .nothing) :
      Blames package module (.rules (.moduleWithoutFactory (package.qualifiedName module)))
  | notCallable (hload : module.load = .ok .notCallable) :
      Blames package module (.rules (.factoryNotCallable (identifierOf module)))

/-- The entries of the modules in the registry. -/
def entriesOf (modules : List (RuleModule σ)) : List (String × RuleFactory σ) :=
  modules.filterMap fun module => module.factory?.map (identifierOf module, ·)

theorem Blames.isConfiguration {package : RulePackage σ} {module : RuleModule σ}
    {fault : SetupFault} (hblames : package.Blames module fault) (htold : ¬ IsUntold module) :
    fault.isConfiguration = true := by
  cases hblames with
  | notLoaded hload => rfl
  | nothing hload => rfl
  | notCallable hload => rfl
  | untold hload => exact absurd ⟨_, _, _, hload⟩ htold

section Steps

variable (package : RulePackage σ) (note : RuleModule σ → List LogLine) (registry : Registry σ)
  {module : RuleModule σ} {rest : List (RuleModule σ)} {lines : List LogLine}
  {result : Except SetupFault (Registry σ)}

theorem entriesOf_cons {make : RuleFactory σ} (hload : module.load = .ok (.factory make)) :
    entriesOf (module :: rest) = (identifierOf module, make) :: entriesOf rest := by
  rw [entriesOf, List.filterMap_cons, RuleModule.factory?, hload]
  rfl

theorem loadNoting_writes (module : RuleModule σ) :
    (package.loadNoting note module).Writes (note module)
      (module.load.mapError (package.loadFault module)) := by
  rw [← List.append_nil (note module)]
  exact (Setup.Writes.write _).bind (Setup.Writes.lift _ _)

/-- A module that gives a factory is registered, and the next one follows. -/
theorem registerAllBy_cons {make : RuleFactory σ} (hoffer : module.load = .ok (.factory make))
    (hnew : identifierOf module ∉ registry.identifiers)
    (hrest : (package.registerAllBy (package.loadNoting note)
      ⟨registry.factories ++ [(identifierOf module, make)]⟩ rest).Writes lines result) :
    (package.registerAllBy (package.loadNoting note) registry (module :: rest)).Writes
      (package.loadedLines note [module] ++ lines) result := by
  have hload := loadNoting_writes package note module
  rw [hoffer] at hload
  have hregistered : registry.register (identifierOf module) (some make)
      = .ok ⟨registry.factories ++ [(identifierOf module, make)]⟩ := by
    have hcontains : registry.contains (identifierOf module) = false := by
      rw [Registry.contains, ← Bool.not_eq_true, List.contains_iff_mem]
      exact hnew
    rw [Registry.register, hcontains]
    rfl
  have hsteps : Setup.Writes (do
      let registry ← Setup.lift .rules (registry.register (identifierOf module) (some make))
      package.registerAllBy (package.loadNoting note) registry rest) lines result := by
    rw [hregistered]
    exact (Setup.Writes.pure _).bind hrest
  rw [loadedLines, List.flatMap_singleton, List.cons_append]
  exact (Setup.Writes.log _ _).bind (hload.bind ((Setup.Writes.pure _).bind hsteps))

/-- A module that gives no factory ends the discovery, whatever modules stand behind it. -/
theorem registerAllBy_cons_of_none (rest : List (RuleModule σ)) (hnone : ¬ module.GivesFactory) :
    ∃ fault, package.Blames module fault
      ∧ (package.registerAllBy (package.loadNoting note) registry (module :: rest)).Writes
        (package.loadedLines note [module]) (.error fault) := by
  have hload := loadNoting_writes package note module
  rw [loadedLines, List.flatMap_singleton, ← List.append_nil (note module)]
  cases hoffer : module.load with
  | error raised =>
    rw [hoffer] at hload
    rw [List.append_nil]
    have hblames : package.Blames module (package.loadFault module raised) := by
      cases raised with
      | told failure => exact .notLoaded hoffer
      | untold kind places instead => exact .untold hoffer
    exact ⟨_, hblames, (Setup.Writes.log _ _).bind hload.stop⟩
  | ok offer =>
    rw [hoffer] at hload
    cases offer with
    | nothing =>
      exact ⟨_, .nothing hoffer,
        (Setup.Writes.log _ _).bind (hload.bind (Setup.Writes.throw _).stop)⟩
    | notCallable =>
      exact ⟨_, .notCallable hoffer, (Setup.Writes.log _ _).bind
        (hload.bind ((Setup.Writes.pure _).bind (Setup.Writes.throw _).stop))⟩
    | factory make => exact absurd ⟨make, hoffer⟩ hnone

/-- Modules that give factories are loaded and registered, and then the discovery goes on. -/
theorem registerAllBy_append {before : List (RuleModule σ)}
    (hgive : ∀ module ∈ before, module.GivesFactory)
    (hdistinct : (registry.identifiers ++ before.map identifierOf).Nodup)
    (hrest : (package.registerAllBy (package.loadNoting note)
      ⟨registry.factories ++ entriesOf before⟩ rest).Writes lines result) :
    (package.registerAllBy (package.loadNoting note) registry (before ++ rest)).Writes
      (package.loadedLines note before ++ lines) result := by
  induction before generalizing registry with
  | nil =>
    rw [entriesOf, List.filterMap_nil, List.append_nil] at hrest
    exact hrest
  | cons module before ih =>
    obtain ⟨⟨make, hoffer⟩, hgive⟩ := List.forall_mem_cons.mp hgive
    have hnew : identifierOf module ∉ registry.identifiers := by
      intro hmem
      exact (List.nodup_append.mp hdistinct).2.2 _ hmem _ List.mem_cons_self rfl
    have hidentifiers : Registry.identifiers
        ⟨registry.factories ++ [(identifierOf module, make)]⟩
          = registry.identifiers ++ [identifierOf module] := by
      rw [Registry.identifiers, List.map_append]
      rfl
    rw [entriesOf_cons hoffer, List.append_cons] at hrest
    rw [List.map_cons, List.append_cons, ← hidentifiers] at hdistinct
    have hlines : package.loadedLines note (module :: before) ++ lines
        = package.loadedLines note [module] ++ (package.loadedLines note before ++ lines) := by
      rw [← List.append_assoc, loadedLines, loadedLines, loadedLines, ← List.flatMap_append,
        List.singleton_append]
    rw [List.cons_append, hlines]
    exact registerAllBy_cons package note registry hoffer hnew (ih _ hgive hdistinct hrest)

end Steps

/-! ### Discovering -/

/-- What discovering the rules of a package comes to, its rule modules being given in order. -/
structure Discovers (package : RulePackage σ) (order : List (RuleModule σ))
    (note : RuleModule σ → List LogLine) : Prop where
  complete : (∀ module ∈ order, module.GivesFactory) →
    ∃ registry, (package.discoverNoting note).Writes (package.loadedLines note order) (.ok registry)
      ∧ registry.identifiers = order.map identifierOf
      ∧ List.Forall₂ (fun module entry => module.load = .ok (.factory entry.2)) order
        registry.factories
  faulty (before later) (module) : order = before ++ module :: later →
    (∀ other ∈ before, other.GivesFactory) → ¬ module.GivesFactory →
    ∃ fault, package.Blames module fault ∧ (¬ IsUntold module → fault.isConfiguration = true)
      ∧ (package.discoverNoting note).Writes (package.loadedLines note (before ++ [module]))
        (.error fault)

theorem discoverNoting_nil (package : RulePackage σ) :
    package.discoverNoting (fun _ => []) = package.discover := by
  have hload : package.loadNoting (fun _ => []) = package.loadModule := by
    funext module
    refine ExceptT.ext (StateT.ext fun log => ?_)
    have hwrites : (ExceptT.run (Setup.write [])).run log = (.ok (), log ++ [].toArray) := rfl
    rw [loadNoting, ExceptT.run_bind, StateT.run_bind, hwrites, Array.append_empty]
    rfl
  rw [discoverNoting, hload, discover]

/-- How the modules are registered depends on the package for its name alone. -/
theorem registerAllBy_congr {package other : RulePackage σ} (hname : other.name = package.name)
    (note : RuleModule σ → List LogLine) (modules : List (RuleModule σ)) (registry : Registry σ) :
    other.registerAllBy (other.loadNoting note) registry modules
      = package.registerAllBy (package.loadNoting note) registry modules := by
  have hqualified (module : RuleModule σ) :
      other.qualifiedName module = package.qualifiedName module := by
    rw [qualifiedName, hname, qualifiedName]
  have hload : other.loadNoting note = package.loadNoting note := by
    funext module
    have hfault : other.loadFault module = package.loadFault module := by
      funext raised
      cases raised with
      | told failure => rw [loadFault, loadFault, hqualified]
      | untold kind places instead => rfl
    rw [loadNoting, loadNoting, loadModule, loadModule, hfault]
  induction modules generalizing registry with
  | nil => rfl
  | cons module rest ih => simp only [registerAllBy, hqualified, hload, ← ih]

theorem entriesOf_complete {modules : List (RuleModule σ)}
    (hgive : ∀ module ∈ modules, module.GivesFactory) :
    (entriesOf modules).map Prod.fst = modules.map identifierOf
      ∧ List.Forall₂ (fun module entry => module.load = .ok (.factory entry.2)) modules
        (entriesOf modules) := by
  induction modules with
  | nil => exact ⟨rfl, .nil⟩
  | cons module rest ih =>
    obtain ⟨⟨make, hoffer⟩, hgive⟩ := List.forall_mem_cons.mp hgive
    obtain ⟨hnames, hentries⟩ := ih hgive
    rw [entriesOf_cons hoffer, List.map_cons, List.map_cons, hnames]
    exact ⟨rfl, .cons hoffer hentries⟩

theorem discovers (package : RulePackage σ) (note : RuleModule σ → List LogLine)
    (hdistinct : (package.modules.map RuleModule.name).Nodup) :
    package.Discovers package.ruleModules note where
  complete hgive := by
    obtain ⟨hnames, hentries⟩ := entriesOf_complete hgive
    refine ⟨⟨entriesOf package.ruleModules⟩, ?_, hnames, hentries⟩
    have hnone : (package.registerAllBy (package.loadNoting note)
        ⟨entriesOf package.ruleModules⟩ []).Writes [] (.ok ⟨entriesOf package.ruleModules⟩) :=
      Setup.Writes.pure _
    have hdone := registerAllBy_append package note {} hgive
      (nodup_identifiers_ruleModules hdistinct) hnone
    rwa [List.append_nil, List.append_nil] at hdone
  faulty before later module hsplit hgive hnone := by
    have hidentifiers := nodup_identifiers_ruleModules hdistinct
    rw [hsplit, List.map_append] at hidentifiers
    obtain ⟨fault, hblames, hstops⟩ :=
      registerAllBy_cons_of_none package note ⟨entriesOf before⟩ later hnone
    have hlines : package.loadedLines note (before ++ [module])
        = package.loadedLines note before ++ package.loadedLines note [module] :=
      List.flatMap_append
    refine ⟨fault, hblames, hblames.isConfiguration, ?_⟩
    rw [discoverNoting, discoverBy, hsplit, hlines]
    exact registerAllBy_append package note {} hgive (List.nodup_append.mp hidentifiers).1 hstops

theorem exists_first_without_factory {modules : List (RuleModule σ)}
    (hsome : ¬ ∀ module ∈ modules, module.GivesFactory) :
    ∃ before module later, modules = before ++ module :: later
      ∧ (∀ other ∈ before, other.GivesFactory) ∧ ¬ module.GivesFactory := by
  induction modules with
  | nil => exact absurd nofun hsome
  | cons first rest ih =>
    by_cases hfirst : first.GivesFactory
    · have hrest : ¬ ∀ module ∈ rest, module.GivesFactory :=
        fun hall => hsome (List.forall_mem_cons.mpr ⟨hfirst, hall⟩)
      obtain ⟨before, module, later, rfl, hgive, hnone⟩ := ih hrest
      exact ⟨first :: before, module, later, rfl, List.forall_mem_cons.mpr ⟨hfirst, hgive⟩, hnone⟩
    · exact ⟨[], first, rest, rfl, nofun, hfirst⟩

/-- The rules of a package are found if and only if every rule module gives a factory. -/
theorem exists_discover_iff {package : RulePackage σ}
    (hdistinct : (package.modules.map RuleModule.name).Nodup) :
    (∃ registry, package.discover.execute.1 = .ok registry)
      ↔ ∀ module ∈ package.ruleModules, module.GivesFactory := by
  have hdiscovers := package.discovers (fun _ => []) hdistinct
  rw [← package.discoverNoting_nil]
  constructor
  · rintro ⟨registry, hfound⟩
    by_contra hsome
    obtain ⟨before, module, later, hsplit, hgive, hnone⟩ := exists_first_without_factory hsome
    obtain ⟨fault, -, -, hwrites⟩ := hdiscovers.faulty before later module hsplit hgive hnone
    rw [hwrites.execute] at hfound
    cases hfound
  · intro hgive
    obtain ⟨registry, hwrites, -⟩ := hdiscovers.complete hgive
    exact ⟨registry, congrArg Prod.fst hwrites.execute⟩

/-- **Discovery.** The modules of a package that are considered are those that are no packages and
whose names begin with the mark of rules and hold no dot, in the order of their names. They are
loaded in that order and no other one is. If all of them give a factory, the registry holds these
under the names without the mark, and else the first one that does not is blamed and those behind it
are not loaded. The blame is a fault of the configuration, unless the module raises what cannot be
told; then the discovery ends with what the attempt to tell it raises. In what order the package
lists its modules does not matter. -/
theorem discover_in_order (package : RulePackage σ)
    (hdistinct : (package.modules.map RuleModule.name).Nodup) :
    (∀ module, module ∈ package.ruleModules
        ↔ module ∈ package.modules ∧ module.isPackage = false
          ∧ "check_".toList <+: module.name.toList ∧ '.' ∉ module.name.toList)
      ∧ (package.ruleModules.map RuleModule.name).Pairwise (· < ·)
      ∧ (∀ module ∈ package.ruleModules, module.name = "check_" ++ identifierOf module)
      ∧ (∀ note, package.Discovers package.ruleModules note)
      ∧ package.discover = package.discoverNoting (fun _ => [])
      ∧ ((∃ registry, package.discover.execute.1 = .ok registry)
        ↔ ∀ module ∈ package.ruleModules, module.GivesFactory)
      ∧ ∀ other : RulePackage σ, other.name = package.name → other.modules.Perm package.modules →
          ∀ note, other.discoverNoting note = package.discoverNoting note := by
  refine ⟨fun module => ?_, names_ruleModules_pairwise hdistinct, fun module hmem => ?_,
    fun note => package.discovers note hdistinct, package.discoverNoting_nil.symm,
    exists_discover_iff hdistinct, fun other hname hperm note => ?_⟩
  · rw [mem_ruleModules_iff, isRuleModule_iff]
  · exact name_eq_of_isRuleModule (mem_ruleModules_iff.mp hmem).2
  · rw [discoverNoting, discoverBy, ruleModules_of_perm hdistinct hperm,
      registerAllBy_congr hname]
    rfl

def headerModule : RuleModule Unit where
  name := "check_header"
  load := .ok (.factory fun _ => .ok (.ofRule (.stateless {} fun _ => {})))

def namesModule : RuleModule Unit where
  name := "check_names"
  load := .ok .notCallable

def zonesModule : RuleModule Unit where
  name := "check_zones"
  load := .error (.told { kind := "RuntimeError", text := "cannot load" })

/-- A package of three rule modules, two of them broken, and of two more modules that are none. -/
def twoBroken : RulePackage Unit where
  name := "custom_rules"
  modules := [zonesModule, { zonesModule with name := "helper" }, namesModule,
    { namesModule with name := "check_inner", isPackage := true }, headerModule]

theorem discover_in_order_twoBroken :
    (twoBroken.modules.map RuleModule.name).Nodup
      ∧ (twoBroken.discoverNoting fun module => [⟨.debug, "Loading " ++ module.name⟩]).execute
        = (.error (.rules (.factoryNotCallable "names")),
          #[⟨.debug, "Got rule module custom_rules.check_header"⟩, ⟨.debug, "Loading check_header"⟩,
            ⟨.debug, "Got rule module custom_rules.check_names"⟩,
            ⟨.debug, "Loading check_names"⟩]) := by
  have hdistinct : (twoBroken.modules.map RuleModule.name).Nodup := by decide
  have horder : twoBroken.ruleModules = [headerModule] ++ namesModule :: [zonesModule] :=
    ruleModules_eq (by decide) (List.reverse_perm (twoBroken.modules.filter isRuleModule))
  refine ⟨hdistinct, ?_⟩
  obtain ⟨-, -, -, hdiscovers, -⟩ := discover_in_order twoBroken hdistinct
  obtain ⟨fault, hblames, -, hwrites⟩ :=
    (hdiscovers fun module => [⟨.debug, "Loading " ++ module.name⟩]).faulty _ _ _ horder
      (fun _ hmem => List.mem_singleton.mp hmem ▸ ⟨_, rfl⟩) (by rintro ⟨make, hload⟩; cases hload)
  have hfault : fault = .rules (.factoryNotCallable (identifierOf namesModule)) := by
    cases hblames with
    | notCallable => rfl
    | notLoaded hload => cases hload
    | untold hload => cases hload
    | nothing hload => cases hload
  have hidentifier : identifierOf namesModule = "names" := by decide
  rw [hwrites.execute, hfault, hidentifier]
  rfl

end RulePackage

end ExtensionAudit
