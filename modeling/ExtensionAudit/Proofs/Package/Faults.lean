import Mathlib
import ExtensionAudit.Proofs.Audit.Independence
import ExtensionAudit.Proofs.Package.Loading
import ExtensionAudit.Proofs.Settings.Load

/-!
# How a check ends

A check either makes a report or ends with a fault, and what stands in the way of a check should be
a fault of the configuration. The steps of a check are looked at one by one: the name of the package
never stops it, the built-in rules stop it only over the configuration, and their run never stops it,
since their failures can be told. So a check ends unexpectedly exactly if its settings cannot be
loaded for one of the reasons for which loading ends unexpectedly, or if a search in the tree fails,
of the root itself, for the manifest or for the files.
-/

namespace ExtensionAudit.Package

variable {tree : FileTree} {root base : Path} {request : CheckRequest}

/-! ### Settings, base directory and name -/

def settingsResult (tree : FileTree) (root : Path) (request : CheckRequest) :
    Except SetupFault Settings :=
  match request.settings with
  | some settings => .ok settings
  | none => (isDirectory tree root).bind fun there =>
      Settings.loaded tree none (if there then some root else none)

theorem settingsOf_ends (tree : FileTree) (root : Path) (request : CheckRequest) :
    (settingsOf tree root request).Ends (settingsResult tree root request) := by
  rw [settingsOf, settingsResult]
  cases request.settings with
  | some settings => exact Setup.Ends.pure settings
  | none =>
    have hroot : (Settings.rootIfDirectory tree root).Ends
        ((isDirectory tree root).bind fun there => .ok (if there then some root else none)) := by
      refine (Setup.Ends.need _).bind fun there _ => ?_
      cases there with
      | true => exact Setup.Ends.pure _
      | false => exact Setup.Ends.pure _
    have hloads := hroot.bind fun root _ => Settings.load_ends tree none root
    cases hasked : isDirectory tree root with
    | ok there =>
      rw [hasked] at hloads
      exact hloads
    | error fault =>
      rw [hasked] at hloads
      exact hloads

/-- The name of a package, empty if it has none. -/
def nameOrEmpty (tree : FileTree) (base : Path) (composerFile : String) : String :=
  (declaredName tree base composerFile).toOption.getD ""

theorem name_ends (tree : FileTree) (base : Path) (composerFile : String) :
    (name tree base composerFile).Ends (.ok (nameOrEmpty tree base composerFile)) := by
  unfold name nameOrEmpty
  cases declaredName tree base composerFile with
  | ok name => exact Setup.Ends.pure name
  | error fault => exact (Setup.Ends.log _ _).after (Setup.Ends.pure "")

def contextWith (tree : FileTree) (request : CheckRequest) (settings : Settings) (base : Path)
    (name : String) : RuleContext where
  debug := request.debug
  tree := tree
  baseDirectory := base
  packageName := name
  settings := settings

def contextResult (tree : FileTree) (root : Path) (request : CheckRequest) :
    Except SetupFault RuleContext :=
  (settingsResult tree root request).bind fun settings =>
    (baseDirectory tree settings.manifest root).bind fun base =>
      .ok (contextWith tree request settings base
        (request.name.getD (nameOrEmpty tree base settings.composerFile)))

theorem contextOf_ends (tree : FileTree) (root : Path) (request : CheckRequest) :
    (contextOf tree root request).Ends (contextResult tree root request) := by
  refine (settingsOf_ends tree root request).bind fun settings _ => ?_
  refine (Setup.Ends.need _).bind fun base _ => ?_
  have hrest (name : String) : Setup.Ends (do
      Setup.trace request.debug (baseTrace base name)
      return contextWith tree request settings base name)
      (.ok (contextWith tree request settings base name)) :=
    (Setup.Ends.trace _ _).after (Setup.Ends.pure _)
  cases request.name with
  | some name => exact hrest name
  | none => exact (name_ends tree base settings.composerFile).bind fun name _ => hrest name

/-- What a check is told comes of its settings and of the base directory. -/
theorem contextResult_eq_ok {context : RuleContext}
    (hcontext : contextResult tree root request = .ok context) :
    context.tree = tree ∧ settingsResult tree root request = .ok context.settings
      ∧ baseDirectory tree context.settings.manifest root = .ok context.baseDirectory := by
  obtain ⟨settings, hsettings, hrest⟩ := bind_eq_ok_iff.mp hcontext
  obtain ⟨base, hbase, hmade⟩ := bind_eq_ok_iff.mp hrest
  obtain rfl := Except.ok.inj hmade
  exact ⟨rfl, hsettings, hbase⟩

/-! ### Rules -/

section Rules

variable {σ : Type}

def registered : Registry σ :=
  ⟨(RulePackage.builtInEntries.map RulePackage.identified).map Registry.alwaysMakes⟩

/-- The built-in rules that are not disabled. -/
def enabledRules (context : RuleContext) : List (NamedRule σ) :=
  (RulePackage.builtInRules context).filter fun entry =>
    !context.settings.disabledRules.contains entry.identifier

def instantiateResult (context : RuleContext) : Except SetupFault (List (NamedRule σ)) :=
  let unknown := Registry.unknownIn (registered : Registry σ) context.settings.disabledRules
  if !unknown.isEmpty then .error (.rules (.unknownIdentifiers unknown))
  else .ok (enabledRules context)

def rulesResult (context : RuleContext) : Except SetupFault (List (NamedRule σ)) :=
  (instantiateResult context).bind fun rules =>
    if rules.isEmpty then .error (.rules .empty) else .ok rules

theorem instantiate_ends (context : RuleContext) :
    (Registry.instantiate (registered : Registry σ) context).Ends (instantiateResult context) := by
  rw [Registry.instantiate, Registry.instantiateBy, instantiateResult]
  dsimp only
  split
  · exact Setup.Ends.throw _
  · exact Registry.makeAll_yields context (RulePackage.builtIn_isProbed context)

theorem rulesFor_ends (context : RuleContext) :
    (rulesFor context (RulePackage.builtIn : RulePackage σ)).Ends (rulesResult context) := by
  have hdiscover : (RulePackage.builtIn : RulePackage σ).discover.Ends (.ok registered) :=
    RulePackage.discover_builtIn
  have hrest (rules : List (NamedRule σ)) : Setup.Ends (do
      if rules.isEmpty then throw (.rules .empty)
      return rules) (if rules.isEmpty then .error (.rules .empty) else .ok rules) := by
    split
    · exact Setup.Ends.throw _
    · exact Setup.Ends.pure rules
  have hrules (registry : Registry σ)
      (hregistry : .ok registered = (.ok registry : Except SetupFault _)) :
      Setup.Ends (do
        let rules ← registry.instantiate context
        if rules.isEmpty then throw (.rules .empty)
        return rules) (rulesResult context) := by
    obtain rfl := Except.ok.inj hregistry
    exact (instantiate_ends context).bind fun rules _ => hrest rules
  exact hdiscover.bind hrules

theorem rulesResult_eq_ok {context : RuleContext} {rules : List (NamedRule σ)}
    (hrules : rulesResult context = .ok rules) :
    rules ⊆ RulePackage.builtInRules context ∧ rules ≠ [] := by
  rw [rulesResult, instantiateResult] at hrules
  split at hrules
  · cases hrules
  · change (if (enabledRules context).isEmpty then _ else _) = _ at hrules
    split at hrules
    · cases hrules
    · next hsome =>
      obtain rfl := Except.ok.inj hrules
      refine ⟨List.filter_subset_self _, fun hnil => hsome ?_⟩
      rw [hnil]
      rfl

end Rules

/-! ### The check -/

def checkResult (tree : FileTree) (root : Path) (request : CheckRequest) :
    Except SetupFault Report :=
  (contextResult tree root request).bind fun context =>
    (rulesResult context).bind fun rules =>
      (checkEvents context rules root ()).bind fun entered => reportOn entered.1 entered.2

theorem check_ends (tree : FileTree) (root : Path) (request : CheckRequest) :
    (check tree root request).Ends (checkResult tree root request) := by
  refine (contextOf_ends tree root request).bind fun context _ => ?_
  refine (rulesFor_ends context).bind fun rules _ => ?_
  refine (Setup.Ends.need _).bind fun entered _ => ?_
  exact (Setup.Ends.modify _).after (Setup.Ends.need _)

/-! ### Unexpected ends -/

/-- Once there are rules, a check only fails to load; the run of built-in rules always comes to an
end. -/
theorem checkEvents_eq {σ : Type} {context : RuleContext} {rules : List (NamedRule σ)}
    (hrules : rules ⊆ RulePackage.builtInRules context ∧ rules ≠ []) (root : Path) (state : σ) :
    checkEvents context rules root state
      = ((load context.tree root context.baseDirectory).mapError .search).map fun contents =>
          (contents.effects.map .effect ++ Audit.runEvents (Audit.makeEach
            (Audit.callsOf rules.zipIdx contents.files contents.listing) state).1, none) := by
  rw [checkEvents]
  cases load context.tree root context.baseDirectory with
  | error fault => rfl
  | ok contents =>
    have hrun := Audit.run_eq (Audit.zipIdx_ne_nil hrules.2)
      (Audit.allTold_builtIn hrules.1 contents.files contents.listing state)
    rw [List.zipIdx_map_fst] at hrun
    simp [Except.mapError, Except.map, bind, Except.bind, hrun, pure, Except.pure]

end ExtensionAudit.Package
