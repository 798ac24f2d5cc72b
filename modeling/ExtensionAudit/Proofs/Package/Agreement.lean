import Mathlib
import ExtensionAudit.Proofs.Audit.Announcement
import ExtensionAudit.Proofs.FileTree.Agreement
import ExtensionAudit.Proofs.Package.Faults

/-!
# The same check on another tree

A check looks at a tree in few ways: it reads the settings file and the composer file, searches for
the manifest and for the files, reads those, and the rule on events reads some of them again. Each of
these steps comes out the same on another tree where the paths that it looks up lead to the same. The
rules themselves are told apart from the tree by what they are made from, so that those of two checks
can be called alike.
-/

namespace ExtensionAudit

/-! ### Rules that answer alike -/

namespace Audit

variable {σ : Type} {ι : Type}

/-- Two rules known by one name that want to see the same and answer the same in any run over a
listing. -/
structure AnswersAlike (listing : List String) (first second : NamedRule σ) : Prop where
  identifier : first.identifier = second.identifier
  capabilities : first.rule.capabilities = second.rule.capabilities
  check : ∀ subject, (∀ heard, subject = .directory heard → heard = listing) →
    ∀ state, first.rule.check subject state = second.rule.check subject state

theorem callsWith_congr {wanted others : ι → Bool} {entries : List ι}
    (hsame : ∀ entry ∈ entries, wanted entry = others entry) (subject : Subject) :
    callsWith wanted entries subject = callsWith others entries subject := by
  rw [callsWith, callsWith, List.filter_congr hsame]

theorem schedule_congr {wants others : ι → Capabilities} {entries : List ι}
    (hsame : ∀ entry ∈ entries, wants entry = others entry) (files : List SourceFile)
    (listing : List String) :
    schedule wants entries files listing = schedule others entries files listing := by
  have hwith (ask : Capabilities → Bool) (subject : Subject) :
      callsWith (fun entry => ask (wants entry)) entries subject
        = callsWith (fun entry => ask (others entry)) entries subject :=
    callsWith_congr (fun entry hmem => by rw [hsame entry hmem]) subject
  have hfile : callsFor wants entries = callsFor others entries := by
    funext file
    rw [callsFor, callsFor, hwith fun capabilities => capabilities.fileTypes.contains file.fileType]
    congr 1
    apply List.flatMap_congr
    intro line _
    exact hwith (fun capabilities => capabilities.lineTypes.contains file.fileType) _
  rw [schedule, schedule, hfile, hwith fun capabilities => capabilities.directory]

theorem makeEach_congr {first second : ι → NamedRule σ} {calls : List ((ι × Nat) × Subject)}
    (hsame : ∀ call ∈ calls, (first call.1.1).identifier = (second call.1.1).identifier
      ∧ ∀ state, (first call.1.1).rule.check call.2 state
        = (second call.1.1).rule.check call.2 state)
    (state : σ) :
    makeEach (calls.map fun call => ((first call.1.1, call.1.2), call.2)) state
      = makeEach (calls.map fun call => ((second call.1.1, call.1.2), call.2)) state := by
  induction calls generalizing state with
  | nil => rfl
  | cons call rest ih =>
    obtain ⟨⟨hname, hanswer⟩, hrest⟩ := List.forall_mem_cons.mp hsame
    rw [List.map_cons, List.map_cons, makeEach, makeEach, hname, hanswer, ih hrest]

/-- A run calls rules alike and is answered the same if they answer alike, one by one. -/
theorem makeEach_callsOf_congr {first second : ι → NamedRule σ} {entries : List ι}
    {listing : List String}
    (halike : ∀ entry ∈ entries, AnswersAlike listing (first entry) (second entry))
    (files : List SourceFile) (state : σ) :
    makeEach (callsOf (entries.map first).zipIdx files listing) state
      = makeEach (callsOf (entries.map second).zipIdx files listing) state := by
  have hcalls (rule : ι → NamedRule σ) : callsOf (entries.map rule).zipIdx files listing
      = (schedule (fun entry => (rule entry.1).rule.capabilities) entries.zipIdx files listing).map
          fun call => ((rule call.1.1, call.1.2), call.2) := by
    rw [callsOf, List.zipIdx_map]
    exact schedule_map (Prod.map rule id) _ entries.zipIdx files listing
  have hplaced {entry : ι × Nat} (hmem : entry ∈ entries.zipIdx) :
      AnswersAlike listing (first entry.1) (second entry.1) :=
    halike entry.1 (List.fst_mem_of_mem_zipIdx hmem)
  rw [hcalls, hcalls, schedule_congr fun entry hmem => (hplaced hmem).capabilities]
  apply makeEach_congr
  intro call hcall
  have hentry := hplaced (mem_of_mem_schedule hcall)
  refine ⟨hentry.identifier, hentry.check call.2 fun heard hheard => ?_⟩
  apply listing_of_mem_schedule
  rw [← hheard]
  exact hcall

end Audit

/-! ### The built-in rules on another tree -/

def RuleContext.onTree (context : RuleContext) (tree : FileTree) : RuleContext :=
  { context with tree := tree }

variable {context : RuleContext} {tree other : FileTree} {listing : List String}

theorem mapM_congr {ε α β : Type} {f g : α → Except ε β} {places : List α}
    (hsame : ∀ place ∈ places, f place = g place) : places.mapM f = places.mapM g := by
  induction places with
  | nil => rfl
  | cons place rest ih =>
    obtain ⟨hplace, hrest⟩ := List.forall_mem_cons.mp hsame
    rw [List.mapM_cons, List.mapM_cons, hplace, ih hrest]

theorem EventNames.check_onTree (hreads : ∀ relative ∈ listing,
      context.tree.read (context.baseDirectory.join (Path.parse relative))
        = other.read (context.baseDirectory.join (Path.parse relative))) :
    check (context.onTree other) listing = check context listing := by
  have hcrawled : Event.crawl (context.onTree other).tree
        (context.onTree other).settings.partialEvents (context.onTree other).baseDirectory
        (listing.filter (isSource (context.onTree other).settings))
      = Event.crawl context.tree context.settings.partialEvents context.baseDirectory
        (listing.filter (isSource context.settings)) := by
    apply mapM_congr
    intro relative hmem
    rw [Event.extractFile, Event.extractFile, hreads relative (List.mem_filter.mp hmem).1]
    rfl
  rw [check, check, hcrawled]
  rfl

/-- The built-in rules answer alike on two trees where reading what is listed comes to the same. -/
theorem RulePackage.answersAlike_onTree {σ : Type} (hreads : ∀ relative ∈ listing,
      context.tree.read (context.baseDirectory.join (Path.parse relative))
        = other.read (context.baseDirectory.join (Path.parse relative)))
    {entry : String × (RuleContext → Rule σ)} (hentry : entry ∈ builtInEntries.map identified) :
    Audit.AnswersAlike listing (Registry.named context entry)
      (Registry.named (context.onTree other) entry) := by
  -- Only the rule on events looks at the tree.
  obtain ⟨made, hmade, rfl⟩ := List.mem_map.mp hentry
  simp only [builtInEntries, List.mem_cons, List.not_mem_nil, or_false] at hmade
  obtain rfl | rfl | rfl | rfl := hmade
  · exact ⟨rfl, rfl, fun _ _ _ => rfl⟩
  · refine ⟨rfl, rfl, fun subject hsubject state => ?_⟩
    cases subject with
    | directory heard =>
      obtain rfl := hsubject heard rfl
      exact congrArg (·, state) (EventNames.check_onTree hreads).symm
    | file source => rfl
    | line source => rfl
  · exact ⟨rfl, rfl, fun _ _ _ => rfl⟩
  · exact ⟨rfl, rfl, fun _ _ _ => rfl⟩

namespace Package

variable {root base : Path} {request : CheckRequest}

/-! ### The steps of a check -/

/-- The entries of the built-in rules that are not disabled, if some are left and none is
unknown. -/
def entriesResult (settings : Settings) :
    Except SetupFault (List (String × (RuleContext → Rule Unit))) :=
  let unknown := Registry.unknownIn (registered : Registry Unit) settings.disabledRules
  let enabled := (RulePackage.builtInEntries.map RulePackage.identified).filter fun entry =>
    !settings.disabledRules.contains entry.1
  if !unknown.isEmpty then .error (.rules (.unknownIdentifiers unknown))
  else if enabled.isEmpty then .error (.rules .empty)
  else .ok enabled

theorem rulesResult_eq (context : RuleContext) :
    rulesResult context
      = (entriesResult context.settings).map (List.map (Registry.named context)) := by
  have henabled : (enabledRules context : List (NamedRule Unit))
      = ((RulePackage.builtInEntries.map RulePackage.identified).filter fun entry =>
          !context.settings.disabledRules.contains entry.1).map (Registry.named context) := by
    rw [enabledRules, RulePackage.builtInRules, List.filter_map]
    rfl
  rw [rulesResult, instantiateResult, entriesResult]
  split
  · rfl
  · dsimp only [Except.bind]
    rw [henabled, List.isEmpty_map]
    split <;> rfl

/-- What the rules enter into the report when they are applied to the contents of a package. -/
def runOf (context : RuleContext) (entries : List (String × (RuleContext → Rule Unit)))
    (contents : Contents) : List RunEvent :=
  Audit.runEvents (Audit.makeEach (Audit.callsOf (entries.map (Registry.named context)).zipIdx
    contents.files contents.listing) ()).1

def reportOf (context : RuleContext) (entries : List (String × (RuleContext → Rule Unit)))
    (contents : Contents) : Report :=
  ({} : Report).enterAll (contents.effects.map .effect ++ runOf context entries contents)

/-- The part of a check behind its set-up. -/
def reportResult (root : Path) (context : RuleContext) : Except SetupFault Report :=
  (entriesResult context.settings).bind fun entries =>
    ((load context.tree root context.baseDirectory).mapError .search).map (reportOf context entries)

theorem entriesResult_eq_ok {settings : Settings}
    {entries : List (String × (RuleContext → Rule Unit))}
    (hentries : entriesResult settings = .ok entries) :
    entries ≠ [] ∧ entries ⊆ RulePackage.builtInEntries.map RulePackage.identified := by
  rw [entriesResult] at hentries
  split at hentries
  · cases hentries
  · split at hentries
    · cases hentries
    · next hsome =>
      obtain rfl := Except.ok.inj hentries
      exact ⟨fun hnil => hsome (List.isEmpty_iff.mpr hnil), List.filter_subset_self _⟩

theorem checkResult_eq (tree : FileTree) (root : Path) (request : CheckRequest) :
    checkResult tree root request
      = (contextResult tree root request).bind (reportResult root) := by
  rw [checkResult]
  congr 1
  funext context
  rw [rulesResult_eq, reportResult]
  cases hentries : entriesResult context.settings with
  | error fault => rfl
  | ok entries =>
    obtain ⟨hsome, hbuiltIn⟩ := entriesResult_eq_ok hentries
    have hrules : entries.map (Registry.named context) ⊆ RulePackage.builtInRules context
        ∧ entries.map (Registry.named context) ≠ [] :=
      ⟨List.map_subset _ hbuiltIn, fun hnil => hsome (List.map_eq_nil_iff.mp hnil)⟩
    dsimp only [Except.map, Except.bind]
    rw [checkEvents_eq hrules]
    cases load context.tree root context.baseDirectory <;> rfl

/-- With the usual settings, a package with a base directory that can be walked is checked. -/
theorem exists_report (hrooted : tree.Rooted root place) (hwalk : CanWalk tree root place)
    (hbase : baseDirectory tree "ext.php" root = .ok base) :
    ∃ report, (check tree root { settings := some {} }).execute.1 = .ok report := by
  obtain ⟨contents, hload⟩ : ∃ contents, load tree root base = .ok contents :=
    (exists_load_iff hrooted).mpr hwalk
  have hentries :
      entriesResult {} = .ok (RulePackage.builtInEntries.map RulePackage.identified) := by
    rw [entriesResult, Registry.unknownIn]
    simp [Settings.sorted, RulePackage.builtInEntries]
  let context := contextWith tree { settings := some {} } {} base
    (nameOrEmpty tree base "composer.json")
  have hcontext : contextResult tree root { settings := some {} } = .ok context :=
    bind_eq_ok_iff.mpr ⟨{}, rfl, bind_eq_ok_iff.mpr ⟨base, hbase, rfl⟩⟩
  refine ⟨reportOf context (RulePackage.builtInEntries.map RulePackage.identified) contents, ?_⟩
  rw [(check_ends tree root { settings := some {} }).execute, checkResult_eq]
  refine bind_eq_ok_iff.mpr ⟨context, hcontext, bind_eq_ok_iff.mpr ⟨_, hentries, ?_⟩⟩
  exact map_eq_ok_iff.mpr ⟨contents, mapError_eq_ok_iff.mpr hload, rfl⟩

/-! ### What the steps see of a tree -/

theorem document_congr {path : Path} (hsame : tree.target path = other.target path) :
    Settings.document tree path = Settings.document other path := by
  rw [Settings.document, Settings.document, FileTree.read_congr hsame]

/-- The settings depend on the root, and on the settings file if the root is a directory. -/
theorem settingsResult_congr (hroot : tree.target root = other.target root)
    (hfile : tree.isDirectory root = .ok true →
      tree.target (root.child Settings.fileName) = other.target (root.child Settings.fileName)) :
    settingsResult tree root request = settingsResult other root request := by
  rw [settingsResult, settingsResult]
  cases request.settings with
  | some settings => rfl
  | none =>
    dsimp only
    rw [isDirectory, isDirectory, ← FileTree.isDirectory_congr hroot]
    cases hthere : tree.isDirectory root with
    | error fault => rfl
    | ok there =>
      cases there with
      | false => rfl
      | true =>
        have hsame := hfile hthere
        change Settings.loadFile tree _ _ = Settings.loadFile other _ _
        rw [Settings.loadFile, Settings.loadFile, Settings.fileExists, Settings.fileExists,
          FileTree.pathExists_congr hsame, document_congr hsame]

theorem nameOrEmpty_congr {composerFile : String}
    (hsame : tree.target (base.join (Path.parse composerFile))
      = other.target (base.join (Path.parse composerFile))) :
    nameOrEmpty tree base composerFile = nameOrEmpty other base composerFile := by
  have hdocument : readDocument tree (base.join (Path.parse composerFile))
      = readDocument other (base.join (Path.parse composerFile)) := by
    rw [readDocument, readDocument, FileTree.pathExists_congr hsame, FileTree.read_congr hsame]
  rw [nameOrEmpty, nameOrEmpty, declaredName, declaredName, hdocument]

theorem loadFile_congr {path : Path} (hsame : tree.target path = other.target path) :
    loadFile tree base path = loadFile other base path := by
  rw [loadFile, loadFile, FileTree.read_congr hsame]

theorem runOf_onTree {entries : List (String × (RuleContext → Rule Unit))} {contents : Contents}
    (hentries : entries ⊆ RulePackage.builtInEntries.map RulePackage.identified)
    (hsame : ∀ relative ∈ contents.listing,
      context.tree.target (context.baseDirectory.join (Path.parse relative))
        = other.target (context.baseDirectory.join (Path.parse relative))) :
    runOf (context.onTree other) entries contents = runOf context entries contents := by
  rw [runOf, runOf]
  have hcalls := Audit.makeEach_callsOf_congr (fun entry hentry =>
    RulePackage.answersAlike_onTree (fun relative hmem => FileTree.read_congr (hsame relative hmem))
      (hentries hentry)) contents.files ()
  rw [hcalls]

end Package

end ExtensionAudit
