import Mathlib
import ExtensionAudit.Proofs.Package.Agreement
import ExtensionAudit.Proofs.Package.Base

/-!
# What version control keeps is not seen

A search goes through the data of version control like through all else, and only then leaves out
what it found there. So two packages that differ in nothing else have the same files and the same
base directory, and since every other path that a check looks up comes by other names, they have the
same report. But a search breaks off over a path that is too long wherever that is, and there the
data of version control does show.
-/

namespace ExtensionAudit

/-- The fault of a search that breaks off over a path that is too long. -/
def SetupFault.tooLong (long : Path) : SetupFault := .search (.path (.refused .nameTooLong long))

namespace Package

open FileTree

variable {tree other : FileTree} {root base : Path} {place : List String} {request : CheckRequest}
  {components : List PatternComponent} {stuck : Bool} {item last : Path}

/-! ### Results that are the same up to length -/

/-- Two results are the same, unless one of them is that a path is too long: then so is the other
one, or the path is one of version control. -/
inductive SameUpToLength (root : Path) {α : Type} :
    Except SetupFault α → Except SetupFault α → Prop where
  | same {result : Except SetupFault α} : SameUpToLength root result result
  | both {long another : Path} :
      SameUpToLength root (.error (.tooLong long)) (.error (.tooLong another))
  | first {long : Path} {result : Except SetupFault α}
      (hlong : isVersionControl root long = true) :
      SameUpToLength root (.error (.tooLong long)) result
  | second {long : Path} {result : Except SetupFault α}
      (hlong : isVersionControl root long = true) :
      SameUpToLength root result (.error (.tooLong long))

namespace SameUpToLength

variable {α β : Type} {result again : Except SetupFault α}

theorem bind {next later : α → Except SetupFault β} (hsame : SameUpToLength root result again)
    (hnext : ∀ value, result = .ok value → again = .ok value →
      SameUpToLength root (next value) (later value)) :
    SameUpToLength root (result.bind next) (again.bind later) := by
  cases hsame with
  | same =>
    cases result with
    | ok value => exact hnext value rfl rfl
    | error fault => exact .same
  | both => exact .both
  | first hlong => exact .first hlong
  | second hlong => exact .second hlong

theorem map (hsame : SameUpToLength root result again) (f : α → β) :
    SameUpToLength root (result.map f) (again.map f) := by
  cases hsame with
  | same => exact .same
  | both => exact .both
  | first hlong => exact .first hlong
  | second hlong => exact .second hlong

end SameUpToLength

/-! ### Trees that agree outside of version control -/

/-- No name below the directory is one of version control. -/
def IsShown (place reached : List String) : Prop :=
  ∀ below, reached = place ++ below → ∀ name ∈ below, name ∉ versionControlNames

/-- The root leads to the same in both trees, and they list the same but for data of version control
below it. -/
structure AgreeOutside (tree other : FileTree) (root : Path) : Prop where
  leads : tree.target root = other.target root
  entries : ∀ place, tree.target root = .ok (.directory (some place)) →
    ∀ listed : List String × Entry, IsShown place listed.1 →
      (listed ∈ tree.entries ↔ listed ∈ other.entries)

theorem AgreeOutside.symm (hagree : AgreeOutside tree other root) :
    AgreeOutside other tree root where
  leads := hagree.leads.symm
  entries := fun place hplace listed hshown =>
    (hagree.entries place (hagree.leads.trans hplace) listed hshown).symm

theorem isShown_self (place : List String) : IsShown place place := by
  intro below hbelow name hname
  rw [List.self_eq_append_right.mp hbelow] at hname
  exact absurd hname List.not_mem_nil

section Agree

variable (hproper : tree.Proper) (hother : other.Proper) (hagree : AgreeOutside tree other root)

include hproper hother hagree

theorem AgreeOutside.alikeOn (hleads : tree.target root = .ok (.directory (some place))) :
    tree.AlikeOn other (IsShown place) (· ∉ versionControlNames) where
  up := by
    intro reached hshown below hbelow name hname
    obtain rfl | ⟨above, part, rfl⟩ := List.eq_nil_or_concat' reached
    · exact hshown below hbelow name hname
    · rw [List.dropLast_concat] at hbelow
      refine hshown (below ++ [part]) ?_ name (List.mem_append_left [part] hname)
      rw [hbelow, List.append_assoc]
  down := by
    intro reached part hshown hpart below hbelow name hname
    obtain rfl | ⟨above, last, rfl⟩ := List.eq_nil_or_concat' below
    · exact absurd hname List.not_mem_nil
    · rw [← List.append_assoc] at hbelow
      obtain ⟨hfront, hlast⟩ := List.append_inj' hbelow rfl
      obtain rfl := List.singleton_inj.mp hlast
      obtain habove | hlast := List.mem_append.mp hname
      · exact hshown above hfront name habove
      · rwa [List.mem_singleton.mp hlast]
  alike := by
    intro reached hshown
    by_cases hreached : reached = []
    · rw [hreached]
      rfl
    · apply Option.ext
      intro entry
      rw [passage_eq_some_iff, passage_eq_some_iff, hproper.entry?_eq_some_iff hreached,
        hother.entry?_eq_some_iff hreached, hagree.entries place hleads (reached, entry) hshown]

/-- From the root on, names that version control does not use lead to the same. -/
theorem AgreeOutside.target_descend {start : Option (List String)}
    (hleads : tree.target root = .ok (.directory start)) {below : List String}
    (hbelow : ∀ part ∈ below, part ∉ versionControlNames) :
    tree.target (root.descend below) = other.target (root.descend below) := by
  cases start with
  | some place =>
    refine (hagree.alikeOn hproper hother hleads).target_descend_eq ?_ hleads hagree.leads hbelow
    simpa using isShown_self place
  | none =>
    exact (alikeOn_nothing tree other).target_descend_eq (by simp) hleads hagree.leads
      fun _ _ => trivial

end Agree

/-! ### Ways to files -/

/-- A way of a search from the root on to a file, or to a path where the search for files is
stuck. -/
inductive FileWay (tree : FileTree) (root : Path) (components : List PatternComponent) :
    Bool → Path → Prop where
  | file {item : Path} (hreaches : tree.Reaches components root false item)
      (hfile : isFile tree root item = true) : FileWay tree root components false item
  | searched {long : Path} (hreaches : tree.Reaches components root true long) :
      FileWay tree root components true long
  | asked {long : Path} (hreaches : tree.Reaches components root false long)
      (hcontrol : isVersionControl root long = false) (hstuck : tree.IsStuck long) :
      FileWay tree root components true long

theorem sortBelow_settled (root : Path) {reaches : Bool → Path → Prop}
    {result : Except PathFault (List Path)} (hsettled : Settled reaches result) :
    Settled reaches (result.map (sortBelow root)) := by
  cases result with
  | error fault => exact hsettled
  | ok found =>
    exact ⟨fun item => by rw [(sortBelow_perm found).mem_iff, hsettled.1], hsettled.2⟩

/-- The files among what a search finds are settled by the ways to them. -/
theorem filesAmong_settled {result : Except PathFault (List Path)}
    (hsettled : Settled (tree.Reaches components root) result) :
    Settled (FileWay tree root components) (result.bind (filesAmong tree root)) := by
  cases result with
  | error fault =>
    obtain ⟨long, rfl, hreaches⟩ := hsettled
    exact ⟨long, rfl, .searched hreaches⟩
  | ok found =>
    obtain ⟨hfound, hfree⟩ := hsettled
    dsimp only [Except.bind]
    cases hkept : filesAmong tree root found with
    | error fault =>
      obtain ⟨long, hmem, hcontrol, hasked⟩ := filesAmong_eq_error hkept
      obtain ⟨hstuck, rfl⟩ := answer_eq_error_iff.mp hasked
      exact ⟨long, rfl, .asked ((hfound long).mp hmem) hcontrol hstuck⟩
    | ok kept =>
      obtain ⟨hasked, rfl⟩ := filesAmong_eq_ok_iff.mp hkept
      constructor
      · intro item
        rw [List.mem_filter, hfound]
        constructor
        · rintro ⟨hreaches, hfile⟩
          exact .file hreaches hfile
        · rintro ⟨hreaches, hfile⟩
          exact ⟨hreaches, hfile⟩
      · rintro long (_ | hreaches | ⟨hreaches, hcontrol, hstuck⟩)
        · exact hfree long hreaches
        · obtain ⟨answer, hanswer⟩ := hasked long ((hfound long).mpr hreaches) hcontrol
          have hfails : tree.isDirectory long = .error (.refused .nameTooLong long) :=
            answer_eq_error_iff.mpr ⟨hstuck, rfl⟩
          rw [hfails] at hanswer
          cases hanswer

theorem FileWay.isVersionControl_eq_false (hway : FileWay tree root components false item) :
    isVersionControl root item = false := by
  obtain ⟨-, hfile⟩ := hway
  rw [isFile, Bool.and_eq_true, Bool.not_eq_true'] at hfile
  exact hfile.1

section Agree

variable (hproper : tree.Proper) (hother : other.Proper) (hagree : AgreeOutside tree other root)
  (hleads : tree.target root = .ok (.directory (some place)))

include hproper hother hagree hleads

/-- A way that does not end in data of version control is there in both trees. -/
theorem FileWay.of_agreeOutside (hway : FileWay tree root components stuck last)
    (hcontrol : isVersionControl root last = false) : FileWay other root components stuck last := by
  have hclean : ∀ name ∈ last.below root, name ∉ versionControlNames := by
    intro name hname hkept
    rw [isVersionControl, List.any_eq_false] at hcontrol
    exact hcontrol name hname (List.contains_iff_mem.mpr hkept)
  have halike := hagree.alikeOn hproper hother hleads
  have hreach {stuck : Bool} (hreaches : tree.Reaches components root stuck last) :
      other.Reaches components root stuck last := by
    rw [← Path.descend_nil root] at hreaches ⊢
    refine hreaches.of_alikeOn halike ?_ (isShown_self place) hleads hagree.leads hclean
    intro reached entry hshown hlisted
    exact (hagree.entries place hleads (reached, entry) hshown).mp hlisted
  have hsees {stuck : Bool} (hreaches : tree.Reaches components root stuck last) :
      tree.target last = other.target last := by
    obtain ⟨below, rfl, -⟩ := hreaches.exists_descend (fun _ => True) (fun _ _ _ _ => trivial)
      fun _ _ => trivial
    rw [Path.below_descend] at hclean
    exact hagree.target_descend hproper hother hleads hclean
  cases hway with
  | file hreaches hfile =>
    refine .file (hreach hreaches) ?_
    rwa [isFile, isDirectory_congr (hsees hreaches).symm]
  | searched hreaches => exact .searched (hreach hreaches)
  | asked hreaches _ hstuck =>
    refine .asked (hreach hreaches) hcontrol ?_
    rwa [IsStuck, ← hsees hreaches]

end Agree

/-! ### The same files -/

section Patterns

variable {pattern : String}

/-- The files that match a pattern are settled by the ways to them. -/
theorem filesMatching_settled (hpattern : parsePattern pattern = .ok components)
    (hroot : tree.isDirectory root = .ok true) :
    ∃ result, filesMatching tree root pattern = result.mapError .path
      ∧ Settled (FileWay tree root (.anyDirectories :: components)) result := by
  have hsettled := filesAmong_settled (select_settled tree (.anyDirectories :: components) root)
  refine ⟨_, ?_, sortBelow_settled root hsettled⟩
  rw [filesMatching, search_eq, hpattern, hroot]
  dsimp only [Except.mapError, Except.bind, Except.map]
  rw [if_pos rfl]
  cases tree.select (.anyDirectories :: components) root with
  | error fault => rfl
  | ok found =>
    dsimp only
    cases filesAmong tree root found <;> rfl

/-- Files that match a pattern come in the order of their paths below the root, each of them
once. -/
theorem filesMatching_pairwise (hrooted : tree.Rooted root place) {files : List Path}
    (hfiles : filesMatching tree root pattern = .ok files) :
    files.Pairwise fun first second => textBelow root first < textBelow root second := by
  obtain ⟨found, kept, hfound, hkept, rfl⟩ := filesMatching_eq_ok_iff.mp hfiles
  obtain ⟨-, rfl⟩ := filesAmong_eq_ok_iff.mp hkept
  have hbelow : ∀ path ∈ found.filter (isFile tree root), ∃ below, path = root.descend below
      ∧ below ≠ [] ∧ ∀ name ∈ below, '/' ∉ name.toList := by
    intro path hpath
    obtain ⟨hmem, hfile⟩ := List.mem_filter.mp hpath
    obtain ⟨components, hpattern, hreaches⟩ := exists_reaches_of_search hfound hmem
    obtain ⟨below, rfl, hparts⟩ := exists_descend_of_reaches hrooted.proper hpattern hreaches
    refine ⟨below, rfl, ?_, fun name hname => (hparts name hname).no_slash⟩
    rintro rfl
    rw [isFile_eq_false hrooted (mem_directoriesBelow_iff.mpr (.inl rfl))] at hfile
    cases hfile
  apply sortBelow_pairwise ((nodup_of_search hfound).filter _)
  intro first hfirst second hsecond hsame
  obtain ⟨below, rfl, hsome, hclean⟩ := hbelow first hfirst
  obtain ⟨under, rfl, hmore, hpure⟩ := hbelow second hsecond
  rw [textBelow_descend, textBelow_descend] at hsame
  rw [Path.text_injective hsome hmore hclean hpure hsame]

/-- Below a directory of both trees, the files that match a pattern are the same. -/
theorem filesMatching_of_rooted (hrooted : tree.Rooted root place) (hother : other.Proper)
    (hagree : AgreeOutside tree other root) :
    SameUpToLength root ((filesMatching tree root pattern).mapError .search)
      ((filesMatching other root pattern).mapError .search) := by
  have hagain : other.Rooted root place := ⟨hother, hagree.leads.symm.trans hrooted.leads⟩
  cases hpattern : parsePattern pattern with
  | error wrong =>
    have hwrong (tree : FileTree) : filesMatching tree root pattern = .error (.pattern wrong) := by
      rw [filesMatching, search_eq, hpattern]
      rfl
    rw [hwrong, hwrong]
    exact .same
  | ok components =>
    have hthere {stuck : Bool} {last : Path}
        (hway : FileWay tree root (.anyDirectories :: components) stuck last) :=
      hway.of_agreeOutside hrooted.proper hother hagree hrooted.leads
    have hback {stuck : Bool} {last : Path}
        (hway : FileWay other root (.anyDirectories :: components) stuck last) :=
      hway.of_agreeOutside hother hrooted.proper hagree.symm hagain.leads
    obtain ⟨result, hresult, hsettled⟩ := filesMatching_settled hpattern hrooted.isDirectory_root
    obtain ⟨repeated, hrepeated, hresettled⟩ :=
      filesMatching_settled hpattern hagain.isDirectory_root
    rw [hresult, hrepeated]
    cases result with
    | error fault =>
      obtain ⟨long, rfl, hway⟩ := hsettled
      cases hcontrol : isVersionControl root long with
      | true => exact .first hcontrol
      | false =>
        cases repeated with
        | ok files => exact absurd (hthere hway hcontrol) (hresettled.2 long)
        | error fault =>
          obtain ⟨another, rfl, -⟩ := hresettled
          exact .both
    | ok files =>
      cases repeated with
      | error fault =>
        obtain ⟨long, rfl, hway⟩ := hresettled
        cases hcontrol : isVersionControl root long with
        | true => exact .second hcontrol
        | false => exact absurd (hback hway hcontrol) (hsettled.2 long)
      | ok others =>
        -- Both lists are in the order of their paths, so their members settle them.
        have hsame : files = others := by
          apply eq_of_pairwise_textBelow (filesMatching_pairwise hrooted hresult)
            (filesMatching_pairwise hagain hrepeated)
          intro item
          rw [hsettled.1, hresettled.1]
          exact ⟨fun hway => hthere hway hway.isVersionControl_eq_false,
            fun hway => hback hway hway.isVersionControl_eq_false⟩
        rw [hsame]
        exact .same

end Patterns

/-! ### The same check -/

section Agree

variable (hproper : tree.Proper) (hother : other.Proper) (hagree : AgreeOutside tree other root)

include hproper hother hagree

theorem filesMatching_of_agreeOutside (hroot : tree.isDirectory root = .ok true)
    (pattern : String) :
    SameUpToLength root ((filesMatching tree root pattern).mapError .search)
      ((filesMatching other root pattern).mapError .search) := by
  obtain ⟨start, htarget⟩ := exists_directory_of_isDirectory hroot
  cases start with
  | some place => exact filesMatching_of_rooted ⟨hproper, htarget⟩ hother hagree
  | none =>
    rw [filesMatching, filesMatching, search_of_outside htarget,
      search_of_outside (hagree.leads.symm.trans htarget)]
    cases parsePattern pattern with
    | error wrong => exact .same
    | ok components => exact .same

theorem baseDirectory_of_agreeOutside (manifest : String) :
    SameUpToLength root (baseDirectory tree manifest root)
      (baseDirectory other manifest root) := by
  rw [baseDirectory_eq, baseDirectory_eq, isDirectory, isDirectory,
    isDirectory_congr hagree.leads.symm]
  apply SameUpToLength.same.bind
  intro there hasked _
  cases there with
  | false => exact .same
  | true =>
    have hroot := mapError_eq_ok_iff.mp hasked
    have hmanifests (tree : FileTree) : manifests tree manifest root
        = ((filesMatching tree root manifest).mapError .search).map
            (List.filter (·.name == manifest)) := by
      rw [manifests]
      cases filesMatching tree root manifest <;> rfl
    rw [if_pos rfl, if_pos rfl, hmanifests, hmanifests]
    refine SameUpToLength.bind (SameUpToLength.map ?_ _) fun _ _ _ => .same
    exact filesMatching_of_agreeOutside hproper hother hagree hroot manifest

/-- What is loaded is read through names that version control does not use, and so is what the rules
read again. -/
theorem reportOf_of_agreeOutside {context : RuleContext} (htree : context.tree = tree)
    (hrooted : tree.Rooted root place) {under : List String}
    (hbase : context.baseDirectory = root.descend under)
    (hunder : ∀ name ∈ under, name ∉ versionControlNames) (hdots : ".." ∉ under)
    {entries : List (String × (RuleContext → Rule Unit))}
    (hentries : entries ⊆ RulePackage.builtInEntries.map RulePackage.identified)
    {visited : List Path} (hvisited : files tree root = .ok visited) :
    reportOf context entries
        (.ofLoaded root context.baseDirectory (visited.map (loadFile tree context.baseDirectory)))
      = reportOf (context.onTree other) entries
          (.ofLoaded root context.baseDirectory
            (visited.map (loadFile other context.baseDirectory))) := by
  have hsees {below : List String} (hbelow : ∀ part ∈ below, part ∉ versionControlNames) :
      tree.target (root.descend below) = other.target (root.descend below) :=
    hagree.target_descend hproper hother hrooted.leads hbelow
  have hloads : visited.map (loadFile tree context.baseDirectory)
      = visited.map (loadFile other context.baseDirectory) := by
    apply List.map_congr_left
    intro path hpath
    obtain ⟨below, -, -, -, -, hclean, rfl⟩ := (mem_files_iff hrooted hvisited).mp hpath
    exact loadFile_congr (hsees hclean)
  have haccounts : AccountsFor tree context.baseDirectory visited _ :=
    accountsFor_ofLoaded root context.baseDirectory visited
  rw [← hloads, reportOf, reportOf, runOf_onTree hentries]
  intro relative hrelative
  rw [haccounts.listing] at hrelative
  obtain ⟨path, hpath, hlisted⟩ := List.mem_filterMap.mp hrelative
  obtain ⟨below, entry, -, hentry, -, hclean, rfl⟩ := (mem_files_iff hrooted hvisited).mp hpath
  have hrelative : relative = ((root.descend below).relativeTo context.baseDirectory).text := by
    rw [listedAt] at hlisted
    split at hlisted
    · exact (Option.some.inj hlisted).symm
    · cases hlisted
  have hnames {name : String} (hname : name ∈ below) : ProperName name :=
    hrooted.proper.properName hentry hname
  obtain ⟨steps, hjoined, hsteps⟩ := Path.join_relativeTo_descend root
    (fun name hname => Path.isComponent_of_proper (hnames hname))
    (fun hmem => (hnames hmem).not_dots rfl) hdots
  rw [htree, hrelative, hbase, hjoined]
  apply hsees
  intro part hpart
  obtain hfront | hstep := List.mem_append.mp hpart
  · exact hunder part hfront
  · obtain rfl | hname := hsteps part hstep
    · decide
    · exact hclean part hname

theorem reportResult_of_agreeOutside {context : RuleContext} (htree : context.tree = tree)
    (hbase : baseDirectory tree context.settings.manifest root = .ok context.baseDirectory) :
    SameUpToLength root (reportResult root context) (reportResult root (context.onTree other)) := by
  obtain ⟨place, hrooted⟩ := exists_rooted hproper hbase
  obtain ⟨under, hplaced, hunder, hclean⟩ := exists_below_of_baseDirectory hrooted hbase
  have hload (context : RuleContext) (entries : List (String × (RuleContext → Rule Unit))) :
      ((load context.tree root context.baseDirectory).mapError SetupFault.search).map
          (reportOf context entries)
        = ((files context.tree root).mapError SetupFault.search).bind fun visited =>
            .ok (reportOf context entries (.ofLoaded root context.baseDirectory
              (visited.map (loadFile context.tree context.baseDirectory)))) := by
    rw [load]
    cases files context.tree root <;> rfl
  refine SameUpToLength.same.bind fun entries hentries _ => ?_
  have hfiles : SameUpToLength root ((files tree root).mapError .search)
      ((files other root).mapError .search) :=
    filesMatching_of_agreeOutside hproper hother hagree hrooted.isDirectory_root "*"
  rw [hload, hload, htree]
  refine hfiles.bind fun visited hvisited _ => ?_
  rw [reportOf_of_agreeOutside hproper hother hagree htree hrooted hunder hclean
    (dots_not_mem hproper hplaced)
    (entriesResult_eq_ok hentries).2 (mapError_eq_ok_iff.mp hvisited)]
  exact .same

theorem settingsResult_of_agreeOutside :
    settingsResult tree root request = settingsResult other root request := by
  refine settingsResult_congr hagree.leads fun hroot => ?_
  obtain ⟨start, htarget⟩ := exists_directory_of_isDirectory hroot
  have hclean : ∀ part ∈ [Settings.fileName], part ∉ versionControlNames := by decide
  exact hagree.target_descend hproper hother htarget hclean

theorem nameOrEmpty_of_agreeOutside {manifest composerFile : String}
    (hbase : baseDirectory tree manifest root = .ok base)
    (hcomposer : ∀ part ∈ (Path.parse composerFile).parts, part ∉ versionControlNames) :
    nameOrEmpty tree base composerFile = nameOrEmpty other base composerFile := by
  apply nameOrEmpty_congr
  rw [Path.join]
  split
  · next hslashes => exact target_of_slashes hslashes tree other
  · obtain ⟨place, hrooted⟩ := exists_rooted hproper hbase
    obtain ⟨under, -, rfl, hunder⟩ := exists_below_of_baseDirectory hrooted hbase
    change tree.target ((root.descend under).descend _)
      = other.target ((root.descend under).descend _)
    rw [Path.descend_descend]
    apply hagree.target_descend hproper hother hrooted.leads
    exact List.forall_mem_append.mpr ⟨hunder, hcomposer⟩

theorem checkResult_of_agreeOutside
    (hcomposer : ∀ settings, settingsResult tree root request = .ok settings →
      ∀ part ∈ (Path.parse settings.composerFile).parts, part ∉ versionControlNames) :
    SameUpToLength root (checkResult tree root request) (checkResult other root request) := by
  have hchecks (tree : FileTree) : checkResult tree root request
      = (settingsResult tree root request).bind fun settings =>
          (baseDirectory tree settings.manifest root).bind fun base =>
            reportResult root (contextWith tree request settings base
              (request.name.getD (nameOrEmpty tree base settings.composerFile))) := by
    rw [checkResult_eq, contextResult]
    cases settingsResult tree root request with
    | error fault => rfl
    | ok settings =>
      dsimp only [Except.bind]
      cases baseDirectory tree settings.manifest root <;> rfl
  rw [hchecks, hchecks, ← settingsResult_of_agreeOutside hproper hother hagree]
  refine SameUpToLength.same.bind fun settings hsettings _ => ?_
  refine (baseDirectory_of_agreeOutside hproper hother hagree settings.manifest).bind ?_
  intro base hbase _
  rw [← nameOrEmpty_of_agreeOutside hproper hother hagree hbase (hcomposer settings hsettings)]
  exact reportResult_of_agreeOutside hproper hother hagree rfl hbase

end Agree

/-- **What version control keeps is not seen, unless a path is too long.** The checks of two packages
that agree on all that is not data of version control end in the same way, if the composer file is
not looked for there either. Only if one of them breaks off over a path that is too long, the other
one may end differently: it breaks off over another such path, or that path is one of version
control. -/
theorem check_agreeOutside (tree other : FileTree) (hproper : tree.Proper) (hother : other.Proper)
    (root : Path) (hagree : AgreeOutside tree other root) (request : CheckRequest)
    (hcomposer : ∀ settings, (settingsOf tree root request).execute.1 = .ok settings →
      ∀ part ∈ (Path.parse settings.composerFile).parts, part ∉ versionControlNames) :
    SameUpToLength root (check tree root request).execute.1
      (check other root request).execute.1 := by
  rw [(settingsOf_ends tree root request).execute] at hcomposer
  rw [(check_ends tree root request).execute, (check_ends other root request).execute]
  exact checkResult_of_agreeOutside hproper hother hagree hcomposer

/-- A package of a manifest alone. -/
def oneManifest : FileTree where
  entries := [(["pkg"], .directory), (["pkg", "ext.php"], .file [60, 63, 112, 104, 112, 10])]

/-- The package with a directory of version control that holds another manifest. -/
def hiddenManifest : FileTree where
  entries := oneManifest.entries ++ [(["pkg", ".git"], .directory),
    (["pkg", ".git", "a_directory_name"], .directory),
    (["pkg", ".git", "a_directory_name", "ext.php"], .file [])]

/-- A package that is checked can be walked. -/
theorem canWalk_of_report (hrooted : tree.Rooted root place) {report : Report}
    (hreport : (check tree root request).execute.1 = .ok report) : CanWalk tree root place := by
  rw [(check_ends tree root request).execute, checkResult_eq] at hreport
  obtain ⟨context, hcontext, hrest⟩ := bind_eq_ok_iff.mp hreport
  obtain ⟨entries, -, hmade⟩ := bind_eq_ok_iff.mp hrest
  obtain ⟨contents, hload, -⟩ := map_eq_ok_iff.mp hmade
  rw [(contextResult_eq_ok hcontext).1, mapError_eq_ok_iff] at hload
  exact (exists_load_iff hrooted).mp ⟨contents, hload⟩

theorem agreeOutside_hiddenManifest (hhidden : hiddenManifest.Rooted root ["pkg"])
    (hplain : oneManifest.Rooted root ["pkg"]) : AgreeOutside hiddenManifest oneManifest root where
  leads := hhidden.leads.trans hplain.leads.symm
  entries := by
    intro place hplace listed hshown
    obtain rfl : ["pkg"] = place := by simpa [hhidden.leads] using hplace
    rw [hiddenManifest, List.mem_append, or_iff_left]
    intro hkept
    simp only [List.mem_cons, List.not_mem_nil, or_false] at hkept
    obtain rfl | rfl | rfl := hkept
    · exact hshown [".git"] rfl ".git" (by decide) (by decide)
    · exact hshown [".git", "a_directory_name"] rfl ".git" (by decide) (by decide)
    · exact hshown [".git", "a_directory_name", "ext.php"] rfl ".git" (by decide) (by decide)

theorem canWalk_oneManifest (hshort : ¬ (root.descend ["ext.php"]).IsLong) :
    CanWalk oneManifest root ["pkg"] := by
  intro below entry hbelow hlisted _
  obtain ⟨rfl, -⟩ : below = ["ext.php"] ∧ entry = .file [60, 63, 112, 104, 112, 10] := by
    simpa [oneManifest, hbelow] using hlisted
  exact hshort

theorem exists_report_oneManifest (hrooted : oneManifest.Rooted root ["pkg"])
    (hshort : ¬ (root.descend ["ext.php"]).IsLong) :
    ∃ report, (check oneManifest root { settings := some {} }).execute.1 = .ok report := by
  have hlisted : (["pkg"] ++ ["ext.php"], .file [60, 63, 112, 104, 112, 10])
      ∈ oneManifest.entries := by
    decide
  exact exists_report hrooted (canWalk_oneManifest hshort)
    (baseDirectory_of_manifest hrooted (by decide) hlisted hshort)

theorem composerFile_usual (tree : FileTree) (root : Path) (settings : Settings)
    (hsettings : (settingsOf tree root { settings := some {} }).execute.1 = .ok settings) :
    ∀ part ∈ (Path.parse settings.composerFile).parts, part ∉ versionControlNames := by
  have husual : ∀ part ∈ (Path.parse "composer.json").parts, part ∉ versionControlNames := by decide
  rw [(settingsOf_ends tree root { settings := some {} }).execute] at hsettings
  obtain rfl : ({} : Settings) = settings := Except.ok.inj hsettings
  exact husual

theorem exists_report_hiddenManifest :
    ∃ report, (check hiddenManifest ⟨0, ["pkg"]⟩ { settings := some {} }).execute.1
      = .ok report := by
  have hrooted : hiddenManifest.Rooted ⟨0, ["pkg"]⟩ ["pkg"] := ⟨by decide, by decide⟩
  have hbase : baseDirectory hiddenManifest "ext.php" ⟨0, ["pkg"]⟩ = .ok ⟨0, ["pkg"]⟩ := by
    decide +kernel
  have hwalk : CanWalk hiddenManifest ⟨0, ["pkg"]⟩ ["pkg"] := by
    intro below entry hbelow hlisted _
    simp [hiddenManifest, oneManifest, hbelow] at hlisted
    obtain ⟨rfl, -⟩ | ⟨rfl, -⟩ | ⟨rfl, -⟩ | ⟨rfl, -⟩ := hlisted <;> decide
  exact exists_report hrooted hwalk hbase

theorem check_agreeOutside_hiddenManifest :
    hiddenManifest.Proper ∧ oneManifest.Proper
      ∧ AgreeOutside hiddenManifest oneManifest ⟨0, ["pkg"]⟩
      ∧ (∀ settings, (settingsOf hiddenManifest ⟨0, ["pkg"]⟩ { settings := some {} }).execute.1
            = .ok settings →
          ∀ part ∈ (Path.parse settings.composerFile).parts, part ∉ versionControlNames)
      ∧ ∃ report,
          (check hiddenManifest ⟨0, ["pkg"]⟩ { settings := some {} }).execute.1 = .ok report
            ∧ (check oneManifest ⟨0, ["pkg"]⟩ { settings := some {} }).execute.1 = .ok report := by
  have hhidden : hiddenManifest.Rooted ⟨0, ["pkg"]⟩ ["pkg"] := ⟨by decide, by decide⟩
  have hplain : oneManifest.Rooted ⟨0, ["pkg"]⟩ ["pkg"] := ⟨by decide, by decide⟩
  have hagree := agreeOutside_hiddenManifest hhidden hplain
  have hcomposer := composerFile_usual hiddenManifest ⟨0, ["pkg"]⟩
  have hsame := check_agreeOutside hiddenManifest oneManifest hhidden.proper hplain.proper
    ⟨0, ["pkg"]⟩ hagree { settings := some {} } hcomposer
  obtain ⟨report, hreport⟩ := exists_report_hiddenManifest
  obtain ⟨another, hanother⟩ := exists_report_oneManifest hplain (by decide)
  refine ⟨hhidden.proper, hplain.proper, hagree, hcomposer, report, hreport, ?_⟩
  rw [hreport, hanother] at hsame
  cases hsame with
  | same => exact hanother

theorem check_hiddenManifest_windingRoot :
    hiddenManifest.Proper ∧ oneManifest.Proper
      ∧ AgreeOutside hiddenManifest oneManifest windingRoot
      ∧ (∀ settings, (settingsOf hiddenManifest windingRoot { settings := some {} }).execute.1
            = .ok settings →
          ∀ part ∈ (Path.parse settings.composerFile).parts, part ∉ versionControlNames)
      ∧ (∃ long, (check hiddenManifest windingRoot { settings := some {} }).execute.1
          = .error (.tooLong long))
      ∧ ∃ report, (check oneManifest windingRoot { settings := some {} }).execute.1
          = .ok report := by
  have hhidden : hiddenManifest.Rooted windingRoot ["pkg"] :=
    windingRoot_rooted (by decide) (by decide)
  have hplain : oneManifest.Rooted windingRoot ["pkg"] := windingRoot_rooted (by decide) (by decide)
  have hagree := agreeOutside_hiddenManifest hhidden hplain
  have hcomposer := composerFile_usual hiddenManifest windingRoot
  have hshort : ¬ (windingRoot.descend ["ext.php"]).IsLong := by
    rw [Path.IsLong, utf8ByteSize_windingRoot]
    decide
  obtain ⟨report, hreport⟩ := exists_report_oneManifest hplain hshort
  refine ⟨hhidden.proper, hplain.proper, hagree, hcomposer, ?_, report, hreport⟩
  -- The plain package makes a report, so the hidden manifest is the only one that can break off.
  have hsame : SameUpToLength windingRoot
      (check hiddenManifest windingRoot { settings := some {} }).execute.1
      (check oneManifest windingRoot { settings := some {} }).execute.1 := by
    rw [(settingsOf_ends _ _ _).execute] at hcomposer
    rw [(check_ends _ _ _).execute, (check_ends _ _ _).execute]
    exact checkResult_of_agreeOutside hhidden.proper hplain.proper hagree hcomposer
  cases hchecked : (check hiddenManifest windingRoot { settings := some {} }).execute.1 with
  | ok another =>
    have hlong : (windingRoot.descend [".git", "a_directory_name"]).IsLong := by
      rw [Path.IsLong, utf8ByteSize_windingRoot]
      decide
    exact absurd hlong (canWalk_of_report hhidden hchecked [".git", "a_directory_name"] .directory
      (by decide) (by decide) (.inl rfl))
  | error fault =>
    rw [hchecked, hreport] at hsame
    cases hsame with
    | first hcontrol => exact ⟨_, rfl⟩

end Package

end ExtensionAudit
