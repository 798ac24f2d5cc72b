import Mathlib
import ExtensionAudit.Proofs.Package.Agreement
import ExtensionAudit.Proofs.Package.Base
import ExtensionAudit.Proofs.Package.Progress

/-!
# Links that lead nowhere

A link that leads nowhere stops every path just as an empty place does, so no path tells a package
from the same package without such links. Only where names are listed do they show: not among the
directories, and not in a search for a name, but in the walk over the files. There each of them
becomes a notice, and nothing else of the check is any different. Files that refuse to be read become
notices too, and since the walk follows the paths, the notices of both kinds are mixed.
-/

namespace ExtensionAudit

/-- Why the bytes of an entry cannot be had, for one that is no directory. -/
def Entry.refusal? : Entry → Option FileError
  | .directory | .file _ => none
  | .unreadable error => some error
  | .danglingLink => some .notFound

namespace Package

open FileTree

variable {tree : FileTree} {root base : Path} {place : List String} {request : CheckRequest}

/-! ### The package without stray links -/

/-- Whether an entry of a tree is a link below a place that leads nowhere and that is not data of
version control. -/
def isStrayLink (place : List String) (listed : List String × Entry) : Bool :=
  listed.2 == .danglingLink && place.isPrefixOf listed.1
    && !(listed.1.drop place.length).any versionControlNames.contains

/-- The tree without the stray links of the package below a root. -/
def withoutStrayLinks (tree : FileTree) (root : Path) : FileTree :=
  match tree.target root with
  | .ok (.directory (some place)) => ⟨tree.entries.filter (!isStrayLink place ·)⟩
  | _ => tree

theorem withoutStrayLinks_sublist (tree : FileTree) (root : Path) :
    (withoutStrayLinks tree root).entries.Sublist tree.entries := by
  rw [withoutStrayLinks]
  split
  · exact List.filter_sublist
  · exact List.Sublist.refl _

/-- Only links that lead nowhere are missing. -/
theorem mem_withoutStrayLinks_iff {listed : List String × Entry}
    (hlisted : listed.2 ≠ .danglingLink) :
    listed ∈ (withoutStrayLinks tree root).entries ↔ listed ∈ tree.entries := by
  rw [withoutStrayLinks]
  split
  · simp [isStrayLink, hlisted]
  · rfl

section Proper

variable (hproper : tree.Proper)

include hproper

theorem proper_withoutStrayLinks : (withoutStrayLinks tree root).Proper where
  distinct := ((withoutStrayLinks_sublist tree root).map Prod.fst).nodup hproper.distinct
  placed := fun listed hmem =>
    hproper.placed listed ((withoutStrayLinks_sublist tree root).subset hmem)
  named := fun listed hmem =>
    hproper.named listed ((withoutStrayLinks_sublist tree root).subset hmem)
  parents := fun listed hmem =>
    (hproper.parents listed ((withoutStrayLinks_sublist tree root).subset hmem)).imp_right
      (mem_withoutStrayLinks_iff (by simp)).mpr

/-- No path can tell whether stray links are there. -/
theorem target_withoutStrayLinks (root path : Path) :
    (withoutStrayLinks tree root).target path = tree.target path := by
  have hentry (place : List String) :
      (withoutStrayLinks tree root).passage place = tree.passage place := by
    by_cases hplace : place = []
    · rw [hplace]
      rfl
    apply Option.ext
    intro through
    rw [passage_eq_some_iff, passage_eq_some_iff]
    refine and_congr_left fun hthrough => ?_
    rw [(proper_withoutStrayLinks hproper).entry?_eq_some_iff hplace,
      hproper.entry?_eq_some_iff hplace]
    exact mem_withoutStrayLinks_iff hthrough
  have halike : (withoutStrayLinks tree root).AlikeOn tree (fun _ => True) fun _ => True :=
    ⟨fun _ => trivial, fun _ _ => trivial, fun {place} _ => hentry place⟩
  rw [target, target, halike.follow_eq (fun _ _ => trivial) fun _ _ => trivial]

/-! ### Up to the base directory -/

omit hproper in
theorem directoriesBelow_withoutStrayLinks (place : List String) :
    (withoutStrayLinks tree root).directoriesBelow place = tree.directoriesBelow place := by
  rw [withoutStrayLinks]
  split
  · rw [directoriesBelow, directoriesBelow, List.filterMap_filter]
    congr 2
    funext listed
    obtain ⟨parts, entry⟩ := listed
    cases entry <;> simp [isStrayLink]
  · rfl

/-- A search for names does not see stray links. -/
theorem select_withoutStrayLinks {components : List PatternComponent}
    (hnames : ∀ pieces, .matching pieces ∉ components) (path : Path) :
    (withoutStrayLinks tree root).select components path = tree.select components path := by
  have hsees := target_withoutStrayLinks hproper root
  induction components generalizing path with
  | nil => rfl
  | cons component rest ih =>
    have hrest : (withoutStrayLinks tree root).select rest = tree.select rest :=
      funext (ih fun pieces hmem => hnames pieces (List.mem_cons_of_mem component hmem))
    cases component with
    | directory => rfl
    | named name => rw [select_named, select_named, goesOn_congr (hsees _), hrest]
    | matching pieces => exact absurd List.mem_cons_self (hnames pieces)
    | anyDirectories =>
      rw [select_anyDirectories, select_anyDirectories, searchIn, searchIn,
        directoryAt_congr (hsees path), hrest]
      simp only [directoriesBelow_withoutStrayLinks]

theorem filesAmong_withoutStrayLinks (paths : List Path) :
    filesAmong (withoutStrayLinks tree root) root paths = filesAmong tree root paths := by
  induction paths with
  | nil => rfl
  | cons path rest ih =>
    rw [filesAmong, filesAmong, isDirectory_congr (target_withoutStrayLinks hproper root path), ih]

/-- The base directory is the same, if the manifest is looked for by its name. -/
theorem baseDirectory_withoutStrayLinks {manifest : String}
    (hplain : ∀ c ∈ manifest.toList, c ∉ ['*', '?', '[']) :
    baseDirectory (withoutStrayLinks tree root) manifest root
      = baseDirectory tree manifest root := by
  have hroot := isDirectory_congr (target_withoutStrayLinks hproper root root)
  have hsearch :
      (withoutStrayLinks tree root).search root manifest = tree.search root manifest := by
    rw [search_eq, search_eq, hroot]
    cases hpattern : parsePattern manifest with
    | error fault => rfl
    | ok components =>
      have hnames : ∀ pieces, .matching pieces ∉ .anyDirectories :: components := by
        intro pieces hmem
        obtain hfirst | hlater := List.mem_cons.mp hmem
        · cases hfirst
        · exact matching_not_mem_parsePattern hplain hpattern pieces hlater
      dsimp only [Except.mapError, Except.bind]
      rw [select_withoutStrayLinks hproper hnames]
  have hmanifests : manifests (withoutStrayLinks tree root) manifest root
      = manifests tree manifest root := by
    rw [manifests, manifests, filesMatching, filesMatching, hsearch]
    simp only [filesAmong_withoutStrayLinks hproper]
  rw [baseDirectory_eq, baseDirectory_eq, hmanifests, isDirectory, isDirectory, hroot]

end Proper

/-! ### The files -/

section Rooted

variable (hrooted : tree.Rooted root place)

include hrooted

theorem rooted_withoutStrayLinks : (withoutStrayLinks tree root).Rooted root place where
  proper := proper_withoutStrayLinks hrooted.proper
  leads := by rw [target_withoutStrayLinks hrooted.proper, hrooted.leads]

/-- What is listed below the root stays, but for links that lead nowhere outside of version
control. -/
theorem mem_withoutStrayLinks_below_iff {below : List String} {entry : Entry} :
    (place ++ below, entry) ∈ (withoutStrayLinks tree root).entries
      ↔ (place ++ below, entry) ∈ tree.entries
          ∧ (entry = .danglingLink → ∃ name ∈ below, name ∈ versionControlNames) := by
  have hbelow : place.isPrefixOf (place ++ below) = true :=
    List.isPrefixOf_iff_prefix.mpr (List.prefix_append place below)
  rw [withoutStrayLinks, hrooted.leads]
  simp [isStrayLink, hbelow, imp_iff_not_or]

/-- Whether a link that leads nowhere stands at a path below the root. -/
def isStray (tree : FileTree) (root path : Path) : Bool :=
  match tree.target root with
  | .ok (.directory (some place)) => tree.entry? (place ++ path.below root) == some .danglingLink
  | _ => false

theorem isStray_descend_iff {below : List String} {entry : Entry} (hbelow : below ≠ [])
    (hlisted : (place ++ below, entry) ∈ tree.entries) :
    isStray tree root (root.descend below) = true ↔ entry = .danglingLink := by
  have hplace : place ++ below ≠ [] := List.append_ne_nil_of_right_ne_nil place hbelow
  have hthere := (hrooted.proper.entry?_eq_some_iff hplace).mpr hlisted
  rw [isStray, hrooted.leads]
  simp [hthere]

/-- Without stray links the files of a package are the other ones. -/
theorem files_withoutStrayLinks {visited : List Path} (hvisited : files tree root = .ok visited) :
    files (withoutStrayLinks tree root) root = .ok (visited.filter (!isStray tree root ·)) := by
  have hother := rooted_withoutStrayLinks hrooted
  have hwalk := (exists_files_iff hrooted).mp ⟨visited, hvisited⟩
  have hwalks : CanWalk (withoutStrayLinks tree root) root place :=
    fun below entry hbelow hlisted => hwalk below entry hbelow
      ((mem_withoutStrayLinks_below_iff hrooted).mp hlisted).1
  obtain ⟨others, hothers⟩ := (exists_files_iff hother).mpr hwalks
  rw [hothers]
  congr 1
  -- Both lists are in the order of their paths, so their members settle them.
  apply eq_of_pairwise_textBelow (files_pairwise hother hothers)
    ((files_pairwise hrooted hvisited).filter _)
  intro path
  rw [mem_files_iff hother hothers, List.mem_filter, mem_files_iff hrooted hvisited]
  have hstays {below : List String} {entry : Entry} (hbelow : below ≠ [])
      (hlisted : (place ++ below, entry) ∈ tree.entries) :
      (!isStray tree root (root.descend below)) = true ↔ entry ≠ .danglingLink := by
    rw [Bool.not_eq_true', ← Bool.not_eq_true, isStray_descend_iff hrooted hbelow hlisted]
  constructor
  · rintro ⟨below, entry, hbelow, hlisted, hentry, hclean, rfl⟩
    obtain ⟨hlisted, hkept⟩ := (mem_withoutStrayLinks_below_iff hrooted).mp hlisted
    refine ⟨⟨below, entry, hbelow, hlisted, hentry, hclean, rfl⟩, ?_⟩
    refine (hstays hbelow hlisted).mpr fun hlink => ?_
    obtain ⟨name, hname, hcontrol⟩ := hkept hlink
    exact hclean name hname hcontrol
  · rintro ⟨⟨below, entry, hbelow, hlisted, hentry, hclean, rfl⟩, hstay⟩
    have hlink := (hstays hbelow hlisted).mp hstay
    exact ⟨below, entry, hbelow, (mem_withoutStrayLinks_below_iff hrooted).mpr
      ⟨hlisted, fun hdangling => absurd hdangling hlink⟩, hentry, hclean, rfl⟩

end Rooted

/-! ### What loading says of files that cannot be read -/

/-- A path with the reason why nothing can be read there, if there is one. -/
def refusedAt (tree : FileTree) (path : Path) : Option (Path × FileError) :=
  match tree.read path with
  | .error (.refused error _) => some (path, error)
  | _ => none

/-- The notice that a file makes which cannot be read. -/
def refusalNotice (base : Path) (refused : Path × FileError) : Message where
  severity := .notice
  text := "Found a file that doesn't seem to be readable or doesn't exist: " ++
    (refused.1.relativeTo base).text ++ ": " ++ refused.2.reason

/-- The package below a root holds an entry at a path that is not data of version control. -/
def Holds (tree : FileTree) (root path : Path) (entry : Entry) : Prop :=
  ∃ place below, tree.target root = .ok (.directory (some place)) ∧ below ≠ []
    ∧ (place ++ below, entry) ∈ tree.entries
    ∧ (∀ name ∈ below, name ∉ versionControlNames) ∧ path = root.descend below

/-- The path leads to a link below the root that leads nowhere and is not data of version
control. -/
def IsStrayLink (tree : FileTree) (root path : Path) : Prop := Holds tree root path .danglingLink

theorem fst_of_refusedAt {path : Path} {refused : Path × FileError}
    (hrefused : refusedAt tree path = some refused) : refused.1 = path := by
  rw [refusedAt] at hrefused
  split at hrefused
  · obtain rfl := Option.some.inj hrefused
    rfl
  · cases hrefused

/-- What is refused at the paths that are kept is what is refused, for those of them. -/
theorem filterMap_refusedAt_filter (keep : Path → Bool) (paths : List Path) :
    (paths.filter keep).filterMap (refusedAt tree)
      = (paths.filterMap (refusedAt tree)).filter fun refused => keep refused.1 := by
  rw [List.filterMap_filter, List.filter_filterMap]
  refine List.filterMap_congr fun path _ => ?_
  cases hrefused : refusedAt tree path with
  | none => exact ite_self none
  | some refused =>
    obtain rfl := fst_of_refusedAt hrefused
    rfl

theorem fileAt_of_isUnreadable {path : Path} (hunreadable : isUnreadable tree path = true) :
    fileAt tree base path = none := by
  rw [isUnreadable] at hunreadable
  rw [fileAt]
  cases hread : tree.read path with
  | ok content => simp [hread, Except.toOption] at hunreadable
  | error fault => rfl

/-- What comes of a package in a report: its notices, and then what the rules enter. -/
theorem reportOf_eq {visited : List Path} {contents : Contents}
    (haccounts : AccountsFor tree base visited contents) (context : RuleContext)
    (entries : List (String × (RuleContext → Rule Unit))) :
    let run := runOf context entries contents
    (reportOf context entries contents).messages
        = visited.filterMap (noticeAt tree base) ++ run.flatMap RunEvent.messages
      ∧ (reportOf context entries contents).progress.total = (run.map RunEvent.units).sum
      ∧ (reportOf context entries contents).progress.current
          = visited.countP (isUnreadable tree) + (run.map RunEvent.work).sum := by
  have hwork : RunEvent.work ∘ RunEvent.effect = Effect.work := rfl
  intro run
  rw [reportOf, Report.enterAll_messages, Report.enterAll_total, Report.enterAll_work,
    List.flatMap_append, RunEvent.messages_map_effect, haccounts.notices, List.map_append,
    List.map_append, List.sum_append, List.sum_append, List.map_map, List.map_map,
    RunEvent.units_comp_effect, hwork, haccounts.sum_units, haccounts.sum_work]
  simp [run]

/-- What the entry at the path of a file says of the file. -/
structure Described (tree : FileTree) (root path : Path) (entry : Entry) : Prop where
  refused : refusedAt tree path = entry.refusal?.map (path, ·)
  notice : ∀ base, noticeAt tree base path = (refusedAt tree path).map (refusalNotice base)
  unreadable : isUnreadable tree path = entry.refusal?.isSome
  stray : isStray tree root path = true ↔ entry = .danglingLink

/-- The reports of a package and of the same package without its stray links. In front of their
messages stand notices of all files that cannot be read, in one order, and the second one lacks
those of the links. The rest of the messages is the same, and so is the work announced; the work
done differs by the links. -/
structure AddsNotices (base : Path) (links : List Path) (refused : List (Path × FileError))
    (report plain : Report) : Prop where
  messages : ∃ rest, report.messages = refused.map (refusalNotice base) ++ rest
    ∧ plain.messages
      = (refused.filter fun entry => entry.1 ∉ links).map (refusalNotice base) ++ rest
  total : report.progress.total = plain.progress.total
  current : report.progress.current = plain.progress.current + links.length

/-- If only links cannot be read, the messages differ by their notices in front. -/
theorem AddsNotices.messages_of_links {links : List Path} {report plain : Report}
    (hadds : AddsNotices base links (links.map (·, .notFound)) report plain) :
    report.messages = links.map (fun link => refusalNotice base (link, .notFound))
      ++ plain.messages := by
  obtain ⟨rest, hreport, hplain⟩ := hadds.messages
  have hnone : (links.map ((·, FileError.notFound))).filter (fun entry => entry.1 ∉ links) = [] := by
    rw [List.filter_eq_nil_iff]
    intro entry hmem
    obtain ⟨link, hlink, rfl⟩ := List.mem_map.mp hmem
    simpa using hlink
  rw [hnone, List.map_nil, List.nil_append] at hplain
  rw [hreport, hplain, List.map_map]
  rfl

/-- Refused without the stray links is what is refused, but for them. -/
theorem refused_filter_eq (root : Path) (visited : List Path) :
    (visited.filter (!isStray tree root ·)).filterMap (refusedAt tree)
      = (visited.filterMap (refusedAt tree)).filter
          fun refused => refused.1 ∉ visited.filter (isStray tree root) := by
  rw [filterMap_refusedAt_filter]
  refine List.filter_congr fun refused hmem => ?_
  obtain ⟨path, hpath, hrefused⟩ := List.mem_filterMap.mp hmem
  obtain rfl := fst_of_refusedAt hrefused
  rw [Bool.eq_iff_iff, decide_eq_true_iff, List.mem_filter, Bool.not_eq_true',
    and_iff_right hpath, Bool.not_eq_true]

section Rooted

variable (hrooted : tree.Rooted root place) {visited : List Path}
  (hvisited : files tree root = .ok visited)

include hrooted hvisited

theorem mem_files_iff_holds {path : Path} :
    path ∈ visited ↔ ∃ entry, Holds tree root path entry ∧ entry ≠ .directory := by
  rw [mem_files_iff hrooted hvisited]
  constructor
  · rintro ⟨below, entry, hbelow, hlisted, hentry, hclean, rfl⟩
    exact ⟨entry, ⟨place, below, hrooted.leads, hbelow, hlisted, hclean, rfl⟩, hentry⟩
  · rintro ⟨entry, ⟨reached, below, hleads, hbelow, hlisted, hclean, rfl⟩, hentry⟩
    obtain rfl : place = reached := by simpa [hrooted.leads] using hleads
    exact ⟨below, entry, hbelow, hlisted, hentry, hclean, rfl⟩

theorem described_of_holds {path : Path} {entry : Entry} (hholds : Holds tree root path entry)
    (hentry : entry ≠ .directory) : Described tree root path entry := by
  obtain ⟨reached, below, hleads, hbelow, hlisted, hclean, rfl⟩ := hholds
  obtain rfl : place = reached := by simpa [hrooted.leads] using hleads
  have hshort := (exists_files_iff hrooted).mp ⟨visited, hvisited⟩ below entry hbelow hlisted
    (.inr hclean)
  have hstray := isStray_descend_iff hrooted hbelow hlisted
  have htarget := hrooted.target_descend hbelow hlisted hshort
  constructor
  case stray => exact hstray
  all_goals
    simp only [refusedAt, noticeAt, isUnreadable, FileTree.read, htarget]
    cases entry with
    | directory => exact absurd rfl hentry
    | file content => intros; rfl
    | unreadable error => intros; rfl
    | danglingLink => intros; rfl

theorem mem_links_iff {path : Path} :
    path ∈ visited.filter (isStray tree root) ↔ IsStrayLink tree root path := by
  rw [List.mem_filter, mem_files_iff_holds hrooted hvisited]
  constructor
  · rintro ⟨⟨entry, hholds, hentry⟩, hstray⟩
    rwa [(described_of_holds hrooted hvisited hholds hentry).stray.mp hstray] at hholds
  · intro hlink
    have hentry : Entry.danglingLink ≠ .directory := by decide
    exact ⟨⟨_, hlink, hentry⟩, (described_of_holds hrooted hvisited hlink hentry).stray.mpr rfl⟩

/-- Refused are the stray links and the files that cannot be read. -/
theorem mem_refused_iff {path : Path} {error : FileError} :
    (path, error) ∈ visited.filterMap (refusedAt tree)
      ↔ IsStrayLink tree root path ∧ error = .notFound
          ∨ Holds tree root path (.unreadable error) := by
  rw [List.mem_filterMap]
  constructor
  · rintro ⟨other, hother, hrefused⟩
    obtain ⟨entry, hholds, hentry⟩ := (mem_files_iff_holds hrooted hvisited).mp hother
    rw [(described_of_holds hrooted hvisited hholds hentry).refused] at hrefused
    cases entry with
    | directory => cases hrefused
    | file content => cases hrefused
    | unreadable reason =>
      obtain ⟨rfl, rfl⟩ := Prod.mk.inj (Option.some.inj hrefused)
      exact .inr hholds
    | danglingLink =>
      obtain ⟨rfl, rfl⟩ := Prod.mk.inj (Option.some.inj hrefused)
      exact .inl ⟨hholds, rfl⟩
  · have hrefused {entry : Entry} (hholds : Holds tree root path entry)
        (hrefusal : entry.refusal? = some error) :
        ∃ other ∈ visited, refusedAt tree other = some (path, error) := by
      have hentry : entry ≠ .directory := by
        rintro rfl
        cases hrefusal
      refine ⟨path, (mem_files_iff_holds hrooted hvisited).mpr ⟨entry, hholds, hentry⟩, ?_⟩
      rw [(described_of_holds hrooted hvisited hholds hentry).refused, hrefusal]
      rfl
    rintro (⟨hlink, rfl⟩ | hunreadable)
    · exact hrefused hlink rfl
    · exact hrefused hunreadable rfl

theorem refused_pairwise : (visited.filterMap (refusedAt tree)).Pairwise
    fun first second => textBelow root first.1 < textBelow root second.1 := by
  refine (files_pairwise hrooted hvisited).filterMap _ fun first second hless => ?_
  intro before hbefore after hafter
  rwa [fst_of_refusedAt hbefore, fst_of_refusedAt hafter]

/-- If only links cannot be read, what is refused is the links. -/
theorem refused_eq_links
    (hreadable : ∀ path error, ¬ Holds tree root path (.unreadable error)) :
    visited.filterMap (refusedAt tree)
      = (visited.filter (isStray tree root)).map (·, .notFound) := by
  have hmissing : ∀ refused ∈ visited.filterMap (refusedAt tree), refused.2 = .notFound := by
    rintro ⟨path, error⟩ hmem
    obtain ⟨-, hmissing⟩ | hunreadable := (mem_refused_iff hrooted hvisited).mp hmem
    · exact hmissing
    · exact absurd hunreadable (hreadable path error)
  have hpaths : (visited.filterMap (refusedAt tree)).map Prod.fst
      = visited.filter (isStray tree root) := by
    refine eq_of_pairwise_textBelow (List.pairwise_map.mpr (refused_pairwise hrooted hvisited))
      ((files_pairwise hrooted hvisited).filter _) fun path => ?_
    rw [mem_links_iff hrooted hvisited, List.mem_map]
    constructor
    · rintro ⟨⟨_, error⟩, hmem, rfl⟩
      exact ((mem_refused_iff hrooted hvisited).mp hmem).elim (·.1)
        fun hunreadable => absurd hunreadable (hreadable _ error)
    · intro hlink
      exact ⟨(path, .notFound), (mem_refused_iff hrooted hvisited).mpr (.inl ⟨hlink, rfl⟩), rfl⟩
  rw [← hpaths, List.map_map]
  conv_lhs => rw [← List.map_id (visited.filterMap (refusedAt tree))]
  refine List.map_congr_left fun refused hmem => ?_
  exact Prod.ext rfl (hmissing refused hmem)

/-- A stray link cannot be read. -/
theorem isUnreadable_of_isStray {path : Path} (hpath : path ∈ visited)
    (hstray : isStray tree root path = true) : isUnreadable tree path = true := by
  obtain ⟨entry, hholds, hentry⟩ := (mem_files_iff_holds hrooted hvisited).mp hpath
  have hdescribed := described_of_holds hrooted hvisited hholds hentry
  rw [hdescribed.unreadable, hdescribed.stray.mp hstray]
  rfl

theorem filterMap_noticeAt {paths : List Path} (hpaths : paths ⊆ visited) :
    paths.filterMap (noticeAt tree base)
      = (paths.filterMap (refusedAt tree)).map (refusalNotice base) := by
  rw [List.map_filterMap]
  refine List.filterMap_congr fun path hmem => ?_
  obtain ⟨entry, hholds, hentry⟩ := (mem_files_iff_holds hrooted hvisited).mp (hpaths hmem)
  exact (described_of_holds hrooted hvisited hholds hentry).notice base

/-- Checked without its stray links, a package lacks their notices and nothing else. -/
theorem load_withoutStrayLinks {context : RuleContext} (htree : context.tree = tree)
    {entries : List (String × (RuleContext → Rule Unit))}
    (hentries : entries ⊆ RulePackage.builtInEntries.map RulePackage.identified) :
    ∃ contents others, load tree root base = .ok contents
      ∧ load (withoutStrayLinks tree root) root base = .ok others
      ∧ AddsNotices base (visited.filter (isStray tree root)) (visited.filterMap (refusedAt tree))
          (reportOf context entries contents)
          (reportOf (context.onTree (withoutStrayLinks tree root)) entries others) := by
  have hsees (path : Path) : (withoutStrayLinks tree root).target path = tree.target path :=
    target_withoutStrayLinks hrooted.proper root path
  have hloads : loadFile (withoutStrayLinks tree root) base = loadFile tree base :=
    funext fun path => loadFile_congr (hsees path)
  refine ⟨_, _, load_eq_ok_iff.mpr ⟨visited, hvisited, rfl⟩, load_eq_ok_iff.mpr
    ⟨_, files_withoutStrayLinks hrooted hvisited, rfl⟩, ?_⟩
  rw [hloads]
  have haccounts (paths : List Path) :
      AccountsFor tree base paths (.ofLoaded root base (paths.map (loadFile tree base))) :=
    accountsFor_ofLoaded root base paths
  have hall := haccounts visited
  have hothers := haccounts (visited.filter (!isStray tree root ·))
  -- What is said of the two contents below follows from what they account for.
  generalize Contents.ofLoaded root base (visited.map (loadFile tree base)) = contents at hall ⊢
  generalize Contents.ofLoaded root base
    ((visited.filter (!isStray tree root ·)).map (loadFile tree base)) = others at hothers ⊢
  have hfiles : others.files = contents.files := by
    rw [hothers.files, hall.files, List.filterMap_filter]
    refine List.filterMap_congr fun path hmem => ?_
    by_cases hstray : isStray tree root path = true
    · rw [fileAt_of_isUnreadable (isUnreadable_of_isStray hrooted hvisited hmem hstray)]
      exact ite_self none
    · rw [if_pos (by rwa [Bool.not_eq_true', ← Bool.not_eq_true])]
  have hrun : runOf (context.onTree (withoutStrayLinks tree root)) entries others
      = runOf context entries contents := by
    rw [runOf_onTree hentries fun relative _ => by rw [htree, hsees], runOf, runOf,
      Contents.listing, Contents.listing, hfiles]
  obtain ⟨hmessages, htotal, hcurrent⟩ := reportOf_eq hall context entries
  obtain ⟨hplain, hplainTotal, hplainCurrent⟩ :=
    reportOf_eq hothers (context.onTree (withoutStrayLinks tree root)) entries
  rw [hrun] at hplain hplainTotal hplainCurrent
  refine ⟨⟨(runOf context entries contents).flatMap RunEvent.messages, ?_, ?_⟩,
    htotal.trans hplainTotal.symm, ?_⟩
  · rw [hmessages, filterMap_noticeAt hrooted hvisited (List.Subset.refl _)]
  · rw [hplain, filterMap_noticeAt hrooted hvisited (List.filter_subset_self _), refused_filter_eq]
  · have hlinks : (visited.filter (isStray tree root)).countP (isUnreadable tree)
        = (visited.filter (isStray tree root)).length := by
      refine List.countP_eq_length.mpr fun path hmem => ?_
      obtain ⟨hpath, hstray⟩ := List.mem_filter.mp hmem
      exact isUnreadable_of_isStray hrooted hvisited hpath hstray
    rw [hcurrent, hplainCurrent,
      List.countP_eq_countP_filter_add visited (isUnreadable tree) (isStray tree root), hlinks]
    omega

end Rooted

/-! ### The check -/

theorem contextResult_withoutStrayLinks (hproper : tree.Proper)
    (hplain : ∀ settings, settingsResult tree root request = .ok settings →
      ∀ c ∈ settings.manifest.toList, c ∉ ['*', '?', '[']) :
    contextResult (withoutStrayLinks tree root) root request
      = (contextResult tree root request).map (·.onTree (withoutStrayLinks tree root)) := by
  have hsees (path : Path) : (withoutStrayLinks tree root).target path = tree.target path :=
    target_withoutStrayLinks hproper root path
  rw [contextResult, contextResult, settingsResult_congr (hsees root) fun _ => hsees _]
  cases hsettings : settingsResult tree root request with
  | error fault => rfl
  | ok settings =>
    dsimp only [Except.bind]
    rw [baseDirectory_withoutStrayLinks hproper (hplain settings hsettings)]
    cases baseDirectory tree settings.manifest root with
    | error fault => rfl
    | ok base =>
      dsimp only
      rw [nameOrEmpty_congr (hsees _)]
      rfl

/-- A walk that the package without its stray links allows can only be stopped by one of them. -/
theorem exists_long_strayLink (hrooted : tree.Rooted root place)
    (hwalk : CanWalk (withoutStrayLinks tree root) root place)
    (hstopped : ¬ CanWalk tree root place) :
    ∃ link, IsStrayLink tree root link ∧ link.IsLong := by
  rw [CanWalk] at hstopped
  push Not at hstopped
  obtain ⟨below, entry, hbelow, hlisted, hlooked, hlong⟩ := hstopped
  have hmissing : (place ++ below, entry) ∉ (withoutStrayLinks tree root).entries :=
    fun hkept => hwalk below entry hbelow hkept hlooked hlong
  rw [mem_withoutStrayLinks_below_iff hrooted] at hmissing
  push Not at hmissing
  obtain ⟨rfl, hclean⟩ := hmissing hlisted
  exact ⟨_, ⟨place, below, hrooted.leads, hbelow, hlisted, hclean, rfl⟩, hlong⟩

/-- The part of a check behind its set-up ends with the same fault of the rules, or in reports that
differ by the notices, or over a search that fails. -/
theorem reportResult_withoutStrayLinks (hrooted : tree.Rooted root place) {context : RuleContext}
    (htree : context.tree = tree) :
    let result := reportResult root context
    let plainly := reportResult root (context.onTree (withoutStrayLinks tree root))
    (∃ fault, result = .error fault ∧ plainly = .error fault)
      ∨ (∃ visited report plain, files tree root = .ok visited ∧ result = .ok report
          ∧ plainly = .ok plain
          ∧ AddsNotices context.baseDirectory (visited.filter (isStray tree root))
              (visited.filterMap (refusedAt tree)) report plain)
      ∨ ∃ wrong, result = .error (.search wrong)
          ∧ ((∃ another, plainly = .error (.search another))
            ∨ (∃ plain, plainly = .ok plain) ∧ ∃ link, IsStrayLink tree root link ∧ link.IsLong) := by
  simp only [reportResult, RuleContext.onTree, htree]
  cases hentries : entriesResult context.settings with
  | error fault => exact .inl ⟨fault, rfl, rfl⟩
  | ok entries =>
    have hbuiltIn := (entriesResult_eq_ok hentries).2
    right
    cases hload : load tree root context.baseDirectory with
    | ok contents =>
      obtain ⟨visited, hvisited, rfl⟩ := load_eq_ok_iff.mp hload
      obtain ⟨again, others, hagain, hothers, hadds⟩ :=
        load_withoutStrayLinks hrooted hvisited htree hbuiltIn
      obtain rfl := Except.ok.inj (hload.symm.trans hagain)
      rw [hothers]
      exact .inl ⟨visited, _, _, hvisited, rfl, rfl, hadds⟩
    | error wrong =>
      right
      cases hother : load (withoutStrayLinks tree root) root context.baseDirectory with
      | error another => exact ⟨wrong, rfl, .inl ⟨another, rfl⟩⟩
      | ok others =>
        have hwalk := (exists_load_iff (rooted_withoutStrayLinks hrooted)).mp ⟨others, hother⟩
        have hstopped : ¬ CanWalk tree root place := by
          intro hwalks
          obtain ⟨contents, hcontents⟩ :
              ∃ contents, load tree root context.baseDirectory = .ok contents :=
            (exists_load_iff hrooted).mpr hwalks
          rw [hload] at hcontents
          cases hcontents
        exact ⟨wrong, rfl, .inr ⟨⟨_, rfl⟩, exists_long_strayLink hrooted hwalk hstopped⟩⟩

/-- The stray links of a package, and what cannot be read of it with the reasons: the links, and the
files that refuse to be read. Both lists are in the order of the paths below the root. -/
structure Notes (tree : FileTree) (root : Path) (links : List Path)
    (refused : List (Path × FileError)) : Prop where
  mem_links : ∀ link, link ∈ links ↔ IsStrayLink tree root link
  links_ordered : links.Pairwise fun first second => textBelow root first < textBelow root second
  mem_refused : ∀ path error, (path, error) ∈ refused
    ↔ IsStrayLink tree root path ∧ error = .notFound ∨ Holds tree root path (.unreadable error)
  refused_ordered : refused.Pairwise
    fun first second => textBelow root first.1 < textBelow root second.1

/-- The reports of a package and of the same package without its stray links. -/
theorem addsNotices_of_check (hproper : tree.Proper)
    (hplain : ∀ settings, settingsResult tree root request = .ok settings →
      ∀ c ∈ settings.manifest.toList, c ∉ ['*', '?', '['])
    {report : Report} (hreport : checkResult tree root request = .ok report) :
    ∃ plain context visited place, tree.Rooted root place ∧ files tree root = .ok visited
      ∧ checkResult (withoutStrayLinks tree root) root request = .ok plain
      ∧ contextResult tree root request = .ok context
      ∧ AddsNotices context.baseDirectory (visited.filter (isStray tree root))
          (visited.filterMap (refusedAt tree)) report plain := by
  rw [checkResult_eq] at hreport ⊢
  obtain ⟨context, hcontext, hreport⟩ := bind_eq_ok_iff.mp hreport
  rw [contextResult_withoutStrayLinks hproper hplain, hcontext]
  obtain ⟨htree, -, hbase⟩ := contextResult_eq_ok hcontext
  obtain ⟨place, hrooted⟩ := exists_rooted hproper hbase
  obtain ⟨fault, hfault, -⟩ | ⟨visited, again, plain, hvisited, hagain, hplainly, hadds⟩
    | ⟨wrong, hwrong, -⟩ := reportResult_withoutStrayLinks hrooted htree
  · cases hreport.symm.trans hfault
  · obtain rfl := Except.ok.inj (hreport.symm.trans hagain)
    exact ⟨plain, context, visited, place, hrooted, hvisited, hplainly, rfl, hadds⟩
  · cases hreport.symm.trans hwrong

/-- **Links that lead nowhere are only noted.** Unless the manifest is looked for by a pattern, the
check of a package and that of the package without its stray links end with the same faults of the
configuration. If the first one makes a report, the second one does too. In front of its messages
stand notices of all files of its package that cannot be read, in the order of their paths; for the
first one the links are among them, and the work done counts them; the rest of the messages is the
same. So if all other files can be read, the messages differ by the notices of the links in front of
them. And if only the second one makes a report, the path of one of the links is too long. -/
theorem check_withoutStrayLinks (tree : FileTree) (hproper : tree.Proper) (root : Path)
    (request : CheckRequest)
    (hplain : ∀ settings, (settingsOf tree root request).execute.1 = .ok settings →
      ∀ c ∈ settings.manifest.toList, c ∉ ['*', '?', '[']) :
    (∀ fault, fault.isConfiguration = true →
        ((check tree root request).execute.1 = .error fault
          ↔ (check (withoutStrayLinks tree root) root request).execute.1 = .error fault))
      ∧ (∀ report, (check tree root request).execute.1 = .ok report →
          ∃ plain context links refused,
            (check (withoutStrayLinks tree root) root request).execute.1 = .ok plain
              ∧ (contextOf tree root request).execute.1 = .ok context
              ∧ Notes tree root links refused
              ∧ AddsNotices context.baseDirectory links refused report plain
              ∧ ((∀ path error, ¬ Holds tree root path (.unreadable error)) →
                  report.messages = links.map
                    (fun link => refusalNotice context.baseDirectory (link, .notFound))
                      ++ plain.messages))
      ∧ ∀ plain, (check (withoutStrayLinks tree root) root request).execute.1 = .ok plain →
          (∃ report, (check tree root request).execute.1 = .ok report)
            ∨ ∃ link, IsStrayLink tree root link ∧ link.IsLong := by
  rw [(settingsOf_ends tree root request).execute] at hplain
  have hcontexts := contextResult_withoutStrayLinks hproper hplain
  simp only [(check_ends _ root request).execute, (contextOf_ends tree root request).execute]
  refine ⟨?_, ?_, ?_⟩
  · intro fault hconfiguration
    have hsearch {wrong : SearchFault} {result : Except SetupFault Report}
        (hresult : result = .error (.search wrong)) : result ≠ .error fault := by
      rw [hresult]
      rintro ⟨⟩
      cases hconfiguration
    rw [checkResult_eq, checkResult_eq, hcontexts]
    cases hcontext : contextResult tree root request with
    | error other => rfl
    | ok context =>
      obtain ⟨htree, -, hbase⟩ := contextResult_eq_ok hcontext
      obtain ⟨place, hrooted⟩ := exists_rooted hproper hbase
      simp only [Except.bind, Except.map]
      obtain ⟨other, hfault, hsame⟩ | ⟨_, report, plain, -, hreport, hplain, -⟩
        | ⟨wrong, hwrong, ⟨another, hanother⟩ | ⟨⟨plain, hplain⟩, -⟩⟩ :=
          reportResult_withoutStrayLinks hrooted htree
      · rw [hfault, hsame]
      · simp [hreport, hplain]
      · exact iff_of_false (hsearch hwrong) (hsearch hanother)
      · exact iff_of_false (hsearch hwrong) (by simp [hplain])
  · intro report hreport
    obtain ⟨plain, context, visited, place, hrooted, hvisited, hplainly, hcontext, hadds⟩ :=
      addsNotices_of_check hproper hplain hreport
    refine ⟨plain, context, _, _, hplainly, hcontext, ?_, hadds, fun hreadable => ?_⟩
    · exact
        { mem_links := fun link => mem_links_iff hrooted hvisited
          links_ordered := (files_pairwise hrooted hvisited).filter _
          mem_refused := fun path error => mem_refused_iff hrooted hvisited
          refused_ordered := refused_pairwise hrooted hvisited }
    · rw [refused_eq_links hrooted hvisited hreadable] at hadds
      exact hadds.messages_of_links
  · intro plain hplainly
    rw [checkResult_eq, hcontexts] at hplainly
    rw [checkResult_eq]
    cases hcontext : contextResult tree root request with
    | error other =>
      rw [hcontext] at hplainly
      cases hplainly
    | ok context =>
      rw [hcontext] at hplainly
      obtain ⟨htree, -, hbase⟩ := contextResult_eq_ok hcontext
      obtain ⟨place, hrooted⟩ := exists_rooted hproper hbase
      obtain ⟨other, -, hsame⟩ | ⟨_, report, _, -, hreport, -, -⟩
        | ⟨wrong, -, ⟨another, hanother⟩ | ⟨-, hlong⟩⟩ :=
          reportResult_withoutStrayLinks hrooted htree
      · cases hplainly.symm.trans hsame
      · exact .inl ⟨report, hreport⟩
      · cases hplainly.symm.trans hanother
      · exact .inr hlong

/-- A package of a file that may not be read, of a manifest without text and of a link that leads
nowhere. -/
def lockedFile : FileTree where
  entries := [(["pkg"], .directory), (["pkg", "a.txt"], .unreadable .permissionDenied),
    (["pkg", "ext.php"], .file []), (["pkg", "z.txt"], .danglingLink)]

theorem files_lockedFile : files lockedFile ⟨0, ["pkg"]⟩
    = .ok [⟨0, ["pkg", "a.txt"]⟩, ⟨0, ["pkg", "ext.php"]⟩, ⟨0, ["pkg", "z.txt"]⟩] := by
  have hfound : lockedFile.search ⟨0, ["pkg"]⟩ "*"
      = .ok [⟨0, ["pkg", "a.txt"]⟩, ⟨0, ["pkg", "ext.php"]⟩, ⟨0, ["pkg", "z.txt"]⟩] := by
    decide +kernel
  have hkept : filesAmong lockedFile ⟨0, ["pkg"]⟩
      [⟨0, ["pkg", "a.txt"]⟩, ⟨0, ["pkg", "ext.php"]⟩, ⟨0, ["pkg", "z.txt"]⟩]
        = .ok [⟨0, ["pkg", "a.txt"]⟩, ⟨0, ["pkg", "ext.php"]⟩, ⟨0, ["pkg", "z.txt"]⟩] := by
    decide +kernel
  refine filesMatching_eq_ok_iff.mpr ⟨_, _, hfound, hkept, ?_⟩
  symm
  apply List.mergeSort_of_pairwise
  decide

theorem plain_usualManifest {settings : Settings} (hsettings : settings = {}) :
    ∀ c ∈ settings.manifest.toList, c ∉ ['*', '?', '['] := by
  have hmanifest : ({} : Settings).manifest.toList = ['e', 'x', 't', '.', 'p', 'h', 'p'] := by
    decide
  rw [hsettings, hmanifest]
  simp

theorem isStrayLink_lockedFile_iff {link : Path} :
    IsStrayLink lockedFile ⟨0, ["pkg"]⟩ link ↔ link = ⟨0, ["pkg", "z.txt"]⟩ := by
  have hleads : lockedFile.target ⟨0, ["pkg"]⟩ = .ok (.directory (some ["pkg"])) := by decide
  constructor
  · rintro ⟨place, below, hplace, -, hlisted, -, rfl⟩
    obtain rfl : ["pkg"] = place := by simpa [hleads] using hplace
    obtain rfl : below = ["z.txt"] := by simpa [lockedFile] using hlisted
    rfl
  · rintro rfl
    exact ⟨["pkg"], ["z.txt"], hleads, by decide, by decide, by decide, rfl⟩

def lockedNotice : Message where
  severity := .notice
  text := "Found a file that doesn't seem to be readable or doesn't exist: a.txt: Permission denied"

def strayNotice : Message where
  severity := .notice
  text := "Found a file that doesn't seem to be readable or doesn't exist: z.txt: " ++
    "No such file or directory"

/-- The notice of the link does not stand in front of the messages of the package without it, but
behind that of the file. -/
theorem check_lockedFile :
    (∀ link, IsStrayLink lockedFile ⟨0, ["pkg"]⟩ link ↔ link = ⟨0, ["pkg", "z.txt"]⟩)
      ∧ ∃ report plain rest,
        (check lockedFile ⟨0, ["pkg"]⟩ { settings := some {} }).execute.1 = .ok report
          ∧ (check (withoutStrayLinks lockedFile ⟨0, ["pkg"]⟩) ⟨0, ["pkg"]⟩
              { settings := some {} }).execute.1 = .ok plain
          ∧ report.messages = lockedNotice :: strayNotice :: rest
          ∧ plain.messages = lockedNotice :: rest
          ∧ report.messages ≠ strayNotice :: plain.messages := by
  have hproper : lockedFile.Proper := by decide
  have hrooted : lockedFile.Rooted ⟨0, ["pkg"]⟩ ["pkg"] := ⟨hproper, by decide⟩
  have hbase : baseDirectory lockedFile "ext.php" ⟨0, ["pkg"]⟩ = .ok ⟨0, ["pkg"]⟩ := by
    decide +kernel
  obtain ⟨report, hreport⟩ :=
    exists_report hrooted ((exists_files_iff hrooted).mp ⟨_, files_lockedFile⟩) hbase
  have hresult := (check_ends lockedFile ⟨0, ["pkg"]⟩ { settings := some {} }).execute.symm.trans
    hreport
  have husual : ∀ settings,
      settingsResult lockedFile ⟨0, ["pkg"]⟩ { settings := some {} } = .ok settings →
        ∀ c ∈ settings.manifest.toList, c ∉ ['*', '?', '['] :=
    fun settings hsettings => plain_usualManifest (Except.ok.inj hsettings).symm
  obtain ⟨plain, context, visited, place, -, hvisited, hplain, hcontext, hadds⟩ :=
    addsNotices_of_check hproper husual hresult
  obtain ⟨-, hsettings, hmarked⟩ := contextResult_eq_ok hcontext
  rw [← Except.ok.inj hsettings] at hmarked
  have hplace := Except.ok.inj (hbase.symm.trans hmarked)
  obtain rfl := Except.ok.inj (files_lockedFile.symm.trans hvisited)
  have hlinks : [⟨0, ["pkg", "a.txt"]⟩, ⟨0, ["pkg", "ext.php"]⟩, ⟨0, ["pkg", "z.txt"]⟩].filter
      (isStray lockedFile ⟨0, ["pkg"]⟩) = [⟨0, ["pkg", "z.txt"]⟩] := by
    decide +kernel
  have hrefused : [⟨0, ["pkg", "a.txt"]⟩, ⟨0, ["pkg", "ext.php"]⟩, ⟨0, ["pkg", "z.txt"]⟩].filterMap
      (refusedAt lockedFile) = [(⟨0, ["pkg", "a.txt"]⟩, .permissionDenied),
        (⟨0, ["pkg", "z.txt"]⟩, .notFound)] := by
    decide +kernel
  have hlocked : refusalNotice ⟨0, ["pkg"]⟩ (⟨0, ["pkg", "a.txt"]⟩, .permissionDenied)
      = lockedNotice := by
    decide +kernel
  have hstray : refusalNotice ⟨0, ["pkg"]⟩ (⟨0, ["pkg", "z.txt"]⟩, .notFound) = strayNotice := by
    decide +kernel
  rw [← hplace, hlinks, hrefused] at hadds
  obtain ⟨rest, hmessages, hothers⟩ := hadds.messages
  rw [List.map_cons, List.map_singleton, hlocked, hstray] at hmessages
  have hkept : [((⟨0, ["pkg", "a.txt"]⟩ : Path), FileError.permissionDenied),
      (⟨0, ["pkg", "z.txt"]⟩, .notFound)].filter
        (fun entry => entry.1 ∉ [(⟨0, ["pkg", "z.txt"]⟩ : Path)])
      = [(⟨0, ["pkg", "a.txt"]⟩, .permissionDenied)] := by
    decide
  rw [hkept, List.map_singleton, hlocked] at hothers
  refine ⟨fun _ => isStrayLink_lockedFile_iff, report, plain, rest, hreport,
    (check_ends _ _ _).execute.trans hplain, hmessages, hothers, ?_⟩
  rw [hmessages]
  have hdiffer : lockedNotice ≠ strayNotice := by decide
  exact fun hsame => hdiffer (List.cons.inj hsame).1

theorem isStrayLink_strayLink_iff {link : Path} :
    IsStrayLink strayLink ⟨0, ["pkg"]⟩ link ↔ link = ⟨0, ["pkg", "gone.txt"]⟩ := by
  have hleads : strayLink.target ⟨0, ["pkg"]⟩ = .ok (.directory (some ["pkg"])) := by decide
  constructor
  · rintro ⟨place, below, hplace, -, hlisted, -, rfl⟩
    obtain rfl : ["pkg"] = place := by simpa [hleads] using hplace
    obtain rfl : below = ["gone.txt"] := by simpa [strayLink] using hlisted
    rfl
  · rintro rfl
    exact ⟨["pkg"], ["gone.txt"], hleads, by decide, by decide, by decide, rfl⟩

theorem check_withoutStrayLinks_strayLink :
    strayLink.Proper
      ∧ (∀ settings, (settingsOf strayLink ⟨0, ["pkg"]⟩ {}).execute.1 = .ok settings →
          ∀ c ∈ settings.manifest.toList, c ∉ ['*', '?', '['])
      ∧ (∀ path error, ¬ Holds strayLink ⟨0, ["pkg"]⟩ path (.unreadable error))
      ∧ ∃ report plain, (check strayLink ⟨0, ["pkg"]⟩ {}).execute.1 = .ok report
          ∧ (check (withoutStrayLinks strayLink ⟨0, ["pkg"]⟩) ⟨0, ["pkg"]⟩ {}).execute.1 = .ok plain
          ∧ report.messages
            = refusalNotice ⟨0, ["pkg"]⟩ (⟨0, ["pkg", "gone.txt"]⟩, .notFound) :: plain.messages := by
  have hproper : strayLink.Proper := by decide
  have hplain : ∀ settings, (settingsOf strayLink ⟨0, ["pkg"]⟩ {}).execute.1 = .ok settings →
      ∀ c ∈ settings.manifest.toList, c ∉ ['*', '?', '['] := by
    have hsettings : settingsResult strayLink ⟨0, ["pkg"]⟩ {} = .ok {} := by decide +kernel
    rw [(settingsOf_ends strayLink ⟨0, ["pkg"]⟩ {}).execute, hsettings]
    exact fun settings hsettings => plain_usualManifest (Except.ok.inj hsettings).symm
  have hreadable : ∀ path error, ¬ Holds strayLink ⟨0, ["pkg"]⟩ path (.unreadable error) := by
    rintro path error ⟨place, below, -, -, hlisted, -⟩
    simp [strayLink] at hlisted
  obtain ⟨report, hreport, -⟩ := check_strayLink
  obtain ⟨plain, context, links, refused, hother, hcontext, hnotes, -, hmessages⟩ :=
    (check_withoutStrayLinks strayLink hproper ⟨0, ["pkg"]⟩ {} hplain).2.1 report hreport
  obtain rfl : strayContext = context := by
    rw [(contextOf_ends strayLink ⟨0, ["pkg"]⟩ {}).execute, contextResult_strayLink] at hcontext
    exact Except.ok.inj hcontext
  obtain rfl : links = [⟨0, ["pkg", "gone.txt"]⟩] := by
    apply eq_of_pairwise_textBelow hnotes.links_ordered (List.pairwise_singleton _ _)
    intro link
    rw [hnotes.mem_links, isStrayLink_strayLink_iff, List.mem_singleton]
  exact ⟨hproper, hplain, hreadable, report, plain, hreport, hother, hmessages hreadable⟩

end Package

end ExtensionAudit
