import Mathlib
import ExtensionAudit.Package.Loader
import ExtensionAudit.Proofs.Package.VersionControl

/-!
# Which directory the manifest marks

A name without the signs of a pattern stands for itself, so the search for a manifest asks in each
directory below the root whether the name is there. What is there counts unless it is a directory or
kept by version control, and one such file marks the base directory. Only where a path that the
search asks about is too long to be looked up does it break off, whatever the path would lead to.
-/

namespace ExtensionAudit

/-! ### Names that are their own patterns -/

/-- A name that stands for itself in a pattern. -/
structure IsPlainName (name : String) : Prop where
  component : Path.IsComponent name
  not_dots : name ≠ ".."
  no_signs : ∀ c ∈ name.toList, c ∉ ['*', '?', '[']

theorem holdsTwoStars_eq_false {cs : List Char} (hcs : '*' ∉ cs) : holdsTwoStars cs = false := by
  induction cs with
  | nil => rfl
  | cons c rest ih =>
    rw [List.mem_cons, not_or] at hcs
    rw [← ih hcs.2]
    cases rest with
    | nil => simp [holdsTwoStars]
    | cons d others => simp [holdsTwoStars, Ne.symm hcs.1]

theorem IsPlainName.parsePattern_eq {name : String} (hname : IsPlainName name) :
    parsePattern name = .ok [.named name] := by
  have hstar : '*' ∉ name.toList := fun hmem => hname.no_signs '*' hmem (by decide)
  have hstars : (name == "**") = false := by
    refine beq_false_of_ne ?_
    rintro rfl
    exact hstar (by decide)
  have hplain : (name.toList.any fun c => c == '*' || c == '?' || c == '[') = false := by
    rw [List.any_eq_false]
    intro c hc hsign
    exact hname.no_signs c hc (by simpa [or_assoc] using hsign)
  have hparsed : PatternComponent.parse name = .ok (.named name) := by
    rw [PatternComponent.parse, hstars, holdsTwoStars_eq_false hstar, hplain]
    rfl
  rw [parsePattern_of_component hname.component, hparsed]
  rfl

namespace Package

open FileTree

variable {tree other : FileTree} {root base : Path} {place below : List String} {manifest : String}

/-! ### Manifests -/

/-- The path is that of a file under the manifest's name, at or below the root and not kept by
version control. A file that cannot be read counts. -/
def IsManifest (tree : FileTree) (root : Path) (place : List String) (manifest : String)
    (path : Path) : Prop :=
  ∃ above entry, (place ++ (above ++ [manifest]), entry) ∈ tree.entries
    ∧ entry ≠ .directory ∧ entry ≠ .danglingLink
    ∧ (∀ name ∈ above ++ [manifest], name ∉ versionControlNames)
    ∧ path = root.descend (above ++ [manifest])

/-- In every directory below the root, the name can be looked up. -/
def CanSearch (tree : FileTree) (root : Path) (place : List String) (manifest : String) : Prop :=
  ∀ below ∈ tree.directoriesBelow place, ¬ tree.IsStuck (root.descend (below ++ [manifest]))

section Rooted

variable (hrooted : tree.Rooted root place)

include hrooted

/-- A name is there in a directory below the root if the tree lists it, and it is no dangling
link. -/
theorem pathExists_descend_iff (hbelow : below ∈ tree.directoriesBelow place)
    (hdots : manifest ≠ "..") :
    tree.pathExists (root.descend (below ++ [manifest])) = .ok true
      ↔ ∃ entry, (place ++ (below ++ [manifest]), entry) ∈ tree.entries ∧ entry ≠ .danglingLink
          ∧ ¬ (root.descend (below ++ [manifest])).IsLong := by
  constructor
  · intro hexists
    obtain ⟨target, htarget, -⟩ := exists_target_of_answer hexists
    have hshort := ((admissible_eq_ok_iff _).mp (admissible_of_target htarget)).2
    have hfollow : tree.follow (some (place ++ below)) [manifest] = .ok target := by
      rw [← follow_of_target htarget]
      calc
        tree.follow (some (place ++ below)) [manifest]
          = tree.follow (some place) (below ++ [manifest]) :=
            (follow_append tree (hrooted.proper.follow_directory hbelow) [manifest]).symm
        _ = tree.follow (origin root) (root.parts ++ (below ++ [manifest])) :=
            (follow_append tree (follow_of_target hrooted.leads) _).symm
    have hplace : place ++ below ++ [manifest] ≠ [] := by simp
    rw [follow, if_neg (by simpa using hdots)] at hfollow
    rw [← List.append_assoc]
    split at hfollow
    · cases hfollow
    · split at hfollow
      · next hentry =>
        exact ⟨.directory, (hrooted.proper.entry?_eq_some_iff hplace).mp hentry, by simp, hshort⟩
      · next content hentry =>
        exact ⟨.file content, (hrooted.proper.entry?_eq_some_iff hplace).mp hentry, by simp, hshort⟩
      · next error hentry =>
        exact ⟨.unreadable error, (hrooted.proper.entry?_eq_some_iff hplace).mp hentry, by simp,
          hshort⟩
      · cases hfollow
      · cases hfollow
  · rintro ⟨entry, hlisted, hentry, hshort⟩
    rw [pathExists, hrooted.target_descend (by simp) hlisted hshort]
    cases entry with
    | directory => rfl
    | file content => rfl
    | unreadable error => rfl
    | danglingLink => exact absurd rfl hentry

theorem reaches_named_below_iff {stuck : Bool} {last : Path} :
    tree.Reaches [.anyDirectories, .named manifest] root stuck last
      ↔ ∃ below ∈ tree.directoriesBelow place, last = root.descend (below ++ [manifest])
          ∧ (stuck = false ∧ tree.pathExists last = .ok true
            ∨ stuck = true ∧ tree.IsStuck last) := by
  rw [reaches_anyDirectories_root_iff hrooted]
  refine exists_congr fun below => and_congr_right fun _ => ?_
  rw [reaches_named_iff, reaches_nil_iff, Path.child_descend]
  constructor
  · rintro (⟨hthere, rfl, rfl⟩ | ⟨hstuck, rfl, rfl⟩)
    · exact ⟨rfl, .inl ⟨rfl, hthere⟩⟩
    · exact ⟨rfl, .inr ⟨rfl, hstuck⟩⟩
  · rintro ⟨rfl, ⟨rfl, hthere⟩ | ⟨rfl, hstuck⟩⟩
    · exact .inl ⟨hthere, rfl, rfl⟩
    · exact .inr ⟨hstuck, rfl, rfl⟩

omit hrooted in
theorem not_isStuck_of_pathExists {path : Path} (hthere : tree.pathExists path = .ok true) :
    ¬ tree.IsStuck path := by
  intro hstuck
  have hfails : tree.pathExists path = .error (.refused .nameTooLong path) :=
    answer_eq_error_iff.mpr ⟨hstuck, rfl⟩
  rw [hthere] at hfails
  cases hfails

/-- If the name can be looked up everywhere, the search for files of that name finds the
manifests. -/
theorem fileWay_iff_isManifest (hdots : manifest ≠ "..")
    (hsearch : CanSearch tree root place manifest) {path : Path} :
    FileWay tree root [.anyDirectories, .named manifest] false path
      ↔ IsManifest tree root place manifest path := by
  constructor
  · rintro ⟨hreaches, hfile⟩
    obtain ⟨below, hbelow, rfl, ⟨-, hthere⟩ | ⟨hstuck, -⟩⟩ :=
      (reaches_named_below_iff hrooted).mp hreaches
    · obtain ⟨entry, hlisted, hlink, -⟩ := (pathExists_descend_iff hrooted hbelow hdots).mp hthere
      obtain ⟨hclean, hdirectory, -⟩ := (isFile_descend_iff hrooted (by simp) hlisted).mp hfile
      exact ⟨below, entry, hlisted, hdirectory, hlink, hclean, rfl⟩
    · cases hstuck
  · rintro ⟨above, entry, hlisted, hdirectory, hlink, hclean, rfl⟩
    have habove := hrooted.proper.mem_directoriesBelow_of_name hlisted
    have hshort : ¬ (root.descend (above ++ [manifest])).IsLong :=
      fun hlong => hsearch above habove (hrooted.target_of_isLong hlisted hlong)
    refine .file ((reaches_named_below_iff hrooted).mpr ⟨above, habove, rfl, .inl ⟨rfl, ?_⟩⟩) ?_
    · exact (pathExists_descend_iff hrooted habove hdots).mpr ⟨_, hlisted, hlink, hshort⟩
    · exact (isFile_descend_iff hrooted (by simp) hlisted).mpr ⟨hclean, hdirectory, hshort⟩

/-- The search for files of a name is stuck exactly where the name cannot be looked up. -/
theorem exists_stuck_fileWay_iff :
    (∃ long, FileWay tree root [.anyDirectories, .named manifest] true long)
      ↔ ¬ CanSearch tree root place manifest := by
  rw [CanSearch]
  push Not
  constructor
  · rintro ⟨long, _ | hreaches | ⟨hreaches, -, hstuck⟩⟩
    · obtain ⟨below, hbelow, rfl, ⟨hfree, -⟩ | ⟨-, hstuck⟩⟩ :=
        (reaches_named_below_iff hrooted).mp hreaches
      · cases hfree
      · exact ⟨below, hbelow, hstuck⟩
    · obtain ⟨below, hbelow, rfl, ⟨-, hthere⟩ | ⟨-, hstuck⟩⟩ :=
        (reaches_named_below_iff hrooted).mp hreaches
      · exact absurd hstuck (not_isStuck_of_pathExists hthere)
      · exact ⟨below, hbelow, hstuck⟩
  · rintro ⟨below, hbelow, hstuck⟩
    exact ⟨_, .searched ((reaches_named_below_iff hrooted).mpr
      ⟨below, hbelow, rfl, .inr ⟨rfl, hstuck⟩⟩)⟩

/-! ### The base directory -/

theorem exists_manifests (hname : IsPlainName manifest)
    (hsearch : CanSearch tree root place manifest) :
    ∃ found, manifests tree manifest root = .ok found
      ∧ (∀ path, path ∈ found ↔ IsManifest tree root place manifest path)
      ∧ found.Pairwise fun first second => textBelow root first < textBelow root second := by
  obtain ⟨result, hfiles, hsettled⟩ :=
    filesMatching_settled hname.parsePattern_eq hrooted.isDirectory_root
  cases result with
  | error fault =>
    obtain ⟨long, -, hstuck⟩ := hsettled
    exact absurd hsearch ((exists_stuck_fileWay_iff hrooted).mp ⟨long, hstuck⟩)
  | ok files =>
    refine ⟨_, manifests_eq_ok_iff.mpr ⟨files, hfiles, rfl⟩, fun path => ?_, ?_⟩
    · rw [List.mem_filter, hsettled.1, fileWay_iff_isManifest hrooted hname.not_dots hsearch,
        and_iff_left_iff_imp]
      rintro ⟨above, entry, -, -, -, -, rfl⟩
      rw [Path.name_descend]
      exact beq_self_eq_true manifest
    · exact (filesMatching_pairwise hrooted hfiles).filter _

theorem manifests_eq_error (hname : IsPlainName manifest)
    (hstuck : ¬ CanSearch tree root place manifest) :
    ∃ long, manifests tree manifest root
      = .error (.search (.path (.refused .nameTooLong long))) := by
  obtain ⟨result, hfiles, hsettled⟩ :=
    filesMatching_settled hname.parsePattern_eq hrooted.isDirectory_root
  cases result with
  | error fault =>
    obtain ⟨long, rfl, -⟩ := hsettled
    exact ⟨long, by rw [manifests, hfiles]; rfl⟩
  | ok files =>
    obtain ⟨long, hlong⟩ := (exists_stuck_fileWay_iff hrooted).mpr hstuck
    exact absurd hlong (hsettled.2 long)

end Rooted

theorem baseDirectory_of_manifests {found : List Path} (hroot : tree.isDirectory root = .ok true)
    (hfound : manifests tree manifest root = .ok found) :
    baseDirectory tree manifest root = baseOf manifest root found := by
  rw [baseDirectory_eq, isDirectory, hroot, hfound]
  rfl

theorem CanSearch.of_perm (hsearch : CanSearch tree root place manifest)
    (hrelisted : tree.Relisted other) : CanSearch other root place manifest := by
  intro below hbelow
  rw [IsStuck, ← hrelisted.target_eq]
  exact hsearch below ((hrelisted.directoriesBelow_perm place).mem_iff.mpr hbelow)

theorem isManifest_of_perm (hperm : tree.entries.Perm other.entries) {path : Path} :
    IsManifest tree root place manifest path ↔ IsManifest other root place manifest path := by
  simp only [IsManifest, hperm.mem_iff]

theorem exists_baseOf_manifests (hrooted : tree.Rooted root place) (hname : IsPlainName manifest)
    (hsearch : CanSearch tree root place manifest) :
    ∃ found : List Path, (∀ path, path ∈ found ↔ IsManifest tree root place manifest path)
      ∧ found.Pairwise (fun first second => textBelow root first < textBelow root second)
      ∧ ∀ other : FileTree, tree.entries.Perm other.entries →
          baseDirectory other manifest root = baseOf manifest root found := by
  obtain ⟨found, -, hmem, hordered⟩ := exists_manifests hrooted hname hsearch
  refine ⟨found, hmem, hordered, fun other hperm => ?_⟩
  have hother := hrooted.of_perm hperm
  obtain ⟨again, hagain, hmemAgain, horderedAgain⟩ := exists_manifests hother hname
    (hsearch.of_perm ⟨hrooted.proper.distinct, hperm⟩)
  obtain rfl : found = again := by
    apply eq_of_pairwise_textBelow hordered horderedAgain
    intro path
    rw [hmem, hmemAgain, isManifest_of_perm hperm]
  exact baseDirectory_of_manifests hother.isDirectory_root hagain

theorem loadInto_of_error {fault : SetupFault}
    (hfails : baseDirectory tree manifest root = .error fault) (report : Report) :
    (loadInto tree manifest root).run.run report = (.error fault, report) := by
  rw [loadInto, hfails]
  rfl

/-- **The base directory is where the one manifest stands.** Let the manifest have a name that is
its own pattern. A root that is no directory is a fault of the package. If the root is a directory,
and the name can be looked up in all directories below it, there is a base directory exactly if
there is one manifest, in which case it is the parent of that; without any, or with several, whose
paths are then given in their order, it is a fault of the package as well. The order in which the
tree is listed is nothing to that. If the name cannot be looked up somewhere, the search breaks off
over a path that is too long. A fault leaves the report as it was, and nothing loaded. -/
theorem baseDirectory_of_plainName (tree : FileTree) (hproper : tree.Proper) (root : Path)
    (manifest : String) (hname : IsPlainName manifest) :
    (tree.isDirectory root = .ok false →
        baseDirectory tree manifest root = .error (.package (.missing root)))
      ∧ (∀ place, tree.target root = .ok (.directory (some place)) →
          (CanSearch tree root place manifest →
            (∀ base, baseDirectory tree manifest root = .ok base
                ↔ ∃ path, (∀ other, IsManifest tree root place manifest other ↔ other = path)
                    ∧ base = path.parent)
              ∧ ∃ found : List Path,
                  (∀ path, path ∈ found ↔ IsManifest tree root place manifest path)
                    ∧ found.Pairwise (fun first second =>
                        textBelow root first < textBelow root second)
                    ∧ ∀ other : FileTree, tree.entries.Perm other.entries →
                        baseDirectory other manifest root = baseOf manifest root found)
          ∧ (¬ CanSearch tree root place manifest →
              ∃ long, baseDirectory tree manifest root
                = .error (.search (.path (.refused .nameTooLong long)))))
      ∧ ∀ (fault : SetupFault) (report : Report), baseDirectory tree manifest root = .error fault →
          (loadInto tree manifest root).run.run report = (.error fault, report) := by
  refine ⟨fun hmissing => ?_, fun place hleads => ⟨fun hsearch => ?_, fun hstuck => ?_⟩,
    fun fault report hfails => loadInto_of_error hfails report⟩
  · rw [baseDirectory_eq, isDirectory, hmissing]
    rfl
  · have hrooted : tree.Rooted root place := ⟨hproper, hleads⟩
    obtain ⟨found, hmem, hordered, hbase⟩ := exists_baseOf_manifests hrooted hname hsearch
    refine ⟨fun base => ?_, found, hmem, hordered, hbase⟩
    rw [hbase tree (List.Perm.refl _), baseOf_eq_ok_iff]
    refine exists_congr fun path => and_congr_left fun _ => ?_
    constructor
    · rintro rfl other
      rw [← hmem, List.mem_singleton]
    · intro hone
      apply eq_of_pairwise_textBelow hordered (List.pairwise_singleton _ path)
      intro other
      rw [hmem, hone, List.mem_singleton]
  · have hrooted : tree.Rooted root place := ⟨hproper, hleads⟩
    obtain ⟨long, hlong⟩ := manifests_eq_error hrooted hname hstuck
    refine ⟨long, ?_⟩
    rw [baseDirectory_eq, isDirectory, hrooted.isDirectory_root, hlong]
    rfl

theorem isPlainName_usual : IsPlainName "ext.php" :=
  ⟨⟨by decide, by decide, by decide⟩, by decide, by simp⟩

/-- A package with a manifest, and with an empty directory. -/
def emptyDirectory : FileTree where
  entries := oneManifest.entries ++ [(["pkg", "a_directory_name"], .directory)]

theorem isManifest_emptyDirectory_iff {path : Path} :
    IsManifest emptyDirectory root ["pkg"] "ext.php" path ↔ path = root.descend ["ext.php"] := by
  constructor
  · rintro ⟨above, entry, hlisted, hdirectory, -, -, rfl⟩
    obtain ⟨rfl, -⟩ : above = [] ∧ entry = .file [60, 63, 112, 104, 112, 10] := by
      simpa [emptyDirectory, oneManifest, hdirectory] using hlisted
    rfl
  · rintro rfl
    exact ⟨[], .file [60, 63, 112, 104, 112, 10], by decide, by decide, by decide, by decide, rfl⟩

theorem baseDirectory_of_plainName_emptyDirectory :
    let root : Path := ⟨0, ["pkg"]⟩
    emptyDirectory.Proper ∧ IsPlainName "ext.php"
      ∧ emptyDirectory.target root = .ok (.directory (some ["pkg"]))
      ∧ CanSearch emptyDirectory root ["pkg"] "ext.php"
      ∧ baseDirectory emptyDirectory "ext.php" root = .ok root
      ∧ emptyDirectory.isDirectory ⟨0, ["gone"]⟩ = .ok false
      ∧ ∀ report : Report, (loadInto emptyDirectory "ext.php" ⟨0, ["gone"]⟩).run.run report
          = (.error (.package (.missing ⟨0, ["gone"]⟩)), report) := by
  intro root
  have hproper : emptyDirectory.Proper := by decide
  have hleads : emptyDirectory.target root = .ok (.directory (some ["pkg"])) := by decide
  have hsearch : CanSearch emptyDirectory root ["pkg"] "ext.php" := by
    unfold CanSearch IsStuck
    decide +kernel
  have hmissing : emptyDirectory.isDirectory ⟨0, ["gone"]⟩ = .ok false := by decide
  obtain ⟨-, hmarks, -⟩ :=
    baseDirectory_of_plainName emptyDirectory hproper root "ext.php" isPlainName_usual
  obtain ⟨hone, -⟩ := (hmarks ["pkg"] hleads).1 hsearch
  obtain ⟨hfault, -, hloads⟩ :=
    baseDirectory_of_plainName emptyDirectory hproper ⟨0, ["gone"]⟩ "ext.php" isPlainName_usual
  refine ⟨hproper, isPlainName_usual, hleads, hsearch, ?_, hmissing, fun report => ?_⟩
  · exact (hone root).mpr ⟨root.descend ["ext.php"], fun _ => isManifest_emptyDirectory_iff, rfl⟩
  · exact hloads _ report (hfault hmissing)

/-- Below a root with a long path, an empty directory is in the way of the one manifest. -/
theorem baseDirectory_breaks_off :
    emptyDirectory.Proper ∧ IsPlainName "ext.php"
      ∧ emptyDirectory.target windingRoot = .ok (.directory (some ["pkg"]))
      ∧ (∀ path, IsManifest emptyDirectory windingRoot ["pkg"] "ext.php" path
          ↔ path = windingRoot.descend ["ext.php"])
      ∧ ∃ long, baseDirectory emptyDirectory "ext.php" windingRoot
          = .error (.search (.path (.refused .nameTooLong long))) := by
  have hrooted : emptyDirectory.Rooted windingRoot ["pkg"] :=
    windingRoot_rooted (by decide) (by decide)
  refine ⟨hrooted.proper, isPlainName_usual, hrooted.leads,
    fun _ => isManifest_emptyDirectory_iff, ?_⟩
  have hlong : (windingRoot.descend ["a_directory_name", "ext.php"]).IsLong := by
    rw [Path.IsLong, utf8ByteSize_windingRoot]
    decide
  have hfree : (windingRoot.descend ["a_directory_name", "ext.php"]).NullFree :=
    (nullFree_of_target hrooted.leads).descend (by simp)
  have hstuck : ¬ CanSearch emptyDirectory windingRoot ["pkg"] "ext.php" := by
    intro hsearch
    refine hsearch ["a_directory_name"] (by decide) ?_
    change emptyDirectory.target (windingRoot.descend ["a_directory_name", "ext.php"]) = _
    rw [target, admissible_of_nullFree hfree, if_pos hlong]
    rfl
  obtain ⟨long, hfound⟩ := manifests_eq_error hrooted isPlainName_usual hstuck
  refine ⟨long, ?_⟩
  rw [baseDirectory_eq, isDirectory, hrooted.isDirectory_root, hfound]
  rfl

end Package

end ExtensionAudit
