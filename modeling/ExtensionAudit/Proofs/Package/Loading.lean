import Mathlib
import ExtensionAudit.Package.Base
import ExtensionAudit.Package.Contents
import ExtensionAudit.Proofs.Package.Files
import ExtensionAudit.Proofs.Report.Accounting

/-!
# Loading a package loses nothing

Loading takes the files of a package one after the other and makes a file or a notice of each, so
that the files, the listing and the notices follow the order of the paths, and nothing else is
reported. Since neither the base directory nor the paths depend on the order in which the file
system lists them, nor does what is loaded.

Loading comes to an end only if each path that the walk asks about can be looked up. One that is too
long breaks it off, although a file that cannot be read is otherwise only noted.
-/

namespace ExtensionAudit.Package

variable {tree other : FileTree} {root base : Path} {place : List String} {manifest : String}

/-! ### The base directory -/

theorem manifests_eq_ok_iff {found : List Path} :
    manifests tree manifest root = .ok found
      ↔ ∃ files, filesMatching tree root manifest = .ok files
          ∧ found = files.filter (·.name == manifest) := by
  rw [manifests]
  constructor
  · intro hfound
    split at hfound
    · next files hfiles => exact ⟨files, hfiles, (Except.ok.inj hfound).symm⟩
    · cases hfound
  · rintro ⟨files, hfiles, rfl⟩
    simp only [hfiles]

/-- The base directory that the manifests found below a root mark. -/
def baseOf (manifest : String) (root : Path) : List Path → Except SetupFault Path
  | [] => .error (.package (.withoutManifest manifest root))
  | [path] => .ok path.parent
  | found => .error (.package (.severalManifests manifest root (found.map (textBelow root))))

theorem baseDirectory_eq (tree : FileTree) (manifest : String) (root : Path) :
    baseDirectory tree manifest root
      = (isDirectory tree root).bind fun there =>
          if there then (manifests tree manifest root).bind (baseOf manifest root)
          else .error (.package (.missing root)) := by
  rw [baseDirectory]
  cases isDirectory tree root with
  | error fault => rfl
  | ok there =>
    cases there with
    | false => rfl
    | true =>
      cases manifests tree manifest root with
      | error fault => rfl
      | ok found =>
        match found with
        | [] => rfl
        | [path] => rfl
        | _ :: _ :: _ => rfl

theorem baseOf_eq_ok_iff {found : List Path} :
    baseOf manifest root found = .ok base ↔ ∃ path, found = [path] ∧ base = path.parent := by
  match found with
  | [] => simp [baseOf]
  | [path] => simp [baseOf, eq_comm]
  | _ :: _ :: _ => simp [baseOf]

theorem baseDirectory_eq_ok_iff :
    baseDirectory tree manifest root = .ok base
      ↔ tree.isDirectory root = .ok true
          ∧ ∃ path, manifests tree manifest root = .ok [path] ∧ base = path.parent := by
  rw [baseDirectory_eq, bind_eq_ok_iff]
  constructor
  · rintro ⟨there, hasked, hbase⟩
    cases there with
    | false => cases hbase
    | true =>
      obtain ⟨found, hfound, hone⟩ := bind_eq_ok_iff.mp hbase
      obtain ⟨path, rfl, rfl⟩ := baseOf_eq_ok_iff.mp hone
      exact ⟨mapError_eq_ok_iff.mp hasked, path, hfound, rfl⟩
  · rintro ⟨hroot, path, hfound, rfl⟩
    refine ⟨true, mapError_eq_ok_iff.mpr hroot, ?_⟩
    exact bind_eq_ok_iff.mpr ⟨[path], hfound, rfl⟩

/-- Nothing is found outside the tree. -/
theorem search_of_outside (houtside : tree.target root = .ok (.directory none)) (pattern : String) :
    tree.search root pattern = ((parsePattern pattern).mapError .pattern).map fun _ => [] := by
  have hdirectory : tree.directoryAt root = .ok none := by rw [FileTree.directoryAt, houtside]
  have hroot : tree.isDirectory root = .ok true := by
    rw [FileTree.isDirectory, houtside]
    rfl
  rw [FileTree.search_eq]
  cases parsePattern pattern with
  | error wrong => rfl
  | ok components =>
    dsimp only [Except.mapError, Except.bind, Except.map]
    rw [hroot, FileTree.select_anyDirectories, FileTree.searchIn, hdirectory]
    rfl

/-- A package with a base directory lies in the tree. -/
theorem exists_rooted (hproper : tree.Proper)
    (hbase : baseDirectory tree manifest root = .ok base) : ∃ place, tree.Rooted root place := by
  obtain ⟨hroot, path, hfound, -⟩ := baseDirectory_eq_ok_iff.mp hbase
  obtain ⟨place, htarget⟩ := FileTree.exists_directory_of_isDirectory hroot
  cases place with
  | some place => exact ⟨place, hproper, htarget⟩
  | none =>
    obtain ⟨files, hfiles, hone⟩ := manifests_eq_ok_iff.mp hfound
    obtain ⟨found, kept, hsearch, hkept, rfl⟩ := filesMatching_eq_ok_iff.mp hfiles
    rw [search_of_outside htarget] at hsearch
    obtain ⟨components, -, rfl⟩ := map_eq_ok_iff.mp hsearch
    obtain rfl := Except.ok.inj hkept
    rw [sortBelow, List.mergeSort_nil] at hone
    cases hone

/-- The base directory is no path that nothing could be looked up under. -/
theorem baseDirectory_nullFree (hproper : tree.Proper)
    (hbase : baseDirectory tree manifest root = .ok base) : base.NullFree := by
  obtain ⟨-, path, hfound, rfl⟩ := baseDirectory_eq_ok_iff.mp hbase
  obtain ⟨files, hfiles, hone⟩ := manifests_eq_ok_iff.mp hfound
  obtain ⟨found, kept, hsearch, hkept, rfl⟩ := filesMatching_eq_ok_iff.mp hfiles
  obtain ⟨-, rfl⟩ := filesAmong_eq_ok_iff.mp hkept
  have hmem : path ∈ (sortBelow root (found.filter (isFile tree root))).filter
      (·.name == manifest) := by
    rw [← hone]
    exact List.mem_singleton_self path
  have hsorted := (List.mem_filter.mp hmem).1
  have hfilter := (sortBelow_perm _).mem_iff.mp hsorted
  have hpath := FileTree.search_nullFree hproper hsearch path (List.mem_filter.mp hfilter).1
  exact fun part hpart => hpath part (List.mem_of_mem_dropLast hpart)

/-- The base directory is the same in whatever order a tree is listed. -/
theorem baseDirectory_of_perm (hrelisted : tree.Relisted other)
    (hbase : baseDirectory tree manifest root = .ok base) :
    baseDirectory other manifest root = .ok base := by
  obtain ⟨hroot, path, hfound, rfl⟩ := baseDirectory_eq_ok_iff.mp hbase
  obtain ⟨files, hfiles, hone⟩ := manifests_eq_ok_iff.mp hfound
  obtain ⟨others, hothers, hperm⟩ := filesMatching_of_perm hrelisted hfiles
  have hsame : [path].Perm (others.filter (·.name == manifest)) := by
    rw [hone]
    exact hperm.filter _
  apply baseDirectory_eq_ok_iff.mpr
  refine ⟨by rw [← hrelisted.isDirectory_eq, hroot], path, ?_, rfl⟩
  exact manifests_eq_ok_iff.mpr ⟨others, hothers, List.singleton_perm.mp hsame⟩

/-! ### What is loaded -/

/-- The file that a path makes, if it can be read. -/
def fileAt (tree : FileTree) (base path : Path) : Option SourceFile :=
  match tree.read path with
  | .ok content => some (.ofText path (path.relativeTo base).text (Text.decodeLenient content))
  | .error _ => none

/-- The entry of a path in the listing, if it can be read. -/
def listedAt (tree : FileTree) (base path : Path) : Option String :=
  match tree.read path with
  | .ok _ => some (path.relativeTo base).text
  | .error _ => none

/-- The notice that a path makes, if it cannot be read. -/
def noticeAt (tree : FileTree) (base path : Path) : Option Message :=
  match tree.read path with
  | .ok _ => none
  | .error fault => some ⟨.notice, unreadableMessage (path.relativeTo base).text (reason fault)⟩

/-- The contents hold a file and an entry of the listing for each path that can be read, a notice
for each one that cannot, and nothing else but traces. -/
structure AccountsFor (tree : FileTree) (base : Path) (visited : List Path)
    (contents : Contents) : Prop where
  files : contents.files = visited.filterMap (fileAt tree base)
  listing : contents.listing = visited.filterMap (listedAt tree base)
  aligned : contents.listing = contents.files.map (·.relativePath)
  notices : contents.effects.flatMap Effect.messages = visited.filterMap (noticeAt tree base)
  silent : ∀ effect ∈ contents.effects, effect.messages = [] → ∃ text, effect = .trace text

theorem file?_loadFile (path : Path) :
    (loadFile tree base path).file? = fileAt tree base path := by
  rw [loadFile, fileAt]
  cases tree.read path <;> rfl

theorem messages_loadFile (path : Path) :
    (loadFile tree base path).effects.flatMap Effect.messages
      = (noticeAt tree base path).toList := by
  rw [loadFile, noticeAt]
  cases tree.read path <;> rfl

theorem accountsFor_ofLoaded (root base : Path) (visited : List Path) :
    AccountsFor tree base visited
      (.ofLoaded root base (visited.map (loadFile tree base))) := by
  have hfiles : (visited.map (loadFile tree base)).filterMap Loaded.file?
      = visited.filterMap (fileAt tree base) := by
    rw [List.filterMap_map]
    exact List.filterMap_congr fun path _ => file?_loadFile path
  have hlisted (path : Path) :
      (fileAt tree base path).map (·.relativePath) = listedAt tree base path := by
    rw [fileAt, listedAt]
    cases tree.read path <;> rfl
  refine { files := hfiles, listing := ?_, aligned := rfl, notices := ?_, silent := ?_ }
  · rw [Contents.listing, Contents.ofLoaded, hfiles, List.map_filterMap]
    simp only [hlisted]
  · rw [Contents.ofLoaded]
    simp only [List.flatMap_cons, List.flatMap_append, List.flatMap_nil, List.flatMap_map,
      List.flatMap_assoc, messages_loadFile]
    simp [Effect.messages, List.filterMap_eq_flatMap_toList]
  · intro effect hmem hsilent
    rw [Contents.ofLoaded] at hmem
    simp only [List.cons_append, List.mem_cons, List.mem_append, List.mem_flatMap, List.mem_map,
      List.not_mem_nil, or_false] at hmem
    obtain rfl | ⟨loaded, ⟨path, -, rfl⟩, hloaded⟩ | rfl := hmem
    · exact ⟨_, rfl⟩
    · rw [loadFile] at hloaded
      cases hread : tree.read path with
      | ok content =>
        rw [hread] at hloaded
        exact absurd hloaded List.not_mem_nil
      | error fault =>
        rw [hread] at hloaded
        obtain rfl := List.mem_singleton.mp hloaded
        cases hsilent
    · exact ⟨_, rfl⟩

/-- Each file comes of a path that was visited and could be read. -/
theorem AccountsFor.exists_path {visited : List Path} {contents : Contents}
    (haccounts : AccountsFor tree base visited contents) {file : SourceFile}
    (hfile : file ∈ contents.files) :
    ∃ path ∈ visited, ∃ content,
      file = .ofText path (path.relativeTo base).text (Text.decodeLenient content) := by
  rw [haccounts.files] at hfile
  obtain ⟨path, hpath, hmade⟩ := List.mem_filterMap.mp hfile
  rw [fileAt] at hmade
  split at hmade
  · next content _ => exact ⟨path, hpath, content, (Option.some.inj hmade).symm⟩
  · cases hmade

theorem load_eq_ok_iff {contents : Contents} :
    load tree root base = .ok contents
      ↔ ∃ visited, files tree root = .ok visited
          ∧ .ofLoaded root base (visited.map (loadFile tree base)) = contents :=
  map_eq_ok_iff

theorem load_eq_error {fault : SearchFault} (hfails : load tree root base = .error fault) :
    ∃ long, fault = .path (.refused .nameTooLong long) := by
  obtain ⟨wrong, hwrong, -⟩ | hlong := filesMatching_eq_error (map_eq_error hfails)
  · rw [FileTree.parsePattern_any] at hwrong
    cases hwrong
  · exact hlong

theorem exists_load_iff (hrooted : tree.Rooted root place) :
    (∃ contents, load tree root base = .ok contents) ↔ CanWalk tree root place := by
  rw [← exists_files_iff hrooted]
  constructor
  · rintro ⟨contents, hcontents⟩
    obtain ⟨visited, hvisited, -⟩ := load_eq_ok_iff.mp hcontents
    exact ⟨visited, hvisited⟩
  · rintro ⟨visited, hvisited⟩
    exact ⟨_, load_eq_ok_iff.mpr ⟨visited, hvisited, rfl⟩⟩

theorem load_of_perm (hrooted : tree.Rooted root place) (hperm : tree.entries.Perm other.entries)
    {contents : Contents} (hcontents : load tree root base = .ok contents) :
    load other root base = .ok contents := by
  have hrelisted : tree.Relisted other := ⟨hrooted.proper.distinct, hperm⟩
  obtain ⟨visited, hvisited, rfl⟩ := load_eq_ok_iff.mp hcontents
  have hsame : loadFile tree base = loadFile other base := by
    funext path
    rw [loadFile, loadFile, hrelisted.read_eq]
  exact load_eq_ok_iff.mpr ⟨visited, files_of_perm hrooted hvisited hperm, by rw [hsame]⟩

/-- **Loading loses and duplicates nothing, unless a path is too long.** Loading the package of a
tree comes to an end exactly if every place that the walk asks about has a path that can be looked
up, and else fails over a path that is too long. Then it visits what is below the root, no directory
and not data of version control, each once and in the order of the paths below the root, and makes a
file with its entry in the listing or a notice of each, and nothing else. In whatever order the tree
is listed, the base directory and what is loaded are the same. -/
theorem load_accounts_for_files (tree : FileTree) (hproper : tree.Proper) (manifest : String)
    (root base : Path) (hbase : baseDirectory tree manifest root = .ok base) :
    ∃ place, tree.target root = .ok (.directory (some place))
      ∧ ((∃ contents, load tree root base = .ok contents) ↔ CanWalk tree root place)
      ∧ (∀ fault, load tree root base = .error fault →
          ∃ long, fault = .path (.refused .nameTooLong long))
      ∧ (∀ contents, load tree root base = .ok contents → ∃ visited : List Path,
          (∀ path, path ∈ visited ↔ IsPackaged tree root place path)
            ∧ visited.Pairwise (fun first second => textBelow root first < textBelow root second)
            ∧ AccountsFor tree base visited contents)
      ∧ ∀ other : FileTree, tree.entries.Perm other.entries →
          baseDirectory other manifest root = .ok base
            ∧ ∀ contents,
                load other root base = .ok contents ↔ load tree root base = .ok contents := by
  obtain ⟨place, hrooted⟩ := exists_rooted hproper hbase
  refine ⟨place, hrooted.leads, exists_load_iff hrooted, fun fault => load_eq_error, ?_, ?_⟩
  · intro contents hcontents
    obtain ⟨visited, hvisited, rfl⟩ := load_eq_ok_iff.mp hcontents
    exact ⟨visited, fun path => mem_files_iff hrooted hvisited, files_pairwise hrooted hvisited,
      accountsFor_ofLoaded root base visited⟩
  · intro other hperm
    refine ⟨baseDirectory_of_perm ⟨hproper.distinct, hperm⟩ hbase, fun contents => ⟨?_, ?_⟩⟩
    · exact load_of_perm (hrooted.of_perm hperm) hperm.symm
    · exact load_of_perm hrooted hperm

/-- A package of two files, one of them under a longer name. -/
def twoFiles : FileTree where
  entries := [(["pkg"], .directory), (["pkg", "ext.php"], .file [60, 63, 112, 104, 112, 10]),
    (["pkg", "a_file_with_a_long_name.txt"], .file [120])]

theorem canWalk_twoFiles_iff (root : Path) :
    CanWalk twoFiles root ["pkg"]
      ↔ ¬ (root.descend ["ext.php"]).IsLong
          ∧ ¬ (root.descend ["a_file_with_a_long_name.txt"]).IsLong := by
  constructor
  · intro hwalk
    constructor
    · exact hwalk ["ext.php"] (.file [60, 63, 112, 104, 112, 10]) (by decide) (by decide)
        (.inr (by decide))
    · exact hwalk ["a_file_with_a_long_name.txt"] (.file [120]) (by decide) (by decide)
        (.inr (by decide))
  · rintro ⟨hmanifest, hother⟩ below entry hbelow hlisted -
    simp [twoFiles, hbelow] at hlisted
    obtain ⟨rfl, -⟩ | ⟨rfl, -⟩ := hlisted
    · exact hmanifest
    · exact hother

theorem load_accounts_for_files_twoFiles :
    twoFiles.Proper ∧ baseDirectory twoFiles "ext.php" ⟨0, ["pkg"]⟩ = .ok ⟨0, ["pkg"]⟩
      ∧ ∃ contents, load twoFiles ⟨0, ["pkg"]⟩ ⟨0, ["pkg"]⟩ = .ok contents := by
  have hproper : twoFiles.Proper := by decide
  have hbase : baseDirectory twoFiles "ext.php" ⟨0, ["pkg"]⟩ = .ok ⟨0, ["pkg"]⟩ := by
    decide +kernel
  obtain ⟨place, htarget, hloads, -⟩ :=
    load_accounts_for_files twoFiles hproper "ext.php" ⟨0, ["pkg"]⟩ ⟨0, ["pkg"]⟩ hbase
  have hplace : twoFiles.target ⟨0, ["pkg"]⟩ = .ok (.directory (some ["pkg"])) := by decide
  obtain rfl : ["pkg"] = place := by simpa [hplace] using htarget
  refine ⟨hproper, hbase, hloads.mpr ((canWalk_twoFiles_iff _).mpr ?_)⟩
  decide

/-- The package under a path that leaves it and comes back, over and over. -/
def windingRoot : Path := ⟨0, "pkg" :: (List.replicate 582 ["..", "pkg"]).flatten⟩

theorem utf8ByteSize_windingRoot (names : List String) :
    (windingRoot.descend names).text.utf8ByteSize
      = 4077 + (names.map String.utf8ByteSize).sum + names.length := by
  have hround : (["..", "pkg"].map String.utf8ByteSize).sum = 5 := by decide
  have hfirst : "pkg".utf8ByteSize = 3 := by decide
  have hrounds : ((List.replicate 582 ["..", "pkg"]).flatten.map String.utf8ByteSize).sum
      = 582 * 5 := by
    rw [List.map_flatten, List.map_replicate, List.sum_flatten, List.map_replicate, hround,
      List.sum_replicate, smul_eq_mul]
  have hlength : (List.replicate 582 ["..", "pkg"]).flatten.length = 582 * 2 := by
    rw [List.length_flatten, List.map_replicate, List.sum_replicate, smul_eq_mul]
    rfl
  change (⟨0, "pkg" :: ((List.replicate 582 ["..", "pkg"]).flatten ++ names)⟩ :
    Path).text.utf8ByteSize = _
  rw [Path.utf8ByteSize_text, List.map_append, List.sum_append, List.length_append, hfirst, hrounds,
    hlength]
  omega

theorem windingRoot_rooted (hproper : tree.Proper)
    (hlisted : (["pkg"], .directory) ∈ tree.entries) : tree.Rooted windingRoot ["pkg"] := by
  have hfree : windingRoot.NullFree := by
    have hparts : ∀ part ∈ windingRoot.parts, part = "pkg" ∨ part = ".." := by
      intro part hmem
      obtain rfl | hmem := List.mem_cons.mp hmem
      · exact .inl rfl
      · obtain ⟨round, hround, hpart⟩ := List.mem_flatten.mp hmem
        rw [List.eq_of_mem_replicate hround] at hpart
        simpa [or_comm] using hpart
    intro part hmem
    obtain rfl | rfl := hparts part hmem
    · decide
    · decide
  have hshort : ¬ windingRoot.IsLong := by
    have hsize := utf8ByteSize_windingRoot []
    rw [Path.descend_nil] at hsize
    rw [Path.IsLong, hsize]
    decide
  have hfollow : tree.follow (FileTree.origin windingRoot) windingRoot.parts
      = .ok (.directory (some ["pkg"])) := by
    rw [← List.nil_append ["pkg"]] at hlisted ⊢
    have hfirst : tree.follow (some []) ["pkg"] = .ok (.directory (some ["pkg"])) :=
      hproper.follow_below (List.cons_ne_nil _ _) hlisted
    rw [FileTree.origin, if_neg (by decide)]
    apply (FileTree.follow_append tree hfirst _).trans
    exact hproper.follow_up_and_back hlisted 582
  refine ⟨hproper, ?_⟩
  rw [FileTree.target, FileTree.admissible_of_nullFree hfree, if_neg hshort, hfollow]

/-- A manifest in the root itself, with no directories below, marks the root. -/
theorem baseDirectory_of_manifest (hrooted : tree.Rooted root place)
    (hbelow : tree.directoriesBelow place = [[]]) {content : List UInt8}
    (hlisted : (place ++ ["ext.php"], .file content) ∈ tree.entries)
    (hshort : ¬ (root.descend ["ext.php"]).IsLong) :
    baseDirectory tree "ext.php" root = .ok root := by
  have hpattern : parsePattern "ext.php" = .ok [.named "ext.php"] := by decide
  have hthere : tree.goesOn [] (root.child "ext.php") = .ok true := by
    change tree.pathExists (root.descend ["ext.php"]) = .ok true
    rw [FileTree.pathExists, hrooted.target_descend (by decide) hlisted hshort]
    rfl
  have hnamed : tree.select [.named "ext.php"] root = .ok [root.descend ["ext.php"]] := by
    rw [FileTree.select_named, hthere]
    rfl
  have hall : ([root].mapM (tree.select [.named "ext.php"])).map List.flatten
      = .ok [root.descend ["ext.php"]] := by
    apply mapM_flatten_eq_ok_iff.mpr
    simp [hnamed, foundIn_eq hnamed]
  have hsearch : tree.search root "ext.php" = .ok [root.descend ["ext.php"]] := by
    rw [FileTree.search, hpattern, hrooted.isDirectory_root]
    dsimp only
    rw [FileTree.select_anyDirectories, FileTree.searchIn, hrooted.directoryAt_root]
    dsimp only
    rw [hbelow, List.map_singleton, Path.descend_nil, hall]
    rfl
  have hkept : filesAmong tree root [root.descend ["ext.php"]]
      = .ok [root.descend ["ext.php"]] := by
    have hfile : isFile tree root (root.descend ["ext.php"]) = true := by
      rw [isFile_descend_iff hrooted (by decide) hlisted]
      exact ⟨by decide, by simp, hshort⟩
    apply filesAmong_eq_ok_iff.mpr
    refine ⟨?_, by rw [List.filter_cons_of_pos hfile, List.filter_nil]⟩
    intro path hmem _
    obtain rfl := List.mem_singleton.mp hmem
    exact ⟨_, hrooted.isDirectory_descend (by decide) hlisted hshort⟩
  apply baseDirectory_eq_ok_iff.mpr
  refine ⟨hrooted.isDirectory_root, root.descend ["ext.php"], ?_, ?_⟩
  · apply manifests_eq_ok_iff.mpr
    refine ⟨_, filesMatching_eq_ok_iff.mpr ⟨_, _, hsearch, hkept, rfl⟩, ?_⟩
    simp [sortBelow, List.mergeSort_singleton, Path.name, Path.descend]
  · simp [Path.parent, Path.descend]

theorem rooted_windingRoot : twoFiles.Rooted windingRoot ["pkg"] :=
  windingRoot_rooted (by decide) (by decide)

theorem baseDirectory_twoFiles (hrooted : twoFiles.Rooted root ["pkg"])
    (hshort : ¬ (root.descend ["ext.php"]).IsLong) :
    baseDirectory twoFiles "ext.php" root = .ok root := by
  have hlisted : (["pkg"] ++ ["ext.php"], .file [60, 63, 112, 104, 112, 10])
      ∈ twoFiles.entries := by
    decide
  exact baseDirectory_of_manifest hrooted (by decide) hlisted hshort

theorem load_windingRoot :
    twoFiles.Proper ∧ baseDirectory twoFiles "ext.php" windingRoot = .ok windingRoot
      ∧ IsPackaged twoFiles windingRoot ["pkg"]
          (windingRoot.descend ["a_file_with_a_long_name.txt"])
      ∧ ∃ long, load twoFiles windingRoot windingRoot
          = .error (.path (.refused .nameTooLong long)) := by
  have hrooted := rooted_windingRoot
  have hmanifest : ¬ (windingRoot.descend ["ext.php"]).IsLong := by
    rw [Path.IsLong, utf8ByteSize_windingRoot]
    decide
  have hlong : (windingRoot.descend ["a_file_with_a_long_name.txt"]).IsLong := by
    rw [Path.IsLong, utf8ByteSize_windingRoot]
    decide
  refine ⟨hrooted.proper, baseDirectory_twoFiles hrooted hmanifest, ?_, ?_⟩
  · exact ⟨["a_file_with_a_long_name.txt"], .file [120], by decide, by decide, by decide, by decide,
      rfl⟩
  · cases hload : load twoFiles windingRoot windingRoot with
    | ok contents =>
      have hwalk := (exists_load_iff hrooted).mp ⟨contents, hload⟩
      exact absurd hlong ((canWalk_twoFiles_iff windingRoot).mp hwalk).2
    | error fault =>
      obtain ⟨long, rfl⟩ := load_eq_error hload
      exact ⟨long, rfl⟩

end ExtensionAudit.Package
