import Mathlib
import ExtensionAudit.Proofs.Package.Base

/-!
# Entries lead back to their files

An entry of the listing is a path as seen from the base directory. Put behind the base directory and
brought into normal form it is the path of the file again, for any two places below one root. So it
is in a tree as well: all steps of an entry are taken in directories that are there, and what is
read under an entry is the file that was loaded under it.
-/

namespace ExtensionAudit

namespace Path

/-- Names of places, as they stand in a path. -/
structure Ordinary (names : List String) : Prop where
  components : ∀ name ∈ names, IsComponent name
  no_dots : ".." ∉ names

/-! ### Normal forms -/

/-- One component more on a path in normal form, which is given from its end. Two dots take a name
away. At the top of the file system they do nothing, and in front of a relative path they stay. -/
def normalStep (absolute : Bool) (stack : List String) (part : String) : List String :=
  if part = ".." then
    match stack with
    | [] => if absolute then [] else [".."]
    | top :: rest => if top = ".." then ".." :: top :: rest else rest
  else part :: stack

/-- The path in normal form, with no two dots behind a name. -/
def normalise (path : Path) : Path :=
  { path with parts := (path.parts.foldl (normalStep (path.slashes > 0)) []).reverse }

variable {absolute : Bool} {names below under : List String}

theorem normalStep_name {name : String} (hname : name ≠ "..") (stack : List String) :
    normalStep absolute stack name = name :: stack := by
  unfold normalStep
  rw [if_neg hname]

theorem normalStep_dots {name : String} (hname : name ≠ "..") (stack : List String) :
    normalStep absolute (name :: stack) ".." = stack := by
  rw [normalStep, if_pos rfl, if_neg hname]

theorem foldl_normalStep_names (hnames : ".." ∉ names) (stack : List String) :
    names.foldl (normalStep absolute) stack = names.reverse ++ stack := by
  induction names generalizing stack with
  | nil => rfl
  | cons name rest ih =>
    rw [List.mem_cons, not_or] at hnames
    rw [List.foldl_cons, normalStep_name (Ne.symm hnames.1), ih hnames.2, List.reverse_cons,
      List.append_assoc, List.singleton_append]

/-- As many double dots as there are names take the names away. -/
theorem foldl_normalStep_dots (hnames : ".." ∉ names) (stack : List String) :
    (List.replicate names.length "..").foldl (normalStep absolute) (names.reverse ++ stack)
      = stack := by
  induction names using List.reverseRecOn with
  | nil => rfl
  | append_singleton rest name ih =>
    rw [List.mem_append, not_or, List.mem_singleton] at hnames
    rw [List.length_append, List.length_singleton, List.replicate_succ, List.foldl_cons,
      List.reverse_append, List.reverse_singleton, List.singleton_append, List.cons_append,
      normalStep_dots (Ne.symm hnames.2)]
    exact ih hnames.1

theorem normalise_descend (root : Path) (hbelow : ".." ∉ below) :
    normalise (root.descend below) = (normalise root).descend below := by
  rw [normalise, descend, List.foldl_append, foldl_normalStep_names hbelow, List.reverse_append,
    List.reverse_reverse]
  rfl

theorem normalise_descend_injective (root : Path) (hbelow : ".." ∉ below) (hunder : ".." ∉ under)
    (hsame : normalise (root.descend below) = normalise (root.descend under)) : below = under := by
  rw [normalise_descend root hbelow, normalise_descend root hunder] at hsame
  exact List.append_cancel_left (congrArg Path.parts hsame)

/-! ### Paths as seen from a directory -/

section Entries

variable (root : Path)

/-- The entry of a path, put behind the base directory, has the normal form of the path. -/
theorem normalise_join (hbelow : Ordinary below) (hunder : ".." ∉ under) :
    normalise ((root.descend under).join
        (parse ((root.descend below).relativeTo (root.descend under)).text))
      = normalise (root.descend below) := by
  rw [parse_relativeTo root hbelow.components hbelow.no_dots hunder]
  obtain ⟨front, up, down, rfl, rfl, hrelative⟩ :=
    exists_relativeTo_eq root hbelow.no_dots hunder
  rw [List.mem_append, not_or] at hunder
  have hdown : ".." ∉ down := fun hmem => hbelow.no_dots (List.mem_append_right front hmem)
  rw [hrelative, join, if_neg (Nat.lt_irrefl 0), normalise_descend root hbelow.no_dots, normalise,
    normalise, descend, descend]
  congr 1
  -- The way down to the base directory, the steps up from it, and the way down to the place.
  simp only [List.foldl_append]
  rw [foldl_normalStep_names hunder.1, foldl_normalStep_names hunder.2,
    foldl_normalStep_dots hunder.2, foldl_normalStep_names hdown]
  simp only [List.reverse_append, List.reverse_reverse, List.append_assoc]

theorem text_relativeTo_injective (hbelow : Ordinary below) (hnames : Ordinary names)
    (hunder : ".." ∉ under)
    (hsame : ((root.descend below).relativeTo (root.descend under)).text
      = ((root.descend names).relativeTo (root.descend under)).text) : below = names := by
  apply normalise_descend_injective root hbelow.no_dots hnames.no_dots
  rw [← normalise_join root hbelow hunder, hsame, normalise_join root hnames hunder]

theorem relativeTo_append {rest : List String} (hunder : ".." ∉ under) (hrest : ".." ∉ rest) :
    (root.descend (under ++ rest)).relativeTo (root.descend under) = ⟨0, rest⟩ := by
  have hnames : ".." ∉ under ++ rest := by
    rw [List.mem_append, not_or]
    exact ⟨hunder, hrest⟩
  have hnone : withoutCommonFront under (under ++ rest) = ([], rest) := by
    have happend := withoutCommonFront_append under [] rest
    rw [List.append_nil] at happend
    rw [happend]
    cases rest <;> rfl
  rw [relativeTo_descend root hnames hunder, hnone]
  rfl

/-- An entry begins with a step up unless its place lies below the base directory. -/
theorem head?_relativeTo_iff (hbelow : ".." ∉ below) (hunder : ".." ∉ under) :
    ((root.descend below).relativeTo (root.descend under)).parts.head? ≠ some ".."
      ↔ under <+: below := by
  constructor
  · obtain ⟨front, up, down, rfl, rfl, hrelative⟩ := exists_relativeTo_eq root hbelow hunder
    rw [hrelative]
    intro hhead
    cases up with
    | nil =>
      rw [List.append_nil]
      exact List.prefix_append front down
    | cons name rest => exact absurd rfl hhead
  · rintro ⟨rest, rfl⟩
    have hrest : ".." ∉ rest := fun hmem => hbelow (List.mem_append_right under hmem)
    rw [relativeTo_append root hunder hrest]
    intro hhead
    exact hrest (List.mem_of_head? hhead)

end Entries

end Path

/-! ### Entries in a tree -/

namespace FileTree

variable {tree : FileTree} {root : Path} {place below under : List String}

theorem follow_dots (tree : FileTree) (place names : List String) :
    tree.follow (some (place ++ names)) (List.replicate names.length "..")
      = .ok (.directory (some place)) := by
  induction names using List.reverseRecOn with
  | nil => simp [follow]
  | append_singleton rest name ih =>
    have hplace : (place ++ (rest ++ [name])).isEmpty = false := by simp
    rw [List.length_append, List.length_singleton, List.replicate_succ, follow,
      if_pos (beq_self_eq_true _), hplace, if_neg Bool.false_ne_true, ← List.append_assoc,
      List.dropLast_concat]
    exact ih

theorem Proper.ordinary (hproper : tree.Proper) {entry : Entry}
    (hlisted : (place ++ below, entry) ∈ tree.entries) : Path.Ordinary below where
  components _ hname := Path.isComponent_of_proper (hproper.properName hlisted hname)
  no_dots hdots := (hproper.properName hlisted hdots).not_dots rfl

theorem target_of_read {path : Path} {content : List UInt8} (hread : tree.read path = .ok content) :
    tree.target path = .ok (.file content) := by
  rw [read] at hread
  split at hread
  · cases hread
  · cases hread
  · cases hread
  · next htarget => rw [htarget, Except.ok.inj hread]

/-- The entry of a place leads to it from the base directory: up to a directory that lies above
both, and down again. -/
theorem Rooted.follow_join (hrooted : tree.Rooted root place) (hbelow : Path.Ordinary below)
    (hunder : under ∈ tree.directoriesBelow place) (hdots : ".." ∉ under) :
    let joined := (root.descend under).join
      (Path.parse ((root.descend below).relativeTo (root.descend under)).text)
    tree.follow (origin joined) joined.parts
      = tree.follow (origin (root.descend below)) (root.descend below).parts := by
  intro joined
  have hroot := follow_of_target hrooted.leads
  obtain ⟨front, up, down, rfl, rfl, hrelative⟩ :=
    Path.exists_relativeTo_eq root hbelow.no_dots hdots
  have hjoined : joined
      = root.descend ((front ++ up) ++ (List.replicate up.length ".." ++ down)) := by
    rw [← Path.descend_descend]
    change (root.descend (front ++ up)).join _ = _
    rw [Path.parse_relativeTo root hbelow.components hbelow.no_dots hdots, hrelative, Path.join,
      if_neg (Nat.lt_irrefl 0)]
    rfl
  rw [hjoined]
  calc
    tree.follow (origin root)
        (root.parts ++ ((front ++ up) ++ (List.replicate up.length ".." ++ down)))
      = tree.follow (some place) ((front ++ up) ++ (List.replicate up.length ".." ++ down)) :=
        follow_append tree hroot _
    _ = tree.follow (some (place ++ (front ++ up))) (List.replicate up.length ".." ++ down) :=
        follow_append tree (hrooted.proper.follow_directory hunder) _
    _ = tree.follow (some (place ++ front)) down := by
        rw [← List.append_assoc]
        exact follow_append tree (follow_dots tree (place ++ front) up) down
    _ = tree.follow (some place) (front ++ down) :=
        (follow_append tree (hrooted.proper.follow_directory
          (hrooted.proper.mem_directoriesBelow_of_append hunder)) down).symm
    _ = tree.follow (origin root) (root.parts ++ (front ++ down)) :=
        (follow_append tree hroot _).symm

end FileTree

namespace Package

variable {tree : FileTree} {root base : Path} {manifest : String} {contents : Contents}

theorem exists_place_of_mem_files (hproper : tree.Proper)
    (hbase : baseDirectory tree manifest root = .ok base)
    (hload : load tree root base = .ok contents) {file : SourceFile}
    (hfile : file ∈ contents.files) :
    ∃ below content, below ≠ [] ∧ Path.Ordinary below ∧ file.path = root.descend below
      ∧ file.relativePath = ((root.descend below).relativeTo base).text
      ∧ tree.read file.path = .ok content ∧ file.content = Text.decodeLenient content := by
  obtain ⟨place, hrooted⟩ := exists_rooted hproper hbase
  obtain ⟨visited, hvisited, rfl⟩ := load_eq_ok_iff.mp hload
  rw [(accountsFor_ofLoaded root base visited).files] at hfile
  obtain ⟨path, hpath, hmade⟩ := List.mem_filterMap.mp hfile
  obtain ⟨below, entry, hbelow, hlisted, -, -, rfl⟩ := (mem_files_iff hrooted hvisited).mp hpath
  rw [fileAt] at hmade
  split at hmade
  · next content hread =>
    obtain rfl := Option.some.inj hmade
    exact ⟨below, content, hbelow, hproper.ordinary hlisted, rfl, rfl, hread, rfl⟩
  · cases hmade

theorem follow_join_of_mem_files (hproper : tree.Proper)
    (hbase : baseDirectory tree manifest root = .ok base)
    (hload : load tree root base = .ok contents) {file : SourceFile}
    (hfile : file ∈ contents.files) :
    let joined := base.join (Path.parse file.relativePath)
    tree.follow (FileTree.origin joined) joined.parts
      = tree.follow (FileTree.origin file.path) file.path.parts := by
  obtain ⟨place, hrooted⟩ := exists_rooted hproper hbase
  obtain ⟨below, -, -, hbelow, hpath, hrelative, -⟩ :=
    exists_place_of_mem_files hproper hbase hload hfile
  obtain ⟨under, hunder, rfl, -⟩ := exists_below_of_baseDirectory hrooted hbase
  rw [hpath, hrelative]
  exact hrooted.follow_join hbelow hunder (dots_not_mem hproper hunder)

/-- Under its entry a file is read as it was loaded, if the path of the entry is not too long. -/
theorem read_join_of_mem_files (hproper : tree.Proper)
    (hbase : baseDirectory tree manifest root = .ok base)
    (hload : load tree root base = .ok contents) {file : SourceFile}
    (hfile : file ∈ contents.files) :
    let joined := base.join (Path.parse file.relativePath)
    if joined.IsLong then tree.read joined = .error (.refused .nameTooLong joined)
    else ∃ content, tree.read joined = .ok content ∧ file.content = Text.decodeLenient content := by
  intro joined
  have hfollow : tree.follow (FileTree.origin joined) joined.parts
      = tree.follow (FileTree.origin file.path) file.path.parts :=
    follow_join_of_mem_files hproper hbase hload hfile
  have hfree : joined.NullFree := by
    apply (baseDirectory_nullFree hproper hbase).join
    exact Path.parse_nullFree
      (null_not_mem_listing hproper hbase hload _ (List.mem_map_of_mem hfile))
  split
  · next hlong =>
    rw [FileTree.read, FileTree.target, FileTree.admissible_of_nullFree hfree, if_pos hlong]
  · next hshort =>
    obtain ⟨-, content, -, -, -, -, hread, hcontent⟩ :=
      exists_place_of_mem_files hproper hbase hload hfile
    refine ⟨content, ?_, hcontent⟩
    have htarget := FileTree.target_of_read hread
    rw [FileTree.read, FileTree.target, FileTree.admissible_of_nullFree hfree, if_neg hshort,
      hfollow, FileTree.follow_of_target htarget]

/-- What the search for events makes of a file that it looks up under its entry. -/
def searched (policy : Event.PartialPolicy) (base : Path) (file : SourceFile) : Event.Extraction :=
  if (base.join (Path.parse file.relativePath)).IsLong then
    ⟨file.relativePath, [],
      some ⟨.unreadable FileError.nameTooLong.reason, file.relativePath, none⟩⟩
  else Event.extract policy file.content file.relativePath

theorem extractFile_of_mem_files (hproper : tree.Proper)
    (hbase : baseDirectory tree manifest root = .ok base)
    (hload : load tree root base = .ok contents) (policy : Event.PartialPolicy) {file : SourceFile}
    (hfile : file ∈ contents.files) :
    Event.extractFile tree policy base file.relativePath = .ok (searched policy base file) := by
  have hread := read_join_of_mem_files hproper hbase hload hfile
  rw [Event.extractFile, searched]
  dsimp only at hread
  split at hread
  · next hlong => rw [hread, if_pos hlong]
  · next hshort =>
    obtain ⟨content, hread, hcontent⟩ := hread
    rw [hread, if_neg hshort, hcontent]

theorem crawl_of_subset (hproper : tree.Proper)
    (hbase : baseDirectory tree manifest root = .ok base)
    (hload : load tree root base = .ok contents) (policy : Event.PartialPolicy)
    {sources : List SourceFile} (hsources : sources ⊆ contents.files) :
    Event.crawl tree policy base (sources.map (·.relativePath))
      = .ok (sources.map (searched policy base)) := by
  rw [Event.crawl]
  induction sources with
  | nil => rfl
  | cons file rest ih =>
    obtain ⟨hfile, hrest⟩ := List.cons_subset.mp hsources
    rw [List.map_cons, List.mapM_cons, extractFile_of_mem_files hproper hbase hload policy hfile,
      ih hrest]
    rfl

/-- **An entry leads back to its path.** Take any root, and a base directory below it. For each
place below the root, its entry put behind the base directory has the normal form of the path, which
is the path itself if the root is in normal form. The entry begins with a step up exactly if the
place lies outside the base directory, and else is the way there from the base directory. No two
places have the same entry. So it is for what is loaded of a package: an entry leads to where its
file is, and the search for events reads the file under it, or nothing if that path is too long. -/
theorem entry_leads_back (root : Path) (under : List String) (hunder : Path.Ordinary under) :
    let base := root.descend under
    let entry (below : List String) : String := ((root.descend below).relativeTo base).text
    (∀ below, Path.Ordinary below →
        (base.join (Path.parse (entry below))).normalise = (root.descend below).normalise
          ∧ (root.normalise = root → (root.descend below).normalise = root.descend below)
          ∧ ((Path.parse (entry below)).parts.head? ≠ some ".." ↔ under <+: below)
          ∧ ∀ rest, below = under ++ rest → entry below = (⟨0, rest⟩ : Path).text)
      ∧ (∀ below names, Path.Ordinary below → Path.Ordinary names → entry below = entry names →
          below = names)
      ∧ ∀ (tree : FileTree) (manifest : String) (contents : Contents), tree.Proper →
          baseDirectory tree manifest root = .ok base → load tree root base = .ok contents →
            (∀ file ∈ contents.files,
              (∃ below ≠ [], Path.Ordinary below ∧ file.path = root.descend below
                  ∧ file.relativePath = entry below)
                ∧ let joined := base.join (Path.parse file.relativePath)
                  tree.follow (FileTree.origin joined) joined.parts
                    = tree.follow (FileTree.origin file.path) file.path.parts)
            ∧ ∀ (policy : Event.PartialPolicy) (sources : List SourceFile),
                sources ⊆ contents.files →
                  Event.crawl tree policy base (sources.map (·.relativePath))
                    = .ok (sources.map (searched policy base)) := by
  intro base entry
  refine ⟨fun below hbelow => ⟨?_, ?_, ?_, ?_⟩, fun below names hbelow hnames => ?_, ?_⟩
  · exact Path.normalise_join root hbelow hunder.no_dots
  · intro hroot
    rw [Path.normalise_descend root hbelow.no_dots, hroot]
  · rw [Path.parse_relativeTo root hbelow.components hbelow.no_dots hunder.no_dots]
    exact Path.head?_relativeTo_iff root hbelow.no_dots hunder.no_dots
  · rintro rest rfl
    have hrest : ".." ∉ rest := fun hmem => hbelow.no_dots (List.mem_append_right under hmem)
    exact congrArg Path.text (Path.relativeTo_append root hunder.no_dots hrest)
  · exact Path.text_relativeTo_injective root hbelow hnames hunder.no_dots
  · intro tree manifest contents hproper hbase hload
    refine ⟨fun file hfile => ⟨?_, follow_join_of_mem_files hproper hbase hload hfile⟩,
      fun policy sources => crawl_of_subset hproper hbase hload policy⟩
    obtain ⟨below, -, hbelow, hordinary, hpath, hrelative, -⟩ :=
      exists_place_of_mem_files hproper hbase hload hfile
    exact ⟨below, hbelow, hordinary, hpath, hrelative⟩

/-- A package with its manifest in a directory, and a file above that and one beside it. -/
def innerManifest : FileTree where
  entries := [(["pkg"], .directory), (["pkg", "readme.txt"], .file []),
    (["pkg", "src"], .directory), (["pkg", "src", "ext.php"], .file []),
    (["pkg", "src2"], .directory), (["pkg", "src2", "b.php"], .file [])]

def innerFiles : List Path :=
  [⟨0, ["pkg", "readme.txt"]⟩, ⟨0, ["pkg", "src", "ext.php"]⟩, ⟨0, ["pkg", "src2", "b.php"]⟩]

theorem load_innerManifest :
    load innerManifest ⟨0, ["pkg"]⟩ ⟨0, ["pkg", "src"]⟩
      = .ok (.ofLoaded ⟨0, ["pkg"]⟩ ⟨0, ["pkg", "src"]⟩
          (innerFiles.map (loadFile innerManifest ⟨0, ["pkg", "src"]⟩))) := by
  have hfound : ∃ found, innerManifest.search ⟨0, ["pkg"]⟩ "*" = .ok found
      ∧ filesAmong innerManifest ⟨0, ["pkg"]⟩ found = .ok innerFiles := by
    exact ⟨_, rfl, by decide +kernel⟩
  obtain ⟨found, hfound, hkept⟩ := hfound
  have hsorted : sortBelow ⟨0, ["pkg"]⟩ innerFiles = innerFiles := by
    apply List.mergeSort_of_pairwise
    decide
  exact load_eq_ok_iff.mpr
    ⟨_, filesMatching_eq_ok_iff.mpr ⟨_, _, hfound, hkept, hsorted.symm⟩, rfl⟩

theorem entry_leads_back_inner :
    let root : Path := ⟨0, ["pkg"]⟩
    let base : Path := root.descend ["src"]
    Path.Ordinary ["src"]
      ∧ innerManifest.Proper
      ∧ baseDirectory innerManifest "ext.php" root = .ok base
      ∧ ∃ contents, load innerManifest root base = .ok contents
          ∧ contents.listing = ["../readme.txt", "ext.php", "../src2/b.php"]
          ∧ Event.crawl innerManifest .keep base contents.listing
              = .ok (contents.files.map (searched .keep base)) := by
  intro root base
  have hproper : innerManifest.Proper := by decide
  have hlisted : (["pkg"] ++ ["src"], .directory) ∈ innerManifest.entries := by decide
  have hunder : Path.Ordinary ["src"] := hproper.ordinary hlisted
  have hbase : baseDirectory innerManifest "ext.php" root = .ok base := by decide +kernel
  refine ⟨hunder, hproper, hbase, _, load_innerManifest, by decide +kernel, ?_⟩
  obtain ⟨-, -, hloaded⟩ := entry_leads_back root ["src"] hunder
  obtain ⟨-, hcrawl⟩ := hloaded innerManifest "ext.php" _ hproper hbase load_innerManifest
  exact hcrawl .keep _ (List.Subset.refl _)

end Package

end ExtensionAudit
