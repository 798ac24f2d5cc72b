import Mathlib
import ExtensionAudit.Package.Files
import ExtensionAudit.Proofs.FileTree.Walk

/-!
# The files of a package

The files of a package come out of a walk in whatever order the file system lists them, and are then
filtered and sorted. Nothing is lost on the way: the walk finds each place below the root once, the
filter looks at one path at a time, and the paths below a root are told apart by the texts by which
they are sorted, so that their order is settled by the tree alone.
-/

namespace ExtensionAudit

/-! ### Texts of paths -/

namespace Path

/-- The text of a path divides at its slashes into the components. -/
theorem splitOn_text {parts : List String} (hparts : parts ≠ [])
    (hclean : ∀ part ∈ parts, '/' ∉ part.toList) :
    (⟨0, parts⟩ : Path).text.toList.splitOn '/' = parts.map String.toList := by
  rw [text_of_parts hparts, String.toList_intercalate]
  apply List.splitOn_intercalate
  · simpa using hclean
  · simpa using hparts

/-- Components without slashes are told apart by the text of their path. -/
theorem text_injective {parts others : List String} (hparts : parts ≠ []) (hothers : others ≠ [])
    (hclean : ∀ part ∈ parts, '/' ∉ part.toList) (hpure : ∀ part ∈ others, '/' ∉ part.toList)
    (hsame : (⟨0, parts⟩ : Path).text = (⟨0, others⟩ : Path).text) : parts = others := by
  have hlists : parts.map String.toList = others.map String.toList := by
    rw [← splitOn_text hparts hclean, hsame, splitOn_text hothers hpure]
  exact List.map_injective_iff.mpr (fun _ _ => String.toList_inj.mp) hlists

end Path

namespace Package

variable {tree other : FileTree} {root : Path}

/-! ### Files among paths -/

/-- Whether a path that was found stays among the files of a package. -/
def isFile (tree : FileTree) (root path : Path) : Bool :=
  !isVersionControl root path && (tree.isDirectory path).toOption == some false

theorem filesAmong_eq_ok_iff {paths kept : List Path} :
    filesAmong tree root paths = .ok kept
      ↔ (∀ path ∈ paths, isVersionControl root path = false →
            ∃ answer, tree.isDirectory path = .ok answer)
          ∧ kept = paths.filter (isFile tree root) := by
  induction paths generalizing kept with
  | nil =>
    rw [filesAmong, List.filter_nil, Except.ok.injEq]
    exact ⟨fun hnone => ⟨fun _ hmem => absurd hmem List.not_mem_nil, hnone.symm⟩,
      fun hboth => hboth.2.symm⟩
  | cons path rest ih =>
    rw [filesAmong, List.forall_mem_cons, List.filter_cons, isFile]
    cases hcontrol : isVersionControl root path with
    | true => simp [ih]
    | false =>
      cases hasked : tree.isDirectory path with
      | error fault => simp
      | ok answer =>
        cases answer with
        | true => simpa [Except.toOption] using ih
        | false =>
          simp only [Bool.false_eq_true, if_false, map_eq_ok_iff, ih]
          constructor
          · rintro ⟨later, ⟨hall, rfl⟩, rfl⟩
            exact ⟨⟨fun _ => ⟨false, rfl⟩, hall⟩, rfl⟩
          · rintro ⟨⟨-, hall⟩, rfl⟩
            exact ⟨_, ⟨hall, rfl⟩, rfl⟩

theorem filesAmong_eq_error {paths : List Path} {fault : PathFault}
    (hfails : filesAmong tree root paths = .error fault) :
    ∃ path ∈ paths, isVersionControl root path = false ∧ tree.isDirectory path = .error fault := by
  induction paths with
  | nil => cases hfails
  | cons path rest ih =>
    have hlater (hrest : filesAmong tree root rest = .error fault) :
        ∃ later ∈ path :: rest,
          isVersionControl root later = false ∧ tree.isDirectory later = .error fault := by
      obtain ⟨later, hmem, hfault⟩ := ih hrest
      exact ⟨later, List.mem_cons_of_mem path hmem, hfault⟩
    rw [filesAmong] at hfails
    split at hfails
    · exact hlater hfails
    · next hcontrol =>
      split at hfails
      · next hasked =>
        obtain rfl := Except.error.inj hfails
        exact ⟨path, List.mem_cons_self, Bool.not_eq_true _ ▸ hcontrol, hasked⟩
      · exact hlater hfails
      · exact hlater (map_eq_error hfails)

/-! ### Files that match a pattern -/

theorem filesMatching_eq_ok_iff {pattern : String} {files : List Path} :
    filesMatching tree root pattern = .ok files
      ↔ ∃ found kept, tree.search root pattern = .ok found
          ∧ filesAmong tree root found = .ok kept ∧ files = sortBelow root kept := by
  rw [filesMatching]
  constructor
  · intro hfiles
    split at hfiles
    · cases hfiles
    · next found hfound =>
      split at hfiles
      · cases hfiles
      · next kept hkept => exact ⟨found, kept, hfound, hkept, (Except.ok.inj hfiles).symm⟩
  · rintro ⟨found, kept, hfound, hkept, rfl⟩
    simp only [hfound, hkept]

theorem filesMatching_eq_error {pattern : String} {fault : SearchFault}
    (hfails : filesMatching tree root pattern = .error fault) :
    (∃ wrong, parsePattern pattern = .error wrong ∧ fault = .pattern wrong)
      ∨ ∃ long, fault = .path (.refused .nameTooLong long) := by
  rw [filesMatching] at hfails
  split at hfails
  · next hfound =>
    obtain rfl := Except.error.inj hfails
    exact FileTree.search_eq_error hfound
  · split at hfails
    · next hkept =>
      obtain ⟨path, -, -, hasked⟩ := filesAmong_eq_error hkept
      obtain ⟨long, rfl⟩ := FileTree.answer_eq_error hasked
      exact .inr ⟨long, (Except.error.inj hfails).symm⟩
    · cases hfails

theorem sortBelow_perm (paths : List Path) : (sortBelow root paths).Perm paths :=
  List.mergeSort_perm _ _

/-- Paths that are told apart by their texts below a root are sorted strictly. -/
theorem sortBelow_pairwise {paths : List Path} (hnodup : paths.Nodup)
    (hapart : ∀ first ∈ paths, ∀ second ∈ paths,
      textBelow root first = textBelow root second → first = second) :
    (sortBelow root paths).Pairwise fun first second =>
      textBelow root first < textBelow root second := by
  have hordered : (sortBelow root paths).Pairwise fun first second =>
      Settings.textOrder (textBelow root first) (textBelow root second) = true := by
    apply List.pairwise_mergeSort
    · exact fun _ _ _ => Settings.textOrder_trans _ _ _
    · exact fun _ _ => Settings.textOrder_total _ _
  have hperm : (sortBelow root paths).Perm paths := sortBelow_perm paths
  -- Paths of equal texts would be equal, and each is there once, so the order is strict.
  apply (hordered.and (hperm.nodup_iff.mpr hnodup)).imp_of_mem
  rintro first second hfirst hsecond ⟨hle, hne⟩
  apply lt_of_le_of_ne (Settings.textOrder_iff.mp hle)
  intro hsame
  exact hne (hapart first (hperm.mem_iff.mp hfirst) second (hperm.mem_iff.mp hsecond) hsame)

/-- Lists in the strict order of texts that hold the same paths are the same. -/
theorem eq_of_pairwise_textBelow {paths others : List Path}
    (hpaths : paths.Pairwise fun first second => textBelow root first < textBelow root second)
    (hothers : others.Pairwise fun first second => textBelow root first < textBelow root second)
    (hmem : ∀ path, path ∈ paths ↔ path ∈ others) : paths = others := by
  have hnodup {items : List Path}
      (hitems : items.Pairwise fun first second => textBelow root first < textBelow root second) :
      items.Nodup := by
    refine hitems.imp fun {first second} hless hsame => ?_
    rw [hsame] at hless
    exact String.lt_irrefl _ hless
  have hperm : paths.Perm others :=
    (List.perm_ext_iff_of_nodup (hnodup hpaths) (hnodup hothers)).mpr hmem
  apply hperm.eq_of_pairwise _ hpaths hothers
  intro first second _ _ hless hmore
  exact absurd (String.lt_trans hless hmore) (String.lt_irrefl _)

/-- Files that match a pattern are the same in whatever order a tree is listed. -/
theorem filesMatching_of_perm (hrelisted : tree.Relisted other) {pattern : String}
    {files : List Path} (hfiles : filesMatching tree root pattern = .ok files) :
    ∃ others, filesMatching other root pattern = .ok others ∧ files.Perm others := by
  obtain ⟨found, kept, hfound, hkept, rfl⟩ := filesMatching_eq_ok_iff.mp hfiles
  obtain ⟨again, hagain, hperm⟩ := hrelisted.search_of_perm hfound
  obtain ⟨hasked, rfl⟩ := filesAmong_eq_ok_iff.mp hkept
  have hsame : isFile other root = isFile tree root := by
    funext path
    rw [isFile, isFile, hrelisted.isDirectory_eq]
  have hothers : filesAmong other root again = .ok (again.filter (isFile tree root)) := by
    refine filesAmong_eq_ok_iff.mpr ⟨fun path hmem hcontrol => ?_, by rw [hsame]⟩
    rw [← hrelisted.isDirectory_eq]
    exact hasked path (hperm.mem_iff.mpr hmem) hcontrol
  refine ⟨_, filesMatching_eq_ok_iff.mpr ⟨again, _, hagain, hothers, rfl⟩, ?_⟩
  calc
    (sortBelow root (found.filter (isFile tree root))).Perm (found.filter (isFile tree root)) :=
      sortBelow_perm _
    List.Perm _ (again.filter (isFile tree root)) := hperm.filter _
    List.Perm _ (sortBelow root (again.filter (isFile tree root))) := (sortBelow_perm _).symm

/-! ### The files of a package -/

theorem isVersionControl_descend (below : List String) :
    isVersionControl root (root.descend below) = true
      ↔ ∃ name ∈ below, name ∈ versionControlNames := by
  rw [isVersionControl, Path.below_descend]
  simp

theorem textBelow_descend (below : List String) :
    textBelow root (root.descend below) = (⟨0, below⟩ : Path).text := by
  rw [textBelow, Path.below_descend]

/-- Every directory below the root, and every other place there that is not data of version control,
has a path that can be looked up. -/
def CanWalk (tree : FileTree) (root : Path) (place : List String) : Prop :=
  ∀ below entry, below ≠ [] → (place ++ below, entry) ∈ tree.entries →
    (entry = .directory ∨ ∀ name ∈ below, name ∉ versionControlNames) →
      ¬ (root.descend below).IsLong

/-- The path leads to what is below the root, no directory and not data of version control. -/
def IsPackaged (tree : FileTree) (root : Path) (place : List String) (path : Path) : Prop :=
  ∃ below entry, below ≠ [] ∧ (place ++ below, entry) ∈ tree.entries ∧ entry ≠ .directory
    ∧ (∀ name ∈ below, name ∉ versionControlNames) ∧ path = root.descend below

theorem exists_found_of_files {visited : List Path} (hvisited : files tree root = .ok visited) :
    ∃ found, tree.search root "*" = .ok found ∧ visited.Perm (found.filter (isFile tree root))
      ∧ visited = sortBelow root (found.filter (isFile tree root)) := by
  obtain ⟨found, kept, hfound, hkept, rfl⟩ := filesMatching_eq_ok_iff.mp hvisited
  obtain ⟨-, rfl⟩ := filesAmong_eq_ok_iff.mp hkept
  exact ⟨found, hfound, sortBelow_perm _, rfl⟩

section Rooted

variable {place : List String} (hrooted : tree.Rooted root place)

include hrooted

theorem isFile_descend_iff {below : List String} {entry : Entry} (hbelow : below ≠ [])
    (hlisted : (place ++ below, entry) ∈ tree.entries) :
    isFile tree root (root.descend below) = true
      ↔ (∀ name ∈ below, name ∉ versionControlNames) ∧ entry ≠ .directory
          ∧ ¬ (root.descend below).IsLong := by
  have hcontrol : isVersionControl root (root.descend below) = false
      ↔ ∀ name ∈ below, name ∉ versionControlNames := by
    rw [← Bool.not_eq_true, isVersionControl_descend]
    push Not
    rfl
  rw [isFile, Bool.and_eq_true, Bool.not_eq_true', hcontrol]
  refine and_congr_right fun _ => ?_
  by_cases hlong : (root.descend below).IsLong
  · rw [hrooted.isDirectory_of_isLong hlisted hlong]
    simp [Except.toOption, hlong]
  · rw [hrooted.isDirectory_descend hbelow hlisted hlong]
    simp [Except.toOption, hlong]

/-- When the files of a package can be told. -/
theorem exists_files_iff :
    (∃ visited, files tree root = .ok visited) ↔ CanWalk tree root place := by
  constructor
  · rintro ⟨visited, hvisited⟩ below entry hbelow hlisted hlooked hlong
    obtain ⟨found, kept, hfound, hkept, -⟩ := filesMatching_eq_ok_iff.mp hvisited
    have hdirectories := hrooted.exists_search_any_iff.mp ⟨found, hfound⟩
    obtain rfl | hclean := hlooked
    · exact hdirectories below hbelow hlisted hlong
    · have hmem : root.descend below ∈ found :=
        (hrooted.mem_search_any_iff hfound).mpr ⟨below, entry, hbelow, hlisted, rfl⟩
      have hcontrol : isVersionControl root (root.descend below) = false := by
        rw [← Bool.not_eq_true, isVersionControl_descend]
        push Not
        exact hclean
      obtain ⟨answer, hanswer⟩ := (filesAmong_eq_ok_iff.mp hkept).1 _ hmem hcontrol
      rw [hrooted.isDirectory_of_isLong hlisted hlong] at hanswer
      cases hanswer
  · intro hwalk
    obtain ⟨found, hfound⟩ := hrooted.exists_search_any_iff.mpr
      fun below hbelow hlisted => hwalk below .directory hbelow hlisted (.inl rfl)
    refine ⟨_, filesMatching_eq_ok_iff.mpr ⟨found, _, hfound, filesAmong_eq_ok_iff.mpr
      ⟨fun path hmem hcontrol => ?_, rfl⟩, rfl⟩⟩
    obtain ⟨below, entry, hbelow, hlisted, rfl⟩ := (hrooted.mem_search_any_iff hfound).mp hmem
    rw [← Bool.not_eq_true, isVersionControl_descend] at hcontrol
    push Not at hcontrol
    exact ⟨_, hrooted.isDirectory_descend hbelow hlisted
      (hwalk below entry hbelow hlisted (.inr hcontrol))⟩

variable {visited : List Path} (hvisited : files tree root = .ok visited)

include hvisited

/-- The files of a package are what is below its root, no directory and not data of version
control. -/
theorem mem_files_iff {path : Path} : path ∈ visited ↔ IsPackaged tree root place path := by
  have hwalk := (exists_files_iff hrooted).mp ⟨visited, hvisited⟩
  obtain ⟨found, hfound, hperm, -⟩ := exists_found_of_files hvisited
  rw [hperm.mem_iff, List.mem_filter, hrooted.mem_search_any_iff hfound]
  constructor
  · rintro ⟨⟨below, entry, hbelow, hlisted, rfl⟩, hfile⟩
    obtain ⟨hclean, hentry, -⟩ := (isFile_descend_iff hrooted hbelow hlisted).mp hfile
    exact ⟨below, entry, hbelow, hlisted, hentry, hclean, rfl⟩
  · rintro ⟨below, entry, hbelow, hlisted, hentry, hclean, rfl⟩
    refine ⟨⟨below, entry, hbelow, hlisted, rfl⟩, ?_⟩
    rw [isFile_descend_iff hrooted hbelow hlisted]
    exact ⟨hclean, hentry, hwalk below entry hbelow hlisted (.inr hclean)⟩

omit hvisited in
theorem IsPackaged.eq_of_textBelow {path later : Path} (hpath : IsPackaged tree root place path)
    (hlater : IsPackaged tree root place later)
    (hsame : textBelow root path = textBelow root later) : path = later := by
  obtain ⟨below, entry, hbelow, hlisted, -, -, rfl⟩ := hpath
  obtain ⟨under, other, hunder, hother, -, -, rfl⟩ := hlater
  rw [textBelow_descend, textBelow_descend] at hsame
  rw [Path.text_injective hbelow hunder
    (fun name hname => (hrooted.proper.properName hlisted hname).no_slash)
    (fun name hname => (hrooted.proper.properName hother hname).no_slash) hsame]

/-- The files of a package come in the order of their paths below the root, each of them once. -/
theorem files_pairwise :
    visited.Pairwise fun first second => textBelow root first < textBelow root second := by
  obtain ⟨found, hfound, hperm, hsorted⟩ := exists_found_of_files hvisited
  rw [hsorted]
  apply sortBelow_pairwise ((FileTree.nodup_of_search hfound).filter _)
  intro first hfirst second hsecond hsame
  exact IsPackaged.eq_of_textBelow hrooted
    ((mem_files_iff hrooted hvisited).mp (hperm.mem_iff.mpr hfirst))
    ((mem_files_iff hrooted hvisited).mp (hperm.mem_iff.mpr hsecond)) hsame

/-- The files of a package come in the same order in whatever order a tree is listed. -/
theorem files_of_perm (hperm : tree.entries.Perm other.entries) :
    files other root = .ok visited := by
  have hrelisted : tree.Relisted other := ⟨hrooted.proper.distinct, hperm⟩
  obtain ⟨others, hothers, hsame⟩ := filesMatching_of_perm hrelisted hvisited
  have heq : visited = others :=
    eq_of_pairwise_textBelow (files_pairwise hrooted hvisited)
      (files_pairwise (hrooted.of_perm hperm) hothers) fun path => hsame.mem_iff
  rw [files, hothers, heq]

end Rooted

end Package

end ExtensionAudit
