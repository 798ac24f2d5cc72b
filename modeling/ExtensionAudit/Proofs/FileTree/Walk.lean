import Mathlib
import ExtensionAudit.Proofs.FileTree.Search

/-!
# The search for any name at any depth

The search visits every directory in and below its root and takes all names that it finds there. So
each place below the root is found once, as the path that leads to it from the root. Only a
directory whose path is too long stands in the way of the search; places with such paths that are no
directories are found like others.
-/

namespace ExtensionAudit.FileTree

theorem parsePattern_any : parsePattern "*" = .ok [.matching [.anyText]] := by decide

theorem matchesPieces_anyText (cs : List Char) : matchesPieces [.anyText] cs = true := by
  rw [matchesPieces]
  induction cs with
  | nil => rfl
  | cons c rest ih => rw [anySuffix, ih, Bool.or_true]

variable {tree : FileTree} {root : Path} {place below : List String}

/-- The paths of the names in a directory below the root. -/
def pathsIn (tree : FileTree) (root : Path) (place below : List String) : List Path :=
  (tree.matchingNames [] [.anyText] (place ++ below)).map fun name => root.descend (below ++ [name])

theorem mem_pathsIn_iff {path : Path} :
    path ∈ tree.pathsIn root place below
      ↔ ∃ name entry, (place ++ (below ++ [name]), entry) ∈ tree.entries
          ∧ path = root.descend (below ++ [name]) := by
  rw [pathsIn, List.mem_map]
  constructor
  · rintro ⟨name, hname, rfl⟩
    obtain ⟨entry, hlisted, -⟩ := mem_matchingNames_iff.mp hname
    rw [List.append_assoc] at hlisted
    exact ⟨name, entry, hlisted, rfl⟩
  · rintro ⟨name, entry, hlisted, rfl⟩
    rw [← List.append_assoc] at hlisted
    exact ⟨name, mem_matchingNames_iff.mpr
      ⟨entry, hlisted, .inl rfl, matchesPieces_anyText name.toList⟩, rfl⟩

/-! ### Directories below a root -/

/-- What lies on the way to a directory is one. -/
theorem Proper.mem_directoriesBelow_of_append (hproper : tree.Proper) {front back : List String}
    (hmem : front ++ back ∈ tree.directoriesBelow place) : front ∈ tree.directoriesBelow place := by
  obtain rfl | hfront := eq_or_ne front []
  · exact mem_directoriesBelow_iff.mpr (.inl rfl)
  · obtain rfl | hback := eq_or_ne back []
    · rwa [List.append_nil] at hmem
    · obtain hnone | ⟨-, hlisted⟩ := mem_directoriesBelow_iff.mp hmem
      · exact absurd (List.append_eq_nil_iff.mp hnone).1 hfront
      · rw [← List.append_assoc] at hlisted
        exact mem_directoriesBelow_iff.mpr (.inr ⟨hfront,
          (hproper.hasDirectory hback hlisted).resolve_left
            (List.append_ne_nil_of_right_ne_nil place hfront)⟩)

theorem Proper.mem_directoriesBelow_of_name (hproper : tree.Proper) {name : String} {entry : Entry}
    (hlisted : (place ++ (below ++ [name]), entry) ∈ tree.entries) :
    below ∈ tree.directoriesBelow place := by
  obtain rfl | hbelow := eq_or_ne below []
  · exact mem_directoriesBelow_iff.mpr (.inl rfl)
  · rw [← List.append_assoc] at hlisted
    exact mem_directoriesBelow_iff.mpr (.inr ⟨hbelow,
      (hproper.hasDirectory_of_name hlisted).resolve_left
        (List.append_ne_nil_of_right_ne_nil place hbelow)⟩)

theorem Proper.follow_directory (hproper : tree.Proper)
    (hbelow : below ∈ tree.directoriesBelow place) :
    tree.follow (some place) below = .ok (.directory (some (place ++ below))) := by
  obtain rfl | ⟨hnonempty, hlisted⟩ := mem_directoriesBelow_iff.mp hbelow
  · rw [follow, List.append_nil]
  · rw [hproper.follow_below hnonempty hlisted]
    rfl

namespace Rooted

variable (hrooted : tree.Rooted root place)

include hrooted

theorem not_isLong_root : ¬ root.IsLong :=
  ((admissible_eq_ok_iff root).mp (admissible_of_target hrooted.leads)).2

theorem directoryAt_root : tree.directoryAt root = .ok (some place) := by
  rw [directoryAt, hrooted.leads]

theorem directoryAt_descend (hbelow : below ∈ tree.directoriesBelow place) :
    tree.directoryAt (root.descend below)
      = if (root.descend below).IsLong
          then .error (.refused .nameTooLong (root.descend below))
          else .ok (some (place ++ below)) := by
  obtain rfl | ⟨hnonempty, hlisted⟩ := mem_directoriesBelow_iff.mp hbelow
  · rw [Path.descend_nil, if_neg hrooted.not_isLong_root, List.append_nil,
      hrooted.directoryAt_root]
  · by_cases hlong : (root.descend below).IsLong
    · rw [if_pos hlong, directoryAt, hrooted.target_of_isLong hlisted hlong]
    · rw [if_neg hlong, directoryAt, hrooted.target_descend hnonempty hlisted hlong]
      rfl

/-- The names in a directory below the root, as a search for any name finds them. -/
theorem select_anyText (hbelow : below ∈ tree.directoriesBelow place) :
    tree.select [.matching [.anyText]] (root.descend below)
      = if (root.descend below).IsLong
          then .error (.refused .nameTooLong (root.descend below))
          else .ok (tree.pathsIn root place below) := by
  rw [select_matching, searchIn, hrooted.directoryAt_descend hbelow]
  by_cases hlong : (root.descend below).IsLong
  · rw [if_pos hlong, if_pos hlong]
  · rw [if_neg hlong, if_neg hlong]
    apply mapM_flatten_eq_ok_iff.mpr
    refine ⟨fun name _ => ⟨_, rfl⟩, ?_⟩
    simp only [Path.child_descend, pathsIn]
    exact List.map_eq_flatMap

theorem search_any_eq :
    tree.search root "*"
      = ((((tree.directoriesBelow place).mapM fun below =>
          tree.select [.matching [.anyText]] (root.descend below)).map List.flatten).map
            List.eraseDups).mapError .path := by
  have hselected : tree.select [.anyDirectories, .matching [.anyText]] root
      = (((tree.directoriesBelow place).mapM fun below =>
          tree.select [.matching [.anyText]] (root.descend below)).map List.flatten).map
            List.eraseDups := by
    rw [select_anyDirectories, searchIn, hrooted.directoryAt_root]
    dsimp only
    rw [List.mapM_map]
    rfl
  rw [← hselected, search, parsePattern_any, hrooted.isDirectory_root]
  dsimp only
  cases tree.select [.anyDirectories, .matching [.anyText]] root with
  | error fault => rfl
  | ok found => rfl

/-- When the search for any name goes through, and what it finds. -/
theorem search_any_eq_ok_iff {found : List Path} :
    tree.search root "*" = .ok found
      ↔ (∀ below ∈ tree.directoriesBelow place, ¬ (root.descend below).IsLong)
          ∧ found = ((tree.directoriesBelow place).flatMap (tree.pathsIn root place)).eraseDups := by
  have hgoes {below : List String} (hbelow : below ∈ tree.directoriesBelow place) :
      (∃ part, tree.select [.matching [.anyText]] (root.descend below) = .ok part)
        ↔ ¬ (root.descend below).IsLong := by
    rw [hrooted.select_anyText hbelow]
    by_cases hlong : (root.descend below).IsLong <;> simp [hlong]
  have hparts (hshort : ∀ below ∈ tree.directoriesBelow place, ¬ (root.descend below).IsLong) :
      (tree.directoriesBelow place).flatMap (foundIn fun below =>
          tree.select [.matching [.anyText]] (root.descend below))
        = (tree.directoriesBelow place).flatMap (tree.pathsIn root place) := by
    apply List.flatMap_congr
    intro below hbelow
    apply foundIn_eq
    rw [hrooted.select_anyText hbelow, if_neg (hshort below hbelow)]
  rw [hrooted.search_any_eq, mapError_eq_ok_iff, map_eq_ok_iff]
  constructor
  · rintro ⟨flat, hflat, rfl⟩
    obtain ⟨hall, rfl⟩ := mapM_flatten_eq_ok_iff.mp hflat
    have hshort : ∀ below ∈ tree.directoriesBelow place, ¬ (root.descend below).IsLong :=
      fun below hbelow => (hgoes hbelow).mp (hall below hbelow)
    exact ⟨hshort, by rw [hparts hshort]⟩
  · rintro ⟨hshort, rfl⟩
    refine ⟨_, mapM_flatten_eq_ok_iff.mpr ⟨fun below hbelow => ?_, rfl⟩, by rw [hparts hshort]⟩
    exact (hgoes hbelow).mpr (hshort below hbelow)

/-- The search for any name goes through if no directory below the root has too long a path. -/
theorem exists_search_any_iff :
    (∃ found, tree.search root "*" = .ok found)
      ↔ ∀ below ≠ [], (place ++ below, .directory) ∈ tree.entries →
          ¬ (root.descend below).IsLong := by
  constructor
  · rintro ⟨found, hfound⟩ below hbelow hlisted
    exact (hrooted.search_any_eq_ok_iff.mp hfound).1 below
      (mem_directoriesBelow_iff.mpr (.inr ⟨hbelow, hlisted⟩))
  · intro hshort
    refine ⟨_, hrooted.search_any_eq_ok_iff.mpr ⟨fun below hbelow => ?_, rfl⟩⟩
    obtain rfl | ⟨hnonempty, hlisted⟩ := mem_directoriesBelow_iff.mp hbelow
    · rw [Path.descend_nil]
      exact hrooted.not_isLong_root
    · exact hshort below hnonempty hlisted

/-- The search for any name finds the paths of the places below the root. -/
theorem mem_search_any_iff {found : List Path} (hfound : tree.search root "*" = .ok found)
    {path : Path} :
    path ∈ found ↔ ∃ below entry, below ≠ [] ∧ (place ++ below, entry) ∈ tree.entries
      ∧ path = root.descend below := by
  rw [(hrooted.search_any_eq_ok_iff.mp hfound).2, List.mem_eraseDups, List.mem_flatMap]
  constructor
  · rintro ⟨below, -, hpath⟩
    obtain ⟨name, entry, hlisted, rfl⟩ := mem_pathsIn_iff.mp hpath
    exact ⟨below ++ [name], entry, List.append_ne_nil_of_right_ne_nil _ (List.cons_ne_nil _ _),
      hlisted, rfl⟩
  · rintro ⟨below, entry, hnonempty, hlisted, rfl⟩
    obtain ⟨above, name, rfl⟩ := List.eq_nil_or_concat' below |>.resolve_left hnonempty
    exact ⟨above, hrooted.proper.mem_directoriesBelow_of_name hlisted,
      mem_pathsIn_iff.mpr ⟨name, entry, hlisted, rfl⟩⟩

end Rooted

end ExtensionAudit.FileTree
