import Mathlib
import ExtensionAudit.FileTree.Glob
import ExtensionAudit.Proofs.FileTree.Placement

/-!
# What a search finds

A search goes from directory to directory, each time over the names that the tree lists there. So
what it finds stands in the order of the listing, and nothing else about it depends on that order:
on a tree listed otherwise the same search finds the same paths, or fails as well. It fails only
over a path that is too long to be looked up, and it never leads to a null character.
-/

namespace ExtensionAudit

section Results

variable {ε ε' α β : Type} {f : α → β} {result : Except ε α}

theorem map_eq_ok_iff {value : β} :
    result.map f = .ok value ↔ ∃ before, result = .ok before ∧ f before = value := by
  cases result with
  | ok before => simp [Except.map]
  | error fault => simp [Except.map]

theorem bind_eq_ok_iff {next : α → Except ε β} {value : β} :
    result.bind next = .ok value ↔ ∃ before, result = .ok before ∧ next before = .ok value := by
  cases result with
  | ok before => simp [Except.bind]
  | error fault => simp [Except.bind]

theorem map_eq_error {fault : ε} (hfails : result.map f = .error fault) :
    result = .error fault := by
  cases result with
  | ok value => cases hfails
  | error other => exact congrArg Except.error (Except.error.inj hfails)

theorem mapError_eq_ok_iff {wrap : ε → ε'} {value : α} :
    result.mapError wrap = .ok value ↔ result = .ok value := by
  cases result with
  | ok before => simp [Except.mapError]
  | error fault => simp [Except.mapError]

end Results

/-! ### Searching in several places -/

section Parts

variable {ε α β : Type} {f g : α → Except ε (List β)} {places others : List α} {found : List β}

/-- What was found in a place, nothing if the search of it failed. -/
def foundIn (f : α → Except ε (List β)) (place : α) : List β := (f place).toOption.getD []

theorem foundIn_eq {place : α} {part : List β} (hpart : f place = .ok part) :
    foundIn f place = part := by
  rw [foundIn, hpart]
  rfl

theorem mapM_flatten_cons (place : α) (rest : List α) :
    ((place :: rest).mapM f).map List.flatten
      = (f place).bind fun part => ((rest.mapM f).map List.flatten).map (part ++ ·) := by
  rw [List.mapM_cons]
  cases f place with
  | error fault => rfl
  | ok part => cases rest.mapM f <;> rfl

/-- A search in several places comes to an end if it does so in each of them, and finds what was
found in one after the other. -/
theorem mapM_flatten_eq_ok_iff :
    (places.mapM f).map List.flatten = .ok found
      ↔ (∀ place ∈ places, ∃ part, f place = .ok part) ∧ found = places.flatMap (foundIn f) := by
  induction places generalizing found with
  | nil => simp [List.mapM_nil, Pure.pure, Except.pure, Except.map, eq_comm]
  | cons place rest ih =>
    rw [mapM_flatten_cons, List.forall_mem_cons, List.flatMap_cons]
    cases hpart : f place with
    | error fault => simp [Except.bind]
    | ok part =>
      rw [foundIn_eq hpart]
      constructor
      · intro hall
        cases hrest : (rest.mapM f).map List.flatten with
        | error fault =>
          rw [hrest] at hall
          cases hall
        | ok later =>
          rw [hrest] at hall
          obtain ⟨hothers, rfl⟩ := ih.mp hrest
          obtain rfl := Except.ok.inj hall
          exact ⟨⟨⟨part, rfl⟩, hothers⟩, rfl⟩
      · rintro ⟨⟨-, hothers⟩, rfl⟩
        rw [ih.mpr ⟨hothers, rfl⟩]
        rfl

theorem exists_of_mem_mapM_flatten (hfound : (places.mapM f).map List.flatten = .ok found)
    {item : β} (hmem : item ∈ found) :
    ∃ place ∈ places, ∃ part, f place = .ok part ∧ item ∈ part := by
  obtain ⟨hparts, rfl⟩ := mapM_flatten_eq_ok_iff.mp hfound
  obtain ⟨place, hplace, hitem⟩ := List.mem_flatMap.mp hmem
  obtain ⟨part, hpart⟩ := hparts place hplace
  rw [foundIn_eq hpart] at hitem
  exact ⟨place, hplace, part, hpart, hitem⟩

theorem exists_of_mapM_flatten_eq_error {fault : ε}
    (hfails : (places.mapM f).map List.flatten = .error fault) :
    ∃ place ∈ places, f place = .error fault := by
  induction places with
  | nil => cases hfails
  | cons place rest ih =>
    rw [mapM_flatten_cons] at hfails
    cases hpart : f place with
    | error other =>
      rw [hpart] at hfails
      obtain rfl := Except.error.inj hfails
      exact ⟨place, List.mem_cons_self, hpart⟩
    | ok part =>
      cases hrest : (rest.mapM f).map List.flatten with
      | ok later =>
        rw [hpart, hrest] at hfails
        cases hfails
      | error other =>
        rw [hpart, hrest] at hfails
        obtain rfl := Except.error.inj hfails
        obtain ⟨later, hlater, hfault⟩ := ih hrest
        exact ⟨later, List.mem_cons_of_mem place hlater, hfault⟩

theorem mapM_flatten_of_perm (hperm : places.Perm others)
    (hsame : ∀ place ∈ places, ∀ part, f place = .ok part →
      ∃ again, g place = .ok again ∧ part.Perm again)
    (hfound : (places.mapM f).map List.flatten = .ok found) :
    ∃ again, (others.mapM g).map List.flatten = .ok again ∧ found.Perm again := by
  obtain ⟨hparts, rfl⟩ := mapM_flatten_eq_ok_iff.mp hfound
  refine ⟨_, mapM_flatten_eq_ok_iff.mpr ⟨?_, rfl⟩, ?_⟩
  · intro place hmem
    obtain ⟨part, hpart⟩ := hparts place (hperm.mem_iff.mpr hmem)
    obtain ⟨again, hagain, -⟩ := hsame place (hperm.mem_iff.mpr hmem) part hpart
    exact ⟨again, hagain⟩
  · apply hperm.flatMap
    intro place hmem
    obtain ⟨part, hpart⟩ := hparts place hmem
    obtain ⟨again, hagain, hpermuted⟩ := hsame place hmem part hpart
    rwa [foundIn_eq hpart, foundIn_eq hagain]

end Parts

theorem nodup_eraseDups {α : Type} [BEq α] [LawfulBEq α] (items : List α) :
    items.eraseDups.Nodup := by
  induction hlength : items.length using Nat.strong_induction_on generalizing items with
  | h n ih =>
    cases items with
    | nil => exact List.nodup_nil
    | cons item rest =>
      rw [List.eraseDups_cons, List.nodup_cons]
      constructor
      · rw [List.mem_eraseDups]
        simp
      · refine ih _ ?_ _ rfl
        rw [← hlength, List.length_cons]
        exact Nat.lt_succ_of_le (List.length_filter_le _ _)

theorem eraseDups_of_perm {α : Type} [BEq α] [LawfulBEq α] {items others : List α}
    (hperm : items.Perm others) : items.eraseDups.Perm others.eraseDups := by
  rw [List.perm_ext_iff_of_nodup (nodup_eraseDups items) (nodup_eraseDups others)]
  intro item
  rw [List.mem_eraseDups, List.mem_eraseDups]
  exact hperm.mem_iff

namespace FileTree

/-! ### The steps of a search -/

/-- A search of the directory that a path leads to. -/
def searchIn (tree : FileTree) (path : Path)
    (search : List String → Except PathFault (List Path)) : Except PathFault (List Path) :=
  match tree.directoryAt path with
  | .error fault => .error fault
  | .ok none => .ok []
  | .ok (some place) => search place

/-- Whether a search for a name goes on: at its end any place will do, before that a directory. -/
def goesOn (tree : FileTree) (rest : List PatternComponent) (path : Path) :
    Except PathFault Bool :=
  if rest.isEmpty then tree.pathExists path else tree.isDirectory path

variable (tree : FileTree) (rest : List PatternComponent) (path : Path)

theorem select_named (name : String) :
    tree.select (.named name :: rest) path
      = (tree.goesOn rest (path.child name)).bind fun found =>
          if found then tree.select rest (path.child name) else .ok [] := by
  rw [select]
  unfold goesOn
  cases if rest.isEmpty then tree.pathExists (path.child name)
    else tree.isDirectory (path.child name) with
  | error fault => rfl
  | ok found => cases found <;> rfl

/-- The names in a directory with which a search goes on. -/
def matchingNames (pieces : List PatternPiece) (place : List String) : List String :=
  ((tree.children place).filter fun found =>
    (rest.isEmpty || found.2) && matchesPieces pieces found.1.toList).map Prod.fst

theorem select_matching (pieces : List PatternPiece) :
    tree.select (.matching pieces :: rest) path
      = tree.searchIn path fun place =>
          ((tree.matchingNames rest pieces place).mapM fun name =>
            tree.select rest (path.child name)).map List.flatten := by
  rw [select, searchIn]
  simp only [matchingNames, List.mapM_map]
  rfl

theorem select_anyDirectories :
    tree.select (.anyDirectories :: rest) path
      = tree.searchIn path fun place =>
          ((((tree.directoriesBelow place).map path.descend).mapM (tree.select rest)).map
            List.flatten).map List.eraseDups := by
  have hmap (starts : Except PathFault (List (List Path))) :
      starts.map (fun found => found.flatten.eraseDups)
        = (starts.map List.flatten).map List.eraseDups := by
    cases starts <;> rfl
  rw [select, searchIn]
  simp only [hmap]
  rfl

/-- The search for a pattern at any depth. -/
theorem search_eq (root : Path) (pattern : String) :
    tree.search root pattern
      = ((parsePattern pattern).mapError .pattern).bind fun components =>
          ((tree.isDirectory root).mapError .path).bind fun there =>
            if there then (tree.select (.anyDirectories :: components) root).mapError .path
            else .ok [] := by
  rw [search]
  cases parsePattern pattern with
  | error fault => rfl
  | ok components =>
    cases tree.isDirectory root with
    | error fault => rfl
    | ok there =>
      cases there with
      | false => rfl
      | true =>
        dsimp only [Except.mapError, Except.bind]
        cases tree.select (.anyDirectories :: components) root <;> rfl

variable {tree rest path} {other : FileTree}

/-- A search finds each path once. -/
theorem nodup_of_search {pattern : String} {found : List Path}
    (hfound : tree.search path pattern = .ok found) : found.Nodup := by
  rw [search_eq] at hfound
  obtain ⟨components, -, hrest⟩ := bind_eq_ok_iff.mp hfound
  obtain ⟨there, -, hselected⟩ := bind_eq_ok_iff.mp hrest
  cases there with
  | false =>
    obtain rfl := Except.ok.inj hselected
    exact List.nodup_nil
  | true =>
    have hfound := mapError_eq_ok_iff.mp hselected
    rw [select_anyDirectories, searchIn] at hfound
    split at hfound
    · cases hfound
    · obtain rfl := Except.ok.inj hfound
      exact List.nodup_nil
    · obtain ⟨flat, -, rfl⟩ := map_eq_ok_iff.mp hfound
      exact nodup_eraseDups flat

/-! ### Faults -/

theorem answer_eq_error {ask : Target → Bool} {result : Except PathFault Target} {fault : PathFault}
    (hfails : answer ask result = .error fault) : ∃ long, fault = .refused .nameTooLong long := by
  unfold answer at hfails
  split at hfails
  · cases hfails
  · exact ⟨_, (Except.error.inj hfails).symm⟩
  · cases hfails

theorem directoryAt_eq_error {fault : PathFault} (hfails : tree.directoryAt path = .error fault) :
    ∃ long, fault = .refused .nameTooLong long := by
  unfold directoryAt at hfails
  split at hfails
  · cases hfails
  · exact ⟨_, (Except.error.inj hfails).symm⟩
  · cases hfails

theorem goesOn_eq_error {fault : PathFault} (hfails : tree.goesOn rest path = .error fault) :
    ∃ long, fault = .refused .nameTooLong long := by
  unfold goesOn at hfails
  split at hfails
  · exact answer_eq_error hfails
  · exact answer_eq_error hfails

theorem searchIn_eq_error {search : List String → Except PathFault (List Path)} {fault : PathFault}
    (hsearch : ∀ place, search place = .error fault → ∃ long, fault = .refused .nameTooLong long)
    (hfails : tree.searchIn path search = .error fault) :
    ∃ long, fault = .refused .nameTooLong long := by
  unfold searchIn at hfails
  split at hfails
  · next hdirectory =>
    obtain rfl := Except.error.inj hfails
    exact directoryAt_eq_error hdirectory
  · cases hfails
  · exact hsearch _ hfails

/-- A search fails only over a path that is too long. -/
theorem select_eq_error {components : List PatternComponent} {fault : PathFault}
    (hfails : tree.select components path = .error fault) :
    ∃ long, fault = .refused .nameTooLong long := by
  -- Each component asks about one path, or goes on from places that a directory lists.
  induction components generalizing path fault with
  | nil => cases hfails
  | cons component rest ih =>
    cases component with
    | directory => cases hfails
    | named name =>
      rw [select_named] at hfails
      cases hasked : tree.goesOn rest (path.child name) with
      | error other =>
        rw [hasked] at hfails
        obtain rfl := Except.error.inj hfails
        exact goesOn_eq_error hasked
      | ok found =>
        rw [hasked] at hfails
        cases found with
        | false => cases hfails
        | true => exact ih hfails
    | matching pieces =>
      rw [select_matching] at hfails
      refine searchIn_eq_error (fun place hsearch => ?_) hfails
      obtain ⟨name, -, hchild⟩ := exists_of_mapM_flatten_eq_error hsearch
      exact ih hchild
    | anyDirectories =>
      rw [select_anyDirectories] at hfails
      refine searchIn_eq_error (fun place hsearch => ?_) hfails
      obtain ⟨start, -, hstart⟩ := exists_of_mapM_flatten_eq_error (map_eq_error hsearch)
      exact ih hstart

/-- A search as a whole may also fail over its pattern. -/
theorem search_eq_error {pattern : String} {fault : SearchFault}
    (hfails : tree.search path pattern = .error fault) :
    (∃ wrong, parsePattern pattern = .error wrong ∧ fault = .pattern wrong)
      ∨ ∃ long, fault = .path (.refused .nameTooLong long) := by
  rw [search] at hfails
  split at hfails
  · next wrong hwrong => exact .inl ⟨wrong, hwrong, (Except.error.inj hfails).symm⟩
  · right
    split at hfails
    · next hasked =>
      obtain ⟨long, rfl⟩ := answer_eq_error hasked
      exact ⟨long, (Except.error.inj hfails).symm⟩
    · cases hfails
    · split at hfails
      · next hselected =>
        obtain ⟨long, rfl⟩ := select_eq_error hselected
        exact ⟨long, (Except.error.inj hfails).symm⟩
      · cases hfails

/-! ### Listings in another order -/

/-- The same tree, listed in some other order. -/
structure Relisted (tree other : FileTree) : Prop where
  distinct : (tree.entries.map Prod.fst).Nodup
  perm : tree.entries.Perm other.entries

namespace Relisted

variable (hrelisted : tree.Relisted other)

include hrelisted

theorem follow_eq (start : Option (List String)) (parts : List String) :
    tree.follow start parts = other.follow start parts := by
  have hentry (place : List String) : tree.entry? place = other.entry? place := by
    unfold entry?
    rw [lookup_eq_of_perm hrelisted.distinct hrelisted.perm]
  induction parts generalizing start with
  | nil => cases start <;> rfl
  | cons part rest ih =>
    cases start with
    | none => rw [follow, follow, ih]
    | some place =>
      rw [follow, follow, hentry, ih]
      simp only [ih]

theorem target_eq (path : Path) : tree.target path = other.target path := by
  rw [target, target, hrelisted.follow_eq]

theorem isDirectory_eq (path : Path) : tree.isDirectory path = other.isDirectory path := by
  rw [isDirectory, isDirectory, hrelisted.target_eq]

theorem read_eq (path : Path) : tree.read path = other.read path := by
  rw [read, read, hrelisted.target_eq]

theorem goesOn_eq (rest : List PatternComponent) (path : Path) :
    tree.goesOn rest path = other.goesOn rest path := by
  unfold goesOn pathExists
  rw [hrelisted.target_eq, hrelisted.isDirectory_eq]

theorem searchIn_of_perm {search again : List String → Except PathFault (List Path)}
    (hsame : ∀ place found, search place = .ok found →
      ∃ others, again place = .ok others ∧ found.Perm others) {found : List Path}
    (hfound : tree.searchIn path search = .ok found) :
    ∃ others, other.searchIn path again = .ok others ∧ found.Perm others := by
  have hdirectory : other.directoryAt path = tree.directoryAt path := by
    rw [directoryAt, directoryAt, hrelisted.target_eq]
  rw [searchIn] at hfound ⊢
  rw [hdirectory]
  cases hplace : tree.directoryAt path with
  | error fault =>
    rw [hplace] at hfound
    cases hfound
  | ok place =>
    rw [hplace] at hfound
    cases place with
    | none => exact ⟨found, hfound, List.Perm.refl found⟩
    | some place => exact hsame place found hfound

theorem matchingNames_perm (rest : List PatternComponent) (pieces : List PatternPiece)
    (place : List String) :
    (tree.matchingNames rest pieces place).Perm (other.matchingNames rest pieces place) :=
  ((hrelisted.perm.filterMap _).filter _).map _

theorem directoriesBelow_perm (place : List String) :
    (tree.directoriesBelow place).Perm (other.directoriesBelow place) :=
  (hrelisted.perm.filterMap _).cons _

/-- A search finds the same paths in whatever order a tree is listed. -/
theorem select_of_perm {components : List PatternComponent} {found : List Path}
    (hfound : tree.select components path = .ok found) :
    ∃ others, other.select components path = .ok others ∧ found.Perm others := by
  -- Only the order in which places are gone through differs, and the rest of the search starts at
  -- the same paths.
  induction components generalizing path found with
  | nil => exact ⟨found, hfound, List.Perm.refl found⟩
  | cons component rest ih =>
    cases component with
    | directory => exact ⟨found, hfound, List.Perm.refl found⟩
    | named name =>
      rw [select_named] at hfound ⊢
      rw [← hrelisted.goesOn_eq]
      cases hasked : tree.goesOn rest (path.child name) with
      | error fault =>
        rw [hasked] at hfound
        cases hfound
      | ok there =>
        rw [hasked] at hfound
        cases there with
        | false => exact ⟨found, hfound, List.Perm.refl found⟩
        | true => exact ih hfound
    | matching pieces =>
      rw [select_matching] at hfound ⊢
      refine hrelisted.searchIn_of_perm (fun place found hsearch => ?_) hfound
      exact mapM_flatten_of_perm (hrelisted.matchingNames_perm rest pieces place)
        (fun name _ part hpart => ih hpart) hsearch
    | anyDirectories =>
      rw [select_anyDirectories] at hfound ⊢
      refine hrelisted.searchIn_of_perm (fun place found hsearch => ?_) hfound
      obtain ⟨flat, hflat, rfl⟩ := map_eq_ok_iff.mp hsearch
      obtain ⟨others, hothers, hperm⟩ := mapM_flatten_of_perm
        ((hrelisted.directoriesBelow_perm place).map path.descend)
        (fun start _ part hpart => ih hpart) hflat
      exact ⟨_, map_eq_ok_iff.mpr ⟨others, hothers, rfl⟩, eraseDups_of_perm hperm⟩

theorem search_of_perm {pattern : String} {found : List Path}
    (hfound : tree.search path pattern = .ok found) :
    ∃ others, other.search path pattern = .ok others ∧ found.Perm others := by
  rw [search] at hfound ⊢
  rw [← hrelisted.isDirectory_eq]
  split at hfound
  · cases hfound
  · split at hfound
    · cases hfound
    · exact ⟨found, hfound, List.Perm.refl found⟩
    · split at hfound
      · cases hfound
      · next hselected =>
        obtain rfl := Except.ok.inj hfound
        obtain ⟨others, hothers, hperm⟩ := hrelisted.select_of_perm hselected
        rw [hothers]
        exact ⟨others, rfl, hperm⟩

end Relisted

theorem Proper.of_perm (hproper : tree.Proper) (hperm : tree.entries.Perm other.entries) :
    other.Proper where
  distinct := (hperm.map Prod.fst).nodup_iff.mp hproper.distinct
  placed := fun listed hmem => hproper.placed listed (hperm.mem_iff.mpr hmem)
  named := fun listed hmem => hproper.named listed (hperm.mem_iff.mpr hmem)
  parents := fun listed hmem =>
    (hproper.parents listed (hperm.mem_iff.mpr hmem)).imp_right hperm.mem_iff.mp

theorem Rooted.of_perm {root : Path} {place : List String} (hrooted : tree.Rooted root place)
    (hperm : tree.entries.Perm other.entries) : other.Rooted root place where
  proper := hrooted.proper.of_perm hperm
  leads := by
    have hrelisted : tree.Relisted other := ⟨hrooted.proper.distinct, hperm⟩
    rw [← hrelisted.target_eq, hrooted.leads]

/-! ### Names in a directory, directories below it -/

theorem mem_children_iff {place : List String} {found : String × Bool} :
    found ∈ tree.children place
      ↔ ∃ entry, (place ++ [found.1], entry) ∈ tree.entries
          ∧ found.2 = (entry == Entry.directory) := by
  obtain ⟨name, isDirectory⟩ := found
  rw [children, List.mem_filterMap]
  constructor
  · rintro ⟨⟨listed, entry⟩, hmem, hfound⟩
    dsimp only at hfound
    split at hfound
    · next last hlast =>
      split at hfound
      · next habove =>
        obtain ⟨rfl, rfl⟩ := Prod.mk.inj (Option.some.inj hfound)
        obtain rfl : listed.dropLast = place := by simpa using habove
        have hsplit : listed.dropLast ++ [last] = listed := List.dropLast_append_getLast? last hlast
        exact ⟨entry, by rwa [hsplit], rfl⟩
      · cases hfound
    · cases hfound
  · rintro ⟨entry, hmem, hkind⟩
    dsimp only at hmem hkind
    exact ⟨(place ++ [name], entry), hmem, by simp [hkind]⟩

theorem mem_matchingNames_iff {pieces : List PatternPiece} {place : List String} {name : String} :
    name ∈ tree.matchingNames rest pieces place
      ↔ ∃ entry, (place ++ [name], entry) ∈ tree.entries
          ∧ (rest = [] ∨ entry = .directory) ∧ matchesPieces pieces name.toList = true := by
  rw [matchingNames, List.mem_map]
  constructor
  · rintro ⟨found, hmem, rfl⟩
    obtain ⟨hchild, hwanted⟩ := List.mem_filter.mp hmem
    obtain ⟨entry, hlisted, hkind⟩ := mem_children_iff.mp hchild
    refine ⟨entry, hlisted, ?_⟩
    simpa [hkind] using hwanted
  · rintro ⟨entry, hlisted, hwanted⟩
    refine ⟨(name, entry == .directory), List.mem_filter.mpr ⟨?_, ?_⟩, rfl⟩
    · exact mem_children_iff.mpr ⟨entry, hlisted, rfl⟩
    · simpa using hwanted

theorem mem_directoriesBelow_iff {place below : List String} :
    below ∈ tree.directoriesBelow place
      ↔ below = [] ∨ below ≠ [] ∧ (place ++ below, .directory) ∈ tree.entries := by
  rw [directoriesBelow, List.mem_cons, List.mem_filterMap]
  refine or_congr_right ?_
  constructor
  · rintro ⟨⟨listed, entry⟩, hmem, hfound⟩
    dsimp only at hfound
    split at hfound
    · next hwanted =>
      obtain rfl := Option.some.inj hfound
      simp only [Bool.and_eq_true, beq_iff_eq, decide_eq_true_eq] at hwanted
      obtain ⟨⟨rfl, hfront⟩, hlonger⟩ := hwanted
      obtain ⟨below, rfl⟩ := List.isPrefixOf_iff_prefix.mp hfront
      rw [List.drop_left]
      refine ⟨?_, hmem⟩
      rintro rfl
      simp at hlonger
    · cases hfound
  · rintro ⟨hbelow, hlisted⟩
    refine ⟨(place ++ below, .directory), hlisted, ?_⟩
    have hlonger : 0 < below.length := List.length_pos_of_ne_nil hbelow
    simp [hlonger]

/-! ### Null characters -/

theorem exists_target_of_answer {ask : Target → Bool}
    (hanswer : answer ask (tree.target path) = .ok true) :
    ∃ target, tree.target path = .ok target ∧ ask target = true := by
  cases htarget : tree.target path with
  | ok target =>
    rw [htarget] at hanswer
    exact ⟨target, rfl, Except.ok.inj hanswer⟩
  | error fault =>
    rw [htarget] at hanswer
    unfold answer at hanswer
    split at hanswer <;> simp_all

/-- A directory is all that is answered yes when one is asked for. -/
theorem exists_directory_of_isDirectory (hanswer : tree.isDirectory path = .ok true) :
    ∃ place, tree.target path = .ok (.directory place) := by
  obtain ⟨target, htarget, hdirectory⟩ := exists_target_of_answer hanswer
  cases target with
  | directory place => exact ⟨place, htarget⟩
  | file content => cases hdirectory
  | unreadable error => cases hdirectory

theorem nullFree_of_answer {ask : Target → Bool}
    (hanswer : answer ask (tree.target path) = .ok true) : path.NullFree := by
  obtain ⟨target, htarget, -⟩ := exists_target_of_answer hanswer
  exact nullFree_of_target htarget

theorem nullFree_of_goesOn (hasked : tree.goesOn rest path = .ok true) : path.NullFree := by
  unfold goesOn at hasked
  split at hasked
  · exact nullFree_of_answer hasked
  · exact nullFree_of_answer hasked

theorem exists_of_searchIn {search : List String → Except PathFault (List Path)}
    {found : List Path} (hfound : tree.searchIn path search = .ok found) :
    found = [] ∨ ∃ place, search place = .ok found := by
  rw [searchIn] at hfound
  split at hfound
  · cases hfound
  · exact .inl (Except.ok.inj hfound).symm
  · exact .inr ⟨_, hfound⟩

/-- A search leads to no null character: no name in a tree holds one, and a name with one that the
pattern gives is never there. -/
theorem select_nullFree (hproper : tree.Proper) {components : List PatternComponent}
    (hpath : path.NullFree) {found : List Path}
    (hfound : tree.select components path = .ok found) : ∀ item ∈ found, item.NullFree := by
  -- The path reached so far carries the invariant. A name that the pattern gives is asked about
  -- before it is kept; all other names are listed.
  induction components generalizing path found with
  | nil =>
    obtain rfl := Except.ok.inj hfound
    simpa using hpath
  | cons component rest ih =>
    cases component with
    | directory =>
      obtain rfl := Except.ok.inj hfound
      simpa using hpath
    | named name =>
      rw [select_named] at hfound
      cases hasked : tree.goesOn rest (path.child name) with
      | error fault =>
        rw [hasked] at hfound
        cases hfound
      | ok there =>
        rw [hasked] at hfound
        cases there with
        | false =>
          obtain rfl := Except.ok.inj hfound
          exact fun item hmem => absurd hmem List.not_mem_nil
        | true => exact ih (nullFree_of_goesOn hasked) hfound
    | matching pieces =>
      rw [select_matching] at hfound
      obtain rfl | ⟨place, hsearch⟩ := exists_of_searchIn hfound
      · exact fun item hmem => absurd hmem List.not_mem_nil
      intro item hmem
      obtain ⟨name, hname, part, hpart, hitem⟩ := exists_of_mem_mapM_flatten hsearch hmem
      obtain ⟨entry, hlisted, -⟩ := mem_matchingNames_iff.mp hname
      refine ih ?_ hpart item hitem
      apply hpath.descend
      intro other hother
      exact (hproper.properName hlisted hother).no_null
    | anyDirectories =>
      rw [select_anyDirectories] at hfound
      obtain rfl | ⟨place, hsearch⟩ := exists_of_searchIn hfound
      · exact fun item hmem => absurd hmem List.not_mem_nil
      intro item hmem
      obtain ⟨flat, hflat, rfl⟩ := map_eq_ok_iff.mp hsearch
      rw [List.mem_eraseDups] at hmem
      obtain ⟨start, hstart, part, hpart, hitem⟩ := exists_of_mem_mapM_flatten hflat hmem
      obtain ⟨below, hbelow, rfl⟩ := List.mem_map.mp hstart
      refine ih ?_ hpart item hitem
      apply hpath.descend
      intro name hname
      obtain rfl | ⟨-, hlisted⟩ := mem_directoriesBelow_iff.mp hbelow
      · exact absurd hname List.not_mem_nil
      · exact (hproper.properName hlisted hname).no_null

theorem search_nullFree (hproper : tree.Proper) {pattern : String} {found : List Path}
    (hfound : tree.search path pattern = .ok found) : ∀ item ∈ found, item.NullFree := by
  rw [search] at hfound
  split at hfound
  · cases hfound
  · split at hfound
    · cases hfound
    · obtain rfl := Except.ok.inj hfound
      exact fun item hmem => absurd hmem List.not_mem_nil
    · next hroot =>
      split at hfound
      · cases hfound
      · next hselected =>
        obtain rfl := Except.ok.inj hfound
        exact select_nullFree hproper (nullFree_of_answer hroot) hselected

end FileTree

end ExtensionAudit
