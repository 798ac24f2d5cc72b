import Mathlib
import ExtensionAudit.Proofs.FileTree.Agreement

/-!
# Where a search comes to

A search goes many ways, and each of them ends at a path: it finds the path, or it is stuck there
because the path is too long to be looked up. A search that is stuck anywhere fails over such a
path, any other one finds what its ways find. One way depends only on the places that it comes
through, so trees that agree on what is shown have the same ways to paths of clean names.
-/

namespace ExtensionAudit

theorem Path.descend_descend (path : Path) (names below : List String) :
    (path.descend names).descend below = path.descend (names ++ below) := by
  rw [descend, descend, descend, List.append_assoc]

namespace FileTree

variable {tree other : FileTree} {components rest : List PatternComponent} {path last : Path}
  {stuck : Bool}

/-- The path is too long, or a name in it is. -/
def IsStuck (tree : FileTree) (path : Path) : Prop :=
  tree.target path = .error (.refused .nameTooLong path)

/-- One way of the search for a pattern from a path on ends at the last path, where it is stuck or
which it finds. -/
inductive Reaches (tree : FileTree) : List PatternComponent → Path → Bool → Path → Prop where
  | found {path : Path} : Reaches tree [] path false path
  | slash {rest : List PatternComponent} {path : Path} :
      Reaches tree (.directory :: rest) path false path
  | named {name : String} {rest : List PatternComponent} {path last : Path} {stuck : Bool} :
      tree.goesOn rest (path.child name) = .ok true →
      Reaches tree rest (path.child name) stuck last →
      Reaches tree (.named name :: rest) path stuck last
  | namedStuck {name : String} {rest : List PatternComponent} {path : Path} :
      tree.IsStuck (path.child name) →
      Reaches tree (.named name :: rest) path true (path.child name)
  | matching {pieces : List PatternPiece} {rest : List PatternComponent} {path last : Path}
      {place : List String} {name : String} {stuck : Bool} :
      tree.directoryAt path = .ok (some place) → name ∈ tree.matchingNames rest pieces place →
      Reaches tree rest (path.child name) stuck last →
      Reaches tree (.matching pieces :: rest) path stuck last
  | matchingStuck {pieces : List PatternPiece} {rest : List PatternComponent} {path : Path} :
      tree.IsStuck path → Reaches tree (.matching pieces :: rest) path true path
  | anyDirectories {rest : List PatternComponent} {path last : Path} {place below : List String}
      {stuck : Bool} :
      tree.directoryAt path = .ok (some place) → below ∈ tree.directoriesBelow place →
      Reaches tree rest (path.descend below) stuck last →
      Reaches tree (.anyDirectories :: rest) path stuck last
  | anyDirectoriesStuck {rest : List PatternComponent} {path : Path} :
      tree.IsStuck path → Reaches tree (.anyDirectories :: rest) path true path

/-! ### Paths that are too long -/

theorem target_eq_refused {error : FileError} {place : Path}
    (htarget : tree.target path = .error (.refused error place)) : place = path := by
  rw [target, admissible] at htarget
  split at htarget
  · next hadmissible =>
    split at hadmissible
    · cases hadmissible
      cases htarget
    · split at hadmissible
      · cases hadmissible
        cases htarget
        rfl
      · cases hadmissible
  · split at htarget
    · cases htarget
    · cases htarget
      rfl

theorem answer_eq_error_iff {ask : Target → Bool} {fault : PathFault} :
    answer ask (tree.target path) = .error fault
      ↔ tree.IsStuck path ∧ fault = .refused .nameTooLong path := by
  rw [IsStuck]
  cases htarget : tree.target path with
  | ok target => simp [answer]
  | error refusal =>
    cases refusal with
    | nullCharacter => simp [answer]
    | refused error place =>
      obtain rfl := target_eq_refused htarget
      cases error <;> simp [answer, eq_comm]

theorem goesOn_eq_error_iff {fault : PathFault} :
    tree.goesOn rest path = .error fault
      ↔ tree.IsStuck path ∧ fault = .refused .nameTooLong path := by
  rw [goesOn]
  split
  · exact answer_eq_error_iff
  · exact answer_eq_error_iff

theorem directoryAt_eq_error_iff {fault : PathFault} :
    tree.directoryAt path = .error fault
      ↔ tree.IsStuck path ∧ fault = .refused .nameTooLong path := by
  rw [IsStuck, directoryAt]
  cases htarget : tree.target path with
  | ok target => cases target <;> simp
  | error refusal =>
    cases refusal with
    | nullCharacter => simp
    | refused error place =>
      obtain rfl := target_eq_refused htarget
      cases error <;> simp [eq_comm]

theorem directoryAt_eq_some_iff {place : List String} :
    tree.directoryAt path = .ok (some place)
      ↔ tree.target path = .ok (.directory (some place)) := by
  rw [directoryAt]
  split <;> simp_all

/-! ### One component further -/

section Steps

variable {name : String} {pieces : List PatternPiece}

theorem reaches_nil_iff : tree.Reaches [] path stuck last ↔ stuck = false ∧ last = path := by
  constructor
  · rintro ⟨⟩
    exact ⟨rfl, rfl⟩
  · rintro ⟨rfl, rfl⟩
    exact .found

theorem reaches_slash_iff :
    tree.Reaches (.directory :: rest) path stuck last ↔ stuck = false ∧ last = path := by
  constructor
  · rintro ⟨⟩
    exact ⟨rfl, rfl⟩
  · rintro ⟨rfl, rfl⟩
    exact .slash

theorem reaches_named_iff :
    tree.Reaches (.named name :: rest) path stuck last
      ↔ tree.goesOn rest (path.child name) = .ok true
            ∧ tree.Reaches rest (path.child name) stuck last
          ∨ tree.IsStuck (path.child name) ∧ stuck = true ∧ last = path.child name := by
  constructor
  · rintro (_ | _ | ⟨hasked, hlater⟩ | hstuck)
    · exact .inl ⟨hasked, hlater⟩
    · exact .inr ⟨hstuck, rfl, rfl⟩
  · rintro (⟨hasked, hlater⟩ | ⟨hstuck, rfl, rfl⟩)
    · exact .named hasked hlater
    · exact .namedStuck hstuck

theorem reaches_matching_iff :
    tree.Reaches (.matching pieces :: rest) path stuck last
      ↔ (∃ place, tree.directoryAt path = .ok (some place)
            ∧ ∃ name ∈ tree.matchingNames rest pieces place,
                tree.Reaches rest (path.child name) stuck last)
          ∨ tree.IsStuck path ∧ stuck = true ∧ last = path := by
  constructor
  · rintro (_ | _ | _ | _ | ⟨hplace, hname, hlater⟩ | hstuck)
    · exact .inl ⟨_, hplace, _, hname, hlater⟩
    · exact .inr ⟨hstuck, rfl, rfl⟩
  · rintro (⟨place, hplace, name, hname, hlater⟩ | ⟨hstuck, rfl, rfl⟩)
    · exact .matching hplace hname hlater
    · exact .matchingStuck hstuck

theorem reaches_anyDirectories_iff :
    tree.Reaches (.anyDirectories :: rest) path stuck last
      ↔ (∃ place, tree.directoryAt path = .ok (some place)
            ∧ ∃ start ∈ (tree.directoriesBelow place).map path.descend,
                tree.Reaches rest start stuck last)
          ∨ tree.IsStuck path ∧ stuck = true ∧ last = path := by
  constructor
  · rintro (_ | _ | _ | _ | _ | _ | ⟨hplace, hbelow, hlater⟩ | hstuck)
    · exact .inl ⟨_, hplace, _, List.mem_map_of_mem hbelow, hlater⟩
    · exact .inr ⟨hstuck, rfl, rfl⟩
  · rintro (⟨place, hplace, start, hstart, hlater⟩ | ⟨hstuck, rfl, rfl⟩)
    · obtain ⟨below, hbelow, rfl⟩ := List.mem_map.mp hstart
      exact .anyDirectories hplace hbelow hlater
    · exact .anyDirectoriesStuck hstuck

end Steps

/-! ### The ways of a search -/

/-- The result is that of a search whose ways are given: they find what it finds and none of them is
stuck, or it fails over a path where one is. -/
def Settled (reaches : Bool → Path → Prop) : Except PathFault (List Path) → Prop
  | .ok found => (∀ item, item ∈ found ↔ reaches false item) ∧ ∀ long, ¬ reaches true long
  | .error fault => ∃ long, fault = .refused .nameTooLong long ∧ reaches true long

theorem Settled.congr {reaches others : Bool → Path → Prop} {result : Except PathFault (List Path)}
    (hsettled : Settled reaches result)
    (hsame : ∀ stuck last, reaches stuck last ↔ others stuck last) :
    Settled others result := by
  obtain rfl : reaches = others := funext₂ fun stuck last => propext (hsame stuck last)
  exact hsettled

theorem Settled.mapM {α : Type} {places : List α} {search : α → Except PathFault (List Path)}
    {reaches : α → Bool → Path → Prop}
    (hsettled : ∀ place, Settled (reaches place) (search place)) :
    Settled (fun stuck last => ∃ place ∈ places, reaches place stuck last)
      ((places.mapM search).map List.flatten) := by
  cases hfound : (places.mapM search).map List.flatten with
  | error fault =>
    obtain ⟨place, hplace, hfails⟩ := exists_of_mapM_flatten_eq_error hfound
    have hplaced := hsettled place
    rw [hfails] at hplaced
    obtain ⟨long, hlong, hreaches⟩ := hplaced
    exact ⟨long, hlong, place, hplace, hreaches⟩
  | ok found =>
    obtain ⟨hparts, rfl⟩ := mapM_flatten_eq_ok_iff.mp hfound
    constructor
    · intro item
      rw [List.mem_flatMap]
      refine exists_congr fun place => and_congr_right fun hplace => ?_
      obtain ⟨part, hpart⟩ := hparts place hplace
      have hplaced := hsettled place
      rw [hpart] at hplaced
      rw [foundIn_eq hpart]
      exact hplaced.1 item
    · rintro long ⟨place, hplace, hreaches⟩
      obtain ⟨part, hpart⟩ := hparts place hplace
      have hplaced := hsettled place
      rw [hpart] at hplaced
      exact hplaced.2 long hreaches

theorem Settled.eraseDups {reaches : Bool → Path → Prop} {result : Except PathFault (List Path)}
    (hsettled : Settled reaches result) : Settled reaches (result.map List.eraseDups) := by
  cases result with
  | error fault => exact hsettled
  | ok found => exact ⟨fun item => by rw [List.mem_eraseDups, hsettled.1], hsettled.2⟩

theorem Settled.searchIn {search : List String → Except PathFault (List Path)}
    {reaches : List String → Bool → Path → Prop}
    (hsettled : ∀ place, Settled (reaches place) (search place)) :
    Settled (fun stuck last => (∃ place, tree.directoryAt path = .ok (some place)
        ∧ reaches place stuck last) ∨ tree.IsStuck path ∧ stuck = true ∧ last = path)
      (tree.searchIn path search) := by
  rw [FileTree.searchIn]
  have hstuck (fault : PathFault) : tree.directoryAt path = .error fault
      ↔ tree.IsStuck path ∧ fault = .refused .nameTooLong path := directoryAt_eq_error_iff
  cases hdirectory : tree.directoryAt path with
  | error fault =>
    obtain ⟨hlong, rfl⟩ := (hstuck fault).mp hdirectory
    exact ⟨path, rfl, .inr ⟨hlong, rfl, rfl⟩⟩
  | ok place =>
    have hfree : ¬ tree.IsStuck path := fun hlong => by
      rw [(hstuck _).mpr ⟨hlong, rfl⟩] at hdirectory
      cases hdirectory
    cases place with
    | none => simp [Settled, hfree]
    | some place => exact (hsettled place).congr (by simp [hfree])

/-- A search is settled by its ways. -/
theorem select_settled (tree : FileTree) (components : List PatternComponent) (path : Path) :
    Settled (tree.Reaches components path) (tree.select components path) := by
  have hhere (path : Path) :
      Settled (fun stuck last => stuck = false ∧ last = path) (.ok [path]) := by simp [Settled]
  induction components generalizing path with
  | nil => exact (hhere path).congr fun stuck last => reaches_nil_iff.symm
  | cons component rest ih =>
    cases component with
    | directory => exact (hhere path).congr fun stuck last => reaches_slash_iff.symm
    | named name =>
      rw [select_named]
      refine Settled.congr ?_ fun stuck last => reaches_named_iff.symm
      have hstuck (fault : PathFault) : tree.goesOn rest (path.child name) = .error fault
          ↔ tree.IsStuck (path.child name) ∧ fault = .refused .nameTooLong (path.child name) :=
        goesOn_eq_error_iff
      cases hasked : tree.goesOn rest (path.child name) with
      | error fault =>
        obtain ⟨hlong, rfl⟩ := (hstuck fault).mp hasked
        exact ⟨_, rfl, .inr ⟨hlong, rfl, rfl⟩⟩
      | ok there =>
        have hfree : ¬ tree.IsStuck (path.child name) := fun hlong => by
          rw [(hstuck _).mpr ⟨hlong, rfl⟩] at hasked
          cases hasked
        cases there with
        | false => simp [Settled, hfree, Except.bind]
        | true => exact (ih (path.child name)).congr (by simp [hfree])
    | matching pieces =>
      rw [select_matching]
      refine (Settled.searchIn fun place => Settled.mapM fun name => ih (path.child name)).congr ?_
      exact fun stuck last => reaches_matching_iff.symm
    | anyDirectories =>
      rw [select_anyDirectories]
      refine (Settled.searchIn fun place => (Settled.mapM fun start => ih start).eraseDups).congr ?_
      exact fun stuck last => reaches_anyDirectories_iff.symm

/-! ### Where ways lead -/

/-- A way goes down from where it begins, by names that the tree lists or the pattern gives. -/
theorem Reaches.exists_descend (fits : String → Prop)
    (hlisted : ∀ listed ∈ tree.entries, ∀ name ∈ listed.1, fits name)
    (hreaches : tree.Reaches components path stuck last)
    (hgiven : ∀ name, .named name ∈ components → fits name) :
    ∃ below, last = path.descend below ∧ ∀ name ∈ below, fits name := by
  have hnone (path : Path) :
      ∃ below, path = path.descend below ∧ ∀ name ∈ below, fits name :=
    ⟨[], (Path.descend_nil path).symm, fun _ hname => absurd hname List.not_mem_nil⟩
  have hlater {rest : List PatternComponent} {component : PatternComponent}
      (hall : ∀ name, .named name ∈ component :: rest → fits name) :
      ∀ name, .named name ∈ rest → fits name :=
    fun name hname => hall name (List.mem_cons_of_mem component hname)
  induction hreaches with
  | found | slash | matchingStuck | anyDirectoriesStuck => exact hnone _
  | @namedStuck name =>
    exact ⟨[name], rfl, fun other hother => by
      rw [List.mem_singleton.mp hother]
      exact hgiven name List.mem_cons_self⟩
  | @named name _ path _ _ _ _ ih =>
    obtain ⟨below, rfl, hbelow⟩ := ih (hlater hgiven)
    refine ⟨name :: below, path.descend_descend [name] below, ?_⟩
    exact List.forall_mem_cons.mpr ⟨hgiven name List.mem_cons_self, hbelow⟩
  | @matching _ _ path _ place name _ _ hname _ ih =>
    obtain ⟨below, rfl, hbelow⟩ := ih (hlater hgiven)
    obtain ⟨entry, hentry, -⟩ := mem_matchingNames_iff.mp hname
    refine ⟨name :: below, path.descend_descend [name] below, ?_⟩
    exact List.forall_mem_cons.mpr ⟨hlisted _ hentry name (by simp), hbelow⟩
  | @anyDirectories _ path _ place start _ _ hstart _ ih =>
    obtain ⟨below, rfl, hbelow⟩ := ih (hlater hgiven)
    refine ⟨start ++ below, path.descend_descend start below, ?_⟩
    refine List.forall_mem_append.mpr ⟨fun name hname => ?_, hbelow⟩
    obtain rfl | ⟨-, hentry⟩ := mem_directoriesBelow_iff.mp hstart
    · exact absurd hname List.not_mem_nil
    · exact hlisted _ hentry name (List.mem_append_right place hname)

theorem exists_reaches_of_search {root : Path} {pattern : String} {found : List Path}
    (hfound : tree.search root pattern = .ok found) {item : Path} (hitem : item ∈ found) :
    ∃ components, parsePattern pattern = .ok components
      ∧ tree.Reaches (.anyDirectories :: components) root false item := by
  rw [search_eq] at hfound
  obtain ⟨components, hpattern, hrest⟩ := bind_eq_ok_iff.mp hfound
  obtain ⟨there, hthere, hselected⟩ := bind_eq_ok_iff.mp hrest
  refine ⟨components, mapError_eq_ok_iff.mp hpattern, ?_⟩
  cases there with
  | false =>
    obtain rfl := Except.ok.inj hselected
    exact absurd hitem List.not_mem_nil
  | true =>
    have hsettled := select_settled tree (.anyDirectories :: components) root
    rw [mapError_eq_ok_iff.mp hselected] at hsettled
    exact (hsettled.1 item).mp hitem

section Agreement

variable {shown : List String → Prop} {clean : String → Prop} {root : Path}
  {start below : List String}

/-- A way to a path of clean names is there in a tree that agrees on what is shown. -/
theorem Reaches.of_alikeOn (halike : tree.AlikeOn other shown clean)
    (hlisted : ∀ place entry, shown place → (place, entry) ∈ tree.entries →
      (place, entry) ∈ other.entries)
    (hstart : shown start) (hleads : tree.target root = .ok (.directory (some start)))
    (hsame : tree.target root = other.target root)
    (hreaches : tree.Reaches components (root.descend below) stuck last)
    (hclean : ∀ name ∈ last.below root, clean name) :
    other.Reaches components (root.descend below) stuck last := by
  have hshown : ∀ place ∈ some start, shown place := by simpa using hstart
  have hsees {names : List String} (hnames : ∀ name ∈ names, clean name) :
      tree.target (root.descend names) = other.target (root.descend names) :=
    halike.target_descend_eq hshown hleads hsame hnames
  -- What a way comes through lies on the path to its end, so all of it is clean.
  have hfront {components : List PatternComponent} {names : List String}
      (hlater : tree.Reaches components (root.descend names) stuck last) :
      ∀ name ∈ names, clean name := by
    obtain ⟨more, rfl, -⟩ := hlater.exists_descend (fun _ => True) (fun _ _ _ _ => trivial)
      fun _ _ => trivial
    rw [Path.descend_descend, Path.below_descend] at hclean
    exact fun name hname => hclean name (List.mem_append_left more hname)
  have hplaced {names place : List String} (hnames : ∀ name ∈ names, clean name)
      (hplace : tree.directoryAt (root.descend names) = .ok (some place)) : shown place :=
    halike.shown_of_target hshown hleads hnames (directoryAt_eq_some_iff.mp hplace) place rfl
  induction components generalizing below with
  | nil => exact reaches_nil_iff.mpr (reaches_nil_iff.mp hreaches)
  | cons component rest ih =>
    have hhere := hfront hreaches
    cases component with
    | directory => exact reaches_slash_iff.mpr (reaches_slash_iff.mp hreaches)
    | named name =>
      rw [reaches_named_iff, Path.child_descend] at hreaches ⊢
      refine hreaches.imp (fun ⟨hasked, hlater⟩ => ?_) (fun ⟨hstuck, hend, hlast⟩ => ?_)
      · rw [goesOn_congr (hsees (hfront hlater)).symm]
        exact ⟨hasked, ih hlater⟩
      · rw [hlast, Path.below_descend] at hclean
        rw [IsStuck, ← hsees hclean]
        exact ⟨hstuck, hend, hlast⟩
    | matching pieces =>
      rw [reaches_matching_iff] at hreaches ⊢
      rw [IsStuck, ← hsees hhere, directoryAt_congr (hsees hhere).symm]
      refine hreaches.imp_left fun ⟨place, hplace, name, hname, hlater⟩ => ?_
      obtain ⟨entry, hentry, hwanted⟩ := mem_matchingNames_iff.mp hname
      rw [Path.child_descend] at hlater
      have hthere : shown (place ++ [name]) :=
        halike.down (hplaced hhere hplace) (hfront hlater name (by simp))
      refine ⟨place, hplace, name, mem_matchingNames_iff.mpr ?_, ?_⟩
      · exact ⟨entry, hlisted _ _ hthere hentry, hwanted⟩
      · rw [Path.child_descend]
        exact ih hlater
    | anyDirectories =>
      rw [reaches_anyDirectories_iff] at hreaches ⊢
      rw [IsStuck, ← hsees hhere, directoryAt_congr (hsees hhere).symm]
      refine hreaches.imp_left fun ⟨place, hplace, path, hpath, hlater⟩ => ?_
      obtain ⟨names, hnames, rfl⟩ := List.mem_map.mp hpath
      rw [Path.descend_descend] at hlater
      have hthere : shown (place ++ names) := by
        apply halike.shown_append (hplaced hhere hplace)
        exact fun name hname => hfront hlater name (List.mem_append_right below hname)
      have hnames : names ∈ other.directoriesBelow place := by
        refine mem_directoriesBelow_iff.mpr ((mem_directoriesBelow_iff.mp hnames).imp_right ?_)
        exact fun ⟨hsome, hentry⟩ => ⟨hsome, hlisted _ _ hthere hentry⟩
      refine ⟨place, hplace, _, List.mem_map_of_mem hnames, ?_⟩
      rw [Path.descend_descend]
      exact ih hlater

end Agreement

end FileTree

end ExtensionAudit
