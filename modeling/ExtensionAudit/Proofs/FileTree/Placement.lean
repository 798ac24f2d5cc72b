import Mathlib
import ExtensionAudit.FileTree.Basic

/-!
# What stands below a directory

A file system lists each of its places once, under a name that can be one, and lists the directories
on the way to it. In such a tree a path that leads to a directory leads on from there to every place
below: what is reached is what the tree lists at that place. The one thing in the way is the length
of the path as it is written, which has nothing to do with the tree.
-/

namespace ExtensionAudit

/-- A name that a file system gives to a place. -/
structure ProperName (name : String) : Prop where
  nonempty : name ≠ ""
  not_dot : name ≠ "."
  not_dots : name ≠ ".."
  no_slash : '/' ∉ name.toList
  no_null : '\x00' ∉ name.toList
  short : name.utf8ByteSize ≤ FileTree.maxNameBytes

instance (name : String) : Decidable (ProperName name) :=
  decidable_of_iff (name ≠ "" ∧ name ≠ "." ∧ name ≠ ".." ∧ '/' ∉ name.toList ∧ '\x00' ∉ name.toList
      ∧ name.utf8ByteSize ≤ FileTree.maxNameBytes)
    ⟨fun ⟨nonempty, not_dot, not_dots, no_slash, no_null, short⟩ =>
        ⟨nonempty, not_dot, not_dots, no_slash, no_null, short⟩,
      fun hname => ⟨hname.nonempty, hname.not_dot, hname.not_dots, hname.no_slash, hname.no_null,
        hname.short⟩⟩

namespace Path

/-- The path to a place below that of a path. -/
def descend (root : Path) (below : List String) : Path :=
  { root with parts := root.parts ++ below }

/-- No component of the path holds a null character. -/
def NullFree (path : Path) : Prop := ∀ part ∈ path.parts, '\x00' ∉ part.toList

/-- The path is too long for any place to be looked up under it. -/
def IsLong (path : Path) : Prop := FileTree.maxPathBytes < path.text.utf8ByteSize

instance (path : Path) : Decidable path.IsLong := inferInstanceAs (Decidable (_ < _))

variable (root : Path)

@[simp] theorem descend_nil : root.descend [] = root := by
  rw [descend, List.append_nil]

@[simp] theorem below_descend (below : List String) : (root.descend below).below root = below :=
  List.drop_left

theorem child_descend (below : List String) (name : String) :
    (root.descend below).child name = root.descend (below ++ [name]) := by
  rw [child, descend, descend, List.append_assoc]

variable {root}

theorem text_of_parts {parts : List String} (hparts : parts ≠ []) :
    (⟨0, parts⟩ : Path).text = String.intercalate "/" parts := by
  have hsome : parts.isEmpty = false := List.isEmpty_eq_false_iff.mpr hparts
  rw [text]
  simp [hsome]

/-- A path is as long as its components and the slashes between them. -/
theorem utf8ByteSize_text (part : String) (rest : List String) :
    (⟨0, part :: rest⟩ : Path).text.utf8ByteSize
      = part.utf8ByteSize + (rest.map String.utf8ByteSize).sum + rest.length := by
  rw [text_of_parts (List.cons_ne_nil part rest)]
  induction rest generalizing part with
  | nil => simp
  | cons next others ih =>
    have hslash : "/".utf8ByteSize = 1 := by decide
    rw [String.intercalate_cons_cons, String.utf8ByteSize_append, String.utf8ByteSize_append, ih,
      hslash, List.map_cons, List.sum_cons, List.length_cons]
    omega

theorem NullFree.descend (hroot : root.NullFree) {below : List String}
    (hbelow : ∀ name ∈ below, '\x00' ∉ name.toList) : (root.descend below).NullFree := by
  intro part hmem
  obtain hmem | hmem := List.mem_append.mp hmem
  · exact hroot part hmem
  · exact hbelow part hmem

end Path

/-- What a path leads to if it leads to the entry. -/
def Entry.target (place : List String) : Entry → Except FileError Target
  | .directory => .ok (.directory (some place))
  | .file content => .ok (.file content)
  | .unreadable error => .ok (.unreadable error)
  | .danglingLink => .error .notFound

section Lookup

variable {κ α : Type} [BEq κ] [LawfulBEq κ] {pairs others : List (κ × α)}

theorem lookup_eq_some_iff_mem (hdistinct : (pairs.map Prod.fst).Nodup) {key : κ} {value : α} :
    pairs.lookup key = some value ↔ (key, value) ∈ pairs := by
  induction pairs with
  | nil => simp
  | cons pair rest ih =>
    obtain ⟨hnew, hrest⟩ := List.nodup_cons.mp hdistinct
    rw [List.lookup_cons, List.mem_cons]
    by_cases hkey : key = pair.1
    · have hother : (key, value) ∉ rest := fun hmem =>
        hnew (hkey ▸ List.mem_map_of_mem (f := Prod.fst) hmem)
      simp [hkey, Prod.ext_iff, eq_comm, hkey ▸ hother]
    · rw [beq_false_of_ne hkey, ih hrest]
      simp [Prod.ext_iff, hkey]

/-- Where keys are distinct, their order does not matter. -/
theorem lookup_eq_of_perm (hdistinct : (pairs.map Prod.fst).Nodup) (hperm : pairs.Perm others)
    (key : κ) : pairs.lookup key = others.lookup key := by
  have hothers : (others.map Prod.fst).Nodup := (hperm.map Prod.fst).nodup_iff.mp hdistinct
  apply Option.ext
  intro value
  rw [lookup_eq_some_iff_mem hdistinct, lookup_eq_some_iff_mem hothers]
  exact hperm.mem_iff

end Lookup

namespace FileTree

/-- The tree has a directory at a place. The working directory itself is not listed. -/
def HasDirectory (tree : FileTree) (place : List String) : Prop :=
  place = [] ∨ (place, .directory) ∈ tree.entries

instance (tree : FileTree) (place : List String) : Decidable (tree.HasDirectory place) :=
  inferInstanceAs (Decidable (_ ∨ _))

/-- A tree as a file system lists it. -/
structure Proper (tree : FileTree) : Prop where
  distinct : (tree.entries.map Prod.fst).Nodup
  placed : ∀ listed ∈ tree.entries, listed.1 ≠ []
  named : ∀ listed ∈ tree.entries, ∀ name ∈ listed.1, ProperName name
  parents : ∀ listed ∈ tree.entries, tree.HasDirectory listed.1.dropLast

instance (tree : FileTree) : Decidable tree.Proper :=
  decidable_of_iff ((tree.entries.map Prod.fst).Nodup
      ∧ (∀ listed ∈ tree.entries, listed.1 ≠ [])
      ∧ (∀ listed ∈ tree.entries, ∀ name ∈ listed.1, ProperName name)
      ∧ ∀ listed ∈ tree.entries, tree.HasDirectory listed.1.dropLast)
    ⟨fun ⟨distinct, placed, named, parents⟩ => ⟨distinct, placed, named, parents⟩,
      fun hproper => ⟨hproper.distinct, hproper.placed, hproper.named, hproper.parents⟩⟩

/-! ### Paths that can be looked up -/

theorem admissible_of_nullFree {path : Path} (hfree : path.NullFree) :
    admissible path = if path.IsLong then .error (.refused .nameTooLong path) else .ok () := by
  have hnull : path.parts.any (·.toList.contains '\x00') = false := by
    simpa [Path.NullFree] using hfree
  rw [admissible, hnull, if_neg Bool.false_ne_true]
  rfl

theorem admissible_eq_ok_iff (path : Path) :
    admissible path = .ok () ↔ path.NullFree ∧ ¬ path.IsLong := by
  by_cases hfree : path.NullFree
  · rw [admissible_of_nullFree hfree]
    by_cases hlong : path.IsLong <;> simp [hlong, hfree]
  · have hnull : path.parts.any (·.toList.contains '\x00') = true := by
      simpa [Path.NullFree] using hfree
    rw [admissible, if_pos hnull]
    simp [hfree]

theorem admissible_of_target {tree : FileTree} {path : Path} {target : Target}
    (htarget : tree.target path = .ok target) : admissible path = .ok () := by
  rw [FileTree.target] at htarget
  cases hadmissible : admissible path with
  | ok _ => rfl
  | error fault =>
    rw [hadmissible] at htarget
    cases htarget

theorem follow_of_target {tree : FileTree} {path : Path} {target : Target}
    (htarget : tree.target path = .ok target) :
    tree.follow (origin path) path.parts = .ok target := by
  rw [FileTree.target, admissible_of_target htarget] at htarget
  cases hfollow : tree.follow (origin path) path.parts with
  | ok other =>
    simp only [hfollow] at htarget
    rw [Except.ok.inj htarget]
  | error error =>
    simp only [hfollow] at htarget
    cases htarget

theorem nullFree_of_target {tree : FileTree} {path : Path} {target : Target}
    (htarget : tree.target path = .ok target) : path.NullFree :=
  ((admissible_eq_ok_iff path).mp (admissible_of_target htarget)).1

/-! ### Following a path in two parts -/

/-- A path that leads to a directory leads on as the directory does. -/
theorem follow_append (tree : FileTree) {start place : Option (List String)}
    {first : List String} (hfirst : tree.follow start first = .ok (.directory place))
    (second : List String) : tree.follow start (first ++ second) = tree.follow place second := by
  induction first generalizing start with
  | nil =>
    obtain ⟨⟩ : start = place := by simpa [follow] using hfirst
    rfl
  | cons part rest ih =>
    rw [List.cons_append]
    cases start with
    | none =>
      rw [follow] at hfirst ⊢
      split at hfirst
      · next hdots =>
        rw [if_pos hdots]
        exact ih hfirst
      · split at hfirst <;> cases hfirst
    | some above =>
      rw [follow] at hfirst ⊢
      split at hfirst
      · next hdots =>
        rw [if_pos hdots]
        exact ih hfirst
      · next hdots =>
        rw [if_neg hdots]
        split at hfirst
        · cases hfirst
        · next hshort =>
          rw [if_neg hshort]
          cases hentry : tree.entry? (above ++ [part]) with
          | none => simp [hentry] at hfirst
          | some entry =>
            cases entry with
            | directory =>
              rw [hentry] at hfirst
              exact ih hfirst
            | file content =>
              rw [hentry] at hfirst
              dsimp only at hfirst
              split at hfirst <;> cases hfirst
            | unreadable error =>
              rw [hentry] at hfirst
              dsimp only at hfirst
              split at hfirst <;> cases hfirst
            | danglingLink => simp [hentry] at hfirst

/-! ### Places below a directory -/

namespace Proper

variable {tree : FileTree} (hproper : tree.Proper)

include hproper

theorem entry?_eq_some_iff {place : List String} {entry : Entry} (hplace : place ≠ []) :
    tree.entry? place = some entry ↔ (place, entry) ∈ tree.entries := by
  have hsome : place.isEmpty = false := List.isEmpty_eq_false_iff.mpr hplace
  unfold entry?
  rw [hsome, if_neg Bool.false_ne_true]
  exact lookup_eq_some_iff_mem hproper.distinct

theorem hasDirectory_of_name {place : List String} {name : String} {entry : Entry}
    (hlisted : (place ++ [name], entry) ∈ tree.entries) : tree.HasDirectory place := by
  have hparent := hproper.parents _ hlisted
  rwa [List.dropLast_concat] at hparent

/-- The tree lists a directory above each place that it lists. -/
theorem hasDirectory {place below : List String} {entry : Entry} (hbelow : below ≠ [])
    (hlisted : (place ++ below, entry) ∈ tree.entries) : tree.HasDirectory place := by
  -- From the end: the parent of the entry is a directory, and is listed itself unless it is the top.
  induction below using List.reverseRecOn generalizing entry with
  | nil => exact absurd rfl hbelow
  | append_singleton rest name ih =>
    rw [← List.append_assoc] at hlisted
    obtain habove | hparent := hproper.hasDirectory_of_name hlisted
    · exact .inl (List.append_eq_nil_iff.mp habove).1
    · by_cases hrest : rest = []
      · right
        rwa [hrest, List.append_nil] at hparent
      · exact ih hrest hparent

theorem properName {place below : List String} {entry : Entry}
    (hlisted : (place ++ below, entry) ∈ tree.entries) {name : String} (hname : name ∈ below) :
    ProperName name :=
  hproper.named _ hlisted name (List.mem_append_right place hname)

/-- The way from a directory to a place below it leads to what is listed there. -/
theorem follow_below {place below : List String} {entry : Entry} (hbelow : below ≠ [])
    (hlisted : (place ++ below, entry) ∈ tree.entries) :
    tree.follow (some place) below = entry.target (place ++ below) := by
  -- Every name but the last one is that of a directory, so the way does not stop on the way.
  induction below generalizing place with
  | nil => exact absurd rfl hbelow
  | cons name rest ih =>
    have hname := hproper.properName hlisted List.mem_cons_self
    have hdots : ¬ (name == "..") = true := by
      rw [beq_iff_eq]
      exact hname.not_dots
    rw [List.append_cons] at hlisted ⊢
    rw [follow, if_neg hdots, if_neg (Nat.not_lt.mpr hname.short)]
    have hhere : place ++ [name] ≠ [] := List.append_ne_nil_of_right_ne_nil _ (List.cons_ne_nil _ _)
    cases rest with
    | nil =>
      rw [List.append_nil] at hlisted ⊢
      rw [(hproper.entry?_eq_some_iff hhere).mpr hlisted]
      cases entry <;> rfl
    | cons next others =>
      have hdirectory := (hproper.hasDirectory (List.cons_ne_nil next others) hlisted).resolve_left
        hhere
      rw [(hproper.entry?_eq_some_iff hhere).mpr hdirectory]
      exact ih (List.cons_ne_nil next others) hlisted

/-- A path that goes up from a directory and back, any number of times, leads to it. -/
theorem follow_up_and_back {place : List String} {name : String}
    (hlisted : (place ++ [name], .directory) ∈ tree.entries) (times : Nat) :
    tree.follow (some (place ++ [name])) (List.replicate times ["..", name]).flatten
      = .ok (.directory (some (place ++ [name]))) := by
  induction times with
  | zero => rfl
  | succ times ih =>
    have hback : tree.follow (some (place ++ [name])) ["..", name]
        = .ok (.directory (some (place ++ [name]))) := by
      rw [follow, if_pos (beq_self_eq_true _), if_neg (by simp), List.dropLast_concat,
        hproper.follow_below (List.cons_ne_nil name []) hlisted]
      rfl
    rw [List.replicate_succ, List.flatten_cons, follow_append tree hback, ih]

end Proper

/-! ### A root and what stands below it -/

/-- A path that leads to a directory of a tree as a file system lists it. -/
structure Rooted (tree : FileTree) (root : Path) (place : List String) : Prop where
  proper : tree.Proper
  leads : tree.target root = .ok (.directory (some place))

namespace Rooted

variable {tree : FileTree} {root : Path} {place below : List String} {entry : Entry}
  (hrooted : tree.Rooted root place)

include hrooted

theorem descend_nullFree (hlisted : (place ++ below, entry) ∈ tree.entries) :
    (root.descend below).NullFree := by
  apply (nullFree_of_target hrooted.leads).descend
  intro name hname
  exact (hrooted.proper.properName hlisted hname).no_null

theorem target_of_isLong (hlisted : (place ++ below, entry) ∈ tree.entries)
    (hlong : (root.descend below).IsLong) :
    tree.target (root.descend below) = .error (.refused .nameTooLong (root.descend below)) := by
  rw [target, admissible_of_nullFree (hrooted.descend_nullFree hlisted), if_pos hlong]

/-- Unless its path is too long, a place below the root is reached. -/
theorem target_descend (hbelow : below ≠ [])
    (hlisted : (place ++ below, entry) ∈ tree.entries) (hshort : ¬ (root.descend below).IsLong) :
    tree.target (root.descend below)
      = (entry.target (place ++ below)).mapError (.refused · (root.descend below)) := by
  have hfollow : tree.follow (origin (root.descend below)) (root.descend below).parts
      = entry.target (place ++ below) := by
    rw [← hrooted.proper.follow_below hbelow hlisted]
    exact follow_append tree (follow_of_target hrooted.leads) below
  rw [target, admissible_of_nullFree (hrooted.descend_nullFree hlisted), if_neg hshort, hfollow]
  cases entry <;> rfl

theorem isDirectory_root : tree.isDirectory root = .ok true := by
  rw [isDirectory, hrooted.leads]
  rfl

theorem isDirectory_of_isLong (hlisted : (place ++ below, entry) ∈ tree.entries)
    (hlong : (root.descend below).IsLong) :
    tree.isDirectory (root.descend below)
      = .error (.refused .nameTooLong (root.descend below)) := by
  rw [isDirectory, hrooted.target_of_isLong hlisted hlong]
  rfl

theorem isDirectory_descend (hbelow : below ≠ [])
    (hlisted : (place ++ below, entry) ∈ tree.entries) (hshort : ¬ (root.descend below).IsLong) :
    tree.isDirectory (root.descend below) = .ok (entry == .directory) := by
  rw [isDirectory, hrooted.target_descend hbelow hlisted hshort]
  cases entry <;> rfl

end Rooted

end FileTree

end ExtensionAudit
