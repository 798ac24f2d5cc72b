import Mathlib
import ExtensionAudit.Proofs.FileTree.Search

/-!
# Trees that agree on what is shown

A path sees of a tree what stands at the places that it comes through. So two trees give it the same
answers if they agree at those places, whatever they hold elsewhere: places are shown if they are
reached from shown ones upwards or by clean names. And they need not even agree there altogether,
since a link that leads nowhere stops a path just as an empty place does.
-/

namespace ExtensionAudit.FileTree

variable {tree other : FileTree} {shown : List String → Prop} {clean : String → Prop}

/-- What a path that comes through a place finds there. A link that leads nowhere is nothing. -/
def passage (tree : FileTree) (place : List String) : Option Entry :=
  match tree.entry? place with
  | some .danglingLink => none
  | entry => entry

theorem passage_eq_some_iff {place : List String} {through : Entry} :
    tree.passage place = some through
      ↔ tree.entry? place = some through ∧ through ≠ .danglingLink := by
  rw [passage]
  cases tree.entry? place with
  | none => simp
  | some entry => cases entry <;> simp <;> rintro rfl <;> simp

/-- The trees agree, as far as paths can tell, at the places that are shown. -/
structure AlikeOn (tree other : FileTree) (shown : List String → Prop) (clean : String → Prop) :
    Prop where
  up : ∀ {place}, shown place → shown place.dropLast
  down : ∀ {place name}, shown place → clean name → shown (place ++ [name])
  alike : ∀ {place}, shown place → tree.passage place = other.passage place

/-- One step of a path depends on what the entry is to it. -/
theorem follow_cons (tree : FileTree) {place : List String} {part : String}
    (hpart : part ≠ "..") (hshort : ¬ part.utf8ByteSize > maxNameBytes) (rest : List String) :
    tree.follow (some place) (part :: rest) =
      match tree.passage (place ++ [part]) with
      | some .directory => tree.follow (some (place ++ [part])) rest
      | some (.file content) => if rest.isEmpty then .ok (.file content) else .error .notDirectory
      | some (.unreadable error) =>
        if rest.isEmpty then .ok (.unreadable error) else .error .notDirectory
      | _ => .error .notFound := by
  have hdots : ¬ (part == "..") = true := by rwa [beq_iff_eq]
  rw [follow, if_neg hdots, if_neg hshort, passage]
  cases tree.entry? (place ++ [part]) with
  | none => rfl
  | some entry => cases entry <;> rfl

namespace AlikeOn

variable (halike : tree.AlikeOn other shown clean)

include halike

theorem shown_append {place below : List String} (hplace : shown place)
    (hbelow : ∀ name ∈ below, clean name) : shown (place ++ below) := by
  induction below generalizing place with
  | nil => rwa [List.append_nil]
  | cons name rest ih =>
    obtain ⟨hname, hrest⟩ := List.forall_mem_cons.mp hbelow
    rw [List.append_cons]
    exact ih (halike.down hplace hname) hrest

theorem follow_eq {parts : List String} (hparts : ∀ part ∈ parts, clean part)
    {start : Option (List String)} (hstart : ∀ place ∈ start, shown place) :
    tree.follow start parts = other.follow start parts := by
  -- Each step goes up or to a clean name, so the path does not leave what is shown.
  induction parts generalizing start with
  | nil => cases start <;> rfl
  | cons part rest ih =>
    obtain ⟨hpart, hrest⟩ := List.forall_mem_cons.mp hparts
    have hgoes {next : Option (List String)} (hnext : ∀ place ∈ next, shown place) :
        tree.follow next rest = other.follow next rest := ih hrest hnext
    cases start with
    | none => rw [follow, follow, hgoes (by simp)]
    | some place =>
      have hplace : shown place := hstart place rfl
      by_cases hdots : part = ".."
      · rw [hdots, follow, follow, if_pos (beq_self_eq_true _), if_pos (beq_self_eq_true _)]
        apply hgoes
        intro above habove
        split at habove
        · cases habove
        · obtain rfl := Option.some.inj habove
          exact halike.up hplace
      · by_cases hlong : part.utf8ByteSize > maxNameBytes
        · have hname : ¬ (part == "..") = true := by rwa [beq_iff_eq]
          rw [follow, follow, if_neg hname, if_neg hname, if_pos hlong, if_pos hlong]
        · have hthere : shown (place ++ [part]) := halike.down hplace hpart
          rw [follow_cons tree hdots hlong, follow_cons other hdots hlong, halike.alike hthere,
            hgoes (by simpa using hthere)]

/-- A path of clean names leads from what is shown to what is shown. -/
theorem shown_of_follow {parts : List String} (hparts : ∀ part ∈ parts, clean part)
    {start reached : Option (List String)} (hstart : ∀ place ∈ start, shown place)
    (hfollow : tree.follow start parts = .ok (.directory reached)) :
    ∀ place ∈ reached, shown place := by
  induction parts generalizing start with
  | nil =>
    obtain ⟨⟩ : start = reached := by simpa [follow] using hfollow
    exact hstart
  | cons part rest ih =>
    obtain ⟨hpart, hrest⟩ := List.forall_mem_cons.mp hparts
    cases start with
    | none =>
      rw [follow] at hfollow
      split at hfollow
      · exact ih hrest (by simp) hfollow
      · split at hfollow <;> cases hfollow
    | some place =>
      have hplace : shown place := hstart place rfl
      by_cases hdots : part = ".."
      · rw [hdots, follow, if_pos (beq_self_eq_true _)] at hfollow
        refine ih hrest ?_ hfollow
        intro above habove
        split at habove
        · cases habove
        · obtain rfl := Option.some.inj habove
          exact halike.up hplace
      · by_cases hlong : part.utf8ByteSize > maxNameBytes
        · have hname : ¬ (part == "..") = true := by rwa [beq_iff_eq]
          rw [follow, if_neg hname, if_pos hlong] at hfollow
          cases hfollow
        · rw [follow_cons tree hdots hlong] at hfollow
          split at hfollow
          · refine ih hrest ?_ hfollow
            simpa using halike.down hplace hpart
          · split at hfollow <;> cases hfollow
          · split at hfollow <;> cases hfollow
          · cases hfollow

/-- From a path that leads to the same shown directory in both trees, clean names lead to the
same. -/
theorem target_descend_eq {path : Path} {start : Option (List String)}
    (hstart : ∀ place ∈ start, shown place) (hleads : tree.target path = .ok (.directory start))
    (hsame : tree.target path = other.target path) {below : List String}
    (hbelow : ∀ part ∈ below, clean part) :
    tree.target (path.descend below) = other.target (path.descend below) := by
  have hfollow : tree.follow (origin (path.descend below)) (path.descend below).parts
      = other.follow (origin (path.descend below)) (path.descend below).parts := by
    calc tree.follow (origin path) (path.parts ++ below)
        = tree.follow start below := follow_append tree (follow_of_target hleads) below
      _ = other.follow start below := halike.follow_eq hbelow hstart
      _ = other.follow (origin path) (path.parts ++ below) :=
          (follow_append other (follow_of_target (hsame.symm.trans hleads)) below).symm
  rw [target, target, hfollow]

theorem shown_of_target {path : Path} {start reached : Option (List String)}
    (hstart : ∀ place ∈ start, shown place) (hleads : tree.target path = .ok (.directory start))
    {below : List String} (hbelow : ∀ part ∈ below, clean part)
    (htarget : tree.target (path.descend below) = .ok (.directory reached)) :
    ∀ place ∈ reached, shown place := by
  have hfollow : tree.follow start below = .ok (.directory reached) := by
    rw [← follow_append tree (follow_of_target hleads) below]
    exact follow_of_target htarget
  exact halike.shown_of_follow hbelow hstart hfollow

end AlikeOn

/-- Any two trees agree where nothing is shown, which is what is seen from outside of them. -/
theorem alikeOn_nothing (tree other : FileTree) :
    tree.AlikeOn other (fun _ => False) (fun _ => True) where
  up := False.elim
  down := fun hshown _ => hshown
  alike := False.elim

theorem target_of_slashes {path : Path} (hslashes : path.slashes > 0) (tree other : FileTree) :
    tree.target path = other.target path := by
  have hfollow : tree.follow (origin path) path.parts = other.follow (origin path) path.parts := by
    apply (alikeOn_nothing tree other).follow_eq fun _ _ => trivial
    simp [origin, hslashes]
  rw [target, target, hfollow]

/-! ### Answers about a path that leads to the same -/

section Answers

variable {path : Path} (hsame : tree.target path = other.target path)

include hsame

theorem pathExists_congr : tree.pathExists path = other.pathExists path := by
  rw [pathExists, pathExists, hsame]

theorem isDirectory_congr : tree.isDirectory path = other.isDirectory path := by
  rw [isDirectory, isDirectory, hsame]

theorem read_congr : tree.read path = other.read path := by
  rw [read, read, hsame]

theorem directoryAt_congr : tree.directoryAt path = other.directoryAt path := by
  rw [directoryAt, directoryAt, hsame]

theorem goesOn_congr (rest : List PatternComponent) :
    tree.goesOn rest path = other.goesOn rest path := by
  rw [goesOn, goesOn, pathExists_congr hsame, isDirectory_congr hsame]

end Answers

end ExtensionAudit.FileTree
