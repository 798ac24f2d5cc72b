import Mathlib
import ExtensionAudit.Event.Files
import ExtensionAudit.Proofs.Package.Loading

/-!
# What the listing of a package can be read from

The listing holds texts, and the rule on events makes paths of them again. A path that holds a null
character would end the call of that rule. None does: no name in a tree holds one, neither does the
base directory, and taking a path apart and putting it together again adds none.
-/

namespace ExtensionAudit

/-! ### Texts between separators -/

section Intercalate

variable {α : Type} {separator : List α} {pieces : List (List α)} {item : α}

theorem mem_intercalate (hmem : item ∈ separator.intercalate pieces) :
    item ∈ separator ∨ ∃ piece ∈ pieces, item ∈ piece := by
  induction pieces with
  | nil => simp at hmem
  | cons piece rest ih =>
    cases rest with
    | nil => simpa using Or.inr (a := item ∈ separator) hmem
    | cons next others =>
      rw [List.intercalate_cons_cons, List.mem_append, List.mem_append] at hmem
      obtain (hpiece | hseparator) | hlater := hmem
      · exact .inr ⟨piece, List.mem_cons_self, hpiece⟩
      · exact .inl hseparator
      · obtain hseparator | ⟨other, hother, hitem⟩ := ih hlater
        · exact .inl hseparator
        · exact .inr ⟨other, List.mem_cons_of_mem piece hother, hitem⟩

theorem mem_intercalate_of_mem {piece : List α} (hpiece : piece ∈ pieces) (hitem : item ∈ piece) :
    item ∈ separator.intercalate pieces := by
  induction pieces with
  | nil => exact absurd hpiece List.not_mem_nil
  | cons first rest ih =>
    cases rest with
    | nil =>
      obtain rfl := List.mem_singleton.mp hpiece
      simpa using hitem
    | cons next others =>
      rw [List.intercalate_cons_cons]
      obtain rfl | hlater := List.mem_cons.mp hpiece
      · exact List.mem_append_left _ (List.mem_append_left _ hitem)
      · exact List.mem_append_right _ (ih hlater)

end Intercalate

namespace Path

variable {path base : Path}

/-! ### Null characters in paths and their texts -/

theorem null_not_mem_text (hpath : path.NullFree) : '\x00' ∉ path.text.toList := by
  rw [text]
  split
  · decide
  · rw [String.toList_append, String.toList_ofList, String.toList_intercalate, List.mem_append]
    rintro (hslash | hparts)
    · exact absurd (List.eq_of_mem_replicate hslash) (by decide)
    · obtain hslash | ⟨piece, hpiece, hnull⟩ := mem_intercalate hparts
      · exact absurd hslash (by decide)
      · obtain ⟨part, hpart, rfl⟩ := List.mem_map.mp hpiece
        exact hpath part hpart hnull

theorem mem_of_mem_parse {s part : String} {c : Char} (hpart : part ∈ (parse s).parts)
    (hc : c ∈ part.toList) : c ∈ s.toList := by
  have hsplit := (List.mem_filter.mp hpart).1
  obtain ⟨piece, hpiece, rfl⟩ := List.mem_map.mp hsplit
  rw [String.toList_ofList] at hc
  rw [← s.toList.intercalate_splitOn '/']
  exact mem_intercalate_of_mem hpiece hc

theorem parse_nullFree {s : String} (hs : '\x00' ∉ s.toList) : (parse s).NullFree :=
  fun _ hmem hnull => hs (mem_of_mem_parse hmem hnull)

theorem NullFree.join {other : Path} (hpath : path.NullFree) (hother : other.NullFree) :
    (path.join other).NullFree := by
  rw [Path.join]
  split
  · exact hother
  · exact hpath.descend hother

theorem mem_of_mem_cancelDots {stack parts : List String} {part : String}
    (hmem : part ∈ cancelDots stack parts) : part ∈ stack ∨ part ∈ parts := by
  induction parts generalizing stack with
  | nil => exact .inl (List.mem_reverse.mp hmem)
  | cons first rest ih =>
    rw [cancelDots] at hmem
    split at hmem
    · obtain hstack | hrest := ih hmem
      · exact .inl (List.mem_of_mem_drop hstack)
      · exact .inr (List.mem_cons_of_mem first hrest)
    · obtain hstack | hrest := ih hmem
      · obtain rfl | hstack := List.mem_cons.mp hstack
        · exact .inr List.mem_cons_self
        · exact .inl hstack
      · exact .inr (List.mem_cons_of_mem first hrest)

theorem mem_of_mem_withoutCommonFront {first second : List String} {part : String}
    (hmem : part ∈ (withoutCommonFront first second).2) : part ∈ second := by
  induction first generalizing second with
  | nil => cases second <;> exact hmem
  | cons a rest ih =>
    cases second with
    | nil => exact hmem
    | cons b others =>
      rw [withoutCommonFront] at hmem
      split at hmem
      · exact List.mem_cons_of_mem b (ih hmem)
      · exact hmem

theorem NullFree.relativeTo (hpath : path.NullFree) (base : Path) :
    (path.relativeTo base).NullFree := by
  intro part hmem
  obtain hup | hdown := List.mem_append.mp hmem
  · obtain ⟨_, -, rfl⟩ := List.mem_map.mp hup
    decide
  · have hcancelled := mem_of_mem_withoutCommonFront hdown
    obtain hstack | hpart := mem_of_mem_cancelDots hcancelled
    · exact absurd hstack List.not_mem_nil
    · exact hpath part hpart

end Path

/-! ### Reading what is listed -/

theorem FileTree.read_ne_nullCharacter {tree : FileTree} {path : Path} (hpath : path.NullFree) :
    tree.read path ≠ .error .nullCharacter := by
  intro hread
  have htarget : tree.target path = .error .nullCharacter := by
    rw [read] at hread
    cases hfound : tree.target path with
    | error fault => simpa [hfound] using hread
    | ok found => cases found <;> simp [hfound] at hread
  rw [target, admissible_of_nullFree hpath] at htarget
  by_cases hlong : path.IsLong
  · simp [hlong] at htarget
  · cases hfollow : tree.follow (origin path) path.parts <;> simp [hlong, hfollow] at htarget

/-- The search for events never fails over paths that hold no null character. -/
theorem Event.exists_crawl {tree : FileTree} {policy : PartialPolicy} {base : Path}
    (hbase : base.NullFree) {relatives : List String}
    (hrelatives : ∀ relative ∈ relatives, '\x00' ∉ relative.toList) :
    ∃ extractions, crawl tree policy base relatives = .ok extractions := by
  induction relatives with
  | nil => exact ⟨[], rfl⟩
  | cons relative rest ih =>
    obtain ⟨hfirst, hrest⟩ := List.forall_mem_cons.mp hrelatives
    obtain ⟨later, hlater⟩ := ih hrest
    have hpath := hbase.join (Path.parse_nullFree hfirst)
    have hextracted : ∃ extraction, extractFile tree policy base relative = .ok extraction := by
      rw [extractFile]
      split
      · exact ⟨_, rfl⟩
      · exact ⟨_, rfl⟩
      · next hread => exact absurd hread (FileTree.read_ne_nullCharacter hpath)
    obtain ⟨extraction, hextraction⟩ := hextracted
    rw [crawl] at hlater ⊢
    exact ⟨extraction :: later, by rw [List.mapM_cons, hextraction, hlater]; rfl⟩

namespace Package

variable {tree : FileTree} {root base : Path} {manifest : String} {contents : Contents}

/-- No text in the listing of a package holds a null character. -/
theorem null_not_mem_listing (hproper : tree.Proper)
    (hbase : baseDirectory tree manifest root = .ok base)
    (hload : load tree root base = .ok contents) :
    ∀ relative ∈ contents.listing, '\x00' ∉ relative.toList := by
  obtain ⟨place, hrooted⟩ := exists_rooted hproper hbase
  obtain ⟨visited, hvisited, rfl⟩ := load_eq_ok_iff.mp hload
  rw [(accountsFor_ofLoaded root base visited).listing]
  intro relative hmem
  obtain ⟨path, hpath, hlisted⟩ := List.mem_filterMap.mp hmem
  obtain ⟨below, entry, -, hentry, -, -, rfl⟩ := (mem_files_iff hrooted hvisited).mp hpath
  rw [listedAt] at hlisted
  split at hlisted
  · obtain rfl := Option.some.inj hlisted
    exact Path.null_not_mem_text ((hrooted.descend_nullFree hentry).relativeTo base)
  · cases hlisted

end Package

end ExtensionAudit
