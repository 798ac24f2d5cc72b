import Mathlib
import ExtensionAudit.Proofs.FileTree.Reach
import ExtensionAudit.Proofs.Package.Listing
import ExtensionAudit.Proofs.Package.Loading

/-!
# Where the manifest stands, and what is seen from there

A manifest is found as a pattern finds it, and yet only a file with its very name counts. So the
pattern has one component, and the base directory is one of the directories below the root, reached
by names alone. Seen from there, a file lies some steps up and then down by names again, and the
text of that path, taken apart, leads back to the file.
-/

namespace ExtensionAudit

/-! ### Texts of paths and their components -/

theorem not_mem_of_mem_splitOn {α : Type} [BEq α] [LawfulBEq α] {separator : α}
    {items piece : List α} (hpiece : piece ∈ items.splitOn separator) : separator ∉ piece := by
  induction items generalizing piece with
  | nil =>
    rw [List.splitOn_nil, List.mem_singleton] at hpiece
    rw [hpiece]
    exact List.not_mem_nil
  | cons item rest ih =>
    rw [List.splitOn_cons_eq_if_modifyHead] at hpiece
    split at hpiece
    · obtain rfl | hrest := List.mem_cons.mp hpiece
      · exact List.not_mem_nil
      · exact ih hrest
    · next hitem =>
      cases hparts : rest.splitOn separator with
      | nil => exact absurd hparts (List.splitOn_ne_nil separator rest)
      | cons first others =>
        rw [hparts] at hpiece ih
        rw [List.modifyHead_cons, List.mem_cons] at hpiece
        obtain rfl | hother := hpiece
        · rw [List.mem_cons, not_or]
          refine ⟨?_, ih List.mem_cons_self⟩
          rintro rfl
          exact hitem (beq_self_eq_true separator)
        · exact ih (List.mem_cons_of_mem first hother)

namespace Path

/-- A component as it stands in a path. -/
structure IsComponent (part : String) : Prop where
  nonempty : part ≠ ""
  not_dot : part ≠ "."
  no_slash : '/' ∉ part.toList

theorem isComponent_of_proper {name : String} (hname : ProperName name) : IsComponent name :=
  ⟨hname.nonempty, hname.not_dot, hname.no_slash⟩

theorem isComponent_dots : IsComponent ".." := ⟨by decide, by decide, by decide⟩

theorem isComponent_of_mem_parse {s part : String} (hpart : part ∈ (parse s).parts) :
    IsComponent part := by
  obtain ⟨hsplit, hkept⟩ := List.mem_filter.mp hpart
  obtain ⟨piece, hpiece, rfl⟩ := List.mem_map.mp hsplit
  simp only [Bool.and_eq_true, bne_iff_ne] at hkept
  refine ⟨hkept.1, hkept.2, ?_⟩
  rw [String.toList_ofList]
  exact not_mem_of_mem_splitOn hpiece

theorem name_descend (root : Path) (below : List String) (name : String) :
    (root.descend (below ++ [name])).name = name := by
  rw [Path.name, descend, ← List.append_assoc, List.getLast?_concat, Option.getD_some]

/-- The text of a path of components leads back to them. -/
theorem parse_text {parts : List String} (hparts : ∀ part ∈ parts, IsComponent part) :
    parse (⟨0, parts⟩ : Path).text = ⟨0, parts⟩ := by
  cases parts with
  | nil => decide
  | cons first rest =>
    have hsplit := splitOn_text (List.cons_ne_nil first rest)
      fun part hmem => (hparts part hmem).no_slash
    have hkept : (first :: rest).filter (fun part => part != "" && part != ".")
        = first :: rest := by
      refine List.filter_eq_self.mpr fun part hmem => ?_
      simp [(hparts part hmem).nonempty, (hparts part hmem).not_dot]
    have hparsed : splitAt '/' (⟨0, first :: rest⟩ : Path).text = first :: rest := by
      rw [splitAt, hsplit, List.map_map]
      simp [Function.comp_def]
    have hslashes : leadingSlashes (⟨0, first :: rest⟩ : Path).text.toList = 0 := by
      -- A slash in front would leave the first component empty.
      cases hchars : (⟨0, first :: rest⟩ : Path).text.toList with
      | nil => rfl
      | cons c chars =>
        by_cases hc : c = '/'
        · rw [hchars, hc, List.splitOn_cons_eq_if_modifyHead, if_pos (beq_self_eq_true _),
            List.map_cons] at hsplit
          have hempty : first.toList = [] := (List.cons.inj hsplit).1.symm
          exact absurd (String.toList_eq_nil_iff.mp hempty)
            (hparts first List.mem_cons_self).nonempty
        · simp [leadingSlashes, hc]
    rw [parse, hparsed, hkept, hslashes]

/-! ### Paths as seen from a directory -/

/-- Names that are no two dots cancel nothing. -/
theorem cancelDots_append {names : List String} (hnames : ".." ∉ names)
    (stack parts : List String) :
    cancelDots stack (parts ++ names) = cancelDots stack parts ++ names := by
  induction parts generalizing stack with
  | nil =>
    rw [List.nil_append]
    induction names generalizing stack with
    | nil => rw [List.append_nil]
    | cons name rest ih =>
      rw [List.mem_cons, not_or] at hnames
      have hname : ¬ (name == "..") = true := by simpa using Ne.symm hnames.1
      have hkept : cancelDots stack (name :: rest) = cancelDots (name :: stack) rest := by
        rw [cancelDots, if_neg hname]
      rw [hkept, ih hnames.2, cancelDots, cancelDots, List.reverse_cons, List.append_assoc,
        List.singleton_append]
  | cons part rest ih =>
    rw [List.cons_append, cancelDots, cancelDots]
    split
    · exact ih _
    · exact ih _

theorem withoutCommonFront_append (front first second : List String) :
    withoutCommonFront (front ++ first) (front ++ second) = withoutCommonFront first second := by
  induction front with
  | nil => rfl
  | cons name rest ih =>
    rw [List.cons_append, List.cons_append, withoutCommonFront, if_pos (beq_self_eq_true name), ih]

theorem exists_common_front (first second : List String) :
    ∃ front, first = front ++ (withoutCommonFront first second).1
      ∧ second = front ++ (withoutCommonFront first second).2 := by
  induction first generalizing second with
  | nil => exact ⟨[], by cases second <;> rfl, by cases second <;> rfl⟩
  | cons name rest ih =>
    cases second with
    | nil => exact ⟨[], rfl, rfl⟩
    | cons other others =>
      rw [withoutCommonFront]
      split
      · next hsame =>
        obtain ⟨front, hfirst, hsecond⟩ := ih others
        refine ⟨name :: front, ?_, ?_⟩
        · rw [List.cons_append, ← hfirst]
        · rw [List.cons_append, ← hsecond, beq_iff_eq.mp hsame]
      · exact ⟨[], rfl, rfl⟩

/-- A path below a root, seen from another one there: up to where the two part, then down again. -/
theorem relativeTo_descend (root : Path) {names others : List String} (hnames : ".." ∉ names)
    (hothers : ".." ∉ others) :
    (root.descend names).relativeTo (root.descend others)
      = ⟨0, (withoutCommonFront others names).1.map (fun _ => "..")
          ++ (withoutCommonFront others names).2⟩ := by
  rw [relativeTo, descend, descend, cancelDots_append hnames, cancelDots_append hothers,
    withoutCommonFront_append]

/-- Up to the last directory that two places share, and then down to the first of them. -/
theorem exists_relativeTo_eq (root : Path) {names others : List String} (hnames : ".." ∉ names)
    (hothers : ".." ∉ others) :
    ∃ front up down, others = front ++ up ∧ names = front ++ down
      ∧ (root.descend names).relativeTo (root.descend others)
          = ⟨0, List.replicate up.length ".." ++ down⟩ := by
  obtain ⟨front, hfirst, hsecond⟩ := exists_common_front others names
  refine ⟨front, _, _, hfirst, hsecond, ?_⟩
  rw [relativeTo_descend root hnames hothers, List.map_const']

theorem parse_relativeTo (root : Path) {names others : List String}
    (hnames : ∀ name ∈ names, IsComponent name) (hdots : ".." ∉ names) (hothers : ".." ∉ others) :
    parse ((root.descend names).relativeTo (root.descend others)).text
      = (root.descend names).relativeTo (root.descend others) := by
  obtain ⟨front, up, down, rfl, rfl, hrelative⟩ := exists_relativeTo_eq root hdots hothers
  rw [hrelative]
  apply parse_text
  intro part hpart
  obtain hup | hdown := List.mem_append.mp hpart
  · rw [List.eq_of_mem_replicate hup]
    exact isComponent_dots
  · exact hnames part (List.mem_append_right front hdown)

/-- From the second path, the text of the first one seen from there leads on below the root, up and
then down by names of the first. -/
theorem join_relativeTo_descend (root : Path) {names others : List String}
    (hnames : ∀ name ∈ names, IsComponent name) (hdots : ".." ∉ names) (hothers : ".." ∉ others) :
    ∃ steps : List String,
      (root.descend others).join
            (parse ((root.descend names).relativeTo (root.descend others)).text)
          = root.descend (others ++ steps)
        ∧ ∀ part ∈ steps, part = ".." ∨ part ∈ names := by
  rw [parse_relativeTo root hnames hdots hothers]
  obtain ⟨front, up, down, -, hdown, hrelative⟩ := exists_relativeTo_eq root hdots hothers
  rw [hrelative]
  refine ⟨List.replicate up.length ".." ++ down, ?_, fun part hpart => ?_⟩
  · rw [join, if_neg (Nat.lt_irrefl 0)]
    exact descend_descend root others _
  · obtain hup | hmem := List.mem_append.mp hpart
    · exact .inl (List.eq_of_mem_replicate hup)
    · right
      rw [hdown]
      exact List.mem_append_right front hmem

end Path

/-! ### Patterns and what they find -/

theorem exists_of_mem_mapM {ε α β : Type} {f : α → Except ε β} {places : List α} {results : List β}
    (hresults : places.mapM f = .ok results) {result : β} (hmem : result ∈ results) :
    ∃ place ∈ places, f place = .ok result := by
  induction places generalizing results with
  | nil =>
    obtain rfl := Except.ok.inj hresults
    exact absurd hmem List.not_mem_nil
  | cons place rest ih =>
    rw [List.mapM_cons] at hresults
    obtain ⟨first, hfirst, hlater⟩ := bind_eq_ok_iff.mp hresults
    obtain ⟨others, hothers, hall⟩ := bind_eq_ok_iff.mp hlater
    obtain rfl := Except.ok.inj hall
    obtain rfl | hother := List.mem_cons.mp hmem
    · exact ⟨place, List.mem_cons_self, hfirst⟩
    · obtain ⟨later, hlater, hresult⟩ := ih hothers hother
      exact ⟨later, List.mem_cons_of_mem place hlater, hresult⟩

/-- A component of a pattern stands for a name, or for any directories, or for names that match. -/
theorem PatternComponent.parse_eq_ok {s : String} {component : PatternComponent}
    (hparsed : PatternComponent.parse s = .ok component) :
    component = .named s ∨ component = .anyDirectories
      ∨ ∃ pieces, component = .matching pieces := by
  rw [PatternComponent.parse] at hparsed
  split at hparsed
  · exact .inr (.inl (Except.ok.inj hparsed).symm)
  · split at hparsed
    · cases hparsed
    · split at hparsed
      · exact .inr (.inr ⟨_, (Except.ok.inj hparsed).symm⟩)
      · exact .inl (Except.ok.inj hparsed).symm

/-- Each component of a pattern, but for that of a slash at its end, is one of the path. -/
theorem exists_part_of_mem_parsePattern {pattern : String} {components : List PatternComponent}
    {component : PatternComponent} (hparsed : parsePattern pattern = .ok components)
    (hmem : component ∈ components) :
    component = .directory
      ∨ ∃ part ∈ (Path.parse pattern).parts, PatternComponent.parse part = .ok component := by
  rw [parsePattern] at hparsed
  split at hparsed
  · cases hparsed
  · split at hparsed
    · cases hparsed
    · next given hgiven =>
      obtain rfl := Except.ok.inj hparsed
      obtain hgivenly | hslash := List.mem_append.mp hmem
      · exact .inr (exists_of_mem_mapM hgiven hgivenly)
      · left
        split at hslash
        · exact List.mem_singleton.mp hslash
        · exact absurd hslash List.not_mem_nil

/-- The names that a pattern gives are components of paths. -/
theorem isComponent_of_named_mem_parsePattern {pattern name : String}
    {components : List PatternComponent} (hparsed : parsePattern pattern = .ok components)
    (hname : .named name ∈ components) : Path.IsComponent name := by
  obtain hslash | ⟨part, hpart, hparse⟩ := exists_part_of_mem_parsePattern hparsed hname
  · cases hslash
  · obtain hsame | hany | ⟨pieces, hpieces⟩ := PatternComponent.parse_eq_ok hparse
    · obtain rfl := PatternComponent.named.inj hsame
      exact Path.isComponent_of_mem_parse hpart
    · cases hany
    · cases hpieces

/-- A pattern without the signs of one gives names only. -/
theorem matching_not_mem_parsePattern {pattern : String} {components : List PatternComponent}
    (hplain : ∀ c ∈ pattern.toList, c ∉ ['*', '?', '['])
    (hparsed : parsePattern pattern = .ok components) (pieces : List PatternPiece) :
    .matching pieces ∉ components := by
  intro hmem
  obtain hslash | ⟨part, hpart, hparse⟩ := exists_part_of_mem_parsePattern hparsed hmem
  · cases hslash
  · rw [PatternComponent.parse] at hparse
    split at hparse
    · cases hparse
    · split at hparse
      · cases hparse
      · split at hparse
        · next hsign =>
          obtain ⟨c, hc, hcsign⟩ := List.any_eq_true.mp hsign
          refine hplain c (Path.mem_of_mem_parse hpart hc) ?_
          simpa [or_assoc] using hcsign
        · cases hparse

theorem parsePattern_of_component {s : String} (hs : Path.IsComponent s) :
    parsePattern s = (PatternComponent.parse s).map fun component => [component] := by
  have hparsed : Path.parse s = ⟨0, [s]⟩ := by
    have htext : Path.parse (⟨0, [s]⟩ : Path).text = ⟨0, [s]⟩ :=
      Path.parse_text (by simpa using hs)
    rwa [Path.text_of_parts (List.cons_ne_nil s []), String.intercalate_singleton] at htext
  have hend : (s.toList.getLast? == some '/') = false :=
    beq_false_of_ne fun hslash => hs.no_slash (List.mem_of_getLast? hslash)
  rw [parsePattern, hparsed, hend]
  dsimp only
  rw [List.mapM_cons, List.mapM_nil]
  cases PatternComponent.parse s <;> rfl

namespace Package

open FileTree

variable {tree : FileTree} {root base : Path} {place : List String} {manifest : String}

theorem append_mem_directoriesBelow {below names : List String}
    (hbelow : below ∈ tree.directoriesBelow place)
    (hnames : names ∈ tree.directoriesBelow (place ++ below)) :
    below ++ names ∈ tree.directoriesBelow place := by
  obtain rfl | ⟨hnonempty, hlisted⟩ := mem_directoriesBelow_iff.mp hnames
  · rwa [List.append_nil]
  · rw [List.append_assoc] at hlisted
    exact mem_directoriesBelow_iff.mpr
      (.inr ⟨List.append_ne_nil_of_right_ne_nil below hnonempty, hlisted⟩)

/-- What a search for a pattern comes to lies below the root by components. -/
theorem exists_descend_of_reaches (hproper : tree.Proper) {pattern : String}
    {components : List PatternComponent} (hpattern : parsePattern pattern = .ok components)
    {stuck : Bool} {last : Path}
    (hreaches : tree.Reaches (.anyDirectories :: components) root stuck last) :
    ∃ below, last = root.descend below ∧ ∀ name ∈ below, Path.IsComponent name := by
  refine hreaches.exists_descend Path.IsComponent ?_ ?_
  · intro listed hmem name hname
    exact Path.isComponent_of_proper (hproper.named listed hmem name hname)
  · intro name hmem
    refine isComponent_of_named_mem_parsePattern hpattern ?_
    simpa using hmem

theorem dots_not_mem (hproper : tree.Proper) {below : List String}
    (hbelow : below ∈ tree.directoriesBelow place) : ".." ∉ below := by
  intro hdots
  obtain rfl | ⟨-, hlisted⟩ := mem_directoriesBelow_iff.mp hbelow
  · exact absurd hdots List.not_mem_nil
  · exact (hproper.properName hlisted hdots).not_dots rfl

section Rooted

variable (hrooted : tree.Rooted root place)

include hrooted

theorem isFile_eq_false {below : List String} (hbelow : below ∈ tree.directoriesBelow place) :
    isFile tree root (root.descend below) = false := by
  obtain rfl | ⟨hnonempty, hlisted⟩ := mem_directoriesBelow_iff.mp hbelow
  · rw [Path.descend_nil, isFile, hrooted.isDirectory_root]
    simp [Except.toOption]
  · rw [← Bool.not_eq_true, isFile_descend_iff hrooted hnonempty hlisted]
    simp

/-- No directory lies at or below the place of a file. -/
theorem entry_eq_directory {below more : List String} {entry : Entry} (hbelow : below ≠ [])
    (hlisted : (place ++ below, entry) ∈ tree.entries)
    (hunder : below ++ more ∈ tree.directoriesBelow place) : entry = .directory := by
  obtain hnone | ⟨-, hdirectory⟩ :=
    mem_directoriesBelow_iff.mp (hrooted.proper.mem_directoriesBelow_of_append hunder)
  · exact absurd hnone hbelow
  · have hplace : place ++ below ≠ [] := List.append_ne_nil_of_right_ne_nil place hbelow
    have hthere := (hrooted.proper.entry?_eq_some_iff hplace).mpr hdirectory
    rw [(hrooted.proper.entry?_eq_some_iff hplace).mpr hlisted] at hthere
    exact Option.some.inj hthere

/-- Where a search for any place at all begins. -/
theorem reaches_anyDirectories_root_iff {components : List PatternComponent} {stuck : Bool}
    {last : Path} :
    tree.Reaches (.anyDirectories :: components) root stuck last
      ↔ ∃ below ∈ tree.directoriesBelow place,
          tree.Reaches components (root.descend below) stuck last := by
  have hfree : ¬ tree.IsStuck root := by
    intro hstuck
    rw [IsStuck, hrooted.leads] at hstuck
    cases hstuck
  rw [reaches_anyDirectories_iff, hrooted.directoryAt_root]
  simp [hfree]

/-- A manifest stands under its name in a directory below the root. -/
theorem exists_below_of_manifest {found : List Path} {item : Path}
    (hfound : tree.search root manifest = .ok found) (hitem : item ∈ found)
    (hname : item.name = manifest) (hfile : isFile tree root item = true) :
    ∃ below ∈ tree.directoriesBelow place, item = root.descend (below ++ [manifest]) := by
  obtain ⟨components, hpattern, hreaches⟩ := exists_reaches_of_search hfound hitem
  -- The name of what is found is a component, so the pattern is one as a whole.
  have hcomponent : Path.IsComponent manifest := by
    obtain ⟨below, rfl, hbelow⟩ := exists_descend_of_reaches hrooted.proper hpattern hreaches
    obtain rfl | ⟨above, name, rfl⟩ := List.eq_nil_or_concat' below
    · rw [isFile_eq_false hrooted (mem_directoriesBelow_iff.mpr (.inl rfl))] at hfile
      cases hfile
    · rw [← hname, Path.name_descend]
      exact hbelow name (by simp)
  rw [parsePattern_of_component hcomponent] at hpattern
  obtain ⟨component, hparsed, rfl⟩ := map_eq_ok_iff.mp hpattern
  obtain ⟨below, hbelow, hlater⟩ := (reaches_anyDirectories_root_iff hrooted).mp hreaches
  refine ⟨below, hbelow, ?_⟩
  have hchild {name : String} (hlast : item = (root.descend below).child name) :
      item = root.descend (below ++ [manifest]) := by
    rw [Path.child_descend] at hlast
    rw [hlast, Path.name_descend] at hname
    rw [hlast, hname]
  obtain rfl | rfl | ⟨pieces, rfl⟩ := PatternComponent.parse_eq_ok hparsed
  · obtain ⟨-, hend⟩ | ⟨-, hnone, -⟩ := reaches_named_iff.mp hlater
    · exact hchild (reaches_nil_iff.mp hend).2
    · cases hnone
  · obtain ⟨reached, hreached, start, hstart, hend⟩ | ⟨-, hnone, -⟩ :=
      reaches_anyDirectories_iff.mp hlater
    · -- All that two stars find are directories.
      rw [hrooted.directoryAt_descend hbelow] at hreached
      split at hreached
      · cases hreached
      · obtain rfl := Option.some.inj (Except.ok.inj hreached)
        obtain ⟨names, hnames, rfl⟩ := List.mem_map.mp hstart
        obtain rfl := (reaches_nil_iff.mp hend).2
        rw [Path.descend_descend,
          isFile_eq_false hrooted (append_mem_directoriesBelow hbelow hnames)]
          at hfile
        cases hfile
    · cases hnone
  · obtain ⟨reached, -, name, -, hend⟩ | ⟨-, hnone, -⟩ := reaches_matching_iff.mp hlater
    · exact hchild (reaches_nil_iff.mp hend).2
    · cases hnone

/-- The base directory is reached from the root by names, none of them kept by version control. -/
theorem exists_below_of_baseDirectory (hbase : baseDirectory tree manifest root = .ok base) :
    ∃ below ∈ tree.directoriesBelow place, base = root.descend below
      ∧ ∀ name ∈ below, name ∉ versionControlNames := by
  obtain ⟨-, path, hfound, rfl⟩ := baseDirectory_eq_ok_iff.mp hbase
  obtain ⟨files, hfiles, hone⟩ := manifests_eq_ok_iff.mp hfound
  obtain ⟨found, kept, hsearch, hkept, rfl⟩ := filesMatching_eq_ok_iff.mp hfiles
  obtain ⟨-, rfl⟩ := filesAmong_eq_ok_iff.mp hkept
  have hmem : path ∈ (sortBelow root (found.filter (isFile tree root))).filter
      (·.name == manifest) := by
    rw [← hone]
    exact List.mem_singleton_self path
  obtain ⟨hsorted, hname⟩ := List.mem_filter.mp hmem
  obtain ⟨hitem, hfile⟩ := List.mem_filter.mp ((sortBelow_perm _).mem_iff.mp hsorted)
  obtain ⟨below, hbelow, rfl⟩ :=
    exists_below_of_manifest hrooted hsearch hitem (beq_iff_eq.mp hname) hfile
  refine ⟨below, hbelow, ?_, fun name hmem hcontrol => ?_⟩
  · rw [Path.parent, Path.descend, ← List.append_assoc, List.dropLast_concat, Path.descend]
  · rw [isFile, Bool.and_eq_true, Bool.not_eq_true', ← Bool.not_eq_true,
      isVersionControl_descend] at hfile
    exact hfile.1 ⟨name, List.mem_append_left _ hmem, hcontrol⟩

end Rooted

end Package

end ExtensionAudit
