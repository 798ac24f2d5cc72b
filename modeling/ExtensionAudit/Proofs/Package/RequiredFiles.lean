import Mathlib
import ExtensionAudit.Proofs.Package.OneRule
import ExtensionAudit.Proofs.Package.RelativePaths
import ExtensionAudit.Proofs.Rule.Wording
import ExtensionAudit.Proofs.Text.Case

/-!
# Where a required file may lie

The rule on required files knows nothing of directories. It looks for a name among the entries of the
listing, which are paths as seen from the base directory. That only what lies in the base directory
itself counts is due to the slash: every other entry has a step up or a step down in front of its
name, so its text holds one, and neither a name without a slash nor its lower case does. No other
rule reports a missing file, and so the report of a whole check can be told from the tree.
-/

namespace ExtensionAudit

/-! ### Texts with and without a slash -/

namespace Path

theorem text_single (name : String) : (⟨0, [name]⟩ : Path).text = name := by
  rw [text_of_parts (List.cons_ne_nil name []), String.intercalate_singleton]

theorem slash_mem_text {parts : List String} (hlong : 2 ≤ parts.length) :
    '/' ∈ (⟨0, parts⟩ : Path).text.toList := by
  match parts with
  | first :: next :: rest =>
    rw [text_of_parts (List.cons_ne_nil first _), String.intercalate_cons_cons,
      String.toList_append, String.toList_append]
    exact List.mem_append_left _ (List.mem_append_right _ (by decide))

/-- Seen from a directory, only what lies in it has a text without a slash. -/
theorem slash_mem_relativeTo_or (root : Path) {below under : List String} (hbelow : ".." ∉ below)
    (hunder : ".." ∉ under) :
    below <+: under ∨ (∃ name, below = under ++ [name])
      ∨ '/' ∈ ((root.descend below).relativeTo (root.descend under)).text.toList := by
  obtain ⟨front, up, down, rfl, rfl, hrelative⟩ := exists_relativeTo_eq root hbelow hunder
  rw [hrelative]
  by_cases hshort : up.length + down.length ≤ 1
  · cases down with
    | nil =>
      left
      rw [List.append_nil]
      exact List.prefix_append front up
    | cons name rest =>
      rw [List.length_cons] at hshort
      obtain rfl : up = [] := List.eq_nil_of_length_eq_zero (by omega)
      obtain rfl : rest = [] := List.eq_nil_of_length_eq_zero (by omega)
      exact .inr (.inl ⟨name, by rw [List.append_nil]⟩)
  · refine .inr (.inr (slash_mem_text ?_))
    rw [List.length_append, List.length_replicate]
    omega

end Path

/-! ### The messages of the rule -/

namespace DirectoryStructure

theorem messages_checkFile (present : List String) (name : String) :
    (checkFile present name).messages
      = if Text.lower name ∈ present then [] else [⟨.error, missingText name⟩] := by
  rw [checkFile]
  by_cases hpresent : Text.lower name ∈ present
  · rw [if_pos (List.contains_iff_mem.mpr hpresent), if_pos hpresent]
    rfl
  · rw [if_neg (by rwa [List.contains_iff_mem]), if_neg hpresent]
    rfl

theorem filter_messages_checkFile (present required : List String) (name : String) :
    ((required.map (checkFile present)).flatMap Effect.messages).filter
        (·.text == missingText name)
      = if Text.lower name ∈ present then []
        else List.replicate (required.count name) ⟨.error, missingText name⟩ := by
  induction required with
  | nil => simp
  | cons first rest ih =>
    rw [List.map_cons, List.flatMap_cons, List.filter_append, ih, messages_checkFile]
    by_cases hfirst : first = name
    · subst hfirst
      by_cases hpresent : Text.lower first ∈ present
      · simp only [if_pos hpresent, List.filter_nil, List.append_nil]
      · simp [if_neg hpresent, List.replicate_succ]
    · have hother : (if Text.lower first ∈ present then []
            else [(⟨.error, missingText first⟩ : Message)]).filter (·.text == missingText name)
          = [] := by
        refine List.filter_eq_nil_iff.mpr fun message hmem hsame => ?_
        split at hmem
        · cases hmem
        · rw [List.mem_singleton.mp hmem] at hsame
          exact hfirst (missingText_injective (beq_iff_eq.mp hsame))
      rw [hother, List.nil_append, List.count_cons_of_ne hfirst]

theorem filter_messages_check (settings : Settings) (listing : List String) (name : String) :
    ((check settings listing).effects.flatMap Effect.messages).filter
        (·.text == missingText name)
      = if Text.lower name ∈ listing.map Text.lower then []
        else List.replicate (settings.requiredFiles.count name) ⟨.error, missingText name⟩ :=
  filter_messages_checkFile (listing.map Text.lower) settings.requiredFiles name

theorem SayOtherwise.filter_eq_nil {messages : List Message} (hother : SayOtherwise messages)
    (name : String) : messages.filter (·.text == missingText name) = [] :=
  List.filter_eq_nil_iff.mpr fun message hmem hsame =>
    hother message hmem name (beq_iff_eq.mp hsame)

end DirectoryStructure

/-- Of the built-in rules only the one on required files reports that one is missing. -/
theorem RulePackage.sayOtherwise {entry : String × (RuleContext → Rule Unit)}
    (hentry : entry ∈ builtInEntries.map identified) (hother : entry.1 ≠ "directory_structure")
    (context : RuleContext) (subject : Subject) :
    DirectoryStructure.SayOtherwise
      (((entry.2 context).check subject ()).1.effects.flatMap Effect.messages) := by
  rw [identified_builtInEntries] at hentry
  simp only [List.mem_cons, List.not_mem_nil, or_false] at hentry
  obtain rfl | rfl | rfl | rfl := hentry
  · exact absurd rfl hother
  · cases subject with
    | directory listing => exact EventNames.sayOtherwise context listing
    | file source => exact DirectoryStructure.sayOtherwise_nil
    | line source => exact DirectoryStructure.sayOtherwise_nil
  · cases subject with
    | directory listing => exact DirectoryStructure.sayOtherwise_nil
    | file source => exact DirectoryStructure.sayOtherwise_nil
    | line source =>
      exact ForbiddenCalls.sayOtherwise (ForbiddenCalls.lowerCalls context.settings)
        source.location source.text
  · cases subject with
    | directory listing => exact DirectoryStructure.sayOtherwise_nil
    | file source => exact PhpTags.sayOtherwise source
    | line source => exact DirectoryStructure.sayOtherwise_nil

namespace Package

open FileTree DirectoryStructure

variable {tree : FileTree} {root base : Path} {place : List String} {contents : Contents}

/-- The base directory, which stands at a place, holds what meets the requirement of a name: outside
of version control, no directory, readable, and called so but for the case of letters. -/
structure Meets (tree : FileTree) (base : Path) (home : List String) (name child : String) :
    Prop where
  listed : ∃ entry, entry ≠ .directory ∧ (home ++ [child], entry) ∈ tree.entries
  readable : ∃ content, tree.read (base.child child) = .ok content
  kept : child ∉ versionControlNames
  called : Text.lower child = Text.lower name

/-! ### The listing -/

section Rooted

variable (hrooted : tree.Rooted root place) {under : List String}
  (hunder : under ∈ tree.directoriesBelow place)

include hrooted hunder

/-- An entry of the listing has a name without a slash, ignoring case, only if it is that of a file
in the base directory. -/
theorem exists_child_of_lower_eq {below : List String} {entry : Entry} (hbelow : below ≠ [])
    (hlisted : (place ++ below, entry) ∈ tree.entries) (hentry : entry ≠ .directory) {name : String}
    (hname : '/' ∉ name.toList)
    (hsame : Text.lower ((root.descend below).relativeTo (root.descend under)).text
      = Text.lower name) :
    ∃ child, below = under ++ [child] ∧ Text.lower child = Text.lower name := by
  have hdots := dots_not_mem hrooted.proper hunder
  have hordinary := hrooted.proper.ordinary hlisted
  -- What the base directory lies in is a directory, and all that lies elsewhere has a slash in its
  -- entry, which lower case neither adds nor takes away.
  obtain ⟨more, rfl⟩ | ⟨child, rfl⟩ | hslash :=
    Path.slash_mem_relativeTo_or root hordinary.no_dots hdots
  · exact absurd (entry_eq_directory hrooted hbelow hlisted hunder) hentry
  · have hchild : ".." ∉ [child] := fun hmem =>
      hordinary.no_dots (List.mem_append_right under hmem)
    rw [Path.relativeTo_append root hdots hchild, Path.text_single] at hsame
    exact ⟨child, rfl, hsame⟩
  · rw [← Text.slash_mem_lower_iff, hsame, Text.slash_mem_lower_iff] at hslash
    exact absurd hslash hname

theorem target_descend_directory (hwalk : CanWalk tree root place) :
    tree.target (root.descend under) = .ok (.directory (some (place ++ under))) := by
  obtain rfl | ⟨hnonempty, hlisted⟩ := mem_directoriesBelow_iff.mp hunder
  · rw [Path.descend_nil, List.append_nil]
    exact hrooted.leads
  · rw [hrooted.target_descend hnonempty hlisted
      (hwalk under .directory hnonempty hlisted (.inl rfl))]
    rfl

variable {visited : List Path} (hvisited : files tree root = .ok visited)

include hvisited

/-- A file that is listed under a name without a slash, ignoring case, meets its requirement. -/
theorem exists_meets_of_lower_eq {name : String} (hname : '/' ∉ name.toList) {path : Path}
    (hpath : path ∈ visited) {content : List UInt8} (hread : tree.read path = .ok content)
    (hsame : Text.lower (path.relativeTo (root.descend under)).text = Text.lower name) :
    ∃ child, path = (root.descend under).child child
      ∧ Meets tree (root.descend under) (place ++ under) name child := by
  obtain ⟨below, entry, hbelow, hlisted, hentry, hclean, rfl⟩ :=
    (mem_files_iff hrooted hvisited).mp hpath
  obtain ⟨child, rfl, hcalled⟩ :=
    exists_child_of_lower_eq hrooted hunder hbelow hlisted hentry hname hsame
  rw [← Path.child_descend] at hread ⊢
  rw [← List.append_assoc] at hlisted
  exact ⟨child, rfl, ⟨entry, hentry, hlisted⟩, ⟨content, hread⟩, hclean child (by simp), hcalled⟩

theorem listedAt_of_meets (hkept : ∀ name ∈ under, name ∉ versionControlNames) {name child : String}
    (hmeets : Meets tree (root.descend under) (place ++ under) name child) :
    root.descend (under ++ [child]) ∈ visited
      ∧ listedAt tree (root.descend under) (root.descend (under ++ [child])) = some child := by
  obtain ⟨⟨entry, hentry, hlisted⟩, ⟨content, hread⟩, hchild, -⟩ := hmeets
  rw [List.append_assoc] at hlisted
  rw [Path.child_descend] at hread
  constructor
  · refine (mem_files_iff hrooted hvisited).mpr
      ⟨under ++ [child], entry, by simp, hlisted, hentry, fun part hpart => ?_, rfl⟩
    obtain hpart | hpart := List.mem_append.mp hpart
    · exact hkept part hpart
    · rwa [List.mem_singleton.mp hpart]
  · have hdots : ".." ∉ [child] := fun hmem =>
      (hrooted.proper.ordinary hlisted).no_dots (List.mem_append_right under hmem)
    rw [listedAt, hread,
      Path.relativeTo_append root (dots_not_mem hrooted.proper hunder) hdots, Path.text_single]

/-- A name is in the listing, ignoring case, exactly if the base directory holds what meets it. -/
theorem lower_mem_listing_iff (hkept : ∀ name ∈ under, name ∉ versionControlNames) {name : String}
    (hname : '/' ∉ name.toList) (haccounts : AccountsFor tree (root.descend under) visited contents) :
    Text.lower name ∈ contents.listing.map Text.lower
      ↔ ∃ child, Meets tree (root.descend under) (place ++ under) name child := by
  rw [haccounts.listing, List.mem_map]
  constructor
  · rintro ⟨relative, hmem, hsame⟩
    obtain ⟨path, hpath, hlist⟩ := List.mem_filterMap.mp hmem
    rw [listedAt] at hlist
    split at hlist
    · next content hread =>
      obtain rfl := Option.some.inj hlist
      obtain ⟨child, -, hmeets⟩ :=
        exists_meets_of_lower_eq hrooted hunder hvisited hname hpath hread hsame
      exact ⟨child, hmeets⟩
    · cases hlist
  · rintro ⟨child, hmeets⟩
    obtain ⟨hpath, hlist⟩ := listedAt_of_meets hrooted hunder hvisited hkept hmeets
    exact ⟨child, List.mem_filterMap.mpr ⟨_, hpath, hlist⟩, hmeets.called⟩

end Rooted

/-! ### The report -/

theorem sayOtherwise_noticeAt (path : Path) :
    SayOtherwise (noticeAt tree base path).toList := by
  rw [noticeAt]
  split
  · exact sayOtherwise_nil
  · intro message hmem
    rw [List.mem_singleton.mp hmem]
    refine ne_missingText_of_head ?_
    change ("Found a file that doesn't seem to be readable or doesn't exist: " ++ _ ++ ": " ++
      _).toList.head? ≠ _
    simp [String.toList_append]

section Around

variable {context : RuleContext} {front back : List (String × (RuleContext → Rule Unit))}
  (hothers : ∀ other ∈ front ++ back,
    other ∈ RulePackage.builtInEntries.map RulePackage.identified
      ∧ other.1 ≠ "directory_structure")

include hothers

/-- What is entered around the call of the rule, and not by it, reports no missing file. -/
theorem sayOtherwise_calls {calls : List MadeCall}
    (hcalls : calls ⊆ Audit.madeBefore (front.map (Registry.named context)) contents.listing
      ++ Audit.madeBehind (front.map (Registry.named context)) (back.map (Registry.named context))
        contents.files contents.listing) :
    SayOtherwise ((calls.flatMap MadeCall.events).flatMap RunEvent.messages) := by
  rw [List.flatMap_assoc]
  refine sayOtherwise_flatMap fun call hcall => ?_
  rw [MadeCall.messages_events]
  refine MadeCall.sayOtherwise ?_
  obtain ⟨entry, hentry, houtcome⟩ := Audit.exists_rule_of_mem_around (hcalls hcall)
  rw [← List.map_append] at hentry
  obtain ⟨other, hother, rfl⟩ := List.mem_map.mp hentry
  obtain ⟨hbuiltIn, hname⟩ := hothers other hother
  rw [houtcome]
  exact RulePackage.sayOtherwise hbuiltIn hname context call.subject

theorem sayOtherwise_eventsBefore {visited : List Path}
    (haccounts : AccountsFor tree base visited contents) :
    SayOtherwise ((eventsBefore context front contents).flatMap RunEvent.messages) := by
  rw [eventsBefore, List.flatMap_append, RunEvent.messages_map_effect, haccounts.notices,
    List.filterMap_eq_flatMap_toList]
  refine sayOtherwise_append
    (sayOtherwise_flatMap fun path _ => sayOtherwise_noticeAt path) ?_
  exact sayOtherwise_calls hothers fun call hcall => List.mem_append_left _ hcall

theorem sayOtherwise_eventsBehind :
    SayOtherwise ((eventsBehind context front back contents).flatMap RunEvent.messages) :=
  sayOtherwise_calls hothers fun _ hcall => List.mem_append_right _ hcall

end Around

/-- The reports of a required file that a run of built-in rules makes are those of its rule. -/
theorem filter_messages_reportOf {context : RuleContext}
    {entries : List (String × (RuleContext → Rule Unit))} {visited : List Path}
    (henabled : "directory_structure" ∉ context.settings.disabledRules)
    (hentries : entriesResult context.settings = .ok entries)
    (haccounts : AccountsFor tree base visited contents) (name : String) :
    (reportOf context entries contents).messages.filter (·.text == missingText name)
      = if Text.lower name ∈ contents.listing.map Text.lower then []
        else List.replicate (context.settings.requiredFiles.count name)
          ⟨.error, missingText name⟩ := by
  have hentry : ("directory_structure", DirectoryStructure.rule)
      ∈ (RulePackage.builtInEntries.map RulePackage.identified :
        List (String × (RuleContext → Rule Unit))) := by
    rw [RulePackage.identified_builtInEntries]
    exact List.mem_cons_self
  obtain ⟨front, back, rfl, hothers⟩ := exists_entries_around hentries hentry henabled
  have hreport := @reportOf_around context front back
    ("directory_structure", DirectoryStructure.rule) contents rfl
    (DirectoryStructure.check_announces context.settings contents.listing) rfl
  rw [hreport, messages_reportAround, List.filter_append, List.filter_append,
    (sayOtherwise_eventsBefore hothers haccounts).filter_eq_nil,
    (sayOtherwise_eventsBehind hothers).filter_eq_nil, List.nil_append, List.append_nil]
  exact filter_messages_check context.settings contents.listing name

/-- **A required file is missing unless the base directory itself holds it.** Take a check that comes
to a report, with the rule on required files enabled, and a name without a slash. The base directory
stands at some place of the tree. If it holds a readable file of that name, ignoring case and outside
of version control, then no message says that the file is missing. If it holds none, there are as
many such messages as the name is required times, all of them errors, whatever files of that name lie
elsewhere; for only what lies in the base directory itself is listed under such a name. -/
theorem required_file_in_base (tree : FileTree) (hproper : tree.Proper) (root : Path)
    (request : CheckRequest) (report : Report) (settings : Settings)
    (hreport : (check tree root request).execute.1 = .ok report)
    (hsettings : (settingsOf tree root request).execute.1 = .ok settings)
    (henabled : "directory_structure" ∉ settings.disabledRules) (name : String)
    (hname : '/' ∉ name.toList) :
    let text := "Missing required file " ++ name ++ " in the extension root"
    ∃ base home, baseDirectory tree settings.manifest root = .ok base
      ∧ tree.target base = .ok (.directory (some home))
      ∧ ((∃ child, Meets tree base home name child) →
          report.messages.filter (·.text == text) = [])
      ∧ ((¬ ∃ child, Meets tree base home name child) →
          report.messages.filter (·.text == text)
            = List.replicate (settings.requiredFiles.count name) ⟨.error, text⟩)
      ∧ ∀ contents, load tree root base = .ok contents → ∀ file ∈ contents.files,
          Text.lower file.relativePath = Text.lower name →
            ∃ child, file.path = base.child child ∧ Meets tree base home name child := by
  intro text
  rw [(check_ends tree root request).execute, checkResult_eq] at hreport
  obtain ⟨context, hcontext, hreport⟩ := bind_eq_ok_iff.mp hreport
  obtain ⟨htree, hfound, hbase⟩ := contextResult_eq_ok hcontext
  rw [(settingsOf_ends tree root request).execute, hfound] at hsettings
  obtain rfl := Except.ok.inj hsettings
  obtain ⟨entries, hentries, hrest⟩ := bind_eq_ok_iff.mp hreport
  obtain ⟨contents, hload, rfl⟩ := map_eq_ok_iff.mp hrest
  rw [htree, mapError_eq_ok_iff] at hload
  obtain ⟨place, hrooted⟩ := exists_rooted hproper hbase
  obtain ⟨under, hunder, hunderneath, hkept⟩ := exists_below_of_baseDirectory hrooted hbase
  rw [hunderneath] at hload
  obtain ⟨visited, hvisited, hmade⟩ := load_eq_ok_iff.mp hload
  have haccounts : AccountsFor tree (root.descend under) visited contents :=
    hmade ▸ accountsFor_ofLoaded root (root.descend under) visited
  have hfilter := filter_messages_reportOf henabled hentries haccounts name
  have hlisted := lower_mem_listing_iff hrooted hunder hvisited hkept hname haccounts
  refine ⟨root.descend under, place ++ under, hunderneath ▸ hbase, ?_, fun hmeets => ?_,
    fun hnone => ?_, ?_⟩
  · exact target_descend_directory hrooted hunder
      ((exists_files_iff hrooted).mp ⟨visited, hvisited⟩)
  · rw [← hlisted] at hmeets
    rw [if_pos hmeets] at hfilter
    exact hfilter
  · rw [← hlisted] at hnone
    rw [if_neg hnone] at hfilter
    exact hfilter
  · intro again hagain file hfile hsame
    obtain rfl := Except.ok.inj (hload.symm.trans hagain)
    rw [haccounts.files] at hfile
    obtain ⟨path, hpath, hmade⟩ := List.mem_filterMap.mp hfile
    rw [fileAt] at hmade
    split at hmade
    · next content hread =>
      obtain rfl := Option.some.inj hmade
      exact exists_meets_of_lower_eq hrooted hunder hvisited hname hpath hread hsame
    · cases hmade

/-- Settings that ask for one file twice, and for another one in other letters. -/
def twiceRequired : Settings where
  requiredFiles := ["readme.txt", "EXT.php", "readme.txt"]

def innerContext : RuleContext where
  tree := innerManifest
  baseDirectory := ⟨0, ["pkg", "src"]⟩
  packageName := "acme/demo"
  settings := twiceRequired

/-- The file that is asked for twice is there, but above the base directory. -/
theorem required_file_in_base_inner :
    let root : Path := ⟨0, ["pkg"]⟩
    let request : CheckRequest := { name := some "acme/demo", settings := some twiceRequired }
    innerManifest.Proper ∧ "directory_structure" ∉ twiceRequired.disabledRules
      ∧ '/' ∉ "readme.txt".toList
      ∧ (settingsOf innerManifest root request).execute.1 = .ok twiceRequired
      ∧ ∃ report, (check innerManifest root request).execute.1 = .ok report
          ∧ report.messages.filter
              (·.text == "Missing required file readme.txt in the extension root")
            = List.replicate 2
              ⟨.error, "Missing required file readme.txt in the extension root"⟩ := by
  intro root request
  have hproper : innerManifest.Proper := by decide
  have henabled : "directory_structure" ∉ twiceRequired.disabledRules := List.not_mem_nil
  have hname : '/' ∉ "readme.txt".toList := by decide
  have hsettings : (settingsOf innerManifest root request).execute.1 = .ok twiceRequired :=
    (settingsOf_ends innerManifest root request).execute
  have hbase : baseDirectory innerManifest "ext.php" root = .ok ⟨0, ["pkg", "src"]⟩ := by
    decide +kernel
  have hcontext : contextResult innerManifest root request = .ok innerContext :=
    bind_eq_ok_iff.mpr ⟨twiceRequired, rfl, bind_eq_ok_iff.mpr ⟨_, hbase, rfl⟩⟩
  obtain ⟨report, hreport⟩ : ∃ report, (check innerManifest root request).execute.1
      = .ok report := by
    rw [(check_ends innerManifest root request).execute, checkResult_eq]
    refine ⟨_, bind_eq_ok_iff.mpr ⟨innerContext, hcontext, bind_eq_ok_iff.mpr
      ⟨_, entriesResult_of_none_disabled rfl, map_eq_ok_iff.mpr
        ⟨_, mapError_eq_ok_iff.mpr load_innerManifest, rfl⟩⟩⟩⟩
  obtain ⟨base, home, hfound, hhome, -, hmissing, -⟩ := required_file_in_base innerManifest hproper
    root request report twiceRequired hreport hsettings henabled "readme.txt" hname
  obtain rfl := Except.ok.inj (hbase.symm.trans hfound)
  have hplace : innerManifest.target ⟨0, ["pkg", "src"]⟩
      = .ok (.directory (some ["pkg", "src"])) := by
    decide +kernel
  rw [hplace] at hhome
  obtain rfl : ["pkg", "src"] = home := by simpa using hhome
  refine ⟨hproper, henabled, hname, hsettings, report, hreport, hmissing ?_⟩
  rintro ⟨child, ⟨entry, hentry, hlisted⟩, -, -, hcalled⟩
  obtain ⟨rfl, -⟩ : child = "ext.php" ∧ entry = .file [] := by
    simpa [innerManifest] using hlisted
  exact absurd hcalled (by decide +kernel)

end Package

end ExtensionAudit
