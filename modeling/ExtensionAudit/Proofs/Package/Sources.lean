import Mathlib
import ExtensionAudit.Proofs.Audit.Announcement
import ExtensionAudit.Proofs.Package.Base
import ExtensionAudit.Proofs.Package.Faults

/-!
# Two notions of a PHP file

The rule on events takes the entries of the listing that end in the source extension, the rules on
tags and on calls are handed the files whose type is PHP. The first is a matter of the text of a path
as it stands, the second of the suffix of a name in lower case. With the usual extension the two meet
in the files whose suffix is that extension, and they part where the suffix has capitals, and where
the extension is the whole name, which then has no suffix at all.
-/

namespace ExtensionAudit

/-! ### Endings of texts -/

/-- What ends a text behind a separator that it does not hold ends the part behind it. -/
theorem isSuffix_append_cons_iff {α : Type} {ending front back : List α} {separator : α}
    (hending : separator ∉ ending) :
    ending <:+ front ++ separator :: back ↔ ending <:+ back := by
  have hback : back <:+ front ++ separator :: back :=
    ⟨front ++ [separator], by rw [List.append_assoc]; rfl⟩
  constructor
  · intro hsuffix
    obtain hshort | hlong := Nat.lt_or_ge back.length ending.length |>.symm
    · exact List.suffix_of_suffix_length_le hsuffix hback hshort
    · -- A longer ending would reach over the separator.
      have hover : separator :: back <:+ ending :=
        List.suffix_of_suffix_length_le ⟨front, rfl⟩ hsuffix hlong
      exact absurd (hover.subset List.mem_cons_self) hending
  · exact fun hsuffix => hsuffix.trans hback

namespace Path

/-- An ending without slashes ends the text of a path if it ends the last component. -/
theorem isSuffix_text_iff {ending : List Char} (hending : '/' ∉ ending) (steps : List String)
    (name : String) :
    ending <:+ (⟨0, steps ++ [name]⟩ : Path).text.toList ↔ ending <:+ name.toList := by
  rw [text_of_parts (by simp), String.toList_intercalate]
  induction steps with
  | nil => simp
  | cons step rest ih =>
    obtain ⟨next, others, hlater⟩ := List.exists_cons_of_ne_nil (List.append_ne_nil_of_right_ne_nil
      rest (List.cons_ne_nil name []))
    rw [hlater, List.map_cons] at ih
    rw [List.cons_append, hlater, List.map_cons, List.map_cons, List.intercalate_cons_cons,
      List.append_assoc]
    exact (isSuffix_append_cons_iff hending).trans ih

/-- The suffix of a name that divides at its last dot. -/
theorem suffixOfName_eq {name : String} {front letters : List Char}
    (hname : name.toList = front ++ '.' :: letters) (hletters : '.' ∉ letters) :
    suffixOfName name
      = if letters = [] ∨ front = [] then "" else String.ofList ('.' :: letters) := by
  have hending : (name.toList.reverse.takeWhile (· != '.')).length = letters.length := by
    rw [hname, List.reverse_append, List.reverse_cons, List.append_assoc,
      List.takeWhile_append_of_pos]
    · simp
    · intro c hc
      have hletter := List.mem_reverse.mp hc
      simpa using fun hdot : c = '.' => hletters (hdot ▸ hletter)
  have hlength : name.toList.length = front.length + (letters.length + 1) := by
    rw [hname, List.length_append, List.length_cons]
  have hdrop : name.toList.drop (name.toList.length - letters.length - 1) = '.' :: letters := by
    rw [hlength, hname]
    exact List.drop_left' (by omega)
  have hnone : (letters.length == 0 || decide (letters.length + 1 ≥ name.toList.length)) = true
      ↔ letters = [] ∨ front = [] := by
    rw [hlength, Bool.or_eq_true, beq_iff_eq, decide_eq_true_iff, List.length_eq_zero_iff,
      ← List.length_eq_zero_iff (l := front)]
    refine or_congr_right ?_
    omega
  rw [suffixOfName, hending, hdrop]
  simp only [hnone]

/-- A name has a given suffix if it ends in it and is longer. -/
theorem suffixOfName_eq_iff {letters : List Char} (hsome : letters ≠ []) (hletters : '.' ∉ letters)
    {name : String} :
    suffixOfName name = String.ofList ('.' :: letters)
      ↔ '.' :: letters <:+ name.toList ∧ name ≠ String.ofList ('.' :: letters) := by
  have hnonempty : "" ≠ String.ofList ('.' :: letters) := by
    intro hempty
    have hchars := congrArg String.toList hempty
    rw [String.toList_ofList] at hchars
    exact absurd hchars (by simp)
  constructor
  · intro hsuffix
    constructor
    · rw [suffixOfName] at hsuffix
      split at hsuffix
      · exact absurd hsuffix hnonempty
      · rw [← String.ofList_inj.mp hsuffix]
        exact List.drop_suffix _ _
    · rintro rfl
      have hwhole : (String.ofList ('.' :: letters)).toList = [] ++ '.' :: letters :=
        String.toList_ofList
      rw [suffixOfName_eq hwhole hletters, if_pos (.inr rfl)] at hsuffix
      exact hnonempty hsuffix
  · rintro ⟨⟨front, hfront⟩, hlonger⟩
    rw [suffixOfName_eq hfront.symm hletters, if_neg]
    rintro (hnone | hnone)
    · exact hsome hnone
    · rw [hnone, List.nil_append] at hfront
      rw [hfront, String.ofList_toList] at hlonger
      exact hlonger rfl

theorem isSuffix_php_iff {name : String} :
    ".php".toList <:+ name.toList ↔ suffixOfName name = ".php" ∨ name = ".php" := by
  have hphp : ".php" = String.ofList ('.' :: ['p', 'h', 'p']) := by decide
  rw [hphp, suffixOfName_eq_iff (by simp) (by simp), String.toList_ofList]
  constructor
  · intro hsuffix
    by_cases hname : name = String.ofList ['.', 'p', 'h', 'p']
    · exact .inr hname
    · exact .inl ⟨hsuffix, hname⟩
  · rintro (⟨hsuffix, -⟩ | rfl)
    · exact hsuffix
    · rw [String.toList_ofList]

end Path

theorem FileType.ofPath_eq_php_iff {path : Path} :
    ofPath path = .php ↔ Text.lower path.suffix = ".php" := by
  have hdistinct : (suffixes.map Prod.fst).Nodup := by decide
  have hlookup : suffixes.lookup (Text.lower path.suffix) = some .php
      ↔ Text.lower path.suffix = ".php" := by
    rw [lookup_eq_some_iff_mem hdistinct]
    simp [suffixes]
  rw [ofPath, ← hlookup]
  cases suffixes.lookup (Text.lower path.suffix) <;> simp

/-- A file that is named by an extension alone has no suffix, and none of the known types. -/
theorem FileType.ofPath_eq_other {path : Path} (hname : path.name = ".php") :
    ofPath path = .other := by
  have hnone : (suffixes.lookup (Text.lower (Path.suffixOfName ".php"))).getD .other = .other := by
    decide +kernel
  rwa [ofPath, Path.suffix, hname]

/-! ### What a rule is handed -/

theorem flatMap_ite {α β : Type} (wanted : α → Bool) (f : α → List β) (items : List α) :
    (items.flatMap fun item => if wanted item then f item else [])
      = (items.filter wanted).flatMap f := by
  induction items with
  | nil => rfl
  | cons item rest ih => cases hitem : wanted item <;> simp [hitem, ih]

namespace Audit

variable {σ : Type}

/-- What the calls of the rule of a name are about. -/
def subjectsOf (identifier : String) (calls : List ((NamedRule σ × Nat) × Subject)) :
    List Subject :=
  (calls.filter fun call => call.1.1.identifier == identifier).map Prod.snd

/-- What a rule that wants to see certain things is due. -/
def subjectsFor (capabilities : Capabilities) (files : List SourceFile) (listing : List String) :
    List Subject :=
  (if capabilities.directory then [.directory listing] else [])
    ++ files.flatMap fun file =>
      (if capabilities.fileTypes.contains file.fileType then [.file file] else [])
        ++ if capabilities.lineTypes.contains file.fileType then file.numberedLines.map .line
          else []

theorem map_snd_callsWith {ι : Type} (wanted : ι → Bool) (entry : ι) (subject : Subject) :
    (callsWith wanted [entry] subject).map Prod.snd = if wanted entry then [subject] else [] := by
  rw [callsWith]
  cases hwanted : wanted entry <;> simp [hwanted]

/-- Among the calls of all rules, a rule has its own if no other rule has its name. -/
theorem subjectsOf_callsOf {identifier : String} {entries : List (NamedRule σ × Nat)}
    {entry : NamedRule σ × Nat}
    (halone : (entries.filter fun other => other.1.identifier == identifier) = [entry])
    (files : List SourceFile) (listing : List String) :
    subjectsOf identifier (callsOf entries files listing)
      = subjectsFor entry.1.rule.capabilities files listing := by
  have hlines (file : SourceFile) : file.numberedLines
      = (file.lines.zipIdx 1).map fun line => ⟨file, line.2, line.1⟩ := by
    rw [SourceFile.numberedLines, numberLines_eq]
  have hfile (file : SourceFile) :
      (callsFor (fun entry : NamedRule σ × Nat => entry.1.rule.capabilities) [entry] file).map
          Prod.snd
        = (if entry.1.rule.capabilities.fileTypes.contains file.fileType then [.file file] else [])
          ++ if entry.1.rule.capabilities.lineTypes.contains file.fileType
            then file.numberedLines.map .line else [] := by
    rw [callsFor, List.map_append, map_snd_callsWith, List.map_flatMap]
    simp only [map_snd_callsWith]
    congr 1
    split
    · rw [hlines, List.map_map, List.map_eq_flatMap]
      rfl
    · simp
  have hown : ((callsOf entries files listing).filter fun call =>
      call.1.1.identifier == identifier) = callsOf [entry] files listing := by
    rw [← halone]
    exact (schedule_filter (fun entry : NamedRule σ × Nat => entry.1.rule.capabilities)
      (fun entry => entry.1.identifier == identifier) entries files listing).symm
  rw [subjectsOf, hown, callsOf, schedule, subjectsFor, List.map_append, map_snd_callsWith,
    List.map_flatMap]
  simp only [hfile]

section BuiltIn

variable (context : RuleContext) (files : List SourceFile) (listing : List String)

theorem subjectsOf_eventNames :
    subjectsOf "event_names"
        (callsOf (RulePackage.builtInRules context : List (NamedRule σ)).zipIdx files listing)
      = [.directory listing] := by
  have halone : ((RulePackage.builtInRules context : List (NamedRule σ)).zipIdx.filter
      fun other => other.1.identifier == "event_names")
        = [(⟨"event_names", EventNames.rule context⟩, 1)] := by
    rw [RulePackage.builtInRules_eq]
    rfl
  rw [subjectsOf_callsOf halone]
  simp [subjectsFor, EventNames.rule, Rule.stateless]

theorem subjectsOf_phpTags :
    subjectsOf "php_header"
        (callsOf (RulePackage.builtInRules context : List (NamedRule σ)).zipIdx files listing)
      = (files.filter (·.fileType == .php)).map .file := by
  have halone : ((RulePackage.builtInRules context : List (NamedRule σ)).zipIdx.filter
      fun other => other.1.identifier == "php_header")
        = [(⟨"php_header", PhpTags.rule⟩, 3)] := by
    rw [RulePackage.builtInRules_eq]
    rfl
  rw [subjectsOf_callsOf halone, List.map_eq_flatMap, ← flatMap_ite]
  simp [subjectsFor, PhpTags.rule, Rule.stateless]

theorem subjectsOf_forbiddenCalls :
    subjectsOf "php_functions"
        (callsOf (RulePackage.builtInRules context : List (NamedRule σ)).zipIdx files listing)
      = (files.filter (·.fileType == .php)).flatMap (·.numberedLines.map .line) := by
  have halone : ((RulePackage.builtInRules context : List (NamedRule σ)).zipIdx.filter
      fun other => other.1.identifier == "php_functions")
        = [(⟨"php_functions", ForbiddenCalls.rule context⟩, 2)] := by
    rw [RulePackage.builtInRules_eq]
    rfl
  rw [subjectsOf_callsOf halone, ← flatMap_ite]
  simp [subjectsFor, ForbiddenCalls.rule, Rule.stateless]

end BuiltIn

end Audit

namespace Package

open FileTree

variable {tree : FileTree} {root base : Path} {place : List String}

section Rooted

variable (hrooted : tree.Rooted root place)

include hrooted

/-- From a directory below the root, the path to a file ends in its name. -/
theorem exists_relativeTo_eq {under above : List String} {name : String} {entry : Entry}
    (hunder : under ∈ tree.directoriesBelow place)
    (hlisted : (place ++ (above ++ [name]), entry) ∈ tree.entries) (hentry : entry ≠ .directory) :
    ∃ steps, (root.descend (above ++ [name])).relativeTo (root.descend under)
      = ⟨0, steps ++ [name]⟩ := by
  have hdots : ".." ∉ above ++ [name] :=
    fun hmem => (hrooted.proper.properName hlisted hmem).not_dots rfl
  obtain ⟨front, up, down, hup, hdown, hrelative⟩ :=
    Path.exists_relativeTo_eq root hdots (dots_not_mem hrooted.proper hunder)
  obtain rfl | ⟨more, last, rfl⟩ := List.eq_nil_or_concat' down
  · rw [List.append_nil] at hdown
    rw [hup, ← hdown] at hunder
    exact absurd (entry_eq_directory hrooted (by simp) hlisted hunder) hentry
  · rw [← List.append_assoc] at hdown
    obtain rfl : name = last := List.singleton_inj.mp (List.append_inj' hdown rfl).2
    exact ⟨_, by rw [hrelative, ← List.append_assoc]⟩

/-- Of the files that are loaded, those are sources that have the extension as their suffix or as
their name. -/
theorem isSource_iff {settings : Settings} (hextension : settings.sourceExtension = ".php")
    {manifest : String} (hbase : baseDirectory tree manifest root = .ok base) {contents : Contents}
    (hload : load tree root base = .ok contents) {file : SourceFile}
    (hfile : file ∈ contents.files) :
    EventNames.isSource settings file.relativePath = true
      ↔ file.path.suffix = ".php" ∨ file.path.name = ".php" := by
  obtain ⟨visited, hvisited, rfl⟩ := load_eq_ok_iff.mp hload
  obtain ⟨path, hpath, content, rfl⟩ := (accountsFor_ofLoaded root base visited).exists_path hfile
  obtain ⟨below, entry, hbelow, hlisted, hentry, -, rfl⟩ :=
    (mem_files_iff hrooted hvisited).mp hpath
  obtain ⟨above, name, rfl⟩ := (List.eq_nil_or_concat' below).resolve_left hbelow
  obtain ⟨under, hunder, rfl, -⟩ := exists_below_of_baseDirectory hrooted hbase
  obtain ⟨steps, hsteps⟩ := exists_relativeTo_eq hrooted hunder hlisted hentry
  have hslash : '/' ∉ ".php".toList := by decide
  rw [SourceFile.ofText, EventNames.isSource, hextension, hsteps, List.isSuffixOf_iff_suffix,
    Path.isSuffix_text_iff hslash, Path.suffix, Path.name_descend]
  exact Path.isSuffix_php_iff

end Rooted

/-- **Two notions of a PHP file.** In a run of the built-in rules over what is loaded of a package,
with the usual source extension, the rule on events takes the entries of the files that have the
extension as their suffix or as their name, while the rules on tags and on calls are handed the files
whose suffix is the extension in lower case. So a file of type PHP escapes the rule on events exactly
if its suffix has capitals, and another file is searched exactly if its name is the extension, in
which case it has none of the known types. -/
theorem sources_and_php_files (tree : FileTree) (hproper : tree.Proper) (root : Path)
    (context : RuleContext) (hextension : context.settings.sourceExtension = ".php")
    (hbase : baseDirectory tree context.settings.manifest root = .ok context.baseDirectory)
    (contents : Contents) (hload : load tree root context.baseDirectory = .ok contents) :
    let calls := Audit.callsOf (RulePackage.builtInRules context : List (NamedRule Unit)).zipIdx
      contents.files contents.listing
    let sources := contents.files.filter fun file =>
      file.path.suffix == ".php" || file.path.name == ".php"
    let phpFiles := contents.files.filter (·.fileType == .php)
    Audit.subjectsOf "event_names" calls = [.directory contents.listing]
      ∧ contents.listing.filter (EventNames.isSource context.settings)
          = sources.map (·.relativePath)
      ∧ Audit.subjectsOf "php_header" calls = phpFiles.map .file
      ∧ Audit.subjectsOf "php_functions" calls = phpFiles.flatMap (·.numberedLines.map .line)
      ∧ ∀ file ∈ contents.files,
          (file ∈ phpFiles ↔ Text.lower file.path.suffix = ".php")
            ∧ (file ∈ phpFiles ∧ file ∉ sources
                ↔ Text.lower file.path.suffix = ".php" ∧ file.path.suffix ≠ ".php")
            ∧ (file ∈ sources ∧ file ∉ phpFiles ↔ file.path.name = ".php")
            ∧ (file.path.name = ".php" → file.fileType = .other) := by
  obtain ⟨place, hrooted⟩ := exists_rooted hproper hbase
  intro calls sources phpFiles
  have hsource {file : SourceFile} (hfile : file ∈ contents.files) :=
    isSource_iff hrooted hextension hbase hload hfile
  have htype {file : SourceFile} (hfile : file ∈ contents.files) :
      file.fileType = .ofPath file.path := by
    obtain ⟨visited, -, rfl⟩ := load_eq_ok_iff.mp hload
    obtain ⟨path, -, content, rfl⟩ :=
      (accountsFor_ofLoaded root context.baseDirectory visited).exists_path hfile
    rw [SourceFile.ofText]
  have hphp {file : SourceFile} (hfile : file ∈ contents.files) :
      file.fileType = .php ↔ Text.lower file.path.suffix = ".php" := by
    rw [htype hfile, FileType.ofPath_eq_php_iff]
  refine ⟨Audit.subjectsOf_eventNames context _ _, ?_, Audit.subjectsOf_phpTags context _ _,
    Audit.subjectsOf_forbiddenCalls context _ _, fun file hfile => ?_⟩
  · rw [Contents.listing, List.filter_map]
    congr 1
    apply List.filter_congr
    intro file hfile
    rw [Bool.eq_iff_iff, Function.comp_apply, hsource hfile]
    simp
  · have hlower : Text.lower ".php" = ".php" := by decide +kernel
    have hnone : Text.lower (Path.suffixOfName ".php") ≠ ".php" := by decide +kernel
    have hhidden : file.path.name = ".php" → Text.lower file.path.suffix ≠ ".php" := by
      intro hname
      rwa [Path.suffix, hname]
    have hplain : file.path.suffix = ".php" → Text.lower file.path.suffix = ".php" := by
      intro hsuffix
      rwa [hsuffix]
    have hmemPhp : file ∈ phpFiles ↔ Text.lower file.path.suffix = ".php" := by
      simp [phpFiles, hfile, hphp hfile]
    have hmemSource : file ∈ sources ↔ file.path.suffix = ".php" ∨ file.path.name = ".php" := by
      simp [sources, hfile]
    refine ⟨hmemPhp, ?_, ?_, fun hname => ?_⟩
    · rw [hmemPhp, hmemSource]
      refine and_congr_right fun hlower => not_congr (or_iff_left fun hname => ?_)
      exact hhidden hname hlower
    · rw [hmemPhp, hmemSource]
      constructor
      · rintro ⟨hsuffix | hname, hother⟩
        · exact absurd (hplain hsuffix) hother
        · exact hname
      · exact fun hname => ⟨.inr hname, hhidden hname⟩
    · rw [htype hfile, FileType.ofPath_eq_other hname]

/-- A package with a suffix in capitals, and with a file named by the extension alone. -/
def capitalSuffix : FileTree where
  entries := [(["pkg"], .directory), (["pkg", ".php"], .file []), (["pkg", "A.PHP"], .file []),
    (["pkg", "ext.php"], .file [])]

def capitalFiles : List Path :=
  [⟨0, ["pkg", ".php"]⟩, ⟨0, ["pkg", "A.PHP"]⟩, ⟨0, ["pkg", "ext.php"]⟩]

def capitalContents : Contents :=
  .ofLoaded ⟨0, ["pkg"]⟩ ⟨0, ["pkg"]⟩ (capitalFiles.map (loadFile capitalSuffix ⟨0, ["pkg"]⟩))

theorem baseDirectory_capitalSuffix :
    baseDirectory capitalSuffix "ext.php" ⟨0, ["pkg"]⟩ = .ok ⟨0, ["pkg"]⟩ := by
  decide +kernel

theorem load_capitalSuffix :
    load capitalSuffix ⟨0, ["pkg"]⟩ ⟨0, ["pkg"]⟩ = .ok capitalContents := by
  have hfound : capitalSuffix.search ⟨0, ["pkg"]⟩ "*" = .ok capitalFiles := by decide +kernel
  have hkept : filesAmong capitalSuffix ⟨0, ["pkg"]⟩ capitalFiles = .ok capitalFiles := by
    decide +kernel
  have hsorted : sortBelow ⟨0, ["pkg"]⟩ capitalFiles = capitalFiles := by
    apply List.mergeSort_of_pairwise
    decide
  exact load_eq_ok_iff.mpr
    ⟨_, filesMatching_eq_ok_iff.mpr ⟨_, _, hfound, hkept, hsorted.symm⟩, rfl⟩

theorem sources_and_php_files_capitalSuffix :
    let context := contextWith capitalSuffix {} {} ⟨0, ["pkg"]⟩ ""
    capitalSuffix.Proper ∧ context.settings.sourceExtension = ".php"
      ∧ baseDirectory capitalSuffix context.settings.manifest ⟨0, ["pkg"]⟩ = .ok ⟨0, ["pkg"]⟩
      ∧ load capitalSuffix ⟨0, ["pkg"]⟩ ⟨0, ["pkg"]⟩ = .ok capitalContents
      ∧ capitalContents.listing.filter (EventNames.isSource context.settings)
          = [".php", "ext.php"] := by
  intro context
  have hproper : capitalSuffix.Proper := by decide
  obtain ⟨-, hsources, -⟩ := sources_and_php_files capitalSuffix hproper ⟨0, ["pkg"]⟩ context rfl
    baseDirectory_capitalSuffix capitalContents load_capitalSuffix
  refine ⟨hproper, rfl, baseDirectory_capitalSuffix, load_capitalSuffix, ?_⟩
  rw [hsources]
  decide +kernel

theorem sources_apart_capitalSuffix :
    capitalSuffix.Proper
      ∧ baseDirectory capitalSuffix "ext.php" ⟨0, ["pkg"]⟩ = .ok ⟨0, ["pkg"]⟩
      ∧ load capitalSuffix ⟨0, ["pkg"]⟩ ⟨0, ["pkg"]⟩ = .ok capitalContents
      ∧ capitalContents.listing.filter (EventNames.isSource {})
          ≠ (capitalContents.files.filter (·.fileType == .php)).map (·.relativePath) := by
  refine ⟨by decide, baseDirectory_capitalSuffix, load_capitalSuffix, ?_⟩
  decide +kernel

end Package

end ExtensionAudit
