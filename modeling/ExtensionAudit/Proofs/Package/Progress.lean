import Mathlib
import ExtensionAudit.Proofs.Audit.Announcement
import ExtensionAudit.Proofs.Package.Faults
import ExtensionAudit.Proofs.Package.Listing

/-!
# The progress of a check

At the end of a check as much should be done as was announced. The rules see to that: the one call
of a built-in rule that can fail has announced the message of its failure before it fails, and the
rule on events, which would fail over a path that is none, is never handed one. What loading does
stands outside this: a notice counts as done like every message, and nothing is announced for it. So
the work done is ahead of the work announced by the number of files that cannot be read.
-/

namespace ExtensionAudit

/-! ### Calls of the built-in rules over the listing of a package -/

theorem EventNames.check_returns {context : RuleContext} {listing : List String}
    (hbase : context.baseDirectory.NullFree)
    (hlisting : ∀ relative ∈ listing, '\x00' ∉ relative.toList) :
    (check context listing).failure = none := by
  have hsources : ∀ relative ∈ listing.filter (isSource context.settings),
      '\x00' ∉ relative.toList :=
    fun relative hmem => hlisting relative (List.mem_filter.mp hmem).1
  have hcrawl : ∃ extractions, Event.crawl context.tree context.settings.partialEvents
      context.baseDirectory (listing.filter (isSource context.settings)) = .ok extractions :=
    Event.exists_crawl hbase hsources
  obtain ⟨extractions, hcrawl⟩ := hcrawl
  rw [check, hcrawl]

/-- No call of a built-in rule leaves anything to do, unless it is called with a listing that holds
a null character. -/
theorem RulePackage.BuiltInAnswer.settles {context : RuleContext} {subject : Subject}
    {outcome : Outcome} (hanswer : BuiltInAnswer context subject outcome)
    (hbase : context.baseDirectory.NullFree)
    (hsubject : ∀ listing, subject = .directory listing →
      ∀ relative ∈ listing, '\x00' ∉ relative.toList) : outcome.Settles := by
  cases hanswer with
  | unasked => exact Outcome.Settles.nothing
  | requiredFiles listing =>
    exact (DirectoryStructure.check_announces context.settings listing).settles rfl
  | eventNames listing =>
    have hreturns := EventNames.check_returns hbase (hsubject listing rfl)
    exact (EventNames.check_announces context listing).settles hreturns
  | forbiddenCalls source =>
    exact ForbiddenCalls.check_settles (ForbiddenCalls.lowerCalls context.settings)
      source.location source.text
  | phpTags source => exact (PhpTags.check_announces source).settles rfl

namespace Audit

variable {σ : Type}

/-- A run of built-in rules does as much as it announces, even if calls fail. -/
theorem builtIn_runEvents_paidFor {context : RuleContext} {rules : List (NamedRule σ)}
    (hrules : rules ⊆ RulePackage.builtInRules context) (hbase : context.baseDirectory.NullFree)
    (files : List SourceFile) {listing : List String}
    (hlisting : ∀ relative ∈ listing, '\x00' ∉ relative.toList) (state : σ) :
    PaidFor RunEvent.units RunEvent.work
      (runEvents (makeEach (callsOf rules.zipIdx files listing) state).1) := by
  apply runEvents_paidFor
  intro call hmem
  have hanswer := builtInAnswer_of_mem_run hrules hmem
  apply call.events_paidFor hanswer.announces hanswer.told
  obtain ⟨entry, hentry, before, houtcome, hsubject⟩ := exists_answer_of_mem_run hmem
  rw [houtcome]
  apply (RulePackage.builtInAnswer (hrules hentry) call.subject before).settles hbase
  intro other hdirectory
  rw [hsubject other hdirectory]
  exact hlisting

end Audit

namespace Package

variable {tree : FileTree} {root base : Path} {request : CheckRequest} {visited : List Path}
  {contents : Contents}

/-! ### What loading does and announces -/

/-- Whether there is a file at the path and no way to read it. -/
def isUnreadable (tree : FileTree) (path : Path) : Bool := (tree.read path).toOption.isNone

namespace AccountsFor

variable (haccounts : AccountsFor tree base visited contents)

include haccounts

theorem work_eq_messages {effect : Effect} (hmem : effect ∈ contents.effects) :
    effect.work = effect.messages.length := by
  cases effect with
  | message severity text => rfl
  | declare units => rfl
  | trace text => rfl
  | pass =>
    obtain ⟨text, hpass⟩ := haccounts.silent .pass hmem rfl
    cases hpass

theorem units_eq_zero {effect : Effect} (hmem : effect ∈ contents.effects) : effect.units = 0 := by
  cases effect with
  | message severity text => rfl
  | pass => rfl
  | trace text => rfl
  | declare units =>
    obtain ⟨text, hdeclare⟩ := haccounts.silent (.declare units) hmem rfl
    cases hdeclare

/-- Loading does a unit of work for each file that cannot be read. -/
theorem sum_work : (contents.effects.map Effect.work).sum = visited.countP (isUnreadable tree) := by
  have hnotice (path : Path) : (noticeAt tree base path).isSome = isUnreadable tree path := by
    rw [noticeAt, isUnreadable]
    cases tree.read path <;> rfl
  calc (contents.effects.map Effect.work).sum
      = (contents.effects.map fun effect => effect.messages.length).sum :=
        congrArg List.sum (List.map_congr_left fun effect hmem => haccounts.work_eq_messages hmem)
    _ = (contents.effects.flatMap Effect.messages).length := List.length_flatMap.symm
    _ = visited.countP (isUnreadable tree) := by
        rw [haccounts.notices, List.length_filterMap_eq_countP]
        exact List.countP_congr fun path _ => by rw [hnotice]

/-- And it announces none. -/
theorem sum_units : (contents.effects.map Effect.units).sum = 0 := by
  apply List.sum_eq_zero
  intro units hmem
  obtain ⟨effect, heffect, rfl⟩ := List.mem_map.mp hmem
  exact haccounts.units_eq_zero heffect

/-- Before a run that does as much as it announces, the work of loading stays ahead. -/
theorem progress_ahead {events : List RunEvent}
    (hpaid : PaidFor RunEvent.units RunEvent.work events) :
    let report := ({} : Report).enterAll (contents.effects.map .effect ++ events)
    report.progress.current = report.progress.total + visited.countP (isUnreadable tree) := by
  have hwork : RunEvent.work ∘ RunEvent.effect = Effect.work := rfl
  have hfresh : ({} : Report).progress.current = ({} : Report).progress.total := rfl
  intro report
  rw [Report.enterAll_work, Report.enterAll_total, List.map_append, List.map_append,
    List.sum_append, List.sum_append, List.map_map, List.map_map, hwork,
    RunEvent.units_comp_effect, haccounts.sum_work, haccounts.sum_units, hpaid.balanced]
  omega

end AccountsFor

theorem countP_isUnreadable_eq_zero_iff :
    visited.countP (isUnreadable tree) = 0
      ↔ ∀ path ∈ visited, ∃ content, tree.read path = .ok content := by
  rw [List.countP_eq_zero]
  refine forall₂_congr fun path _ => ?_
  rw [isUnreadable]
  cases tree.read path <;> simp [Except.toOption]

/-! ### The check -/

theorem checkResult_eq_ok_iff {report : Report} :
    checkResult tree root request = .ok report
      ↔ ∃ context rules contents, contextResult tree root request = .ok context
          ∧ rulesResult context = .ok rules
          ∧ load context.tree root context.baseDirectory = .ok contents
          ∧ ({} : Report).enterAll (contents.effects.map .effect ++ Audit.runEvents
              (Audit.makeEach (Audit.callsOf rules.zipIdx contents.files contents.listing) ()).1)
            = report := by
  -- Each step of a check that comes to an end has ended in a value, and a run always does.
  constructor
  · intro hreport
    obtain ⟨context, hcontext, hrest⟩ := bind_eq_ok_iff.mp hreport
    obtain ⟨rules, hrules, hlast⟩ := bind_eq_ok_iff.mp hrest
    obtain ⟨entered, hevents, hentered⟩ := bind_eq_ok_iff.mp hlast
    rw [checkEvents_eq (rulesResult_eq_ok hrules)] at hevents
    obtain ⟨contents, hloaded, rfl⟩ := map_eq_ok_iff.mp hevents
    exact ⟨context, rules, contents, hcontext, hrules, mapError_eq_ok_iff.mp hloaded,
      Except.ok.inj hentered⟩
  · rintro ⟨context, rules, contents, hcontext, hrules, hload, rfl⟩
    refine bind_eq_ok_iff.mpr ⟨context, hcontext, bind_eq_ok_iff.mpr ⟨rules, hrules, ?_⟩⟩
    refine bind_eq_ok_iff.mpr ⟨(_, none), ?_, rfl⟩
    rw [checkEvents_eq (rulesResult_eq_ok hrules)]
    exact map_eq_ok_iff.mpr ⟨contents, mapError_eq_ok_iff.mpr hload, rfl⟩

/-- **What a check does and announces.** In the report of a check with the built-in rules, the work
done is the work announced and a unit more for each file of the package that cannot be read. So the
two are equal exactly if all of them can be read. -/
theorem check_progress (tree : FileTree) (hproper : tree.Proper) (root : Path)
    (request : CheckRequest) (report : Report)
    (hreport : (check tree root request).execute.1 = .ok report) :
    ∃ visited, files tree root = .ok visited
      ∧ report.progress.current
          = report.progress.total + visited.countP (isUnreadable tree)
      ∧ (report.progress.current = report.progress.total
          ↔ ∀ path ∈ visited, ∃ content, tree.read path = .ok content) := by
  rw [(check_ends tree root request).execute] at hreport
  obtain ⟨context, rules, contents, hcontext, hrules, hload, rfl⟩ :=
    checkResult_eq_ok_iff.mp hreport
  obtain ⟨htree, -, hbase⟩ := contextResult_eq_ok hcontext
  rw [htree] at hload
  have hnull := null_not_mem_listing hproper hbase hload
  have hpaid := Audit.builtIn_runEvents_paidFor (rulesResult_eq_ok hrules).1
    (baseDirectory_nullFree hproper hbase) contents.files hnull ()
  obtain ⟨visited, hvisited, rfl⟩ := load_eq_ok_iff.mp hload
  have haccounts : AccountsFor tree context.baseDirectory visited _ :=
    accountsFor_ofLoaded root context.baseDirectory visited
  have hahead := haccounts.progress_ahead hpaid
  refine ⟨visited, hvisited, hahead, ?_⟩
  rw [hahead, Nat.add_eq_left]
  exact countP_isUnreadable_eq_zero_iff

/-- A package of a manifest without text and of a link that leads nowhere. -/
def strayLink : FileTree where
  entries := [(["pkg"], .directory), (["pkg", "ext.php"], .file []),
    (["pkg", "gone.txt"], .danglingLink)]

theorem files_strayLink :
    files strayLink ⟨0, ["pkg"]⟩ = .ok [⟨0, ["pkg", "ext.php"]⟩, ⟨0, ["pkg", "gone.txt"]⟩] := by
  have hfound : strayLink.search ⟨0, ["pkg"]⟩ "*"
      = .ok [⟨0, ["pkg", "ext.php"]⟩, ⟨0, ["pkg", "gone.txt"]⟩] := by
    decide +kernel
  have hkept : filesAmong strayLink ⟨0, ["pkg"]⟩
      [⟨0, ["pkg", "ext.php"]⟩, ⟨0, ["pkg", "gone.txt"]⟩]
        = .ok [⟨0, ["pkg", "ext.php"]⟩, ⟨0, ["pkg", "gone.txt"]⟩] := by
    decide +kernel
  refine filesMatching_eq_ok_iff.mpr ⟨_, _, hfound, hkept, ?_⟩
  symm
  apply List.mergeSort_of_pairwise
  decide

def strayContext : RuleContext := contextWith strayLink {} {} ⟨0, ["pkg"]⟩ ""

theorem contextResult_strayLink :
    contextResult strayLink ⟨0, ["pkg"]⟩ {} = .ok strayContext := by
  have hsettings : settingsResult strayLink ⟨0, ["pkg"]⟩ {} = .ok {} := by decide +kernel
  have hbase : baseDirectory strayLink "ext.php" ⟨0, ["pkg"]⟩ = .ok ⟨0, ["pkg"]⟩ := by
    decide +kernel
  have hname : nameOrEmpty strayLink ⟨0, ["pkg"]⟩ "composer.json" = "" := by decide +kernel
  refine bind_eq_ok_iff.mpr ⟨{}, hsettings, bind_eq_ok_iff.mpr ⟨_, hbase, ?_⟩⟩
  rw [hname]
  rfl

theorem rulesResult_strayContext :
    (rulesResult strayContext : Except SetupFault (List (NamedRule Unit)))
      = .ok (RulePackage.builtInRules strayContext) := by
  have hnone : strayContext.disabling [] = strayContext := rfl
  have hrules := (rulesFor_builtIn_all strayContext : Setup.Yields _
    (RulePackage.builtInRules strayContext : List (NamedRule Unit))).execute
  rw [hnone, (rulesFor_ends strayContext).execute] at hrules
  exact hrules

/-- The report of the package counts five units done and four announced. -/
theorem check_strayLink : ∃ report,
    (check strayLink ⟨0, ["pkg"]⟩ {}).execute.1 = .ok report ∧ report.progress = ⟨4, 5⟩ := by
  rw [(check_ends strayLink ⟨0, ["pkg"]⟩ {}).execute]
  refine ⟨_, checkResult_eq_ok_iff.mpr ⟨_, _, _, contextResult_strayLink,
    rulesResult_strayContext, load_eq_ok_iff.mpr ⟨_, files_strayLink, rfl⟩, rfl⟩, ?_⟩
  decide +kernel

theorem check_progress_strayLink :
    strayLink.Proper ∧ ∃ report, (check strayLink ⟨0, ["pkg"]⟩ {}).execute.1 = .ok report
      ∧ report.progress.current = report.progress.total + 1 := by
  have hproper : strayLink.Proper := by decide
  obtain ⟨report, hreport, -⟩ := check_strayLink
  obtain ⟨visited, hvisited, hcurrent, -⟩ :=
    check_progress strayLink hproper ⟨0, ["pkg"]⟩ {} report hreport
  obtain rfl := Except.ok.inj (files_strayLink.symm.trans hvisited)
  have hcount : [⟨0, ["pkg", "ext.php"]⟩, ⟨0, ["pkg", "gone.txt"]⟩].countP
      (isUnreadable strayLink) = 1 := by
    decide +kernel
  rw [hcount] at hcurrent
  exact ⟨hproper, report, hreport, hcurrent⟩

theorem unannounced_strayLink :
    strayLink.Proper ∧ ∃ report, (check strayLink ⟨0, ["pkg"]⟩ {}).execute.1 = .ok report
      ∧ report.progress.current ≠ report.progress.total := by
  obtain ⟨report, hreport, hprogress⟩ := check_strayLink
  refine ⟨by decide, report, hreport, ?_⟩
  rw [hprogress]
  decide

end Package

end ExtensionAudit
