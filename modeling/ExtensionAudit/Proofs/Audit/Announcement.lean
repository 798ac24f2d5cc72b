import Mathlib
import ExtensionAudit.Proofs.Audit.Independence
import ExtensionAudit.Proofs.Rule.Announcement

/-!
# A run of built-in rules never gets ahead of what it announces

The work that a report counts as done and the work that it expects grow by what its events do and
announce. So along a run of rules each call of which announces its work before it does it, the work
done never gets ahead of the work expected, wherever the run is looked at, and the two meet at the
end of every call. A call that fails may break this: the message of its failure is work too, and is
covered only if the call left some announced work to do.
-/

namespace ExtensionAudit

namespace RunEvent

/-- The units of work that an event does. -/
def work : RunEvent → Nat
  | .effect act => act.work
  | .failed _ _ _ => 1
  | .untold _ _ _ _ => 0

theorem units_comp_effect : units ∘ RunEvent.effect = Effect.units := by
  funext act
  cases act <;> rfl

theorem enter_work (report : Report) (event : RunEvent) :
    (enter report event).progress.current = report.progress.current + event.work := by
  rw [enter_current]
  cases event with
  | failed identifier target failure => simp [messages, work]
  | untold identifier target kind places => simp [messages, work]
  | effect act => cases act <;> simp [messages, Effect.messages, work, Effect.work]

end RunEvent

namespace Report

theorem enterAll_work (report : Report) (events : List RunEvent) :
    (report.enterAll events).progress.current
      = report.progress.current + (events.map RunEvent.work).sum := by
  induction events generalizing report with
  | nil => rfl
  | cons event rest ih =>
    rw [enterAll_cons, ih, RunEvent.enter_work, List.map_cons, List.sum_cons, Nat.add_assoc]

variable {report : Report} {events : List RunEvent}

theorem current_le_total (hcovered : Covered RunEvent.units RunEvent.work events)
    (hlevel : report.progress.current = report.progress.total) {front : List RunEvent}
    (hfront : front <+: events) :
    (report.enterAll front).progress.current ≤ (report.enterAll front).progress.total := by
  rw [enterAll_work, enterAll_total, hlevel]
  exact Nat.add_le_add_left (hcovered front hfront) _

theorem current_eq_total (hpaid : PaidFor RunEvent.units RunEvent.work events)
    (hlevel : report.progress.current = report.progress.total) :
    (report.enterAll events).progress.current = (report.enterAll events).progress.total := by
  rw [enterAll_work, enterAll_total, hlevel, hpaid.balanced]

end Report

namespace Outcome.Announces

variable {outcome : Outcome}

theorem accepted_eq (hannounces : outcome.Announces) : outcome.accepted = outcome.effects := by
  apply List.takeWhile_eq_self_iff.mpr
  intro effect hmem
  rw [hannounces.accepted effect hmem]
  rfl

theorem ending_eq (hannounces : outcome.Announces) : outcome.ending = outcome.failure := by
  have hnone : outcome.effects.find? Effect.isRefused = none := by
    apply List.find?_eq_none.mpr
    intro effect hmem
    rw [hannounces.accepted effect hmem]
    exact Bool.false_ne_true
  rw [ending, hnone]

end Outcome.Announces

/-- A failure that can be told is one unit of work. -/
theorem Audit.sum_failureEvents (identifier target : String) {outcome : Outcome}
    (htold : outcome.Told) :
    ((failureEvents identifier target outcome.failure).map RunEvent.work).sum
        = outcome.failure.toList.length
      ∧ ((failureEvents identifier target outcome.failure).map RunEvent.units).sum = 0 := by
  cases hfailure : outcome.failure with
  | none => exact ⟨rfl, rfl⟩
  | some raised =>
    cases raised with
    | told failure => exact ⟨rfl, rfl⟩
    | untold kind places instead => cases htold _ hfailure

/-- What a call enters is covered by what it announces, if that covers the message of a failure
too. -/
theorem MadeCall.events_paidFor {call : MadeCall} (hannounces : call.outcome.Announces)
    (htold : call.outcome.Told) (hsettles : call.outcome.Settles) :
    PaidFor RunEvent.units RunEvent.work call.events := by
  have heffects : Covered RunEvent.units RunEvent.work (call.outcome.effects.map .effect) := by
    apply Covered.map
    rw [RunEvent.units_comp_effect]
    exact hannounces.covered
  obtain ⟨hwork, hunits⟩ :=
    Audit.sum_failureEvents call.identifier call.subject.target htold
  rw [events, hannounces.accepted_eq, hannounces.ending_eq]
  apply heffects.settled
  · rw [List.map_map, List.map_map, RunEvent.units_comp_effect, hwork]
    exact hsettles
  · exact hunits

namespace Audit

variable {σ : Type}

theorem runEvents_paidFor {made : List MadeCall}
    (hmade : ∀ call ∈ made, PaidFor RunEvent.units RunEvent.work call.events) :
    PaidFor RunEvent.units RunEvent.work (runEvents made) := by
  have htrace : PaidFor RunEvent.units RunEvent.work [.effect (.trace "Running rules")] :=
    PaidFor.announced rfl rfl rfl
  exact htrace.append (PaidFor.flatMap hmade)

/-- The only listing that a run calls rules with is its own. -/
theorem listing_of_mem_schedule {ι : Type} {wants : ι → Capabilities} {entries : List ι}
    {files : List SourceFile} {listing other : List String} {entry : ι}
    (hmem : (entry, .directory other) ∈ schedule wants entries files listing) :
    other = listing := by
  have hsubject {wanted : ι → Bool} {subject : Subject}
      (hwith : (entry, .directory other) ∈ callsWith wanted entries subject) :
      .directory other = subject := by
    obtain ⟨_, -, hcall⟩ := List.mem_map.mp hwith
    exact (congrArg Prod.snd hcall).symm
  rw [schedule, List.mem_append, List.mem_flatMap] at hmem
  obtain hlisting | ⟨file, -, hfile⟩ := hmem
  · exact Subject.directory.inj (hsubject hlisting)
  · obtain hwhole | hline := List.mem_append.mp hfile
    · cases hsubject hwhole
    · obtain ⟨line, -, hline⟩ := List.mem_flatMap.mp hline
      cases hsubject hline

/-- Each call of a run is answered by one of the rules, and is about a file, a line or the listing of
the run. -/
theorem exists_answer_of_mem_run {rules : List (NamedRule σ)} {files : List SourceFile}
    {listing : List String} {state : σ} {call : MadeCall}
    (hmem : call ∈ (makeEach (callsOf rules.zipIdx files listing) state).1) :
    ∃ entry ∈ rules, ∃ before, call.outcome = (entry.rule.check call.subject before).1
      ∧ ∀ other, call.subject = .directory other → other = listing := by
  obtain ⟨⟨entry, subject⟩, hentry, before, hsubject, houtcome⟩ :=
    exists_answer_of_mem_makeEach hmem
  have hrule : entry.1 ∈ rules := by
    have hfst := List.mem_map_of_mem (f := Prod.fst) (mem_of_mem_schedule hentry)
    rwa [List.zipIdx_map_fst] at hfst
  rw [houtcome, hsubject]
  refine ⟨entry.1, hrule, before, rfl, fun other hdirectory => ?_⟩
  obtain rfl : subject = .directory other := hdirectory
  exact listing_of_mem_schedule hentry

/-- Each call of a run of built-in rules is answered as those answer. -/
theorem builtInAnswer_of_mem_run {context : RuleContext} {rules : List (NamedRule σ)}
    (hrules : rules ⊆ RulePackage.builtInRules context) {files : List SourceFile}
    {listing : List String} {state : σ} {call : MadeCall}
    (hmem : call ∈ (makeEach (callsOf rules.zipIdx files listing) state).1) :
    RulePackage.BuiltInAnswer context call.subject call.outcome := by
  obtain ⟨entry, hentry, before, houtcome, -⟩ := exists_answer_of_mem_run hmem
  rw [houtcome]
  exact RulePackage.builtInAnswer (hrules hentry) call.subject before

theorem failure_of_not_failed {made : List MadeCall} (hreturn : ∀ identifier target failure,
    RunEvent.failed identifier target failure ∉ runEvents made) {call : MadeCall}
    (hmem : call ∈ made) (hannounces : call.outcome.Announces) (htold : call.outcome.Told) :
    call.outcome.failure = none := by
  cases hfailure : call.outcome.failure with
  | none => rfl
  | some raised =>
    cases raised with
    | untold kind places instead => cases htold _ hfailure
    | told failure =>
      have hevent : .failed call.identifier call.subject.target failure ∈ call.events := by
        apply List.mem_append_right
        rw [hannounces.ending_eq, hfailure]
        exact List.mem_singleton_self _
      have hrun : .failed call.identifier call.subject.target failure ∈ runEvents made :=
        List.mem_cons_of_mem _ (List.mem_flatMap.mpr ⟨call, hmem, hevent⟩)
      exact absurd hrun (hreturn _ _ _)

/-- **Built-in rules announce their work before they do it.** Whatever the settings, the package and
the subject, no call of a built-in rule does more at any point than it has announced, and a call
that returns does as much. So a run of some of the built-in rules in which no call fails takes a
report whose work is done to one whose work is done, and on the way never counts more work as done
than it expects. -/
theorem builtIn_run_announces (context : RuleContext) :
    (∀ (entry : NamedRule σ), entry ∈ RulePackage.builtInRules context →
      ∀ (subject : Subject) (state : σ), (entry.rule.check subject state).1.Announces)
      ∧ ∀ (rules : List (NamedRule σ)), rules ⊆ RulePackage.builtInRules context → rules ≠ [] →
        ∀ (files : List SourceFile) (listing : List String) (state : σ) (report : Report),
          report.progress.current = report.progress.total →
          ∃ events left, run rules files listing state = .ok (events, left)
            ∧ ((∀ identifier target failure,
                RunEvent.failed identifier target failure ∉ events) →
              (∀ front, front <+: events →
                  (report.enterAll front).progress.current
                    ≤ (report.enterAll front).progress.total)
                ∧ (report.enterAll events).progress.current
                    = (report.enterAll events).progress.total) := by
  refine ⟨fun entry hentry subject state =>
    (RulePackage.builtInAnswer hentry subject state).announces, ?_⟩
  intro rules hrules hsome files listing state report hlevel
  have hrun := run_eq (zipIdx_ne_nil hsome) (allTold_builtIn hrules files listing state)
  rw [List.zipIdx_map_fst] at hrun
  refine ⟨_, _, hrun, fun hreturn => ?_⟩
  have hpaid : PaidFor RunEvent.units RunEvent.work
      (runEvents (makeEach (callsOf rules.zipIdx files listing) state).1) := by
    apply runEvents_paidFor
    intro call hmem
    have hanswer := builtInAnswer_of_mem_run hrules hmem
    have hfailure := failure_of_not_failed hreturn hmem hanswer.announces hanswer.told
    exact call.events_paidFor hanswer.announces hanswer.told (hanswer.announces.settles hfailure)
  exact ⟨fun front hfront => Report.current_le_total hpaid.covered hlevel hfront,
    Report.current_eq_total hpaid hlevel⟩

theorem builtIn_run_announces_emptyFile :
    let context : RuleContext := { settings := { forbiddenCalls := [] } }
    let rules : List (NamedRule Unit) := RulePackage.builtInRules context
    let file : SourceFile := ⟨.here, "a.php", .php, "<?php\n", ["<?php"]⟩
    rules ≠ [] ∧ ∃ events left, run rules [file] [] () = .ok (events, left)
      ∧ (∀ identifier target failure, RunEvent.failed identifier target failure ∉ events)
      ∧ (({} : Report).enterAll events).progress.current
          = (({} : Report).enterAll events).progress.total := by
  intro context rules file
  have hsome : rules ≠ [] := List.cons_ne_nil _ _
  obtain ⟨events, left, hrun, hlevel⟩ :=
    (builtIn_run_announces context).2 rules (List.Subset.refl _) hsome [file] [] () {} rfl
  have hreturn : ∀ identifier target failure,
      RunEvent.failed identifier target failure ∉ events := by
    have hevents : (run rules [file] [] ()).toOption.map Prod.fst = some
        [.effect (.trace "Running rules"), .effect (.declare 2),
          .effect (.message .error "Missing required file composer.json in the extension root"),
          .effect (.message .error "Missing required file license.txt in the extension root"),
          .effect (.declare 0), .effect (.trace "Found 0 events in 0 files"),
          .effect (.declare 2), .effect .pass, .effect .pass] := by
      decide +kernel
    rw [hrun] at hevents
    obtain rfl := Option.some.inj hevents
    intro identifier target failure hmem
    simp at hmem
  exact ⟨hsome, events, left, hrun, hreturn, (hlevel hreturn).2⟩

end Audit

end ExtensionAudit
