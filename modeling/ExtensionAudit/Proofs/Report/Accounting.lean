import Mathlib
import ExtensionAudit.Audit

/-!
# A report keeps its own books straight

A report holds the same facts twice over: the messages are listed and also counted by severity, the
work done is one number that messages and passes both add to, and the verdict is read once off the
counters and once off the list. Nothing reconciles the copies afterwards. What keeps them together
is that every event enters all of them at once, so the account of one event, carried along a run, is
the account of the run.
-/

namespace ExtensionAudit

/-- The message that an effect brings, as a list of at most one. -/
def Effect.messages : Effect → List Message
  | .message severity text => [⟨severity, text⟩]
  | _ => []

/-- The amount that an effect announces, whether or not a report accepts it. -/
def Effect.amount? : Effect → Option Int
  | .declare units => some units
  | _ => none

namespace RunEvent

/-- The message that an event brings, as a list of at most one. -/
def messages : RunEvent → List Message
  | .effect act => act.messages
  | .failed identifier target failure => [⟨.fatal, failureMessage identifier target failure⟩]
  | .untold _ _ _ _ => []

/-- The units of work that an event adds to those announced. A negative amount adds none. -/
def units : RunEvent → Nat
  | .effect (.declare units) => units.toNat
  | _ => 0

/-! ### Events that are effects -/

theorem messages_map_effect (effects : List Effect) :
    (effects.map RunEvent.effect).flatMap messages = effects.flatMap Effect.messages := by
  rw [List.flatMap_map]
  rfl

theorem count_map_effect (effects : List Effect) (act : Effect) :
    (effects.map RunEvent.effect).count (.effect act) = effects.count act :=
  List.count_map_of_injective effects RunEvent.effect (fun _ _ => RunEvent.effect.inj) act

/-! ### One event -/

variable (report : Report) (event : RunEvent)

/-- A refused announcement leaves the whole report as it was. -/
theorem enter_refused {units : Int} (hneg : units < 0) :
    enter report (.effect (.declare units)) = report := by
  have hrefused : report.declare units = .error units := by
    rw [Report.declare, if_pos hneg]
  simp only [enter, hrefused]

/-- What one event does to each part of a report. -/
theorem enter_eq :
    enter report event =
      { tally := event.messages.foldl (fun tally message => tally.increment message.severity)
          report.tally
        progress :=
          { total := report.progress.total + event.units
            current := report.progress.current + event.messages.length
              + if event = .effect .pass then 1 else 0 }
        messages := report.messages ++ event.messages } := by
  cases event with
  | failed identifier target failure => rfl
  | untold identifier target kind places => simp [enter, messages, units]
  | effect act =>
    cases act with
    | message severity text => rfl
    | pass => simp [enter, Report.pass, messages, Effect.messages, units]
    | trace text => simp [enter, messages, Effect.messages, units]
    | declare units =>
      by_cases hneg : units < 0
      · have hnone : units.toNat = 0 := Int.toNat_eq_zero.mpr (le_of_lt hneg)
        rw [enter_refused report hneg]
        simp [messages, Effect.messages, RunEvent.units, hnone]
      · simp [enter, Report.declare, hneg, messages, Effect.messages, RunEvent.units]

/-- An event extends the list of messages at its end. -/
theorem enter_messages : (enter report event).messages = report.messages ++ event.messages := by
  rw [enter_eq]

theorem enter_current :
    (enter report event).progress.current
      = report.progress.current + event.messages.length
          + if event = .effect .pass then 1 else 0 := by
  rw [enter_eq]

theorem enter_total :
    (enter report event).progress.total = report.progress.total + event.units := by
  rw [enter_eq]

theorem enter_tally :
    (enter report event).tally
      = event.messages.foldl (fun tally message => tally.increment message.severity)
          report.tally := by
  rw [enter_eq]

end RunEvent

namespace Report

/-! ### A run of events -/

variable (report : Report)

@[simp] theorem enterAll_nil : report.enterAll [] = report := rfl

@[simp] theorem enterAll_cons (event : RunEvent) (events : List RunEvent) :
    report.enterAll (event :: events) = (RunEvent.enter report event).enterAll events := rfl

theorem enterAll_messages (events : List RunEvent) :
    (report.enterAll events).messages = report.messages ++ events.flatMap RunEvent.messages := by
  induction events generalizing report with
  | nil => simp
  | cons event rest ih =>
    rw [enterAll_cons, ih, RunEvent.enter_messages, List.flatMap_cons, List.append_assoc]

theorem enterAll_current (events : List RunEvent) :
    (report.enterAll events).progress.current
      = report.progress.current + (events.flatMap RunEvent.messages).length
          + events.count (.effect .pass) := by
  induction events generalizing report with
  | nil => simp
  | cons event rest ih =>
    rw [enterAll_cons, ih, RunEvent.enter_current, List.flatMap_cons, List.length_append,
      List.count_cons]
    simp only [beq_iff_eq]
    omega

theorem enterAll_total (events : List RunEvent) :
    (report.enterAll events).progress.total
      = report.progress.total + (events.map RunEvent.units).sum := by
  induction events generalizing report with
  | nil => simp
  | cons event rest ih =>
    rw [enterAll_cons, ih, RunEvent.enter_total, List.map_cons, List.sum_cons, Nat.add_assoc]

/-! ### The tally and the messages

The invariant: the two copies of the messages agree. It holds of a fresh report, and every event
keeps it. -/

/-- The tally counts, for each severity, the messages that the report holds of it. -/
def TallyAgrees : Prop :=
  ∀ severity, report.tally.count severity = (report.messagesOf severity).length

theorem tallyAgrees_fresh : TallyAgrees {} := by
  intro severity
  cases severity <;> rfl

theorem count_foldl_increment (messages : List Message) (tally : Tally) (severity : Severity) :
    (messages.foldl (fun tally message => tally.increment message.severity) tally).count severity
      = tally.count severity + (messages.filter (·.severity == severity)).length := by
  induction messages generalizing tally with
  | nil => rfl
  | cons message rest ih =>
    rw [List.foldl_cons, ih, Tally.count_increment, List.filter_cons]
    by_cases hsame : message.severity = severity
    · simp only [hsame, beq_self_eq_true, if_true, List.length_cons]
      omega
    · have hother : (message.severity == severity) = false := beq_false_of_ne hsame
      simp only [hsame, hother, if_false, Bool.false_eq_true]
      omega

theorem TallyAgrees.enter {report : Report} (hagrees : report.TallyAgrees) (event : RunEvent) :
    (RunEvent.enter report event).TallyAgrees := by
  intro severity
  rw [RunEvent.enter_tally, count_foldl_increment, hagrees severity]
  rw [messagesOf, messagesOf, RunEvent.enter_messages, List.filter_append, List.length_append]

theorem TallyAgrees.enterAll {report : Report} (hagrees : report.TallyAgrees)
    (events : List RunEvent) : (report.enterAll events).TallyAgrees := by
  induction events generalizing report with
  | nil => exact hagrees
  | cons event rest ih => exact ih (hagrees.enter event)

/-- Every message has one of the severities, so the messages of each of them are all of them. -/
theorem sum_messagesOf (messages : List Message) :
    (Severity.all.map fun severity => (messages.filter (·.severity == severity)).length).sum
      = messages.length := by
  induction messages with
  | nil => rfl
  | cons message rest ih =>
    simp only [Severity.all, List.map_cons, List.map_nil, List.sum_cons, List.sum_nil] at ih ⊢
    cases hseverity : message.severity <;> simp [hseverity] <;> omega

theorem TallyAgrees.total_eq {report : Report} (hagrees : report.TallyAgrees) :
    report.tally.total = report.messages.length := by
  rw [← sum_messagesOf report.messages]
  simp only [Tally.total, Severity.all, List.foldr_cons, List.foldr_nil, List.map_cons,
    List.map_nil, List.sum_cons, List.sum_nil, hagrees _, messagesOf]

theorem TallyAgrees.count_eq_zero_iff {report : Report} (hagrees : report.TallyAgrees)
    (severity : Severity) :
    report.tally.count severity = 0 ↔ ∀ message ∈ report.messages, message.severity ≠ severity := by
  rw [hagrees severity, messagesOf, List.length_eq_zero_iff, List.filter_eq_nil_iff]
  simp only [beq_iff_eq, ne_eq]

/-! ### The verdict

One copy of it asks for no counter above zero, the other for the greatest priority in the list. Both
are bounds on every message, and there they meet. -/

theorem foldl_max_le_iff (messages : List Message) (code n : Nat) :
    messages.foldl (fun code message => max code message.severity.exitPriority) code ≤ n
      ↔ code ≤ n ∧ ∀ message ∈ messages, message.severity.exitPriority ≤ n := by
  induction messages generalizing code with
  | nil => simp
  | cons message rest ih =>
    rw [List.foldl_cons, ih, max_le_iff, List.forall_mem_cons, and_assoc]

/-- The exit code is the least bound on what the messages ask. -/
theorem exitCode_le_iff (n : Nat) :
    report.exitCode ≤ n ↔ ∀ message ∈ report.messages, message.severity.exitPriority ≤ n := by
  rw [exitCode, foldl_max_le_iff]
  exact and_iff_right (Nat.zero_le n)

theorem exitPriority_le_one_iff (severity : Severity) :
    severity.exitPriority ≤ 1 ↔ severity ≠ .fatal ∧ severity ≠ .error := by
  cases severity <;> simp [Severity.exitPriority]

theorem exitCode_lt_two_iff :
    report.exitCode < 2 ↔
      ∀ message ∈ report.messages, message.severity ≠ .fatal ∧ message.severity ≠ .error := by
  have hlt : report.exitCode < 2 ↔ report.exitCode ≤ 1 := Nat.lt_succ_iff
  rw [hlt, exitCode_le_iff]
  simp only [exitPriority_le_one_iff]

theorem exitCode_eq_zero_iff :
    report.exitCode = 0 ↔ ∀ message ∈ report.messages, message.severity = .notice := by
  rw [← Nat.le_zero, exitCode_le_iff]
  refine forall₂_congr fun message _ => ?_
  cases message.severity <;> simp [Severity.exitPriority]

theorem TallyAgrees.passed_iff {report : Report} (hagrees : report.TallyAgrees) :
    report.passed = true ↔
      ∀ message ∈ report.messages, message.severity ≠ .fatal ∧ message.severity ≠ .error := by
  have hcounts : report.passed = true ↔
      report.tally.count .fatal = 0 ∧ report.tally.count .error = 0 := by
    rw [passed, Bool.and_eq_true, beq_iff_eq, beq_iff_eq]
    rfl
  rw [hcounts, hagrees.count_eq_zero_iff, hagrees.count_eq_zero_iff]
  constructor
  · rintro ⟨hfatal, herror⟩ message hmem
    exact ⟨hfatal message hmem, herror message hmem⟩
  · intro hneither
    exact ⟨fun message hmem => (hneither message hmem).1,
      fun message hmem => (hneither message hmem).2⟩

/-- The verdict off the counters is the verdict off the list. -/
theorem TallyAgrees.passed_iff_exitCode {report : Report} (hagrees : report.TallyAgrees) :
    report.passed = true ↔ report.exitCode < 2 := by
  rw [hagrees.passed_iff, exitCode_lt_two_iff]

theorem TallyAgrees.exitCode_eq_one_iff {report : Report} (hagrees : report.TallyAgrees) :
    report.exitCode = 1 ↔
      report.passed = true ∧ ∃ message ∈ report.messages, message.severity = .warning := by
  have hsplit : report.exitCode = 1 ↔ report.exitCode < 2 ∧ ¬ report.exitCode = 0 := by omega
  rw [hsplit, hagrees.passed_iff_exitCode]
  refine and_congr_right fun hlt => ?_
  have hmild := (exitCode_lt_two_iff report).mp hlt
  rw [exitCode_eq_zero_iff]
  constructor
  · intro hsome
    push Not at hsome
    obtain ⟨message, hmem, hnotice⟩ := hsome
    obtain ⟨hfatal, herror⟩ := hmild message hmem
    refine ⟨message, hmem, ?_⟩
    cases hseverity : message.severity <;> simp_all
  · rintro ⟨message, hmem, hwarning⟩ hall
    have hnotice := hall message hmem
    rw [hwarning] at hnotice
    exact Severity.noConfusion hnotice

/-! ### The operations of a rule -/

/-- The amounts that some effects announce, those that a report refuses left out. -/
def accepted (effects : List Effect) : List Int :=
  (effects.filterMap Effect.amount?).filter (0 ≤ ·)

theorem sum_units (effects : List Effect) :
    (((effects.map RunEvent.effect).map RunEvent.units).sum : Int) = (accepted effects).sum := by
  induction effects with
  | nil => rfl
  | cons effect rest ih =>
    rw [List.map_cons, List.map_cons, List.sum_cons, Nat.cast_add, ih]
    cases effect with
    | message severity text => simp [accepted, RunEvent.units, List.filterMap_cons, Effect.amount?]
    | pass => simp [accepted, RunEvent.units, List.filterMap_cons, Effect.amount?]
    | trace text => simp [accepted, RunEvent.units, List.filterMap_cons, Effect.amount?]
    | declare units =>
      by_cases hnonneg : 0 ≤ units
      · simp [accepted, RunEvent.units, Effect.amount?, hnonneg]
      · have hnone : units.toNat = 0 := Int.toNat_eq_zero.mpr (by omega)
        simp [accepted, RunEvent.units, Effect.amount?, hnonneg, hnone]

/-- **The account of a report.** Whatever operations a fresh report has been through, its parts
agree with each other and with the operations: the tally with the messages, the work done with the
messages and passes, the work announced with the accepted amounts, and the verdict with the exit
code. A further operation extends the messages at their end, and a refused announcement, which ends
the call that makes it, changes nothing. -/
theorem enterAll_accounts (operations : List Effect) :
    let report := ({} : Report).enterAll (operations.map .effect)
    report.messages = operations.flatMap Effect.messages
      ∧ (∀ severity, report.tally.count severity = (report.messagesOf severity).length)
      ∧ report.tally.total = report.messages.length
      ∧ report.progress.current = report.messages.length + operations.count .pass
      ∧ report.passThroughs = operations.count .pass
      ∧ (report.progress.total : Int) = (accepted operations).sum
      ∧ (report.passed = true ↔
          ∀ message ∈ report.messages, message.severity ≠ .fatal ∧ message.severity ≠ .error)
      ∧ (report.passed = true ↔ report.exitCode < 2)
      ∧ (report.exitCode = 1 ↔
          report.passed = true ∧ ∃ message ∈ report.messages, message.severity = .warning)
      ∧ (∀ operation, (RunEvent.enter report (.effect operation)).messages
          = report.messages ++ operation.messages)
      ∧ ∀ units < 0,
          report.declare units = .error units
            ∧ RunEvent.enter report (.effect (.declare units)) = report
            ∧ ∀ failure rest, Outcome.settle failure (.declare units :: rest)
                = ([], some (.told ⟨"ValueError", negativeProgressMessage units, []⟩)) := by
  intro report
  have hagrees : report.TallyAgrees := tallyAgrees_fresh.enterAll _
  have hmessages : report.messages = operations.flatMap Effect.messages := by
    rw [enterAll_messages, List.nil_append, RunEvent.messages_map_effect]
  have hcurrent : report.progress.current
      = report.messages.length + operations.count .pass := by
    rw [enterAll_current, RunEvent.count_map_effect, RunEvent.messages_map_effect, hmessages]
    simp
  have htotal : (report.progress.total : Int) = (accepted operations).sum := by
    rw [enterAll_total, ← sum_units]
    simp
  refine ⟨hmessages, hagrees, hagrees.total_eq, hcurrent, ?_, htotal, hagrees.passed_iff,
    hagrees.passed_iff_exitCode, hagrees.exitCode_eq_one_iff,
    fun operation => RunEvent.enter_messages report (.effect operation), ?_⟩
  · rw [passThroughs, hcurrent]
    omega
  · intro units hneg
    refine ⟨?_, RunEvent.enter_refused report hneg, ?_⟩
    · rw [declare, if_pos hneg]
    · intro failure rest
      rw [Outcome.settle, if_pos hneg]
      rfl

end Report

end ExtensionAudit
