import Mathlib
import ExtensionAudit.Proofs.Report.Accounting

/-!
# A run makes the calls of its schedule

Which calls a run makes is settled before the first of them: by what the rules want to see, by the
files and by the listing. The loops of a run only walk along that schedule, and what a call does or
how it fails reaches the report and the state of the rules, never the loops. So a run is described
by two things kept apart: the schedule, which knows nothing of behaviour, and the calls made one
after the other along a list, which know nothing of rules, files or lines.

There is one way to stop the walk. The message of a failure holds the text of what was raised, and
if that text cannot be made, what the attempt raises comes out of the run, which ends there.

That the calls of a run are these is observed from the side of the rules: rules that note each call
in a log which they share hand back the schedule.
-/

namespace ExtensionAudit

/-! ### What comes of a call -/

/-- Whether a report refuses an effect, which fails the call there and then. -/
def Effect.isRefused : Effect → Bool
  | .declare units => decide (units < 0)
  | _ => false

namespace Outcome

/-- The effects of a call up to the first one that is refused. -/
def accepted (outcome : Outcome) : List Effect :=
  outcome.effects.takeWhile fun effect => !effect.isRefused

/-- What a call raises: the refusal if there is one, else what it raises by itself, if anything. -/
def ending (outcome : Outcome) : Option Raised :=
  match outcome.effects.find? Effect.isRefused with
  | some (.declare units) => some (.told (.negativeProgress units))
  | _ => outcome.failure

/-- What breaks a run off at the call: what is raised in place of a failure that cannot be told. -/
def breakdown (outcome : Outcome) : Option Raised := outcome.ending.bind Raised.instead?

/-- A failure that the call raises by itself can be told, if there is one. -/
def Told (outcome : Outcome) : Prop := ∀ raised ∈ outcome.failure, raised.instead? = none

/-- A refusal can always be told, so only what a call raises by itself can break a run off. -/
theorem Told.breakdown_eq_none {outcome : Outcome} (htold : outcome.Told) :
    outcome.breakdown = none := by
  rw [breakdown, ending]
  split
  · rfl
  · exact Option.bind_eq_none_iff.mpr htold

theorem settle_eq (outcome : Outcome) :
    settle outcome.failure outcome.effects = (outcome.accepted, outcome.ending) := by
  obtain ⟨effects, failure⟩ := outcome
  induction effects with
  | nil => rfl
  | cons effect rest ih =>
    simp only [accepted, ending] at ih ⊢
    cases effect with
    | message severity text =>
      simp [settle, ih, Effect.isRefused]
    | pass => simp [settle, ih, Effect.isRefused]
    | trace text => simp [settle, ih, Effect.isRefused]
    | declare units =>
      by_cases hneg : units < 0
      · simp [settle, hneg, Effect.isRefused]
      · simp [settle, ih, hneg, Effect.isRefused]

end Outcome

/-- A call that was made: of which rule, at which place among the rules, with what, and how the rule
answered. -/
structure MadeCall where
  identifier : String
  place : Nat
  subject : Subject
  outcome : Outcome

namespace MadeCall

def request (call : MadeCall) : Nat × Subject := (call.place, call.subject)

def failureMessage (call : MadeCall) (failure : Failure) : Message where
  severity := .fatal
  text := "Rule " ++ call.identifier ++ " failed on " ++ call.subject.target ++ ": " ++
    failure.kind ++ ": " ++ failure.text

/-- The messages that the call added before it returned or failed, and then that of its failure, if
this can be told. -/
def messages (call : MadeCall) : List Message :=
  call.outcome.accepted.flatMap Effect.messages
    ++ match call.outcome.ending with
      | some (.told failure) => [call.failureMessage failure]
      | _ => []

def passes (call : MadeCall) : Nat := call.outcome.accepted.count .pass

def units (call : MadeCall) : Int := (call.outcome.accepted.filterMap Effect.amount?).sum

/-- What the call enters into the report and the log. -/
def events (call : MadeCall) : List RunEvent :=
  call.outcome.accepted.map .effect
    ++ Audit.failureEvents call.identifier call.subject.target call.outcome.ending

theorem not_isRefused_of_mem_accepted {outcome : Outcome} {effect : Effect}
    (hmem : effect ∈ outcome.accepted) : effect.isRefused = false := by
  have hpasses := List.mem_takeWhile_imp hmem
  simpa using hpasses

theorem nonneg_of_amount {effect : Effect} {units : Int} (hkept : effect.isRefused = false)
    (hamount : effect.amount? = some units) : 0 ≤ units := by
  cases effect with
  | declare amount =>
    obtain rfl : amount = units := Option.some.inj hamount
    simpa [Effect.isRefused] using hkept
  | message severity text => cases hamount
  | pass => cases hamount
  | trace text => cases hamount

theorem messages_events (call : MadeCall) :
    call.events.flatMap RunEvent.messages = call.messages := by
  rw [events, messages, List.flatMap_append, RunEvent.messages_map_effect]
  obtain _ | (_ | _) := call.outcome.ending <;> rfl

theorem count_events (call : MadeCall) : call.events.count (.effect .pass) = call.passes := by
  rw [events, passes, List.count_append, RunEvent.count_map_effect]
  obtain _ | (_ | _) := call.outcome.ending <;> rfl

theorem units_events (call : MadeCall) :
    ((call.events.map RunEvent.units).sum : Int) = call.units := by
  have hkept : Report.accepted call.outcome.accepted
      = call.outcome.accepted.filterMap Effect.amount? := by
    refine List.filter_eq_self.mpr fun units hmem => decide_eq_true ?_
    obtain ⟨effect, heffect, hamount⟩ := List.mem_filterMap.mp hmem
    exact nonneg_of_amount (not_isRefused_of_mem_accepted heffect) hamount
  have hending : ((Audit.failureEvents call.identifier call.subject.target
      call.outcome.ending).map RunEvent.units).sum = 0 := by
    obtain _ | (_ | _) := call.outcome.ending <;> rfl
  rw [events, List.map_append, List.sum_append, hending, Nat.add_zero, Report.sum_units, hkept]
  rfl

end MadeCall

/-! ### Stretches of a run -/

namespace Stretch

variable {σ : Type} {events : List RunEvent} {state : σ}

theorem andThen_of_whole (next : σ → Stretch σ) :
    (⟨events, state, none⟩ : Stretch σ).andThen next
      = ⟨events ++ (next state).events, (next state).state, (next state).broken⟩ := rfl

/-- What broke a run off keeps the rest of it from taking place. -/
theorem andThen_of_broken (raised : Raised) (next : σ → Stretch σ) :
    (⟨events, state, some raised⟩ : Stretch σ).andThen next = ⟨events, state, some raised⟩ := rfl

theorem andThen_assoc (first : Stretch σ) (second third : σ → Stretch σ) :
    (first.andThen second).andThen third
      = first.andThen fun state => (second state).andThen third := by
  obtain ⟨events, state, _ | raised⟩ := first
  · simp only [andThen_of_whole]
    obtain ⟨later, left, _ | raised⟩ := second state
    · simp only [andThen_of_whole, List.append_assoc]
    · rfl
  · rfl

end Stretch

namespace Audit

variable {σ : Type}

/-! ### Calls along a list -/

/-- Makes calls in the order of a list. Each rule finds the state as the call before left it. -/
def makeEach : List ((NamedRule σ × Nat) × Subject) → σ → List MadeCall × σ
  | [], state => ([], state)
  | ((entry, place), subject) :: rest, state =>
    let answer := entry.rule.check subject state
    let later := makeEach rest answer.2
    (⟨entry.identifier, place, subject, answer.1⟩ :: later.1, later.2)

/-- Calls as they are asked for, by place and subject. -/
def requestsOf (calls : List ((NamedRule σ × Nat) × Subject)) : List (Nat × Subject) :=
  calls.map fun call => (call.1.2, call.2)

theorem makeEach_append (calls later : List ((NamedRule σ × Nat) × Subject)) (state : σ) :
    makeEach (calls ++ later) state =
      ((makeEach calls state).1 ++ (makeEach later (makeEach calls state).2).1,
        (makeEach later (makeEach calls state).2).2) := by
  induction calls generalizing state with
  | nil => rfl
  | cons call rest ih =>
    rw [List.cons_append, makeEach, makeEach, ih]
    rfl

/-- The calls that are made are those of the list. -/
theorem makeEach_requests (calls : List ((NamedRule σ × Nat) × Subject)) (state : σ) :
    (makeEach calls state).1.map MadeCall.request = requestsOf calls := by
  induction calls generalizing state with
  | nil => rfl
  | cons call rest ih =>
    rw [makeEach, List.map_cons, ih]
    rfl

/-! ### The schedule -/

section Schedule

variable {ι κ : Type}

/-- The calls with one subject of the rules that want it. -/
def callsWith (wanted : ι → Bool) (entries : List ι) (subject : Subject) : List (ι × Subject) :=
  (entries.filter wanted).map (·, subject)

/-- The calls that rules are due for a file: the file, rule by rule, and its lines from the first
one on, each of them rule by rule. -/
def callsFor (wants : ι → Capabilities) (entries : List ι) (file : SourceFile) :
    List (ι × Subject) :=
  callsWith (fun entry => (wants entry).fileTypes.contains file.fileType) entries (.file file)
    ++ (file.lines.zipIdx 1).flatMap fun line =>
      callsWith (fun entry => (wants entry).lineTypes.contains file.fileType) entries
        (.line ⟨file, line.2, line.1⟩)

/-- The calls that rules are due, the rules being known by what they want to see: first the listing,
rule by rule, then file by file what they are due for it. -/
def schedule (wants : ι → Capabilities) (entries : List ι) (files : List SourceFile)
    (listing : List String) : List (ι × Subject) :=
  callsWith (fun entry => (wants entry).directory) entries (.directory listing)
    ++ files.flatMap (callsFor wants entries)

theorem callsWith_map (f : ι → κ) (wanted : κ → Bool) (entries : List ι) (subject : Subject) :
    callsWith wanted (entries.map f) subject
      = (callsWith (wanted ∘ f) entries subject).map fun call => (f call.1, call.2) := by
  rw [callsWith, callsWith, List.filter_map, List.map_map, List.map_map]
  rfl

/-- The schedule of rules under other names is the schedule under the other names. -/
theorem schedule_map (f : ι → κ) (wants : κ → Capabilities) (entries : List ι)
    (files : List SourceFile) (listing : List String) :
    schedule wants (entries.map f) files listing
      = (schedule (wants ∘ f) entries files listing).map fun call => (f call.1, call.2) := by
  have hfiles : callsFor wants (entries.map f)
      = fun file => (callsFor (wants ∘ f) entries file).map fun call => (f call.1, call.2) := by
    funext file
    simp only [callsFor, callsWith_map, List.map_append, List.map_flatMap]
    rfl
  rw [schedule, schedule, callsWith_map, hfiles, List.map_append, List.map_flatMap]
  rfl

end Schedule

/-! ### The loops of a run -/

def callsOf (entries : List (NamedRule σ × Nat)) (files : List SourceFile)
    (listing : List String) : List ((NamedRule σ × Nat) × Subject) :=
  schedule (·.1.rule.capabilities) entries files listing

/-- The stretch of a run in which calls are made in the order of a list. -/
def stretchAlong : List ((NamedRule σ × Nat) × Subject) → σ → Stretch σ
  | [], state => ⟨[], state, none⟩
  | (entry, subject) :: rest, state =>
    (call entry.1 subject state).andThen (stretchAlong rest)

theorem stretchAlong_append (calls later : List ((NamedRule σ × Nat) × Subject)) :
    stretchAlong (calls ++ later)
      = fun state => (stretchAlong calls state).andThen (stretchAlong later) := by
  induction calls with
  | nil => rfl
  | cons call rest ih =>
    funext state
    rw [List.cons_append, stretchAlong, ih, stretchAlong, Stretch.andThen_assoc]

theorem callAll_eq (subject : Subject) (entries : List (NamedRule σ × Nat)) :
    callAll subject (entries.map Prod.fst) = stretchAlong (entries.map (·, subject)) := by
  induction entries with
  | nil => rfl
  | cons entry rest ih =>
    funext state
    rw [List.map_cons, callAll, ih]
    rfl

theorem numberLines_eq (file : SourceFile) (texts : List String) (number : Nat) :
    file.numberLines number texts
      = (texts.zipIdx number).map fun line => ⟨file, line.2, line.1⟩ := by
  induction texts generalizing number with
  | nil => rfl
  | cons text rest ih => rw [SourceFile.numberLines, ih, List.zipIdx_cons, List.map_cons]

theorem checkLines_eq (entries : List (NamedRule σ × Nat)) (lines : List SourceLine) :
    checkLines (entries.map Prod.fst) lines
      = stretchAlong (lines.flatMap fun line => entries.map (·, .line line)) := by
  induction lines with
  | nil => rfl
  | cons line rest ih =>
    funext state
    rw [List.flatMap_cons, stretchAlong_append, ← callAll_eq, ← ih]
    rfl

theorem checkFile_eq (entries : List (NamedRule σ × Nat)) (file : SourceFile) :
    checkFile (entries.map Prod.fst) file
      = stretchAlong (callsFor (·.1.rule.capabilities) entries file) := by
  have hlines : (file.lines.zipIdx 1).flatMap (fun line =>
        callsWith (fun entry : NamedRule σ × Nat =>
          entry.1.rule.capabilities.lineTypes.contains file.fileType) entries
            (.line ⟨file, line.2, line.1⟩))
      = file.numberedLines.flatMap fun line =>
        (entries.filter fun entry =>
            entry.1.rule.capabilities.lineTypes.contains file.fileType).map (·, .line line) := by
    rw [SourceFile.numberedLines, numberLines_eq, List.flatMap_map]
    rfl
  funext state
  rw [callsFor, stretchAlong_append, hlines, callsWith, ← callAll_eq, ← checkLines_eq, checkFile,
    wantingFile, wantingLine, List.filter_map, List.filter_map]
  rfl

theorem checkFiles_eq (entries : List (NamedRule σ × Nat)) (files : List SourceFile) :
    checkFiles (entries.map Prod.fst) files
      = stretchAlong (files.flatMap (callsFor (·.1.rule.capabilities) entries)) := by
  induction files with
  | nil => rfl
  | cons file rest ih =>
    funext state
    rw [List.flatMap_cons, stretchAlong_append, ← checkFile_eq, ← ih]
    rfl

/-- The loops of a run walk along the schedule. -/
theorem runAll_eq (entries : List (NamedRule σ × Nat)) (files : List SourceFile)
    (listing : List String) :
    runAll (entries.map Prod.fst) files listing = stretchAlong (callsOf entries files listing) := by
  funext state
  rw [callsOf, schedule, stretchAlong_append, callsWith, ← callAll_eq, ← checkFiles_eq, runAll,
    wantingDirectory, List.filter_map]
  rfl

/-! ### How far the walk goes -/

/-- The failures of the calls, if they fail, can be told. -/
def AllTold (made : List MadeCall) : Prop := ∀ call ∈ made, call.outcome.breakdown = none

theorem call_eq (entry : NamedRule σ × Nat) (subject : Subject) (state : σ) :
    let answer := entry.1.rule.check subject state
    call entry.1 subject state
      = ⟨MadeCall.events ⟨entry.1.identifier, entry.2, subject, answer.1⟩, answer.2,
          answer.1.breakdown⟩ := by
  simp only [call, Outcome.settle_eq]
  rfl

/-- Calls whose failures can be told are all made. -/
theorem stretchAlong_of_told {calls : List ((NamedRule σ × Nat) × Subject)} {state : σ}
    (htold : AllTold (makeEach calls state).1) :
    stretchAlong calls state
      = ⟨(makeEach calls state).1.flatMap MadeCall.events, (makeEach calls state).2, none⟩ := by
  induction calls generalizing state with
  | nil => rfl
  | cons next rest ih =>
    obtain ⟨⟨entry, place⟩, subject⟩ := next
    obtain ⟨hreturns, hrest⟩ := List.forall_mem_cons.mp htold
    rw [stretchAlong, call_eq, hreturns, Stretch.andThen_of_whole, ih hrest]
    rfl

/-- The first call whose failure cannot be told is the last one that is made. -/
theorem stretchAlong_of_untold {front rest : List ((NamedRule σ × Nat) × Subject)}
    {entry : NamedRule σ × Nat} {subject : Subject} {state : σ} {raised : Raised}
    (htold : AllTold (makeEach front state).1)
    (hbroken : (entry.1.rule.check subject (makeEach front state).2).1.breakdown = some raised) :
    let made := makeEach (front ++ [(entry, subject)]) state
    stretchAlong (front ++ (entry, subject) :: rest) state
      = ⟨made.1.flatMap MadeCall.events, made.2, some raised⟩ := by
  intro made
  have hmade : made = ((makeEach front state).1
        ++ [⟨entry.1.identifier, entry.2, subject,
          (entry.1.rule.check subject (makeEach front state).2).1⟩],
      (entry.1.rule.check subject (makeEach front state).2).2) := makeEach_append ..
  rw [stretchAlong_append]
  beta_reduce
  rw [stretchAlong_of_told htold, Stretch.andThen_of_whole, stretchAlong, call_eq, hbroken,
    Stretch.andThen_of_broken, hmade, List.flatMap_append, List.flatMap_singleton]

/-- What a run enters into the report and the log when it makes some calls. -/
def runEvents (made : List MadeCall) : List RunEvent :=
  .effect (.trace "Running rules") :: made.flatMap MadeCall.events

section Run

variable {entries : List (NamedRule σ × Nat)} (hsome : entries ≠ []) {files : List SourceFile}
  {listing : List String} {state : σ}

include hsome

theorem run_eq_close :
    run (entries.map Prod.fst) files listing state
      = ((⟨[.effect (.trace "Running rules")], state, none⟩ : Stretch σ).andThen
          (stretchAlong (callsOf entries files listing))).close := by
  have hrules : (entries.map Prod.fst).isEmpty = false := by
    rw [List.isEmpty_eq_false_iff]
    exact fun hnil => hsome (List.map_eq_nil_iff.mp hnil)
  rw [run, hrules, runAll_eq]
  rfl

theorem run_eq (htold : AllTold (makeEach (callsOf entries files listing) state).1) :
    run (entries.map Prod.fst) files listing state
      = .ok (runEvents (makeEach (callsOf entries files listing) state).1,
          (makeEach (callsOf entries files listing) state).2) := by
  rw [run_eq_close hsome, Stretch.andThen_of_whole, stretchAlong_of_told htold]
  rfl

theorem run_eq_of_untold {front rest : List ((NamedRule σ × Nat) × Subject)}
    {entry : NamedRule σ × Nat} {subject : Subject} {raised : Raised}
    (hcalls : callsOf entries files listing = front ++ (entry, subject) :: rest)
    (htold : AllTold (makeEach front state).1)
    (hbroken : (entry.1.rule.check subject (makeEach front state).2).1.breakdown = some raised) :
    let made := makeEach (front ++ [(entry, subject)]) state
    run (entries.map Prod.fst) files listing state
      = .error (.brokenOff (runEvents made.1) made.2 raised) := by
  rw [run_eq_close hsome, Stretch.andThen_of_whole, hcalls, stretchAlong_of_untold htold hbroken]
  rfl

end Run

/-! ### The report behind a run -/

theorem enterAll_runEvents_messages (report : Report) (made : List MadeCall) :
    (report.enterAll (runEvents made)).messages
      = report.messages ++ made.flatMap MadeCall.messages := by
  have hcalls : (made.flatMap MadeCall.events).flatMap RunEvent.messages
      = made.flatMap MadeCall.messages := by
    rw [List.flatMap_assoc]
    simp only [MadeCall.messages_events]
  rw [Report.enterAll_messages, runEvents, List.flatMap_cons, hcalls]
  rfl

theorem enterAll_runEvents_current (report : Report) (made : List MadeCall) :
    (report.enterAll (runEvents made)).progress.current
      = report.progress.current + (made.flatMap MadeCall.messages).length
          + (made.map MadeCall.passes).sum := by
  have hmessages : (runEvents made).flatMap RunEvent.messages
      = made.flatMap MadeCall.messages := by
    have hall := enterAll_runEvents_messages {} made
    rw [Report.enterAll_messages] at hall
    exact List.append_cancel_left hall
  have hpasses : (runEvents made).count (.effect .pass) = (made.map MadeCall.passes).sum := by
    rw [runEvents, List.count_cons_of_ne (by simp), List.count_flatMap]
    congr 1
    exact List.map_congr_left fun call _ => call.count_events
  rw [Report.enterAll_current, hmessages, hpasses]

theorem enterAll_runEvents_total (report : Report) (made : List MadeCall) :
    ((report.enterAll (runEvents made)).progress.total : Int)
      = report.progress.total + (made.map MadeCall.units).sum := by
  have hunits : (((made.flatMap MadeCall.events).map RunEvent.units).sum : Int)
      = (made.map MadeCall.units).sum := by
    induction made with
    | nil => rfl
    | cons call rest ih =>
      rw [List.flatMap_cons, List.map_append, List.sum_append, List.map_cons, List.sum_cons,
        Nat.cast_add, ih, call.units_events]
  rw [Report.enterAll_total, runEvents, List.map_cons, List.sum_cons, Nat.cast_add, Nat.cast_add,
    hunits]
  simp [RunEvent.units]

/-! ### Rules that note their calls -/

/-- The rule at a place, noting that place and the subject of each of its calls in a log that the
rules share. Its answers and its state are those of the rule as it was. -/
def recorded (entry : NamedRule σ × Nat) : NamedRule (σ × List (Nat × Subject)) where
  identifier := entry.1.identifier
  rule :=
    { capabilities := entry.1.rule.capabilities
      check := fun subject state =>
        let answer := entry.1.rule.check subject state.1
        (answer.1, answer.2, state.2 ++ [(entry.2, subject)]) }

theorem makeEach_recorded (calls : List ((NamedRule σ × Nat) × Subject)) (state : σ)
    (log : List (Nat × Subject)) :
    makeEach (calls.map fun call => ((recorded call.1, call.1.2), call.2)) (state, log)
      = ((makeEach calls state).1, (makeEach calls state).2,
          log ++ requestsOf calls) := by
  induction calls generalizing state log with
  | nil =>
    rw [requestsOf, List.map_nil, List.map_nil, List.append_nil]
    rfl
  | cons call rest ih =>
    obtain ⟨⟨entry, place⟩, subject⟩ := call
    rw [List.map_cons, makeEach]
    simp only [recorded] at ih ⊢
    rw [ih, makeEach, List.append_assoc]
    rfl

theorem callsOf_recorded (entries : List (NamedRule σ × Nat)) (files : List SourceFile)
    (listing : List String) :
    callsOf (entries.map fun entry => (recorded entry, entry.2)) files listing
      = (callsOf entries files listing).map fun call => ((recorded call.1, call.1.2), call.2) :=
  schedule_map (fun entry => (recorded entry, entry.2)) _ entries files listing

section Recorded

variable {entries : List (NamedRule σ × Nat)} (hsome : entries ≠ []) {files : List SourceFile}
  {listing : List String} {state : σ}

theorem map_recorded (entries : List (NamedRule σ × Nat)) :
    entries.map recorded = (entries.map fun entry => (recorded entry, entry.2)).map Prod.fst := by
  rw [List.map_map]
  rfl

include hsome

theorem map_recorded_ne_nil : (entries.map fun entry => (recorded entry, entry.2)) ≠ [] :=
  fun hnil => hsome (List.map_eq_nil_iff.mp hnil)

/-- The log that a run hands back holds the calls of the schedule. -/
theorem run_recorded (htold : AllTold (makeEach (callsOf entries files listing) state).1) :
    run (entries.map recorded) files listing (state, [])
      = .ok (runEvents (makeEach (callsOf entries files listing) state).1,
          (makeEach (callsOf entries files listing) state).2,
          requestsOf (callsOf entries files listing)) := by
  have hmade := makeEach_recorded (callsOf entries files listing) state []
  rw [← callsOf_recorded, List.nil_append] at hmade
  rw [map_recorded, run_eq (map_recorded_ne_nil hsome) (by rwa [hmade]), hmade]

/-- The log of a run that is broken off ends with the call that breaks it off. -/
theorem run_recorded_of_untold {front rest : List ((NamedRule σ × Nat) × Subject)}
    {entry : NamedRule σ × Nat} {subject : Subject} {raised : Raised}
    (hcalls : callsOf entries files listing = front ++ (entry, subject) :: rest)
    (htold : AllTold (makeEach front state).1)
    (hbroken : (entry.1.rule.check subject (makeEach front state).2).1.breakdown = some raised) :
    let made := makeEach (front ++ [(entry, subject)]) state
    run (entries.map recorded) files listing (state, [])
      = .error (.brokenOff (runEvents made.1)
          (made.2, requestsOf (front ++ [(entry, subject)])) raised) := by
  have hfront := makeEach_recorded front state []
  have hmade := makeEach_recorded (front ++ [(entry, subject)]) state []
  have hlogged := callsOf_recorded entries files listing
  rw [List.nil_append] at hfront hmade
  rw [hcalls, List.map_append, List.map_cons] at hlogged
  rw [List.map_append, List.map_singleton] at hmade
  rw [map_recorded, run_eq_of_untold (map_recorded_ne_nil hsome) hlogged (by rwa [hfront])
    (by rw [hfront]; exact hbroken), hmade]

end Recorded

/-! ### The run -/

theorem zipIdx_ne_nil {rules : List (NamedRule σ)} (hsome : rules ≠ []) : rules.zipIdx ≠ [] :=
  fun hnil => hsome (List.zipIdx_eq_nil_iff.mp hnil)

/-- A file of one line. -/
def shortFile : SourceFile := ⟨.here, "a.php", .php, "<?php\n", ["<?php"]⟩

end Audit

end ExtensionAudit
