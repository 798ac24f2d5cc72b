import Mathlib
import ExtensionAudit.Proofs.Audit.Schedule
import ExtensionAudit.Proofs.Registry.BuiltIn
import ExtensionAudit.Proofs.Rule.Announcement

/-!
# Rules do not interfere

The messages of different rules alternate in a report, line by line, and the failures of one stand
between the messages of another. Nevertheless leaving out some rules takes their calls out of a run
and does nothing else. Two facts meet here. The schedule of some of the rules is the schedule of all
of them with the calls of the others struck out; and striking out calls leaves the answers to the
others as they are, as long as there is a relation of states which the calls that stay keep and give
the same answers under, and which the calls that go do not disturb.

For rules that remember only their own calls the relation is that the memories of the rules that
stay are the same; for rules without a state there is nothing to relate.

A failure that cannot be told breaks a run off. If it is that of a rule that stays, it breaks off
both runs, and up to there they compare as whole runs do.
-/

namespace ExtensionAudit.Audit

variable {σ : Type}

/-! ### Striking out calls -/

/-- The rules of a run that stay when rules are chosen by identifier and place. -/
def chosen (kept : String → Nat → Bool) (entries : List (NamedRule σ × Nat)) :
    List (NamedRule σ × Nat) :=
  entries.filter fun entry => kept entry.1.identifier entry.2

def stays (kept : String → Nat → Bool) (call : MadeCall) : Bool := kept call.identifier call.place

theorem callsWith_filter {ι : Type} (wanted keep : ι → Bool) (entries : List ι)
    (subject : Subject) :
    callsWith wanted (entries.filter keep) subject
      = (callsWith wanted entries subject).filter fun call => keep call.1 := by
  rw [callsWith, callsWith, List.filter_map, List.filter_filter, List.filter_filter]
  refine congrArg _ (List.filter_congr fun entry _ => ?_)
  exact Bool.and_comm _ _

/-- The schedule of some rules is the schedule of all less the calls of the others. -/
theorem schedule_filter {ι : Type} (wants : ι → Capabilities) (keep : ι → Bool) (entries : List ι)
    (files : List SourceFile) (listing : List String) :
    schedule wants (entries.filter keep) files listing
      = (schedule wants entries files listing).filter fun call => keep call.1 := by
  have hfiles : callsFor wants (entries.filter keep)
      = fun file => (callsFor wants entries file).filter fun call => keep call.1 := by
    funext file
    simp only [callsFor, callsWith_filter, List.filter_append, List.filter_flatMap]
  rw [schedule, schedule, callsWith_filter, hfiles, List.filter_append, List.filter_flatMap]

theorem mem_of_mem_callsWith {ι : Type} {wanted : ι → Bool} {entries : List ι} {subject : Subject}
    {call : ι × Subject} (hmem : call ∈ callsWith wanted entries subject) : call.1 ∈ entries := by
  obtain ⟨entry, hentry, rfl⟩ := List.mem_map.mp hmem
  exact (List.mem_filter.mp hentry).1

theorem mem_of_mem_schedule {ι : Type} {wants : ι → Capabilities} {entries : List ι}
    {files : List SourceFile} {listing : List String} {call : ι × Subject}
    (hmem : call ∈ schedule wants entries files listing) : call.1 ∈ entries := by
  rw [schedule, List.mem_append, List.mem_flatMap] at hmem
  obtain hlisting | ⟨file, -, hfile⟩ := hmem
  · exact mem_of_mem_callsWith hlisting
  obtain hwhole | hline := List.mem_append.mp hfile
  · exact mem_of_mem_callsWith hwhole
  · obtain ⟨line, -, hline⟩ := List.mem_flatMap.mp hline
    exact mem_of_mem_callsWith hline

/-- Each call that is made is one of the list, answered by its rule in some state. -/
theorem exists_answer_of_mem_makeEach {calls : List ((NamedRule σ × Nat) × Subject)} {state : σ}
    {call : MadeCall} (hmem : call ∈ (makeEach calls state).1) :
    ∃ entry ∈ calls, ∃ before, call.subject = entry.2 ∧
      call.outcome = (entry.1.1.rule.check entry.2 before).1 := by
  induction calls generalizing state with
  | nil => exact absurd hmem List.not_mem_nil
  | cons entry rest ih =>
    rw [makeEach] at hmem
    obtain rfl | hlater := List.mem_cons.mp hmem
    · exact ⟨entry, List.mem_cons_self, state, rfl, rfl⟩
    · obtain ⟨other, hother, hanswer⟩ := ih hlater
      exact ⟨other, List.mem_cons_of_mem entry hother, hanswer⟩

/-- Rules whose failures can always be told never break a run off. -/
theorem allTold_of_rules {entries : List (NamedRule σ × Nat)}
    (htold : ∀ entry ∈ entries, ∀ subject state, (entry.1.rule.check subject state).1.Told)
    (files : List SourceFile) (listing : List String) (state : σ) :
    AllTold (makeEach (callsOf entries files listing) state).1 := by
  intro call hmem
  obtain ⟨⟨entry, subject⟩, hentry, before, -, houtcome⟩ := exists_answer_of_mem_makeEach hmem
  rw [houtcome]
  exact (htold entry (mem_of_mem_schedule hentry) subject before).breakdown_eq_none

/-- States are alike for the rules that stay: these answer alike in both and leave them alike, and
the rules that go do not tell them apart. -/
structure Separates (kept : String → Nat → Bool) (alike : σ → σ → Prop)
    (entries : List (NamedRule σ × Nat)) : Prop where
  stays : ∀ entry ∈ entries, kept entry.1.identifier entry.2 = true →
    ∀ subject state other, alike state other →
      (entry.1.rule.check subject state).1 = (entry.1.rule.check subject other).1
        ∧ alike (entry.1.rule.check subject state).2 (entry.1.rule.check subject other).2
  goes : ∀ entry ∈ entries, kept entry.1.identifier entry.2 = false →
    ∀ subject state other, alike state other →
      alike (entry.1.rule.check subject state).2 other

/-- The calls that stay are answered as if the others had not been made. -/
theorem Separates.makeEach_filter {kept : String → Nat → Bool} {alike : σ → σ → Prop}
    {entries : List (NamedRule σ × Nat)} (hseparates : Separates kept alike entries)
    {calls : List ((NamedRule σ × Nat) × Subject)} (hmem : ∀ call ∈ calls, call.1 ∈ entries)
    {state other : σ} (halike : alike state other) :
    (makeEach (calls.filter fun call => kept call.1.1.identifier call.1.2) other).1
      = (makeEach calls state).1.filter (Audit.stays kept) := by
  induction calls generalizing state other with
  | nil => rfl
  | cons call rest ih =>
    obtain ⟨⟨entry, place⟩, subject⟩ := call
    have hentry : (entry, place) ∈ entries := hmem _ List.mem_cons_self
    have hrest : ∀ call ∈ rest, call.1 ∈ entries :=
      fun call hcall => hmem call (List.mem_cons_of_mem _ hcall)
    by_cases hkept : kept entry.identifier place = true
    · obtain ⟨hanswer, hleft⟩ :
          (entry.rule.check subject state).1 = (entry.rule.check subject other).1
            ∧ alike (entry.rule.check subject state).2 (entry.rule.check subject other).2 :=
        hseparates.stays _ hentry hkept subject state other halike
      rw [List.filter_cons_of_pos (by exact hkept), makeEach, makeEach,
        List.filter_cons_of_pos (by exact hkept), ih hrest hleft, hanswer]
    · have hgone : kept entry.identifier place = false := Bool.eq_false_iff.mpr hkept
      have hleft := hseparates.goes _ hentry hgone subject state other halike
      rw [List.filter_cons_of_neg (by exact hkept), makeEach,
        List.filter_cons_of_neg (by exact hkept), ih hrest hleft]

/-- The answers in the run of the chosen rules are those of the whole run to the calls that stay. -/
theorem Separates.makeEach_chosen {kept : String → Nat → Bool} {alike : σ → σ → Prop}
    {entries : List (NamedRule σ × Nat)} (hseparates : Separates kept alike entries)
    (files : List SourceFile) (listing : List String) {state : σ} (halike : alike state state) :
    (makeEach (callsOf (chosen kept entries) files listing) state).1
      = (makeEach (callsOf entries files listing) state).1.filter (Audit.stays kept) := by
  have hcalls : callsOf (chosen kept entries) files listing
      = (callsOf entries files listing).filter fun call => kept call.1.1.identifier call.1.2 :=
    schedule_filter _ _ entries files listing
  rw [hcalls]
  exact hseparates.makeEach_filter (fun call hmem => mem_of_mem_schedule hmem) halike

theorem ne_nil_of_chosen {kept : String → Nat → Bool} {entries : List (NamedRule σ × Nat)}
    (hsome : chosen kept entries ≠ []) : entries ≠ [] := by
  rintro rfl
  exact hsome rfl

/-! ### A run with some rules left out -/

/-- A run and the run of the chosen ones of its rules, side by side: the calls of the second one,
with what they did, are the calls of the first one less those to the other rules, and so are its
messages; the work done and announced differs by what those calls contributed. -/
structure LeavesOut (kept : String → Nat → Bool) (entries : List (NamedRule σ × Nat))
    (files : List SourceFile) (listing : List String) (state : σ) (report : Report)
    (made : List MadeCall) : Prop where
  answers : (makeEach (callsOf entries files listing) state).1 = made
  whole : ∃ left,
    run (entries.map Prod.fst) files listing state = .ok (runEvents made, left)
      ∧ run (entries.map recorded) files listing (state, [])
          = .ok (runEvents made, left, made.map MadeCall.request)
  part : ∃ left,
    run ((chosen kept entries).map Prod.fst) files listing state
        = .ok (runEvents (made.filter (stays kept)), left)
      ∧ run ((chosen kept entries).map recorded) files listing (state, [])
          = .ok (runEvents (made.filter (stays kept)), left,
              (made.filter (stays kept)).map MadeCall.request)
  messages_whole : (report.enterAll (runEvents made)).messages
    = report.messages ++ made.flatMap MadeCall.messages
  messages_part : (report.enterAll (runEvents (made.filter (stays kept)))).messages
    = report.messages ++ (made.filter (stays kept)).flatMap MadeCall.messages
  current : (report.enterAll (runEvents made)).progress.current
    = (report.enterAll (runEvents (made.filter (stays kept)))).progress.current
        + ((made.filter fun call => !stays kept call).flatMap MadeCall.messages).length
        + ((made.filter fun call => !stays kept call).map MadeCall.passes).sum
  total : ((report.enterAll (runEvents made)).progress.total : Int)
    = (report.enterAll (runEvents (made.filter (stays kept)))).progress.total
        + ((made.filter fun call => !stays kept call).map MadeCall.units).sum

/-- What calls contribute is what those that stay and those that go do. -/
theorem sum_filter_add_sum_filter_not {M : Type} [AddCommMonoid M] (made : List MadeCall)
    (keep : MadeCall → Bool) (amount : MadeCall → M) :
    (made.map amount).sum
      = ((made.filter keep).map amount).sum
        + ((made.filter fun call => !keep call).map amount).sum := by
  rw [← List.sum_append, ← List.map_append]
  exact ((List.filter_append_perm keep made).map amount).sum_eq.symm

theorem leavesOut {kept : String → Nat → Bool} {alike : σ → σ → Prop}
    {entries : List (NamedRule σ × Nat)} (hseparates : Separates kept alike entries)
    (hsome : chosen kept entries ≠ []) {files : List SourceFile} {listing : List String}
    {state : σ} (halike : alike state state)
    (htold : AllTold (makeEach (callsOf entries files listing) state).1) (report : Report) :
    LeavesOut kept entries files listing state report
      (makeEach (callsOf entries files listing) state).1 := by
  have hstay := hseparates.makeEach_chosen files listing halike
  have htoldpart : AllTold (makeEach (callsOf (chosen kept entries) files listing) state).1 := by
    rw [hstay]
    exact fun call hmem => htold call (List.mem_of_mem_filter hmem)
  refine
    { answers := rfl
      whole := ⟨_, run_eq (ne_nil_of_chosen hsome) htold, ?_⟩
      part := ⟨(makeEach (callsOf (chosen kept entries) files listing) state).2, ?_, ?_⟩
      messages_whole := enterAll_runEvents_messages report _
      messages_part := enterAll_runEvents_messages report _
      current := ?_
      total := ?_ }
  · rw [makeEach_requests]
    exact run_recorded (ne_nil_of_chosen hsome) htold
  · rw [run_eq hsome htoldpart, hstay]
  · rw [run_recorded hsome htoldpart, ← makeEach_requests _ state, hstay]
  · rw [enterAll_runEvents_current, enterAll_runEvents_current, List.length_flatMap,
      List.length_flatMap, List.length_flatMap]
    rw [sum_filter_add_sum_filter_not _ (stays kept) MadeCall.passes,
      sum_filter_add_sum_filter_not _ (stays kept) fun call => call.messages.length]
    omega
  · rw [enterAll_runEvents_total, enterAll_runEvents_total,
      sum_filter_add_sum_filter_not _ (stays kept) MadeCall.units]
    omega

/-! ### A run that is broken off -/

/-- A call among those that are made, with the calls in front of it. -/
theorem exists_call_of_makeEach {calls : List ((NamedRule σ × Nat) × Subject)} {state : σ}
    {front rest : List MadeCall} {call : MadeCall}
    (hmade : (makeEach calls state).1 = front ++ call :: rest) :
    ∃ before entry subject after, calls = before ++ (entry, subject) :: after
      ∧ (makeEach before state).1 = front
      ∧ call = ⟨entry.1.identifier, entry.2, subject,
          (entry.1.rule.check subject (makeEach before state).2).1⟩ := by
  induction calls generalizing state front with
  | nil => simp [makeEach] at hmade
  | cons next later ih =>
    obtain ⟨⟨entry, place⟩, subject⟩ := next
    rw [makeEach] at hmade
    cases front with
    | nil =>
      obtain ⟨hcall, -⟩ := List.cons.inj hmade
      exact ⟨[], (entry, place), subject, later, rfl, rfl, hcall.symm⟩
    | cons first others =>
      obtain ⟨rfl, hlater⟩ := List.cons.inj hmade
      obtain ⟨before, other, asked, after, rfl, rfl, rfl⟩ := ih hlater
      exact ⟨_ :: before, other, asked, after, rfl, rfl, rfl⟩

/-- The first call whose failure cannot be told is the last one of its run. -/
theorem run_brokenOff {entries : List (NamedRule σ × Nat)} (hsome : entries ≠ [])
    {files : List SourceFile} {listing : List String} {state : σ} {front rest : List MadeCall}
    {call : MadeCall} {raised : Raised}
    (hmade : (makeEach (callsOf entries files listing) state).1 = front ++ call :: rest)
    (htold : AllTold front) (hbroken : call.outcome.breakdown = some raised) :
    ∃ left, run (entries.map Prod.fst) files listing state
        = .error (.brokenOff (runEvents (front ++ [call])) left raised)
      ∧ run (entries.map recorded) files listing (state, [])
        = .error (.brokenOff (runEvents (front ++ [call]))
            (left, (front ++ [call]).map MadeCall.request) raised) := by
  obtain ⟨before, entry, subject, after, hcalls, rfl, rfl⟩ := exists_call_of_makeEach hmade
  have hlast : (makeEach (before ++ [(entry, subject)]) state).1
      = (makeEach before state).1 ++ [⟨entry.1.identifier, entry.2, subject,
          (entry.1.rule.check subject (makeEach before state).2).1⟩] :=
    congrArg Prod.fst (makeEach_append before [(entry, subject)] state)
  have hplain := run_eq_of_untold hsome hcalls htold hbroken
  have hlogged := run_recorded_of_untold hsome hcalls htold hbroken
  rw [← makeEach_requests _ state] at hlogged
  dsimp only at hplain hlogged
  rw [hlast] at hplain hlogged
  exact ⟨_, hplain, hlogged⟩

/-- Both runs are broken off: the whole one by the first call whose failure cannot be told, and if
that is one of a chosen rule, the other one by the same call, with the same calls in front of it
less those to the other rules. -/
structure BreaksOff (kept : String → Nat → Bool) (entries : List (NamedRule σ × Nat))
    (files : List SourceFile) (listing : List String) (state : σ) (front : List MadeCall)
    (call : MadeCall) (raised : Raised) : Prop where
  whole : ∃ left,
    run (entries.map Prod.fst) files listing state
        = .error (.brokenOff (runEvents (front ++ [call])) left raised)
      ∧ run (entries.map recorded) files listing (state, [])
          = .error (.brokenOff (runEvents (front ++ [call]))
              (left, (front ++ [call]).map MadeCall.request) raised)
  part : stays kept call = true → ∃ left,
    run ((chosen kept entries).map Prod.fst) files listing state
        = .error (.brokenOff (runEvents (front.filter (stays kept) ++ [call])) left raised)
      ∧ run ((chosen kept entries).map recorded) files listing (state, [])
          = .error (.brokenOff (runEvents (front.filter (stays kept) ++ [call]))
              (left, (front.filter (stays kept) ++ [call]).map MadeCall.request) raised)

theorem breaksOff {kept : String → Nat → Bool} {alike : σ → σ → Prop}
    {entries : List (NamedRule σ × Nat)} (hseparates : Separates kept alike entries)
    (hsome : chosen kept entries ≠ []) {files : List SourceFile} {listing : List String}
    {state : σ} (halike : alike state state) {front rest : List MadeCall} {call : MadeCall}
    {raised : Raised}
    (hmade : (makeEach (callsOf entries files listing) state).1 = front ++ call :: rest)
    (htold : AllTold front) (hbroken : call.outcome.breakdown = some raised) :
    BreaksOff kept entries files listing state front call raised where
  whole := run_brokenOff (ne_nil_of_chosen hsome) hmade htold hbroken
  part := by
    intro hstays
    have hpart := hseparates.makeEach_chosen files listing halike
    rw [hmade, List.filter_append, List.filter_cons_of_pos hstays] at hpart
    exact run_brokenOff hsome hpart (fun other hmem => htold other (List.mem_of_mem_filter hmem))
      hbroken

/-! ### Rules that remember only their own calls -/

/-- A rule whose answer depends on nothing but the subjects that it has been called with so far and
the one at hand. -/
structure PrivateRule where
  identifier : String
  capabilities : Capabilities
  behaviour : List Subject → Subject → Outcome

/-- The rule at a place, with its memory at that place of what the rules of a run remember. -/
def PrivateRule.placed (entry : PrivateRule × Nat) : NamedRule (Nat → List Subject) × Nat :=
  ({ identifier := entry.1.identifier
     rule :=
      { capabilities := entry.1.capabilities
        check := fun subject memory =>
          (entry.1.behaviour (memory entry.2) subject,
            Function.update memory entry.2 (memory entry.2 ++ [subject])) } },
    entry.2)

/-- The memories of the rules that stay are the same. -/
def SameMemory (kept : Nat → Bool) (memory other : Nat → List Subject) : Prop :=
  ∀ place, kept place = true → memory place = other place

theorem separates_placed (rules : List PrivateRule) (kept : Nat → Bool) :
    Separates (fun _ place => kept place) (SameMemory kept)
      (rules.zipIdx.map PrivateRule.placed) where
  stays := by
    intro entry hmem hkept subject memory other hsame
    obtain ⟨⟨rule, place⟩, -, rfl⟩ := List.mem_map.mp hmem
    have hown : memory place = other place := hsame place hkept
    refine ⟨congrArg (rule.behaviour · subject) hown, fun asked hasked => ?_⟩
    change Function.update memory place (memory place ++ [subject]) asked
      = Function.update other place (other place ++ [subject]) asked
    by_cases hplace : asked = place
    · rw [hplace, Function.update_self, Function.update_self, hown]
    · rw [Function.update_of_ne hplace, Function.update_of_ne hplace]
      exact hsame asked hasked
  goes := by
    intro entry hmem hgone subject memory other hsame asked hasked
    obtain ⟨⟨rule, place⟩, -, rfl⟩ := List.mem_map.mp hmem
    have hplace : asked ≠ place := by
      rintro rfl
      exact Bool.false_ne_true (hgone.symm.trans hasked)
    change Function.update memory place (memory place ++ [subject]) asked = other asked
    rw [Function.update_of_ne hplace]
    exact hsame asked hasked

theorem chosen_placed_ne_nil {rules : List PrivateRule} {kept : Nat → Bool}
    (hsome : ∃ place < rules.length, kept place = true) :
    chosen (fun _ place => kept place) (rules.zipIdx.map PrivateRule.placed) ≠ [] := by
  obtain ⟨place, hlt, hkept⟩ := hsome
  have hmem : PrivateRule.placed (rules[place], place) ∈
      chosen (fun _ place => kept place) (rules.zipIdx.map PrivateRule.placed) := by
    refine List.mem_filter.mpr ⟨List.mem_map_of_mem ?_, hkept⟩
    rw [List.mem_zipIdx_iff_getElem?]
    exact List.getElem?_eq_getElem hlt
  exact List.ne_nil_of_mem hmem

/-! ### The built-in rules -/

theorem answer_builtIn {context : RuleContext} {entry : NamedRule σ}
    (hmem : entry ∈ RulePackage.builtInRules context) (subject : Subject) (state other : σ) :
    (entry.rule.check subject state).1 = (entry.rule.check subject other).1 := by
  simp only [RulePackage.builtInRules, RulePackage.builtInEntries, List.map_cons, List.map_nil,
    List.mem_cons, List.not_mem_nil, or_false] at hmem
  obtain rfl | rfl | rfl | rfl := hmem <;> rfl

theorem separates_builtIn (context : RuleContext) (kept : String → Nat → Bool) :
    Separates kept (fun _ _ => True)
      (RulePackage.builtInRules context : List (NamedRule σ)).zipIdx where
  stays := by
    intro entry hmem _ subject state other _
    have hentry : entry.1 ∈ RulePackage.builtInRules context := by
      have hfst := List.mem_map_of_mem (f := Prod.fst) hmem
      rwa [List.zipIdx_map_fst] at hfst
    exact ⟨answer_builtIn hentry subject state other, trivial⟩
  goes := fun _ _ _ _ _ _ _ => trivial

theorem map_fst_chosen (rules : List (NamedRule σ)) (kept : String → Bool) :
    (chosen (fun identifier _ => kept identifier) rules.zipIdx).map Prod.fst
      = rules.filter fun entry => kept entry.identifier := by
  have hfilter := List.filter_map (f := Prod.fst) (p := fun entry : NamedRule σ =>
    kept entry.identifier) (l := rules.zipIdx)
  rw [List.zipIdx_map_fst] at hfilter
  exact hfilter.symm

/-- The failures of the built-in rules can be told. -/
theorem allTold_builtIn {context : RuleContext} {rules : List (NamedRule σ)}
    (hrules : rules ⊆ RulePackage.builtInRules context) (files : List SourceFile)
    (listing : List String) (state : σ) :
    AllTold (makeEach (callsOf rules.zipIdx files listing) state).1 := by
  refine allTold_of_rules (fun entry hmem subject before => ?_) files listing state
  have hentry := List.mem_map_of_mem (f := Prod.fst) hmem
  rw [List.zipIdx_map_fst] at hentry
  exact (RulePackage.builtInAnswer (hrules hentry) subject before).told

/-- **Rules do not interfere.** For rules that remember only their own calls, whatever they do and
however they fail, leaving out some of them, not all, leaves out their calls with what these
contributed, and nothing else, as long as their failures can be told. A failure that cannot be told
is never recorded: it breaks off the run, and also the one without the others if its rule is not
among them. The built-in rules, whose failures can be told, are a case of this: disabling some of
them, not all, makes the others, and takes the calls of the disabled ones out of the run. -/
theorem rules_do_not_interfere :
    (∀ (rules : List PrivateRule) (kept : Nat → Bool) (files : List SourceFile)
      (listing : List String) (report : Report),
        (∃ place < rules.length, kept place = true) →
          let entries := rules.zipIdx.map PrivateRule.placed
          let made := (makeEach (callsOf entries files listing) fun _ => []).1
          (AllTold made →
              LeavesOut (fun _ place => kept place) entries files listing (fun _ => []) report made)
            ∧ ∀ front call rest raised, made = front ++ call :: rest → AllTold front →
              call.outcome.breakdown = some raised →
                BreaksOff (fun _ place => kept place) entries files listing (fun _ => []) front call
                  raised)
      ∧ ∀ (σ : Type) (context : RuleContext) (disabled : List String),
        (∀ identifier ∈ disabled, identifier ∈ RulePackage.builtInIdentifiers) →
        (∃ identifier ∈ RulePackage.builtInIdentifiers, identifier ∉ disabled) →
          ∃ rules : List (NamedRule σ),
            (Package.rulesFor (context.disabling []) RulePackage.builtIn).execute.1 = .ok rules
              ∧ (Package.rulesFor (context.disabling disabled) RulePackage.builtIn).execute.1
                = .ok ((chosen (fun identifier _ => !disabled.contains identifier)
                    rules.zipIdx).map Prod.fst)
              ∧ ∀ (files : List SourceFile) (listing : List String) (state : σ) (report : Report),
                ∃ made, LeavesOut (fun identifier _ => !disabled.contains identifier)
                  rules.zipIdx files listing state report made := by
  constructor
  · intro rules kept files listing report hsome entries made
    have hseparates := separates_placed rules kept
    have hchosen := chosen_placed_ne_nil hsome
    refine ⟨fun htold => leavesOut hseparates hchosen (fun _ _ => rfl) htold report, ?_⟩
    intro front call rest raised hmade htold hbroken
    exact breaksOff hseparates hchosen (fun _ _ => rfl) hmade htold hbroken
  · intro σ context disabled hknown hleft
    have hrules := map_fst_chosen (RulePackage.builtInRules context : List (NamedRule σ))
      fun identifier => !disabled.contains identifier
    refine ⟨RulePackage.builtInRules context,
      (Package.rulesFor_builtIn_all context).execute, ?_, ?_⟩
    · rw [hrules]
      exact (Package.rulesFor_builtIn context hknown hleft).execute
    · intro files listing state report
      refine ⟨_, leavesOut (separates_builtIn context _) ?_ trivial
        (allTold_builtIn (List.Subset.refl _) files listing state) report⟩
      intro hnil
      rw [hnil, List.map_nil] at hrules
      exact RulePackage.filter_builtInRules_ne_nil context hleft hrules.symm

/-- A rule that reports the first subject that it is called with and fails on every other one. -/
def wearyRule : PrivateRule where
  identifier := "weary"
  capabilities := { fileTypes := [.php], lineTypes := [.php] }
  behaviour seen _ :=
    if seen.isEmpty then { effects := [.declare 1, .message .notice "seen"] }
    else { failure := some (.told { kind := "RuntimeError", text := "again" }) }

/-- A rule whose failure cannot be told. -/
def speechlessRule : PrivateRule where
  identifier := "speechless"
  capabilities := { fileTypes := [.php] }
  behaviour _ _ :=
    { failure := some (.untold "KeyError" [] (.told { kind := "ValueError", text := "too long" })) }

theorem rules_do_not_interfere_wearyRule :
    (∃ place < [wearyRule, wearyRule].length, (place == 1) = true)
      ∧ (∃ made, LeavesOut (fun _ place => place == 1)
          ([wearyRule, wearyRule].zipIdx.map PrivateRule.placed) [shortFile] [] (fun _ => []) {} made)
      ∧ (∃ front call raised, BreaksOff (fun _ place => place == 1)
          ([wearyRule, speechlessRule].zipIdx.map PrivateRule.placed) [shortFile] [] (fun _ => [])
          front call raised)
      ∧ ∃ rules : List (NamedRule Unit),
          (Package.rulesFor (RuleContext.disabling {} ["php_header"])
            RulePackage.builtIn).execute.1 = .ok rules := by
  have hsome : ∃ place < [wearyRule, wearyRule].length, (place == 1) = true :=
    ⟨1, by decide, rfl⟩
  have hweary : ∀ (seen : List Subject) (subject : Subject),
      (wearyRule.behaviour seen subject).Told := by
    intro seen subject
    cases seen with
    | nil => exact nofun
    | cons first rest =>
      intro raised hraised
      obtain rfl := Option.some.inj hraised
      rfl
  refine ⟨hsome, ?_, ?_, ?_⟩
  · refine ⟨_, (rules_do_not_interfere.1 [wearyRule, wearyRule] (· == 1) _ [] {} hsome).1 ?_⟩
    refine allTold_of_rules (fun entry hmem subject memory => ?_) _ _ _
    obtain ⟨⟨rule, place⟩, hrule, rfl⟩ := List.mem_map.mp hmem
    have hsame : rule = wearyRule := by simpa using List.fst_mem_of_mem_zipIdx hrule
    rw [hsame]
    exact hweary (memory place) subject
  · have hfirst :
        AllTold [⟨"weary", 0, .file shortFile, wearyRule.behaviour [] (.file shortFile)⟩] := by
      intro call hmem
      rw [List.mem_singleton.mp hmem]
      exact (hweary [] (.file shortFile)).breakdown_eq_none
    exact ⟨_, _, _, (rules_do_not_interfere.1 [wearyRule, speechlessRule] (· == 1) [shortFile] [] {}
      hsome).2 _ _ _ _ rfl hfirst rfl⟩
  · obtain ⟨rules, -, hmade, -⟩ := rules_do_not_interfere.2 Unit {} ["php_header"] (by decide)
      ⟨"event_names", by decide, by decide⟩
    exact ⟨_, hmade⟩

end ExtensionAudit.Audit
