import Mathlib
import ExtensionAudit.Proofs.Package.Agreement

/-!
# A check around one of its rules

A rule that wants the listing and nothing else is called once in a run. The calls in front of it and
those behind it are due whether or not the rule takes part, so the run is that call between two
parts in which the rule has no say. The built-in rules share no state and have no other way to take
notice of each other, and what is reported is then put together from the three parts.
-/

namespace ExtensionAudit

namespace Audit

/-! ### The schedule around the call -/

section Schedule

variable {ι : Type} {wants : ι → Capabilities} {front back : List ι} {entry : ι}

theorem callsWith_append (wanted : ι → Bool) (entries others : List ι) (subject : Subject) :
    callsWith wanted (entries ++ others) subject
      = callsWith wanted entries subject ++ callsWith wanted others subject := by
  rw [callsWith, List.filter_append, List.map_append]
  rfl

theorem callsWith_cons_of_not {wanted : ι → Bool} (hnot : wanted entry = false) (entries : List ι)
    (subject : Subject) :
    callsWith wanted (entry :: entries) subject = callsWith wanted entries subject := by
  rw [callsWith, List.filter_cons_of_neg (by simp [hnot]), callsWith]

theorem callsWith_split_of_not {wanted : ι → Bool} (hnot : wanted entry = false)
    (subject : Subject) :
    callsWith wanted (front ++ entry :: back) subject = callsWith wanted (front ++ back) subject := by
  rw [callsWith_append, callsWith_append, callsWith_cons_of_not hnot]

theorem callsFor_split (hwants : wants entry = { directory := true }) (file : SourceFile) :
    callsFor wants (front ++ entry :: back) file = callsFor wants (front ++ back) file := by
  have hnone (types : Capabilities → List FileType)
      (htypes : types { directory := true } = []) (subject : Subject) :
      callsWith (fun entry => (types (wants entry)).contains file.fileType)
          (front ++ entry :: back) subject
        = callsWith (fun entry => (types (wants entry)).contains file.fileType)
          (front ++ back) subject := by
    refine callsWith_split_of_not ?_ subject
    rw [hwants, htypes]
    rfl
  rw [callsFor, callsFor, hnone (·.fileTypes) rfl]
  exact congrArg _ (List.flatMap_congr fun line _ => hnone (·.lineTypes) rfl _)

/-- What is due behind the call: the listing for the rules that follow, and all files. -/
def scheduleBehind (wants : ι → Capabilities) (front back : List ι) (files : List SourceFile)
    (listing : List String) : List (ι × Subject) :=
  callsWith (fun entry => (wants entry).directory) back (.directory listing)
    ++ files.flatMap (callsFor wants (front ++ back))

theorem schedule_split (hwants : wants entry = { directory := true }) (files : List SourceFile)
    (listing : List String) :
    schedule wants (front ++ entry :: back) files listing
      = callsWith (fun entry => (wants entry).directory) front (.directory listing)
        ++ (entry, .directory listing) :: scheduleBehind wants front back files listing := by
  have hcall : callsWith (fun entry => (wants entry).directory) (entry :: back)
        (.directory listing)
      = (entry, .directory listing)
        :: callsWith (fun entry => (wants entry).directory) back (.directory listing) := by
    rw [callsWith, List.filter_cons_of_pos (by simp [hwants])]
    rfl
  rw [schedule, scheduleBehind, callsWith_append, hcall, List.append_assoc, List.cons_append,
    List.flatMap_congr fun file _ => callsFor_split hwants file]

end Schedule

/-! ### Rules without a state -/

def answered (call : (NamedRule Unit × Nat) × Subject) : MadeCall where
  identifier := call.1.1.identifier
  place := call.1.2
  subject := call.2
  outcome := (call.1.1.rule.check call.2 ()).1

/-- Where there is no state, each call is answered by itself. -/
theorem makeEach_unit (calls : List ((NamedRule Unit × Nat) × Subject)) :
    (makeEach calls ()).1 = calls.map answered := by
  induction calls with
  | nil => rfl
  | cons call rest ih =>
    rw [makeEach, List.map_cons, ← ih]
    rfl

/-- A call that returns enters what it does, as none of it is refused. -/
theorem events_of_returns {call : MadeCall} (hannounces : call.outcome.Announces)
    (hreturns : call.outcome.failure = none) :
    call.events = call.outcome.effects.map .effect := by
  rw [MadeCall.events, hannounces.accepted_eq, hannounces.ending_eq, hreturns]
  exact List.append_nil _

variable {front back : List (NamedRule Unit)}

def madeBefore (front : List (NamedRule Unit)) (listing : List String) : List MadeCall :=
  (callsWith (fun entry => entry.1.rule.capabilities.directory) front.zipIdx
    (.directory listing)).map answered

def madeBehind (front back : List (NamedRule Unit)) (files : List SourceFile)
    (listing : List String) : List MadeCall :=
  (scheduleBehind (·.1.rule.capabilities) front.zipIdx (back.zipIdx (front.length + 1)) files
    listing).map answered

/-- The calls of a run around the one call of a rule. -/
theorem makeEach_split {entry : NamedRule Unit}
    (hwants : entry.rule.capabilities = { directory := true }) (files : List SourceFile)
    (listing : List String) :
    (makeEach (callsOf (front ++ entry :: back).zipIdx files listing) ()).1
      = madeBefore front listing
        ++ answered ((entry, front.length), .directory listing)
          :: madeBehind front back files listing := by
  have hplaced : (front ++ entry :: back).zipIdx
      = front.zipIdx ++ (entry, front.length) :: back.zipIdx (front.length + 1) := by
    rw [List.zipIdx_append, List.zipIdx_cons, Nat.zero_add]
  have hsplit := @schedule_split _ (·.1.rule.capabilities) front.zipIdx
    (back.zipIdx (front.length + 1)) (entry, front.length) hwants files listing
  rw [makeEach_unit, hplaced, callsOf, hsplit, List.map_append, List.map_cons]
  rfl

/-- The other calls of the run are answered by the other rules. -/
theorem exists_rule_of_mem_around {files : List SourceFile} {listing : List String}
    {call : MadeCall} (hmem : call ∈ madeBefore front listing ++ madeBehind front back files listing) :
    ∃ entry ∈ front ++ back, call.outcome = (entry.rule.check call.subject ()).1 := by
  have hplaced {made : (NamedRule Unit × Nat) × Subject}
      (hrule : made.1 ∈ front.zipIdx ++ back.zipIdx (front.length + 1)) :
      ∃ entry ∈ front ++ back,
        (answered made).outcome = (entry.rule.check (answered made).subject ()).1 := by
    refine ⟨made.1.1, ?_, rfl⟩
    obtain hfront | hback := List.mem_append.mp hrule
    · exact List.mem_append_left _ (List.fst_mem_of_mem_zipIdx hfront)
    · exact List.mem_append_right _ (List.fst_mem_of_mem_zipIdx hback)
  obtain hbefore | hbehind := List.mem_append.mp hmem
  · obtain ⟨made, hmade, rfl⟩ := List.mem_map.mp hbefore
    exact hplaced (List.mem_append_left _ (mem_of_mem_callsWith hmade))
  · obtain ⟨made, hmade, rfl⟩ := List.mem_map.mp hbehind
    obtain hlisting | hfiles := List.mem_append.mp hmade
    · exact hplaced (List.mem_append_right _ (mem_of_mem_callsWith hlisting))
    · apply hplaced
      have hall : made ∈ schedule (·.1.rule.capabilities)
          (front.zipIdx ++ back.zipIdx (front.length + 1)) files listing :=
        List.mem_append_right _ hfiles
      exact mem_of_mem_schedule hall

end Audit

theorem RulePackage.identified_builtInEntries {σ : Type} :
    (builtInEntries.map identified : List (String × (RuleContext → Rule σ)))
      = [("directory_structure", DirectoryStructure.rule), ("event_names", EventNames.rule),
        ("php_functions", ForbiddenCalls.rule), ("php_header", fun _ => PhpTags.rule)] := by
  have hnames := (identified_builtIn : (builtInEntries.map identified :
    List (String × (RuleContext → Rule σ))).map (·.1) = _)
  simp only [builtInEntries, builtInIdentifiers, List.map_cons, List.map_nil, identified,
    List.cons.injEq, and_true] at hnames ⊢
  obtain ⟨hstructure, hevents, hcalls, htags⟩ := hnames
  rw [hstructure, hevents, hcalls, htags]
  exact ⟨rfl, rfl, rfl, rfl⟩

namespace Package

/-! ### The report of a run around one call -/

section Between

variable (before behind : List RunEvent) (effects : List Effect)

def reportAround : Report :=
  ({} : Report).enterAll (before ++ effects.map .effect ++ behind)

theorem messages_reportAround :
    (reportAround before behind effects).messages
      = before.flatMap RunEvent.messages ++ effects.flatMap Effect.messages
        ++ behind.flatMap RunEvent.messages := by
  rw [reportAround, Report.enterAll_messages, List.flatMap_append, List.flatMap_append,
    RunEvent.messages_map_effect]
  rfl

theorem total_reportAround :
    (reportAround before behind effects).progress.total
      = (before.map RunEvent.units).sum + (effects.map Effect.units).sum
        + (behind.map RunEvent.units).sum := by
  rw [reportAround, Report.enterAll_total, List.map_append, List.map_append, List.sum_append,
    List.sum_append, List.map_map, RunEvent.units_comp_effect]
  exact Nat.zero_add _

theorem current_reportAround :
    (reportAround before behind effects).progress.current
      = (before.map RunEvent.work).sum + (effects.map Effect.work).sum
        + (behind.map RunEvent.work).sum := by
  have hwork : RunEvent.work ∘ RunEvent.effect = Effect.work := rfl
  rw [reportAround, Report.enterAll_work, List.map_append, List.map_append, List.sum_append,
    List.sum_append, List.map_map, hwork]
  exact Nat.zero_add _

end Between

/-! ### The built-in rules around one of them -/

variable {context : RuleContext} {front back : List (String × (RuleContext → Rule Unit))}
  {entry : String × (RuleContext → Rule Unit)} {contents : Contents}

/-- What is entered in front of the call of a rule: what loading has to say, and the calls of the
rules before it. -/
def eventsBefore (context : RuleContext) (front : List (String × (RuleContext → Rule Unit)))
    (contents : Contents) : List RunEvent :=
  contents.effects.map .effect ++ .effect (.trace "Running rules")
    :: (Audit.madeBefore (front.map (Registry.named context)) contents.listing).flatMap
      MadeCall.events

def eventsBehind (context : RuleContext) (front back : List (String × (RuleContext → Rule Unit)))
    (contents : Contents) : List RunEvent :=
  (Audit.madeBehind (front.map (Registry.named context)) (back.map (Registry.named context))
    contents.files contents.listing).flatMap MadeCall.events

/-- The report of a check around the call of a rule that returns. -/
theorem reportOf_around (hwants : (entry.2 context).capabilities = { directory := true })
    (hannounces : ((entry.2 context).check (.directory contents.listing) ()).1.Announces)
    (hreturns : ((entry.2 context).check (.directory contents.listing) ()).1.failure = none) :
    reportOf context (front ++ entry :: back) contents
      = reportAround (eventsBefore context front contents) (eventsBehind context front back contents)
          ((entry.2 context).check (.directory contents.listing) ()).1.effects := by
  have hcall : (Audit.answered ((Registry.named context entry,
        (front.map (Registry.named context)).length), .directory contents.listing)).events
      = ((entry.2 context).check (.directory contents.listing) ()).1.effects.map .effect :=
    Audit.events_of_returns hannounces hreturns
  rw [reportOf, runOf, List.map_append, List.map_cons, Audit.makeEach_split hwants, Audit.runEvents,
    List.flatMap_append, List.flatMap_cons, hcall, reportAround, eventsBefore, eventsBehind]
  simp only [List.append_assoc, List.cons_append]

theorem entriesResult_eq_filter {settings : Settings}
    {entries : List (String × (RuleContext → Rule Unit))}
    (hentries : entriesResult settings = .ok entries) :
    entries = (RulePackage.builtInEntries.map RulePackage.identified).filter fun entry =>
      !settings.disabledRules.contains entry.1 := by
  rw [entriesResult] at hentries
  split at hentries
  · cases hentries
  · split at hentries
    · cases hentries
    · exact (Except.ok.inj hentries).symm

theorem entriesResult_of_none_disabled {settings : Settings} (hnone : settings.disabledRules = []) :
    entriesResult settings = .ok (RulePackage.builtInEntries.map RulePackage.identified) := by
  have hknown : Registry.unknownIn (registered : Registry Unit) [] = [] := by
    simp [Registry.unknownIn, Settings.sorted]
  have hall : (RulePackage.builtInEntries.map RulePackage.identified :
      List (String × (RuleContext → Rule Unit))).filter (fun entry =>
        !([] : List String).contains entry.1)
      = RulePackage.builtInEntries.map RulePackage.identified :=
    List.filter_eq_self.mpr fun _ _ => rfl
  rw [entriesResult, hnone, hknown, hall]
  rfl

/-- A built-in rule that is not disabled stands among built-in rules of other names. -/
theorem exists_entries_around {settings : Settings}
    {entries : List (String × (RuleContext → Rule Unit))}
    (hentries : entriesResult settings = .ok entries)
    (hentry : entry ∈ RulePackage.builtInEntries.map RulePackage.identified)
    (henabled : entry.1 ∉ settings.disabledRules) :
    ∃ front back, entries = front ++ entry :: back
      ∧ ∀ other ∈ front ++ back,
          other ∈ RulePackage.builtInEntries.map RulePackage.identified ∧ other.1 ≠ entry.1 := by
  have hmem : entry ∈ entries := by
    rw [entriesResult_eq_filter hentries]
    exact List.mem_filter.mpr ⟨hentry, by simpa using henabled⟩
  have hnames : (entries.map (·.1)).Nodup := by
    have hall : ((RulePackage.builtInEntries.map RulePackage.identified :
        List (String × (RuleContext → Rule Unit))).map (·.1)).Nodup := by
      rw [RulePackage.identified_builtIn]
      decide
    rw [entriesResult_eq_filter hentries]
    exact (List.filter_sublist.map _).nodup hall
  obtain ⟨front, back, rfl⟩ := List.append_of_mem hmem
  refine ⟨front, back, rfl, fun other hother => ?_⟩
  rw [List.map_append, List.map_cons, List.nodup_middle, ← List.map_append] at hnames
  refine ⟨(entriesResult_eq_ok hentries).2 ?_, fun hsame => ?_⟩
  · exact List.perm_middle.mem_iff.mpr (List.mem_cons_of_mem entry hother)
  · exact (List.nodup_cons.mp hnames).1 (hsame ▸ List.mem_map_of_mem hother)

end Package

end ExtensionAudit
