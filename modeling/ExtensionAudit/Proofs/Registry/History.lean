import Mathlib
import ExtensionAudit.Proofs.Registry.Making

/-!
# A registry over its history

A registry is asked to register factories, whether it knows an identifier, and to make the rules of
a check, in any order. All that it keeps of its history are the registrations that succeeded: their
identifiers are distinct and stand in the order of registration, and no other request leaves a
trace. So what it answers to a request is settled by these registrations alone.

The factories here make an object whenever they are called, be it a rule or not. To tell which of
them are called, they are given lines to write: a line that is not in the log was not written, and
its factory not called.
-/

namespace ExtensionAudit

/-- What is asked of a registry. What cannot be called as a factory is none. -/
inductive RegistryRequest (σ : Type) where
  | register (identifier : String) (make : Option (RuleContext → Candidate σ))
  | contains (identifier : String)
  | instantiate (context : RuleContext)

inductive RegistryAnswer (σ : Type) where
  | registered
  | refused (fault : RuleSetFault)
  | contained (found : Bool)
  | made (result : Except SetupFault (List (NamedRule σ))) (log : Log)

namespace Registry

variable {σ : Type}

/-- The factory that makes the object of the entry. -/
def ready (entry : String × (RuleContext → Candidate σ)) : String × RuleFactory σ :=
  (entry.1, fun context => .ok (entry.2 context))

/-- What the factory of the entry makes in a check. -/
def objectOf (context : RuleContext) (entry : String × (RuleContext → Candidate σ)) : Candidate σ :=
  entry.2 context

def perform (registry : Registry σ) : RegistryRequest σ → RegistryAnswer σ × Registry σ
  | .register identifier make =>
    match registry.register identifier (make.map fun make => (ready (identifier, make)).2) with
    | .ok grown => (.registered, grown)
    | .error fault => (.refused fault, registry)
  | .contains identifier => (.contained (registry.contains identifier), registry)
  | .instantiate context =>
    let made := (registry.instantiate context).execute
    (.made made.1 made.2, registry)

def performAll (registry : Registry σ) :
    List (RegistryRequest σ) → List (RegistryAnswer σ) × Registry σ
  | [] => ([], registry)
  | request :: rest =>
    let answered := registry.perform request
    let later := answered.2.performAll rest
    (answered.1 :: later.1, later.2)

/-- What a request has registered, if it was to register something and succeeded. -/
def registration : RegistryRequest σ × RegistryAnswer σ →
    Option (String × (RuleContext → Candidate σ))
  | (.register identifier (some make), .registered) => some (identifier, make)
  | _ => none

/-- The successful registrations, in their order. -/
def registrations (requests : List (RegistryRequest σ)) (answers : List (RegistryAnswer σ)) :
    List (String × (RuleContext → Candidate σ)) :=
  (requests.zip answers).filterMap registration

/-- Calls a factory that writes the lines noted for its identifier. -/
def callNoting (note : String → List LogLine) (context : RuleContext)
    (entry : String × RuleFactory σ) : Setup (Candidate σ) := do
  Setup.write (note entry.1)
  callFactory context entry

def instantiateNoting (registry : Registry σ) (note : String → List LogLine)
    (context : RuleContext) : Setup (List (NamedRule σ)) :=
  registry.instantiateBy (callNoting note context) context

/-- The lines of the entries that the making comes to. -/
def notedLines (note : String → List LogLine) (context : RuleContext)
    (entries : List (String × (RuleContext → Candidate σ))) : List LogLine :=
  entries.flatMap (linesAt context (objectOf context) fun entry => note entry.1)

theorem callNoting_nil (context : RuleContext) :
    (callNoting (fun _ => []) context : String × RuleFactory σ → Setup (Candidate σ))
      = callFactory context := by
  funext entry
  refine ExceptT.ext (StateT.ext fun log => ?_)
  have hwrites : (ExceptT.run (Setup.write [])).run log = (.ok (), log ++ [].toArray) := rfl
  rw [callNoting, ExceptT.run_bind, StateT.run_bind, hwrites, Array.append_empty]
  rfl

/-! ### What one request does -/

/-- The registry holds the factories of the entries and nothing else, each under an identifier of
its own. -/
structure Holds (registry : Registry σ) (entries : List (String × (RuleContext → Candidate σ))) :
    Prop where
  factories : registry.factories = entries.map ready
  distinct : (entries.map Prod.fst).Nodup

section Holds

variable {registry : Registry σ} {entries : List (String × (RuleContext → Candidate σ))}

theorem Holds.identifiers_eq (hholds : registry.Holds entries) :
    registry.identifiers = entries.map Prod.fst := by
  rw [identifiers, hholds.factories, List.map_map]
  rfl

theorem perform_register_none (identifier : String) :
    registry.perform (.register identifier none)
      = (.refused (.factoryNotCallable identifier), registry) := rfl

theorem perform_register_of_mem {identifier : String} (make : RuleContext → Candidate σ)
    (hmem : identifier ∈ registry.identifiers) :
    registry.perform (.register identifier (some make))
      = (.refused (.registeredTwice identifier), registry) := by
  have hfound : registry.contains identifier = true := List.contains_iff_mem.mpr hmem
  have hrefused : registry.register identifier (some (ready (identifier, make)).2)
      = .error (.registeredTwice identifier) := by
    rw [register, hfound]
    rfl
  rw [perform, Option.map_some, hrefused]

theorem perform_register_of_not_mem {identifier : String} (make : RuleContext → Candidate σ)
    (hnew : identifier ∉ registry.identifiers) :
    registry.perform (.register identifier (some make))
      = (.registered, ⟨registry.factories ++ [ready (identifier, make)]⟩) := by
  have hfound : registry.contains identifier = false := by
    rw [contains, ← Bool.not_eq_true, List.contains_iff_mem]
    exact hnew
  have hgrown : registry.register identifier (some (ready (identifier, make)).2)
      = .ok ⟨registry.factories ++ [ready (identifier, make)]⟩ := by
    rw [register, hfound]
    rfl
  rw [perform, Option.map_some, hgrown]

theorem perform_contains (identifier : String) :
    registry.perform (.contains identifier)
      = (.contained (decide (identifier ∈ registry.identifiers)), registry) := by
  rw [perform, contains, List.contains_eq_mem]

theorem perform_instantiate (context : RuleContext) :
    registry.perform (.instantiate context)
      = (.made (registry.instantiate context).execute.1 (registry.instantiate context).execute.2,
        registry) := rfl

/-- A request adds the entry that it registers, if it registers any. -/
theorem Holds.perform (hholds : registry.Holds entries) (request : RegistryRequest σ) :
    (registry.perform request).2.Holds
      (entries ++ (registration (request, (registry.perform request).1)).toList) := by
  have hsame : registry.Holds (entries ++ []) := by rwa [List.append_nil]
  cases request with
  | contains identifier => exact hsame
  | instantiate context => exact hsame
  | register identifier make =>
    cases make with
    | none => exact hsame
    | some make =>
      by_cases hmem : identifier ∈ registry.identifiers
      · rw [perform_register_of_mem make hmem]
        exact hsame
      · rw [perform_register_of_not_mem make hmem]
        refine ⟨?_, ?_⟩
        · have hadded : registration (.register identifier (some make), .registered)
              = some (identifier, make) := rfl
          rw [hadded, hholds.factories, List.map_append]
          rfl
        · rw [hholds.identifiers_eq] at hmem
          have hnodup := hholds.distinct.concat hmem
          rw [List.concat_eq_append] at hnodup
          rw [List.map_append]
          exact hnodup

/-- Requests add the entries that they register, in their order. -/
theorem Holds.performAll (hholds : registry.Holds entries) (requests : List (RegistryRequest σ)) :
    (registry.performAll requests).2.Holds
      (entries ++ registrations requests (registry.performAll requests).1) := by
  induction requests generalizing registry entries with
  | nil =>
    rw [registrations, List.zip_nil_left, List.filterMap_nil, List.append_nil]
    exact hholds
  | cons request rest ih =>
    have hlater := ih (hholds.perform request)
    have hsplit : registrations (request :: rest) (registry.performAll (request :: rest)).1
        = (registration (request, (registry.perform request).1)).toList
          ++ registrations rest ((registry.perform request).2.performAll rest).1 := by
      rw [registrations, Registry.performAll, List.zip_cons_cons, List.filterMap_cons]
      cases registration (request, (registry.perform request).1) <;> rfl
    rw [hsplit, ← List.append_assoc]
    exact hlater

end Holds

/-! ### What comes of making the rules -/

section Instantiate

variable {registry : Registry σ} {entries : List (String × (RuleContext → Candidate σ))}

theorem Holds.instantiateNoting_eq (hholds : registry.Holds entries) (note : String → List LogLine)
    {context : RuleContext} (hknown : context.settings.disabledRules ⊆ registry.identifiers) :
    registry.instantiateNoting note context
      = makeAllBy (fun entry => callNoting note context (ready entry)) context entries := by
  rw [instantiateNoting, instantiateBy_known hknown, hholds.factories]
  exact makeAllBy_map _ context ready (fun _ => rfl) entries

theorem callNoting_ready_writes (note : String → List LogLine) (context : RuleContext)
    (entry : String × (RuleContext → Candidate σ)) :
    (callNoting note context (ready entry)).Writes (note entry.1)
      (.ok (objectOf context entry)) := by
  have hcalled : (callFactory context (ready entry)).Writes [] (.ok (objectOf context entry)) :=
    Setup.Writes.pure _
  have hwrites : (callNoting note context (ready entry)).Writes (note entry.1 ++ [])
      (.ok (objectOf context entry)) := (Setup.Writes.write (note entry.1)).bind hcalled
  rwa [List.append_nil] at hwrites

end Instantiate

end Registry

/-- The rule is known under the identifier, checks what the given object checks, and has written down
what that one answers for the listing and for every type of file. -/
structure NamedRule.Registers {σ : Type} (named : NamedRule σ) (identifier : String)
    (object : Candidate σ) : Prop where
  identifier : named.identifier = identifier
  check : named.rule.check = object.check
  directory : object.wantsDirectory = .ok named.rule.capabilities.directory
  files (type : FileType) :
    object.wantsFile type = .ok (named.rule.capabilities.fileTypes.contains type)
  lines (type : FileType) :
    object.wantsLine type = .ok (named.rule.capabilities.lineTypes.contains type)

namespace Registry

variable {σ : Type}

/-- What comes of making the rules of a check from the entries. An identifier that is disabled
without being registered ends the making before any factory is called; else the factories of the
others are called in order, up to the first one whose object is no rule, as it lacks a member of the
contract or raises something when it is asked what it wants to see. -/
structure Instantiates (registry : Registry σ)
    (entries : List (String × (RuleContext → Candidate σ))) (note : String → List LogLine)
    (context : RuleContext) : Prop where
  unknown : ¬ context.settings.disabledRules ⊆ registry.identifiers →
    ∃ unknown fault, unknown.Pairwise (· < ·)
      ∧ (∀ identifier, identifier ∈ unknown
        ↔ identifier ∈ context.settings.disabledRules ∧ identifier ∉ registry.identifiers)
      ∧ fault.isConfiguration = true
      ∧ fault.message = "Cannot disable unknown rules: " ++ String.intercalate ", " unknown
      ∧ (registry.instantiateNoting note context).Writes [] (.error fault)
  incomplete (before later) (entry) : entries = before ++ entry :: later →
    context.settings.disabledRules ⊆ registry.identifiers →
    (∀ other ∈ before, GoesOn context (objectOf context) other) →
    entry.1 ∉ context.settings.disabledRules → (objectOf context entry).lacks ≠ [] →
    ∃ fault, fault = .rules (.incomplete entry.1) ∧ fault.isConfiguration = true
      ∧ (registry.instantiateNoting note context).Writes
        (notedLines note context (before ++ [entry])) (.error fault)
  unanswered (before later) (entry) (front rest) (raised) : entries = before ++ entry :: later →
    context.settings.disabledRules ⊆ registry.identifiers →
    (∀ other ∈ before, GoesOn context (objectOf context) other) →
    entry.1 ∉ context.settings.disabledRules → (objectOf context entry).lacks = [] →
    (objectOf context entry).answers = front ++ .error raised :: rest →
    (∀ answer ∈ front, ∃ wanted, answer = .ok wanted) →
    (registry.instantiateNoting note context).Writes
      (notedLines note context (before ++ [entry])) (.error (.escaped raised))
  complete : context.settings.disabledRules ⊆ registry.identifiers →
    (∀ entry ∈ entries, GoesOn context (objectOf context) entry) →
    ∃ rules, (registry.instantiateNoting note context).Writes (notedLines note context entries)
        (.ok rules)
      ∧ List.Forall₂ (fun entry named => named.Registers entry.1 (objectOf context entry))
        (entries.filter fun entry => entry.1 ∉ context.settings.disabledRules) rules

/-- What the registry answers to any request, the entries being the registrations that succeeded. -/
structure Answers (registry : Registry σ)
    (entries : List (String × (RuleContext → Candidate σ))) : Prop where
  identifiers : registry.identifiers = entries.map Prod.fst
  distinct : registry.identifiers.Nodup
  notCallable (identifier) : registry.perform (.register identifier none)
    = (.refused (.factoryNotCallable identifier), registry)
  twice (identifier) (make) : identifier ∈ registry.identifiers →
    registry.perform (.register identifier (some make))
      = (.refused (.registeredTwice identifier), registry)
  new (identifier) (make) : identifier ∉ registry.identifiers →
    registry.perform (.register identifier (some make))
      = (.registered, ⟨registry.factories ++ [ready (identifier, make)]⟩)
  contains (identifier) : registry.perform (.contains identifier)
    = (.contained (decide (identifier ∈ registry.identifiers)), registry)
  instantiate (context) : registry.perform (.instantiate context)
    = (.made (registry.instantiate context).execute.1 (registry.instantiate context).execute.2,
      registry)
  silent (context) : registry.instantiate context
    = registry.instantiateNoting (fun _ => []) context
  instantiates (note) (context) : registry.Instantiates entries note context

section Answers

variable {registry : Registry σ} {entries : List (String × (RuleContext → Candidate σ))}

theorem enabledOf_registers {context : RuleContext}
    {entries : List (String × (RuleContext → Candidate σ))}
    (hgoes : ∀ entry ∈ entries, GoesOn context (objectOf context) entry) :
    List.Forall₂ (fun entry named => named.Registers entry.1 (objectOf context entry))
      (entries.filter fun entry => entry.1 ∉ context.settings.disabledRules)
      (enabledOf context (objectOf context) entries) := by
  have hkept : (fun entry : String × (RuleContext → Candidate σ) =>
      !context.settings.disabledRules.contains entry.1)
        = fun entry => decide (entry.1 ∉ context.settings.disabledRules) := by
    funext entry
    simp
  rw [enabledOf, hkept, List.forall₂_map_right_iff, List.forall₂_same]
  intro entry hmem
  obtain ⟨hentry, henabled⟩ := List.mem_filter.mp hmem
  have hrule := hgoes entry hentry (of_decide_eq_true henabled)
  exact ⟨rfl, rfl, hrule.wantsDirectory_eq, hrule.wantsFile_eq, hrule.wantsLine_eq⟩

theorem Holds.instantiates (hholds : registry.Holds entries) (note : String → List LogLine)
    (context : RuleContext) : registry.Instantiates entries note context where
  unknown hunknown := ⟨_, _, unknownIn_pairwise, fun _ => mem_unknownIn_iff, rfl, rfl,
    instantiateBy_unknown hunknown⟩
  incomplete before later entry hentries hknown hgoes henabled hlacks := by
    refine ⟨_, rfl, rfl, ?_⟩
    rw [hholds.instantiateNoting_eq note hknown, hentries]
    exact makeAllBy_incomplete (fun other _ => callNoting_ready_writes note context other) hgoes
      henabled hlacks
  unanswered before later entry front rest raised hentries hknown hgoes henabled hwhole hanswers
      hfront := by
    rw [hholds.instantiateNoting_eq note hknown, hentries]
    exact makeAllBy_unanswered (fun other _ => callNoting_ready_writes note context other) hgoes
      henabled hwhole (Candidate.probe_eq_error hanswers hfront)
  complete hknown hgoes := by
    refine ⟨_, ?_, enabledOf_registers hgoes⟩
    rw [hholds.instantiateNoting_eq note hknown]
    exact makeAllBy_complete (fun entry _ => callNoting_ready_writes note context entry) hgoes

theorem Holds.answers (hholds : registry.Holds entries) : registry.Answers entries where
  identifiers := hholds.identifiers_eq
  distinct := hholds.identifiers_eq ▸ hholds.distinct
  notCallable := perform_register_none
  twice _ make hmem := perform_register_of_mem make hmem
  new _ make hnew := perform_register_of_not_mem make hnew
  contains := perform_contains
  instantiate := perform_instantiate
  silent context := by rw [Registry.instantiate, instantiateNoting, callNoting_nil]
  instantiates := hholds.instantiates

/-- What an object raises whose answer cannot be asked for. -/
def notCallable : Raised := .told { kind := "TypeError", text := "'bool' object is not callable" }

end Answers

end Registry

end ExtensionAudit
