import Mathlib
import ExtensionAudit.Proofs.Registry.BuiltIn
import ExtensionAudit.Proofs.Audit.Schedule

/-!
# Built-in rules announce their work before they do it

A rule lets a report expect some work and then does it, and nothing but its own care keeps the
second behind the first. The built-in rules all take the same care: they announce some units, and
then have that many effects, each of them a message or a pass. So a call is put together from
blocks, an announcement with its work behind it. Inside a block no more is done than announced, at
its end the two are equal, and both facts survive putting blocks one behind the other.

One call fails on its own account, that of a forbidden name which matches only ignoring case in a
wider sense. It does so between an announcement and its message, where less is done than announced.
-/

namespace ExtensionAudit

/-- The units of work that an effect does. -/
def Effect.work : Effect → Nat
  | .message _ _ => 1
  | .pass => 1
  | _ => 0

/-- The units of work that an effect announces. -/
def Effect.units : Effect → Nat
  | .declare units => units.toNat
  | _ => 0

/-! ### Work behind its announcement -/

section PaidFor

variable {ι κ : Type} {units work : ι → Nat}

/-- Nowhere along the steps is more done than announced. -/
def Covered (units work : ι → Nat) (steps : List ι) : Prop :=
  ∀ front, front <+: steps → (front.map work).sum ≤ (front.map units).sum

/-- Nowhere along the steps is more done than announced, and in the end as much. -/
structure PaidFor (units work : ι → Nat) (steps : List ι) : Prop where
  covered : Covered units work steps
  balanced : (steps.map work).sum = (steps.map units).sum

theorem PaidFor.nil : PaidFor units work [] where
  covered := by
    intro front hfront
    rw [List.prefix_nil.mp hfront]
    exact le_refl _
  balanced := by simp

theorem Covered.append {steps later : List ι} (hsteps : Covered units work steps)
    (hlater : Covered units work later) : Covered units work (steps ++ later) := by
  -- A front ends in the first part, or has all of it before a front of the second part.
  intro front hfront
  obtain hinside | ⟨behind, rfl⟩ := List.prefix_or_prefix_of_prefix hfront
    (List.prefix_append steps later)
  · exact hsteps front hinside
  · have hbehind : behind <+: later := (List.prefix_append_right_inj steps).mp hfront
    rw [List.map_append, List.map_append, List.sum_append, List.sum_append]
    exact add_le_add (hsteps steps List.prefix_rfl) (hlater behind hbehind)

theorem PaidFor.append {steps later : List ι} (hsteps : PaidFor units work steps)
    (hlater : PaidFor units work later) : PaidFor units work (steps ++ later) where
  covered := hsteps.covered.append hlater.covered
  balanced := by
    rw [List.map_append, List.map_append, List.sum_append, List.sum_append, hsteps.balanced,
      hlater.balanced]

theorem PaidFor.flatMap {parts : List κ} {stepsOf : κ → List ι}
    (hparts : ∀ part ∈ parts, PaidFor units work (stepsOf part)) :
    PaidFor units work (parts.flatMap stepsOf) := by
  induction parts with
  | nil => exact PaidFor.nil
  | cons part rest ih =>
    rw [List.flatMap_cons]
    apply (hparts part List.mem_cons_self).append
    exact ih fun other hmem => hparts other (List.mem_cons_of_mem part hmem)

theorem Covered.map {f : κ → ι} {steps : List κ} (hsteps : Covered (units ∘ f) (work ∘ f) steps) :
    Covered units work (steps.map f) := by
  intro front hfront
  obtain ⟨inner, hinner, rfl⟩ := List.prefix_map_iff.mp hfront
  rw [List.map_map, List.map_map]
  exact hsteps inner hinner

theorem PaidFor.map {f : κ → ι} {steps : List κ} (hsteps : PaidFor (units ∘ f) (work ∘ f) steps) :
    PaidFor units work (steps.map f) where
  covered := hsteps.covered.map
  balanced := by
    rw [List.map_map, List.map_map]
    exact hsteps.balanced

/-- Steps with the work behind them that they announce and leave to do. -/
theorem Covered.settled {steps rest : List ι} (hsteps : Covered units work steps)
    (hdone : (steps.map work).sum + (rest.map work).sum = (steps.map units).sum)
    (hsilent : (rest.map units).sum = 0) : PaidFor units work (steps ++ rest) where
  covered := by
    intro front hfront
    obtain hinside | ⟨behind, rfl⟩ := List.prefix_or_prefix_of_prefix hfront
      (List.prefix_append steps rest)
    · exact hsteps front hinside
    · have hbehind : behind <+: rest := (List.prefix_append_right_inj steps).mp hfront
      have hless : (behind.map work).sum ≤ (rest.map work).sum :=
        (hbehind.map work).sublist.sum_le_sum fun _ _ => Nat.zero_le _
      rw [List.map_append, List.map_append, List.sum_append, List.sum_append]
      omega
  balanced := by
    rw [List.map_append, List.map_append, List.sum_append, List.sum_append, hdone, hsilent,
      Nat.add_zero]

/-- An announcement with exactly its work behind it. -/
theorem PaidFor.announced {step : ι} {rest : List ι} (hidle : work step = 0)
    (hdone : (rest.map work).sum = units step) (hsilent : (rest.map units).sum = 0) :
    PaidFor units work (step :: rest) := by
  have hstep : Covered units work [step] := by
    intro front hfront
    obtain rfl | ⟨behind, rfl, hbehind⟩ := List.prefix_cons_iff.mp hfront
    · exact le_refl _
    · rw [List.prefix_nil.mp hbehind, List.map_singleton, List.sum_singleton, hidle]
      exact Nat.zero_le _
  apply hstep.settled _ hsilent
  rw [List.map_singleton, List.map_singleton, List.sum_singleton, List.sum_singleton, hidle, hdone,
    Nat.zero_add]

end PaidFor

namespace Effect

theorem amount?_of_work {effect : Effect} (hwork : effect.work = 1) : effect.amount? = none := by
  cases effect with
  | declare units => exact absurd hwork Nat.zero_ne_one
  | message severity text => rfl
  | pass => rfl
  | trace text => rfl

theorem units_of_amount? {effect : Effect} (hsilent : effect.amount? = none) :
    effect.units = 0 := by
  cases effect with
  | declare units => cases hsilent
  | message severity text => rfl
  | pass => rfl
  | trace text => rfl

theorem isRefused_of_amount? {effect : Effect} (hsilent : effect.amount? = none) :
    effect.isRefused = false := by
  cases effect with
  | declare units => cases hsilent
  | message severity text => rfl
  | pass => rfl
  | trace text => rfl

theorem sum_work {effects : List Effect} (hwork : ∀ effect ∈ effects, effect.work = 1) :
    (effects.map work).sum = effects.length := by
  rw [List.map_congr_left hwork, List.map_const', List.sum_replicate, smul_eq_mul, mul_one]

end Effect

/-! ### Calls -/

/-- The call never does more than it has announced, and as much if it returns. What it announces is
never refused. -/
structure Outcome.Announces (outcome : Outcome) : Prop where
  accepted : ∀ effect ∈ outcome.effects, effect.isRefused = false
  covered : Covered Effect.units Effect.work outcome.effects
  balanced : outcome.failure = none →
    (outcome.effects.map Effect.work).sum = (outcome.effects.map Effect.units).sum

namespace Outcome.Announces

theorem nothing : Announces {} where
  accepted := fun _ hmem => absurd hmem List.not_mem_nil
  covered := PaidFor.nil.covered
  balanced := fun _ => PaidFor.nil.balanced

theorem andThen {first second : Outcome} (hfirst : first.Announces) (hsecond : second.Announces) :
    (first.andThen second).Announces := by
  rw [Outcome.andThen]
  cases hfailure : first.failure with
  | some failure => exact hfirst
  | none =>
    refine { accepted := ?_, covered := hfirst.covered.append hsecond.covered, balanced := ?_ }
    · intro effect hmem
      obtain hmem | hmem := List.mem_append.mp hmem
      · exact hfirst.accepted effect hmem
      · exact hsecond.accepted effect hmem
    · intro hreturns
      change ((first.effects ++ second.effects).map Effect.work).sum
        = ((first.effects ++ second.effects).map Effect.units).sum
      rw [List.map_append, List.map_append, List.sum_append, List.sum_append,
        hfirst.balanced hfailure, hsecond.balanced hreturns]

theorem flatMap {κ : Type} {parts : List κ} {effectsOf : κ → List Effect}
    (hparts : ∀ part ∈ parts, Announces { effects := effectsOf part }) :
    Announces { effects := parts.flatMap effectsOf } := by
  induction parts with
  | nil => exact nothing
  | cons part rest ih =>
    have hrest := ih fun other hmem => hparts other (List.mem_cons_of_mem part hmem)
    exact (hparts part List.mem_cons_self).andThen hrest

/-- A block: an announcement, and as much work behind it. -/
theorem block {amount : Int} {effects : List Effect}
    (hsilent : ∀ effect ∈ effects, effect.amount? = none)
    (hdone : ((effects.map Effect.work).sum : Int) = amount) :
    Announces { effects := .declare amount :: effects } := by
  obtain rfl := hdone
  have hnone : (effects.map Effect.units).sum = 0 := by
    apply List.sum_eq_zero
    intro units hmem
    obtain ⟨effect, heffect, rfl⟩ := List.mem_map.mp hmem
    exact Effect.units_of_amount? (hsilent effect heffect)
  have hpaid : PaidFor Effect.units Effect.work
      (.declare (effects.map Effect.work).sum :: effects) :=
    PaidFor.announced rfl (Int.toNat_natCast _).symm hnone
  refine { accepted := ?_, covered := hpaid.covered, balanced := fun _ => hpaid.balanced }
  intro effect hmem
  obtain rfl | hmem := List.mem_cons.mp hmem
  · exact decide_eq_false (Int.not_lt.mpr (Int.natCast_nonneg (effects.map Effect.work).sum))
  · exact Effect.isRefused_of_amount? (hsilent effect hmem)

theorem block_of_work {amount : Int} {effects : List Effect}
    (hwork : ∀ effect ∈ effects, effect.work = 1) (hcount : (effects.length : Int) = amount) :
    Announces { effects := .declare amount :: effects } := by
  apply block
  · exact fun effect hmem => Effect.amount?_of_work (hwork effect hmem)
  · rw [Effect.sum_work hwork, hcount]

end Outcome.Announces

/-- The call leaves nothing to do that it announced, the message of its failure counted in. -/
def Outcome.Settles (outcome : Outcome) : Prop :=
  (outcome.effects.map Effect.work).sum + outcome.failure.toList.length
    = (outcome.effects.map Effect.units).sum

namespace Outcome.Settles

variable {first second : Outcome}

theorem nothing : Settles {} := rfl

theorem balanced (hsettles : first.Settles) (hreturns : first.failure = none) :
    (first.effects.map Effect.work).sum = (first.effects.map Effect.units).sum := by
  rw [Settles, hreturns] at hsettles
  exact hsettles

theorem andThen (hfirst : first.Settles) (hsecond : second.Settles) :
    (first.andThen second).Settles := by
  rw [Outcome.andThen]
  cases hfailure : first.failure with
  | some failure => exact hfirst
  | none =>
    change ((first.effects ++ second.effects).map Effect.work).sum + second.failure.toList.length
      = ((first.effects ++ second.effects).map Effect.units).sum
    rw [List.map_append, List.map_append, List.sum_append, List.sum_append,
      hfirst.balanced hfailure, Nat.add_assoc, hsecond]

end Outcome.Settles

theorem Outcome.Announces.settles {outcome : Outcome} (hannounces : outcome.Announces)
    (hreturns : outcome.failure = none) : outcome.Settles := by
  rw [Outcome.Settles, hannounces.balanced hreturns, hreturns]
  rfl

theorem Outcome.Told.andThen {first second : Outcome} (hfirst : first.Told)
    (hsecond : second.Told) : (first.andThen second).Told := by
  rw [Outcome.andThen]
  split
  · exact hfirst
  · exact hsecond

/-! ### The built-in rules -/

theorem DirectoryStructure.check_announces (settings : Settings) (listing : List String) :
    (check settings listing).Announces := by
  have hwork : ∀ effect ∈ settings.requiredFiles.map (checkFile (listing.map Text.lower)),
      effect.work = 1 := by
    intro effect hmem
    obtain ⟨name, -, rfl⟩ := List.mem_map.mp hmem
    rw [checkFile]
    split <;> rfl
  exact Outcome.Announces.block_of_work hwork (by rw [List.length_map])

theorem PhpTags.check_announces (file : SourceFile) : (check file).Announces := by
  refine Outcome.Announces.block_of_work (fun effect hmem => ?_) rfl
  obtain rfl | hmem := List.mem_cons.mp hmem
  · split <;> rfl
  · rw [List.mem_singleton.mp hmem]
    split <;> rfl

namespace ForbiddenCalls

/-- The call of a name without a severity fails when its unit is announced and not yet done. -/
theorem reportCall_announces (calls : List (String × Severity)) (location : String)
    (written : List Char) : (reportCall calls location written).Announces := by
  rw [reportCall]
  split
  · refine Outcome.Announces.block_of_work (fun effect hmem => ?_) rfl
    rw [List.mem_singleton.mp hmem]
    rfl
  · refine { accepted := ?_, covered := ?_, balanced := nofun }
    · intro effect hmem
      rw [List.mem_singleton.mp hmem]
      rfl
    · intro front hfront
      obtain rfl | ⟨behind, rfl, hbehind⟩ := List.prefix_cons_iff.mp hfront
      · exact le_refl _
      · rw [List.prefix_nil.mp hbehind]
        exact Nat.zero_le _

theorem check_announces (calls : List (String × Severity)) (location line : String) :
    (check calls location line).Announces := by
  rw [check]
  induction callsOfLine calls line.toList with
  | nil => exact Outcome.Announces.nothing
  | cons written rest ih => exact (reportCall_announces calls location written).andThen ih

theorem reportCall_settles (calls : List (String × Severity)) (location : String)
    (written : List Char) : (reportCall calls location written).Settles := by
  rw [reportCall]
  split <;> rfl

/-- A call that fails has announced the message of its failure. -/
theorem check_settles (calls : List (String × Severity)) (location line : String) :
    (check calls location line).Settles := by
  rw [check]
  induction callsOfLine calls line.toList with
  | nil => exact Outcome.Settles.nothing
  | cons written rest ih => exact (reportCall_settles calls location written).andThen ih

theorem reportCall_told (calls : List (String × Severity)) (location : String)
    (written : List Char) : (reportCall calls location written).Told := by
  rw [reportCall]
  split
  · exact nofun
  · intro raised hraised
    obtain rfl := Option.some.inj hraised
    rfl

theorem check_told (calls : List (String × Severity)) (location line : String) :
    (check calls location line).Told := by
  rw [check]
  induction callsOfLine calls line.toList with
  | nil => exact nofun
  | cons written rest ih => exact (reportCall_told calls location written).andThen ih

end ForbiddenCalls

namespace EventNames

theorem reportFault_announces (extraction : Event.Extraction) :
    Outcome.Announces { effects := reportFault extraction } := by
  rw [reportFault]
  split
  · exact Outcome.Announces.nothing
  · refine Outcome.Announces.block_of_work (fun effect hmem => ?_) rfl
    rw [List.mem_singleton.mp hmem]
    rfl

theorem work_checkEvent (settings : Settings) (vendor : String) (events : List Event.Declaration)
    {effect : Effect} (hmem : effect ∈ events.flatMap fun event =>
      [checkReserved settings event, checkVendor vendor event]) : effect.work = 1 := by
  obtain ⟨event, -, hpair⟩ := List.mem_flatMap.mp hmem
  obtain rfl | hvendor := List.mem_cons.mp hpair
  · rw [checkReserved]
    split
    · rfl
    · split <;> rfl
  · rw [List.mem_singleton.mp hvendor, checkVendor]
    split <;> rfl

/-- First a block for each file that could not be searched, then one for all events, two units for
each of them. -/
theorem checkExtractions_announces (settings : Settings) (vendor : String)
    (extractions : List Event.Extraction) :
    Outcome.Announces { effects := checkExtractions settings vendor extractions } := by
  have hfaults : Outcome.Announces { effects := extractions.flatMap reportFault } :=
    Outcome.Announces.flatMap fun extraction _ => reportFault_announces extraction
  have hevents (trace : String) : Outcome.Announces
      { effects := .declare (2 * (Event.allEvents extractions).length) :: .trace trace ::
          (Event.allEvents extractions).flatMap fun event =>
            [checkReserved settings event, checkVendor vendor event] } := by
    have hwork (effect : Effect) := @work_checkEvent settings vendor (Event.allEvents extractions)
      effect
    apply Outcome.Announces.block
    · intro effect hmem
      obtain rfl | hmem := List.mem_cons.mp hmem
      · rfl
      · exact Effect.amount?_of_work (hwork effect hmem)
    · rw [List.map_cons, List.sum_cons, Effect.sum_work hwork, List.length_flatMap]
      simp [Effect.work, mul_comm]
  rw [checkExtractions, List.append_assoc]
  exact hfaults.andThen (hevents _)

theorem check_announces (context : RuleContext) (listing : List String) :
    (check context listing).Announces := by
  rw [check]
  cases Event.crawl context.tree context.settings.partialEvents context.baseDirectory
      (listing.filter (isSource context.settings)) with
  | ok extractions => exact checkExtractions_announces _ _ _
  | error fault => exact { Outcome.Announces.nothing with balanced := nofun }

theorem check_told (context : RuleContext) (listing : List String) :
    (check context listing).Told := by
  rw [check]
  split
  · exact nofun
  · intro raised hraised
    obtain rfl := Option.some.inj hraised
    rfl

end EventNames

/-- What a call of a built-in rule can be: a check of the subject that the rule asks for, and nothing
for any other subject. -/
inductive RulePackage.BuiltInAnswer (context : RuleContext) : Subject → Outcome → Prop where
  | unasked {subject : Subject} : BuiltInAnswer context subject {}
  | requiredFiles (listing : List String) : BuiltInAnswer context (.directory listing)
      (DirectoryStructure.check context.settings listing)
  | eventNames (listing : List String) : BuiltInAnswer context (.directory listing)
      (EventNames.check context listing)
  | forbiddenCalls (source : SourceLine) : BuiltInAnswer context (.line source)
      (ForbiddenCalls.check (ForbiddenCalls.lowerCalls context.settings) source.location source.text)
  | phpTags (source : SourceFile) : BuiltInAnswer context (.file source) (PhpTags.check source)

theorem RulePackage.builtInAnswer {σ : Type} {context : RuleContext} {entry : NamedRule σ}
    (hmem : entry ∈ builtInRules context) (subject : Subject) (state : σ) :
    BuiltInAnswer context subject (entry.rule.check subject state).1 := by
  simp only [builtInRules, builtInEntries, List.map_cons, List.map_nil, List.mem_cons,
    List.not_mem_nil, or_false] at hmem
  obtain rfl | rfl | rfl | rfl := hmem
  · cases subject with
    | directory listing => exact .requiredFiles listing
    | file source => exact .unasked
    | line source => exact .unasked
  · cases subject with
    | directory listing => exact .eventNames listing
    | file source => exact .unasked
    | line source => exact .unasked
  · cases subject with
    | directory listing => exact .unasked
    | file source => exact .unasked
    | line source => exact .forbiddenCalls source
  · cases subject with
    | directory listing => exact .unasked
    | file source => exact .phpTags source
    | line source => exact .unasked

/-- Each call of a built-in rule announces its work before it does it. -/
theorem RulePackage.BuiltInAnswer.announces {context : RuleContext} {subject : Subject}
    {outcome : Outcome} (hanswer : BuiltInAnswer context subject outcome) : outcome.Announces := by
  cases hanswer with
  | unasked => exact Outcome.Announces.nothing
  | requiredFiles listing => exact DirectoryStructure.check_announces context.settings listing
  | eventNames listing => exact EventNames.check_announces context listing
  | forbiddenCalls source =>
    exact ForbiddenCalls.check_announces (ForbiddenCalls.lowerCalls context.settings)
      source.location source.text
  | phpTags source => exact PhpTags.check_announces source

theorem RulePackage.BuiltInAnswer.told {context : RuleContext} {subject : Subject}
    {outcome : Outcome} (hanswer : BuiltInAnswer context subject outcome) : outcome.Told := by
  cases hanswer with
  | unasked => exact nofun
  | requiredFiles listing => exact nofun
  | eventNames listing => exact EventNames.check_told context listing
  | forbiddenCalls source => exact ForbiddenCalls.check_told _ source.location source.text
  | phpTags source => exact nofun

end ExtensionAudit
