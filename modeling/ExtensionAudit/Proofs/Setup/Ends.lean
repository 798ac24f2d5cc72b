import Mathlib
import ExtensionAudit.Setup

/-!
# How a set-up ends

A set-up writes a log and never reads it. So how it ends, in a value or in a fault, is settled
without the log, step by step: each step has a result of its own, and a sequence of steps ends as
the sequence of their results does. The lines that it writes go along: those of a step stand behind
those of the steps before it, and a fault is followed by no more of them. A set-up that ends in a
fault should end in one of the configuration, which users are told of; any other end is unexpected.
-/

namespace ExtensionAudit.Setup

variable {α β ε : Type}

/-- The set-up ends in the result, whatever the log holds before it. -/
def Ends (setup : Setup α) (result : Except SetupFault α) : Prop :=
  ∀ log, ((ExceptT.run setup).run log).1 = result

namespace Ends

variable {setup : Setup α} {next : α → Setup β} {result other : Except SetupFault α}

theorem execute (hends : setup.Ends result) : setup.execute.1 = result := hends #[]

theorem pure (value : α) : Ends (Pure.pure value) (.ok value) := fun _ => rfl

theorem throw (fault : SetupFault) : Ends (throw fault : Setup α) (.error fault) := fun _ => rfl

theorem log (level : LogLevel) (text : String) : (Setup.log level text).Ends (.ok ()) :=
  fun _ => rfl

theorem trace (debug : Bool) (text : String) : (Setup.trace debug text).Ends (.ok ()) := by
  cases debug with
  | false => exact pure ()
  | true => exact log .debug text

theorem modify (change : Log → Log) : Ends (modify change : Setup Unit) (.ok ()) := fun _ => rfl

theorem lift (wrap : ε → SetupFault) (step : Except ε α) :
    (Setup.lift wrap step).Ends (step.mapError wrap) := by
  cases step with
  | ok value => exact pure value
  | error fault => exact throw (wrap fault)

theorem need (step : Except SetupFault α) : (Setup.need step).Ends step := by
  cases step with
  | ok value => exact pure value
  | error fault => exact throw fault

/-- One step after another ends as their results do. -/
theorem bind {later : α → Except SetupFault β} (hfirst : setup.Ends result)
    (hnext : ∀ value, result = .ok value → (next value).Ends (later value)) :
    Ends (setup >>= next) (result.bind later) := by
  intro log
  have hresult := hfirst log
  cases hrun : (ExceptT.run setup).run log with
  | mk reached left =>
    rw [hrun] at hresult
    obtain rfl : reached = result := hresult
    cases reached with
    | ok value =>
      have hbind : (ExceptT.run (setup >>= next)).run log
          = (ExceptT.run (next value)).run left := by
        rw [ExceptT.run_bind, StateT.run_bind, hrun]
        rfl
      rw [hbind]
      exact hnext value rfl left
    | error fault =>
      have hbind : (ExceptT.run (setup >>= next)).run log = (.error fault, left) := by
        rw [ExceptT.run_bind, StateT.run_bind, hrun]
        rfl
      rw [hbind]
      rfl

/-- A step that only writes the log leaves the result to the next one. -/
theorem after {first : Setup Unit} {second : Setup β} {later : Except SetupFault β}
    (hfirst : first.Ends (.ok ())) (hsecond : second.Ends later) :
    Ends (first >>= fun _ => second) later :=
  bind hfirst fun _ _ => hsecond

end Ends

/-! ### What a set-up writes -/

/-- The set-up adds the lines to the log and ends in the result, whatever the log held before. -/
def Writes (setup : Setup α) (lines : List LogLine) (result : Except SetupFault α) : Prop :=
  ∀ log : Log, (ExceptT.run setup).run log = (result, log ++ lines.toArray)

/-- What a trace writes. -/
def traceLines (debug : Bool) (text : String) : List LogLine :=
  if debug then [⟨.debug, text⟩] else []

/-- Adds lines to the log. -/
def write (lines : List LogLine) : Setup Unit := modify (· ++ lines.toArray)

namespace Writes

variable {setup : Setup α} {next : α → Setup β} {lines later : List LogLine}

theorem execute {result : Except SetupFault α} (hwrites : setup.Writes lines result) :
    setup.execute = (result, lines.toArray) := by
  rw [Setup.execute, hwrites #[], Array.empty_append]

theorem ends {result : Except SetupFault α} (hwrites : setup.Writes lines result) :
    setup.Ends result := by
  intro log
  rw [hwrites log]

theorem pure (value : α) : Writes (Pure.pure value) [] (.ok value) := fun _ => rfl

theorem throw (fault : SetupFault) : Writes (throw fault : Setup α) [] (.error fault) :=
  fun _ => rfl

theorem write (lines : List LogLine) : (Setup.write lines).Writes lines (.ok ()) := fun _ => rfl

theorem log (level : LogLevel) (text : String) :
    (Setup.log level text).Writes [⟨level, text⟩] (.ok ()) := by
  intro log
  have hpush : log ++ [⟨level, text⟩].toArray = log.push ⟨level, text⟩ := by simp
  rw [hpush]
  rfl

theorem trace (debug : Bool) (text : String) :
    (Setup.trace debug text).Writes (traceLines debug text) (.ok ()) := by
  cases debug with
  | false => exact pure ()
  | true => exact log .debug text

theorem lift (wrap : ε → SetupFault) (step : Except ε α) :
    (Setup.lift wrap step).Writes [] (step.mapError wrap) := by
  cases step with
  | ok value => exact pure value
  | error fault => exact throw (wrap fault)

/-- A step that comes to a value is followed by the next one, and so are its lines. -/
theorem bind {value : α} {result : Except SetupFault β} (hfirst : setup.Writes lines (.ok value))
    (hnext : (next value).Writes later result) :
    Writes (setup >>= next) (lines ++ later) result := by
  intro log
  have hbind : (ExceptT.run (setup >>= next)).run log
      = (ExceptT.run (next value)).run (log ++ lines.toArray) := by
    rw [ExceptT.run_bind, StateT.run_bind, hfirst log]
    rfl
  have happend : log ++ lines.toArray ++ later.toArray = log ++ (lines ++ later).toArray := by simp
  rw [hbind, hnext, happend]

/-- A step that ends in a fault is the last one. -/
theorem stop {fault : SetupFault} (hfirst : setup.Writes lines (.error fault)) :
    Writes (setup >>= next) lines (.error fault) := by
  intro log
  rw [ExceptT.run_bind, StateT.run_bind, hfirst log]
  rfl

end Writes

end ExtensionAudit.Setup

namespace ExtensionAudit

/-! ### Unexpected ends -/

/-- The result is a fault that is none of the configuration. -/
def Unexpected {α : Type} (result : Except SetupFault α) : Prop :=
  ∃ fault, result = .error fault ∧ fault.isConfiguration = false

section Unexpected

variable {α β : Type} {result : Except SetupFault α}

@[simp] theorem unexpected_error_iff (fault : SetupFault) :
    Unexpected (.error fault : Except SetupFault α) ↔ fault.isConfiguration = false := by
  constructor
  · rintro ⟨other, hother, hunexpected⟩
    rwa [Except.error.inj hother]
  · exact fun hunexpected => ⟨fault, rfl, hunexpected⟩

end Unexpected

end ExtensionAudit
