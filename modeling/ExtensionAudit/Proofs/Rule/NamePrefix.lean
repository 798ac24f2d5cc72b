import Mathlib
import ExtensionAudit.Proofs.Rule.EventNames
import ExtensionAudit.Proofs.Text.FinalSigma

/-!
# Names that begin with a prefix

An event name and a prefix are put in lower case each by itself before they are compared. A name
that begins with the prefix as it is written then begins with it ignoring case, unless the prefix
breaks off after a sigma. What the rule says of a name follows: it warns of one that does not begin
with the package's own prefix, and objects to one that begins with a reserved one.
-/

namespace ExtensionAudit.EventNames

/-! ### Prefixes that a name was made of -/

theorem startsIgnoringCase_append_iff {start rest : String} :
    StartsIgnoringCase (start ++ rest) start
      ↔ ¬ Text.BreaksAfterSigma start.toList rest.toList :=
  Text.lower_prefix_append_iff

theorem startsIgnoringCase_lower_iff {name start : String} :
    StartsIgnoringCase name (Text.lower start) ↔ StartsIgnoringCase name start := by
  rw [StartsIgnoringCase, Text.lower_lower, StartsIgnoringCase]

theorem startsIgnoringCase_lower_append (start rest : String) :
    StartsIgnoringCase (Text.lower start ++ rest) start := by
  rw [StartsIgnoringCase, Text.toList_lower_lower_append]
  exact List.prefix_append _ _

/-! ### What is said of a name -/

theorem checkReserved_says_iff {severity : Severity} {settings : Settings}
    {event : Event.Declaration} :
    (∃ text, checkReserved settings event = .message severity text)
      ↔ severity = .error ∧ StartsIgnoringCase event.name settings.reservedVendor
        ∨ severity = .fatal ∧ ¬ StartsIgnoringCase event.name settings.reservedVendor
          ∧ StartsIgnoringCase event.name settings.reservedCore := by
  simp only [checkReserved, nameHasPrefix_iff]
  split
  · next hvendor => simp [hvendor, eq_comm]
  · next hvendor =>
    split
    · next hcore => simp [hvendor, hcore, eq_comm]
    · next hcore => simp [hvendor, hcore]

theorem checkVendor_says_iff {severity : Severity} {start : String} {event : Event.Declaration} :
    (∃ text, checkVendor start event = .message severity text)
      ↔ severity = .warning ∧ ¬ StartsIgnoringCase event.name start := by
  simp only [checkVendor, nameHasPrefix_iff]
  split
  · next hstarts => simp [hstarts]
  · next hstarts => simp [hstarts, eq_comm]

/-- The rule reports a message of the severity when it checks the event. -/
def Draws (severity : Severity) (context : RuleContext) (event : Event.Declaration) : Prop :=
  ∃ text, .message severity text ∈ checkEvent context event

theorem draws_iff {severity : Severity} {context : RuleContext} {event : Event.Declaration} :
    Draws severity context event
      ↔ (severity = .error ∧ StartsIgnoringCase event.name context.settings.reservedVendor
        ∨ severity = .fatal ∧ ¬ StartsIgnoringCase event.name context.settings.reservedVendor
          ∧ StartsIgnoringCase event.name context.settings.reservedCore)
        ∨ severity = .warning ∧ ¬ StartsIgnoringCase event.name context.eventPrefix := by
  rw [← checkReserved_says_iff, ← checkVendor_says_iff, ← exists_or]
  refine exists_congr fun text => ?_
  rw [checkEvent, List.mem_cons, List.mem_singleton, eq_comm, @eq_comm _ (Effect.message ..)]

/-- **Prefixes of a name.** A name that begins with a prefix as it is written begins with it
ignoring case, whether the prefix is put in lower case before or not, unless the prefix breaks off
after a sigma. If the name begins with the prefix in lower case there is no exception. So the rule
warns of a name that begins with the package's own prefix just where the prefix breaks off after a
sigma, and objects to one that begins with a reserved prefix everywhere else; to a name that begins
with the reserved core it objects there too if it begins with the reserved vendor ignoring case. -/
theorem nameHasPrefix_append (start rest : String) :
    let apart := Text.BreaksAfterSigma start.toList rest.toList
    (Event.nameHasPrefix (start ++ rest) start = true ↔ ¬ apart)
      ∧ (Event.nameHasPrefix (start ++ rest) (Text.lower start) = true ↔ ¬ apart)
      ∧ Event.nameHasPrefix (Text.lower start ++ rest) start = true
      ∧ Event.nameHasPrefix (Text.lower start ++ rest) (Text.lower start) = true
      ∧ ∀ (context : RuleContext) (event : Event.Declaration), event.name = start ++ rest →
          (context.eventPrefix = start → (Draws .warning context event ↔ apart))
            ∧ (context.settings.reservedVendor = start → (Draws .error context event ↔ ¬ apart))
            ∧ (context.settings.reservedCore = start →
                (Draws .error context event ∨ Draws .fatal context event
                  ↔ ¬ apart ∨ StartsIgnoringCase event.name context.settings.reservedVendor)) := by
  intro apart
  simp only [nameHasPrefix_iff, startsIgnoringCase_lower_iff]
  have hstarts : StartsIgnoringCase (start ++ rest) start ↔ ¬ apart := startsIgnoringCase_append_iff
  have hlower := startsIgnoringCase_lower_append start rest
  refine ⟨hstarts, hstarts, hlower, hlower, fun context event hname => ⟨?_, ?_, ?_⟩⟩
  · intro hown
    rw [draws_iff, hown, hname, hstarts]
    simp
  · intro hvendor
    rw [draws_iff, hvendor, hname, hstarts]
    simp
  · intro hcore
    rw [draws_iff, draws_iff, hcore, hname, hstarts]
    by_cases hvendor : StartsIgnoringCase (start ++ rest) context.settings.reservedVendor
    · simp [hvendor]
    · simp [hvendor]

/-- A package whose own prefix is reserved in both ways. -/
def reservedContext : RuleContext where
  packageName := "acme/demo"
  settings := { reservedVendor := "acme.demo", reservedCore := "acme.demo" }

theorem nameHasPrefix_append_reserved :
    let event : Event.Declaration := ⟨"acme.demo.loaded", "ext.php", "", 2⟩
    event.name = "acme.demo" ++ ".loaded"
      ∧ reservedContext.eventPrefix = "acme.demo"
      ∧ reservedContext.settings.reservedVendor = "acme.demo"
      ∧ reservedContext.settings.reservedCore = "acme.demo"
      ∧ Event.nameHasPrefix event.name "acme.demo" = true
      ∧ ¬ Draws .warning reservedContext event
      ∧ Draws .error reservedContext event := by
  intro event
  have hnone : '\u03A3' ∉ "acme.demo".toList := by decide
  have hplain := Text.not_breaksAfterSigma hnone ".loaded".toList
  have hname : event.name = "acme.demo" ++ ".loaded" := by decide
  have hown : reservedContext.eventPrefix = "acme.demo" := by decide
  obtain ⟨hstarts, -, -, -, hrule⟩ := nameHasPrefix_append "acme.demo" ".loaded"
  obtain ⟨hwarning, herror, -⟩ := hrule reservedContext event hname
  refine ⟨hname, hown, rfl, rfl, ?_, ?_, ?_⟩
  · rw [hname]
    exact hstarts.mpr hplain
  · rw [hwarning hown]
    exact hplain
  · rw [herror rfl]
    exact hplain

/-- A prefix that ends in a sigma does not begin a name in which the word goes on. -/
theorem not_nameHasPrefix_sigma :
    Event.nameHasPrefix ("acme.\u039F\u0394\u039F\u03A3" ++ ".loaded")
        "acme.\u039F\u0394\u039F\u03A3" = false
      ∧ checkVendor "acme.\u039F\u0394\u039F\u03A3"
          ⟨"acme.\u039F\u0394\u039F\u03A3" ++ ".loaded", "ext.php", "", 2⟩
        = .message .warning ("The event name should start with vendor.namespace " ++
          "(acme.\u039F\u0394\u039F\u03A3) but started with " ++
          "acme.\u039F\u0394\u039F\u03A3.loaded in ext.php") := by
  decide +kernel

end ExtensionAudit.EventNames
