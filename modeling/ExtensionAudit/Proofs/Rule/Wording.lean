import Mathlib
import ExtensionAudit.Proofs.Audit.Schedule
import ExtensionAudit.Proofs.Event.Search
import ExtensionAudit.Proofs.Rule.EventNames
import ExtensionAudit.Registry.BuiltIn

/-!
# What only one rule says

Into its texts a rule puts names of files, events and functions, and these can be anything, even a
text that another rule might have written. Still no other rule says that a required file is missing.
Its texts begin in another way, or they end in another way, or the last word tells them apart: a
heredoc that never ends is reported by its label, which can be the last word of any text but holds
no blank.
-/

namespace ExtensionAudit

/-! ### Texts that differ -/

/-- The last two characters of a text, from the end. -/
def lastTwo (text : String) : List Char := text.toList.reverse.take 2

theorem lastTwo_append (front : String) {back : String} (hlong : 2 ≤ back.toList.length) :
    lastTwo (front ++ back) = lastTwo back := by
  rw [lastTwo, lastTwo, String.toList_append, List.reverse_append,
    List.take_append_of_le_length (by rwa [List.length_reverse])]

/-- Two texts that end in a word are the same only in front of their last words too. -/
theorem eq_of_append_word {front other word last : String}
    (hword : ' ' ∉ word.toList) (hlast : ' ' ∉ last.toList)
    (hsame : front ++ " " ++ word = other ++ " " ++ last) : front = other := by
  have hfront {text : String} {back : String} (hback : ' ' ∉ back.toList) :
      (text ++ " " ++ back).toList.reverse.dropWhile (· != ' ') = ' ' :: text.toList.reverse := by
    have hall : ∀ c ∈ back.toList.reverse, (c != ' ') = true := by
      intro c hmem
      rw [bne_iff_ne]
      rintro rfl
      exact hback (List.mem_reverse.mp hmem)
    rw [String.toList_append, String.toList_append, List.reverse_append, List.reverse_append,
      List.dropWhile_append_of_pos hall]
    rfl
  have hdropped := @hfront front word hword
  rw [hsame, hfront hlast] at hdropped
  exact (String.toList_inj.mp (List.reverse_injective (List.cons.inj hdropped).2)).symm

namespace DirectoryStructure

/-- The report of a required file that is not there. -/
def missingText (name : String) : String :=
  "Missing required file " ++ name ++ " in the extension root"

theorem toList_missingText (name : String) :
    (missingText name).toList
      = "Missing required file ".toList ++ name.toList ++ " in the extension root".toList := by
  change ("Missing required file " ++ name ++ " in the extension root").toList = _
  rw [String.toList_append, String.toList_append]

theorem missingText_injective : Function.Injective missingText := by
  intro name other hsame
  have hlists := congrArg String.toList hsame
  rw [toList_missingText, toList_missingText] at hlists
  exact String.toList_inj.mp (List.append_cancel_left (List.append_cancel_right hlists))

variable {text : String}

theorem ne_missingText_of_head (hhead : text.toList.head? ≠ some 'M') (name : String) :
    text ≠ missingText name := by
  intro hsame
  rw [hsame, toList_missingText] at hhead
  exact hhead rfl

theorem append_ne_missingText {back : String} (hlong : 2 ≤ back.toList.length)
    (hlast : lastTwo back ≠ ['t', 'o']) (front name : String) :
    front ++ back ≠ missingText name := by
  intro hsame
  have hends : lastTwo (missingText name) = ['t', 'o'] := lastTwo_append _ (by decide)
  rw [← hsame, lastTwo_append front hlong] at hends
  exact hlast hends

/-- A text that ends in a word does not read so if what is in front of the word ends otherwise. -/
theorem ne_missingText_of_word {front word : String} (hword : ' ' ∉ word.toList)
    (hlast : lastTwo front ≠ ['n', 'o']) (name : String) :
    front ++ " " ++ word ≠ missingText name := by
  have hsplit : missingText name
      = ("Missing required file " ++ name ++ " in the extension") ++ " " ++ "root" := by
    rw [← String.toList_inj, toList_missingText]
    simp only [String.toList_append]
    simp
  rw [hsplit]
  intro hsame
  rw [eq_of_append_word hword (by decide) hsame] at hlast
  exact hlast (lastTwo_append _ (by decide))

/-- No message of the list says that a required file is missing. -/
def SayOtherwise (messages : List Message) : Prop :=
  ∀ message ∈ messages, ∀ name, message.text ≠ missingText name

theorem sayOtherwise_nil : SayOtherwise [] := fun _ hmem => absurd hmem List.not_mem_nil

theorem sayOtherwise_single {severity : Severity} (htext : ∀ name, text ≠ missingText name) :
    SayOtherwise (Effect.message severity text).messages := by
  intro message hmem
  rw [List.mem_singleton.mp hmem]
  exact htext

theorem sayOtherwise_of_head {severity : Severity} (hhead : text.toList.head? ≠ some 'M') :
    SayOtherwise (Effect.message severity text).messages :=
  sayOtherwise_single (ne_missingText_of_head hhead)

theorem sayOtherwise_flatMap {κ : Type} {parts : List κ} {messagesOf : κ → List Message}
    (hparts : ∀ part ∈ parts, SayOtherwise (messagesOf part)) :
    SayOtherwise (parts.flatMap messagesOf) := by
  intro message hmem
  obtain ⟨part, hpart, hmem⟩ := List.mem_flatMap.mp hmem
  exact hparts part hpart message hmem

theorem sayOtherwise_append {messages others : List Message} (hmessages : SayOtherwise messages)
    (hothers : SayOtherwise others) : SayOtherwise (messages ++ others) := by
  intro message hmem
  obtain hmem | hmem := List.mem_append.mp hmem
  · exact hmessages message hmem
  · exact hothers message hmem

end DirectoryStructure

/-! ### Faults of a search -/

namespace Event

open ExtensionAudit.Php

/-- A cause as a search can come to it: the label of a heredoc is one, and a file is unreadable for
a reason of the file system. -/
def Cause.Possible : Cause → Prop
  | .lexical (.unterminatedHeredoc label) => IsLabel label
  | .unreadable reason => ∃ error : FileError, reason = error.reason
  | _ => True

theorem declaredName_possible {call : Call} {cause : Cause}
    (herror : declaredName call = .error cause) : cause.Possible := by
  rw [declaredName] at herror
  split at herror
  · obtain rfl := Except.error.inj herror
    trivial
  · split at herror
    · obtain rfl := Except.error.inj herror
      trivial
    · split at herror
      · obtain rfl := Except.error.inj herror
        trivial
      · cases herror

theorem Search.meet_possible {later : Search} (hlater : ∀ place ∈ later.stop, place.2.Possible)
    (site : Site) (token : Token) :
    ∀ place ∈ (later.meet site token).stop, place.2.Possible := by
  cases token with
  | call call =>
    cases hname : declaredName call with
    | ok name =>
      rw [meet_named hname]
      exact hlater
    | error cause =>
      by_cases hofficial : call.official = true
      · rw [meet_refused hname hofficial]
        intro place hplace
        obtain rfl := Option.some.inj hplace
        exact declaredName_possible hname
      · rw [meet_passed hname hofficial]
        exact hlater
  | _ => exact hlater

theorem Search.of_possible (inCode : Bool) (before text : List Char) :
    ∀ place ∈ (of inCode ⟨before, text⟩).stop, place.2.Possible := by
  -- A search that goes on ends as the rest does, unless a call is refused on the way.
  induction inCode, text using reading_induction generalizing before with
  | finished inCode =>
    rw [of_nil]
    intro place hplace
    cases hplace
  | html text piece rest hne hpiece ih =>
    rw [of_html hpiece]
    exact ih _
  | code text token rest htoken ih =>
    rw [of_code htoken]
    exact meet_possible (ih _) _ token
  | broken text skipped fault hbroken =>
    rw [of_broken hbroken]
    intro place hplace
    obtain rfl := Option.some.inj hplace
    cases hbroken with
    | heredoc hlabel _ _ => exact hlabel
    | _ => trivial

theorem extractFile_possible {tree : FileTree} {policy : PartialPolicy} {base : Path}
    {relative : String} {extraction : Extraction}
    (hextract : extractFile tree policy base relative = .ok extraction) :
    ∀ fault ∈ extraction.fault, fault.cause.Possible := by
  intro fault hfault
  rw [extractFile] at hextract
  split at hextract
  · obtain rfl := Except.ok.inj hextract
    rw [Search.extract_eq] at hfault
    obtain ⟨place, hplace, rfl⟩ := Option.map_eq_some_iff.mp hfault
    exact Search.of_possible _ _ _ place hplace
  · next error _ _ =>
    obtain rfl := Except.ok.inj hextract
    obtain rfl := Option.some.inj hfault
    exact ⟨error, rfl⟩
  · cases hextract

theorem blank_not_mem_label {label : List Char} (hlabel : IsLabel label) : ' ' ∉ label := by
  intro hblank
  have hrest := Text.mem_stretch.mp hlabel.all ' ' hblank
  exact absurd hrest (by decide)

/-- However a file is called, the report of its fault does not say that a file is missing. -/
theorem Fault.text_ne_missingText {fault : Fault} (hpossible : fault.cause.Possible)
    (name : String) : fault.text ≠ DirectoryStructure.missingText name := by
  obtain ⟨cause, path, line⟩ := fault
  obtain ⟨front, hfront⟩ : ∃ front, (⟨cause, path, line⟩ : Fault).text = front ++ cause.message :=
    ⟨_, rfl⟩
  -- The message comes last, and no message ends as the report of a missing file does. That of a
  -- heredoc ends in a label, which can be any word, so the words in front of it have to do.
  rw [hfront]
  have hends (hlong : 2 ≤ cause.message.toList.length)
      (hlast : lastTwo cause.message ≠ ['t', 'o']) :
      front ++ cause.message ≠ DirectoryStructure.missingText name :=
    DirectoryStructure.append_ne_missingText hlong hlast front name
  cases cause with
  | lexical fault =>
    cases fault with
    | unterminatedComment => exact hends (by decide) (by decide)
    | unterminatedLiteral => exact hends (by decide) (by decide)
    | unterminatedHeredoc label =>
      have hword : ' ' ∉ (String.ofList label).toList := by
        rw [String.toList_ofList]
        exact blank_not_mem_label hpossible
      have hsplit : front ++ Cause.message (.lexical (.unterminatedHeredoc label))
          = (front ++ "Unterminated heredoc") ++ " " ++ String.ofList label := by
        change front ++ ("Unterminated heredoc " ++ String.ofList label) = _
        rw [← String.toList_inj]
        simp only [String.toList_append]
        simp
      rw [hsplit]
      refine DirectoryStructure.ne_missingText_of_word hword ?_ name
      rw [lastTwo_append front (by decide)]
      decide
  | nameNotLiteral => exact hends (by decide) (by decide)
  | nameInterpolated => exact hends (by decide) (by decide)
  | nameBlank => exact hends (by decide) (by decide)
  | unreadable reason =>
    obtain ⟨error, rfl⟩ := hpossible
    cases error <;> exact hends (by decide) (by decide)

end Event

/-! ### The other rules -/

open DirectoryStructure

theorem PhpTags.sayOtherwise (file : SourceFile) :
    SayOtherwise ((check file).effects.flatMap Effect.messages) := by
  refine sayOtherwise_flatMap fun effect hmem => ?_
  simp only [check, List.mem_cons, List.not_mem_nil, or_false] at hmem
  obtain rfl | rfl | rfl := hmem
  · exact sayOtherwise_nil
  · split
    · exact sayOtherwise_nil
    · exact sayOtherwise_single (append_ne_missingText (by decide) (by decide) _)
  · split
    · exact sayOtherwise_single (append_ne_missingText (by decide) (by decide) _)
    · exact sayOtherwise_nil

namespace ForbiddenCalls

theorem reportCall_sayOtherwise (calls : List (String × Severity)) (location : String)
    (written : List Char) :
    SayOtherwise ((reportCall calls location written).effects.flatMap Effect.messages) := by
  rw [reportCall]
  split
  · refine sayOtherwise_of_head ?_
    simp [String.toList_append]
  · exact sayOtherwise_nil

theorem sayOtherwise (calls : List (String × Severity)) (location line : String) :
    SayOtherwise ((check calls location line).effects.flatMap Effect.messages) := by
  rw [check]
  induction callsOfLine calls line.toList with
  | nil => exact sayOtherwise_nil
  | cons written rest ih =>
    have hfirst := reportCall_sayOtherwise calls location written
    rw [List.foldr_cons, Outcome.andThen]
    split
    · exact hfirst
    · rw [List.flatMap_append]
      exact sayOtherwise_append hfirst ih

end ForbiddenCalls

namespace EventNames

variable (context : RuleContext)

theorem faultMessages_sayOtherwise (path : String) :
    SayOtherwise (faultMessages context path) := by
  intro message hmem
  obtain ⟨fault, hfault, rfl⟩ := Option.map_eq_some_iff.mp (Option.mem_toList.mp hmem)
  have hpossible : fault.cause.Possible := by
    cases hextract : Event.extractFile context.tree context.settings.partialEvents
        context.baseDirectory path with
    | ok extraction =>
      rw [searchOf_eq hextract] at hfault
      exact Event.extractFile_possible hextract fault hfault
    | error wrong =>
      rw [searchOf, hextract] at hfault
      cases hfault
  exact Event.Fault.text_ne_missingText hpossible

theorem checkReserved_sayOtherwise (settings : Settings) (event : Event.Declaration) :
    SayOtherwise (checkReserved settings event).messages := by
  rw [checkReserved]
  split
  · refine sayOtherwise_of_head ?_
    simp [String.toList_append]
  · split
    · refine sayOtherwise_of_head ?_
      simp [String.toList_append]
    · exact sayOtherwise_nil

theorem checkVendor_sayOtherwise (vendor : String) (event : Event.Declaration) :
    SayOtherwise (checkVendor vendor event).messages := by
  rw [checkVendor]
  split
  · exact sayOtherwise_nil
  · refine sayOtherwise_of_head ?_
    simp [String.toList_append]

theorem eventMessages_sayOtherwise (event : Event.Declaration) :
    SayOtherwise (eventMessages context event) := by
  refine sayOtherwise_flatMap fun effect hmem => ?_
  obtain rfl | hvendor := List.mem_cons.mp hmem
  · exact checkReserved_sayOtherwise context.settings event
  · rw [List.mem_singleton.mp hvendor]
    exact checkVendor_sayOtherwise context.eventPrefix event

theorem sayOtherwise (listing : List String) :
    SayOtherwise ((check context listing).effects.flatMap Effect.messages) := by
  by_cases hsearch : Searchable context listing
  · rw [hsearch.messages_eq]
    exact sayOtherwise_append
      (sayOtherwise_flatMap fun path _ => faultMessages_sayOtherwise context path)
      (sayOtherwise_flatMap fun event _ => eventMessages_sayOtherwise context event)
  · -- A call that fails has reported nothing before.
    rw [searchable_iff, check] at hsearch
    rw [check]
    split at hsearch
    · exact absurd rfl hsearch
    · exact sayOtherwise_nil

end EventNames

/-- What a call says is what its rule says, unless it fails. -/
theorem MadeCall.sayOtherwise {call : MadeCall}
    (heffects : SayOtherwise (call.outcome.effects.flatMap Effect.messages)) :
    SayOtherwise call.messages := by
  refine sayOtherwise_append (fun message hmem => ?_) fun message hmem => ?_
  · obtain ⟨effect, heffect, hmem⟩ := List.mem_flatMap.mp hmem
    have hdone := (List.takeWhile_sublist _).subset heffect
    exact heffects message (List.mem_flatMap.mpr ⟨effect, hdone, hmem⟩)
  · split at hmem
    · rw [List.mem_singleton.mp hmem]
      refine ne_missingText_of_head ?_
      simp [failureMessage, String.toList_append]
    · cases hmem

end ExtensionAudit
