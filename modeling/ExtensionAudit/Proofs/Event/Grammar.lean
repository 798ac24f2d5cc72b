import ExtensionAudit.Event.Extraction
import ExtensionAudit.Proofs.Php.Division

/-!
# Extraction by the grammar

Which dispatcher calls declare an event and which are refused, said of a call's first argument alone,
and what is reported of a text that the grammar divides into tokens. The search goes through the
tokens in order and ends at the first refused call of the board's own dispatcher; the main statement
is that it reports exactly this for the one division that the text has.
-/

namespace ExtensionAudit.Event

open ExtensionAudit.Php

/-- A variable is written into the literal: it stands between double quotes and holds the beginning
of a variable that no backslash precedes. -/
def HoldsVariable (l : Literal) : Prop :=
  l.quote = '"' ∧ ∃ front c next back, l.body = front ++ c :: next :: back ∧
    front.getLast? ≠ some '\\' ∧ beginsVariable c next = true

/-- The call names an event: its first argument begins with a literal that holds no variable and
whose value is not blank. -/
def NamesEvent (call : Call) (name : String) : Prop :=
  ∃ gap l, call.argument = some (gap, l) ∧ ¬ HoldsVariable l ∧
    (∃ c ∈ l.value, Text.isBlank c = false) ∧ name = String.ofList l.value

/-- The call's first argument is no name of an event, and why. -/
inductive Refuses : Call → Cause → Prop where
  | notLiteral {call : Call} : call.argument = none → Refuses call .nameNotLiteral
  | interpolated {call : Call} {gap : List Char} {l : Literal} :
      call.argument = some (gap, l) → HoldsVariable l → Refuses call .nameInterpolated
  | blank {call : Call} {gap : List Char} {l : Literal} :
      call.argument = some (gap, l) → ¬ HoldsVariable l → (∀ c ∈ l.value, Text.isBlank c = true) →
      Refuses call .nameBlank

/-- The token is a call of the board's own dispatcher whose first argument is refused. -/
def Offends (token : Token) : Prop :=
  ∃ call cause, token = .call call ∧ call.official = true ∧ Refuses call cause

/-- The line on which a site stands, without the line feeds around it. -/
def IsLineOf (site : Site) (line : List Char) : Prop :=
  ∃ front left right back, site.before.reverse = front ++ left ∧ site.after = right ++ back ∧
    line = left ++ right ∧ '\n' ∉ line ∧
    (front = [] ∨ front.getLast? = some '\n') ∧ (back = [] ∨ back.head? = some '\n')

/-- The events that tokens announce, in order: one for each call that names an event, with the file,
the trimmed line of the call and that line's number, and none for any other token. -/
inductive Announces (path : String) : List (Site × Token) → List Declaration → Prop where
  | nil : Announces path [] []
  | event {site : Site} {call : Call} {name : String} {line : List Char}
      {rest : List (Site × Token)} {events : List Declaration} :
      NamesEvent call name → IsLineOf site line → Announces path rest events →
      Announces path ((site, .call call) :: rest)
        (⟨name, path, String.ofList (Text.trim line), site.before.count '\n' + 1⟩ :: events)
  | other {site : Site} {token : Token} {rest : List (Site × Token)} {events : List Declaration} :
      (∀ call name, token = .call call → ¬ NamesEvent call name) → Announces path rest events →
      Announces path ((site, token) :: rest) events

/-- What is reported of a text with the division: all events if no call is refused and every token
ends; otherwise the first fault, and the events in front of it only if they are to be kept. -/
inductive Reported (policy : PartialPolicy) (path : String) :
    List (Site × Token) → Option (List Char × LexicalFault) → Extraction → Prop where
  | complete {tokens : List (Site × Token)} {events : List Declaration} :
      (∀ place ∈ tokens, ¬ Offends place.2) → Announces path tokens events →
      Reported policy path tokens none ⟨path, events, none⟩
  | refused {done later : List (Site × Token)} {site : Site} {call : Call} {cause : Cause}
      {events : List Declaration} {broken : Option (List Char × LexicalFault)} :
      (∀ place ∈ done, ¬ Offends place.2) → call.official = true → Refuses call cause →
      Announces path done events →
      Reported policy path (done ++ (site, .call call) :: later) broken
        ⟨path, if policy = .keep then events else [],
          some ⟨cause, path, some (site.before.count '\n' + 1)⟩⟩
  | broken {tokens : List (Site × Token)} {before : List Char} {fault : LexicalFault}
      {events : List Declaration} :
      (∀ place ∈ tokens, ¬ Offends place.2) → Announces path tokens events →
      Reported policy path tokens (some (before, fault))
        ⟨path, if policy = .keep then events else [],
          some ⟨.lexical fault, path, some (before.count '\n' + 1)⟩⟩

/-! ### Names of events -/

/-- A variable begins somewhere in the text, and not behind a backslash. -/
theorem holdsVariable_iff {escaped : Bool} {cs : List Char} :
    holdsVariable escaped cs = true ↔
      ∃ front c next back, cs = front ++ c :: next :: back ∧ (front = [] → escaped = false) ∧
        front.getLast? ≠ some '\\' ∧ beginsVariable c next = true := by
  induction cs generalizing escaped with
  | nil => simp [holdsVariable]
  | cons c cs ih =>
    cases cs with
    | nil =>
      simp only [holdsVariable, Bool.false_eq_true, false_iff]
      rintro ⟨front, d, next, back, happend, _⟩
      have := congrArg List.length happend
      simp at this
      omega
    | cons next cs =>
      rw [holdsVariable, Bool.or_eq_true, ih]
      constructor
      · rintro (h | ⟨front, d, next', back, happend, hescaped, hlast, hbegins⟩)
        · rw [Bool.and_eq_true, Bool.not_eq_true'] at h
          exact ⟨[], c, next, cs, rfl, fun _ => h.1, by simp, h.2⟩
        · refine ⟨c :: front, d, next', back, by rw [happend]; rfl, by simp, ?_, hbegins⟩
          cases front with
          | nil => simpa using hescaped rfl
          | cons e front => simpa [List.getLast?_cons_cons] using hlast
      · rintro ⟨front, d, next', back, happend, hescaped, hlast, hbegins⟩
        cases front with
        | nil =>
          simp only [List.nil_append, List.cons.injEq] at happend
          obtain ⟨rfl, rfl, rfl⟩ := happend
          exact .inl (by simp [hescaped rfl, hbegins])
        | cons e front =>
          simp only [List.cons_append, List.cons.injEq] at happend
          obtain ⟨rfl, happend⟩ := happend
          refine .inr ⟨front, d, next', back, happend, ?_, ?_, hbegins⟩
          · rintro rfl
            simpa using hlast
          · cases front with
            | nil => simp
            | cons e' front => simpa [List.getLast?_cons_cons] using hlast

theorem isInterpolated_iff {l : Literal} : l.isInterpolated = true ↔ HoldsVariable l := by
  rw [Literal.isInterpolated, Bool.and_eq_true, beq_iff_eq, holdsVariable_iff]
  simp [HoldsVariable]

theorem isAllBlank_eq_false_iff {cs : List Char} :
    Text.isAllBlank cs = false ↔ ∃ c ∈ cs, Text.isBlank c = false := by
  rw [Bool.eq_false_iff, ne_eq, Text.isAllBlank, List.all_eq_true]
  simp

theorem namesEvent_of_declaredName {call : Call} {name : String}
    (h : declaredName call = .ok name) : NamesEvent call name := by
  unfold declaredName at h
  split at h
  · cases h
  · next gap l hargument =>
    split at h
    · cases h
    next hvariable =>
    split at h
    · cases h
    next hblank =>
    cases h
    refine ⟨gap, l, hargument, fun hv => hvariable (isInterpolated_iff.2 hv), ?_, rfl⟩
    exact isAllBlank_eq_false_iff.1 (by simpa using hblank)

theorem refuses_of_declaredName {call : Call} {cause : Cause}
    (h : declaredName call = .error cause) : Refuses call cause := by
  unfold declaredName at h
  split at h
  · next hargument =>
    cases h
    exact .notLiteral hargument
  · next gap l hargument =>
    split at h
    · next hvariable =>
      cases h
      exact .interpolated hargument (isInterpolated_iff.1 hvariable)
    next hvariable =>
    split at h
    · next hblank =>
      cases h
      refine .blank hargument (fun hv => hvariable (isInterpolated_iff.2 hv)) ?_
      exact List.all_eq_true.1 hblank
    · cases h

/-- A call whose first argument is refused names no event. -/
theorem Refuses.not_namesEvent {call : Call} {cause : Cause} {name : String}
    (h : Refuses call cause) : ¬ NamesEvent call name := by
  rintro ⟨gap, l, hargument, hvariable, ⟨c, hc, hblank⟩, _⟩
  cases h with
  | notLiteral hnone =>
    rw [hnone] at hargument
    cases hargument
  | interpolated hother hholds =>
    rw [hother] at hargument
    cases hargument
    exact hvariable hholds
  | blank hother _ hall =>
    rw [hother] at hargument
    cases hargument
    rw [hall c hc] at hblank
    cases hblank

/-! ### Lines -/

theorem isLineOf_lineText (site : Site) : IsLineOf site site.lineText := by
  obtain ⟨before, after⟩ := site
  refine ⟨(before.dropWhile (· != '\n')).reverse, (before.takeWhile (· != '\n')).reverse,
    after.takeWhile (· != '\n'), after.dropWhile (· != '\n'), ?_, ?_, rfl, ?_, ?_, ?_⟩
  · rw [← List.reverse_append, List.takeWhile_append_dropWhile]
  · exact List.takeWhile_append_dropWhile.symm
  · intro hmem
    have hleft : '\n' ∉ before.takeWhile (· != '\n') := fun h => by
      simpa using List.all_eq_true.1 List.all_takeWhile _ h
    have hright : '\n' ∉ after.takeWhile (· != '\n') := fun h => by
      simpa using List.all_eq_true.1 List.all_takeWhile _ h
    rw [Site.lineText, List.mem_append, List.mem_reverse] at hmem
    rcases hmem with h | h
    · exact hleft h
    · exact hright h
  · cases hdrop : before.dropWhile (· != '\n') with
    | nil => simp
    | cons c rest =>
      have hhead := List.head_dropWhile_not (p := (· != '\n')) (l := before) (by simp [hdrop])
      simp only [hdrop, List.head_cons] at hhead
      simpa using hhead
  · cases hdrop : after.dropWhile (· != '\n') with
    | nil => simp
    | cons c rest =>
      have hhead := List.head_dropWhile_not (p := (· != '\n')) (l := after) (by simp [hdrop])
      simp only [hdrop, List.head_cons] at hhead
      simpa using hhead

/-! ### The search -/

/-- The search of tokens, as far as it goes: through all of them, or up to the first refused call. -/
inductive Searched (path : String) (fault : Option Fault) :
    List (Site × Token) → List Declaration × Option Fault → Prop where
  | all {tokens : List (Site × Token)} {events : List Declaration} :
      (∀ place ∈ tokens, ¬ Offends place.2) → Announces path tokens events →
      Searched path fault tokens (events, fault)
  | upTo {done later : List (Site × Token)} {site : Site} {call : Call} {cause : Cause}
      {events : List Declaration} :
      (∀ place ∈ done, ¬ Offends place.2) → call.official = true → Refuses call cause →
      Announces path done events →
      Searched path fault (done ++ (site, .call call) :: later)
        (events, some ⟨cause, path, some site.line⟩)

/-- A token in front that is not refused adds the events that it announces, whichever way the search
of the others ends. -/
theorem Searched.cons {path : String} {fault end' : Option Fault} {site : Site} {token : Token}
    {tokens : List (Site × Token)} {events : List Declaration}
    (h : Searched path fault tokens (events, end')) (added : List Declaration)
    (hno : ¬ Offends token)
    (hadded : ∀ {rest events}, Announces path rest events →
      Announces path ((site, token) :: rest) (added ++ events)) :
    Searched path fault ((site, token) :: tokens) (added ++ events, end') := by
  cases h with
  | all hall hevents => exact .all (List.forall_mem_cons.2 ⟨hno, hall⟩) (hadded hevents)
  | upTo hall hofficial hrefuses hevents =>
    rw [← List.cons_append]
    exact .upTo (List.forall_mem_cons.2 ⟨hno, hall⟩) hofficial hrefuses (hadded hevents)

theorem searched_declarations (path : String) (fault : Option Fault)
    (tokens : List (Site × Token)) :
    Searched path fault tokens (declarations path fault tokens) := by
  induction tokens with
  | nil => exact .all (by simp) .nil
  | cons place tokens ih =>
    obtain ⟨site, token⟩ := place
    have hskip (hno : ¬ Offends token) (hnone : ∀ call name, token = .call call →
        ¬ NamesEvent call name) :
        Searched path fault ((site, token) :: tokens) (declarations path fault tokens) :=
      ih.cons [] hno fun hevents => .other hnone hevents
    cases token with
    | call call =>
      rw [declarations]
      cases hname : declaredName call with
      | ok name =>
        have hnames := namesEvent_of_declaredName hname
        refine ih.cons [declarationAt path site name] ?_ fun hevents =>
          .event hnames (isLineOf_lineText site) hevents
        rintro ⟨_, cause, heq, _, hrefuses⟩
        cases heq
        exact hrefuses.not_namesEvent hnames
      | error cause =>
        have hrefuses := refuses_of_declaredName hname
        by_cases hofficial : call.official = true
        · simp only [hofficial, if_true]
          exact .upTo (by simp) hofficial hrefuses .nil
        · simp only [hofficial]
          refine hskip ?_ fun other name heq => ?_
          · rintro ⟨_, _, heq, htrue, _⟩
            cases heq
            exact hofficial htrue
          · cases heq
            exact hrefuses.not_namesEvent
    | _ =>
      refine hskip ?_ fun _ _ heq => by cases heq
      rintro ⟨_, _, heq, _⟩
      cases heq

/-- What is searched for is reported of the listing's tokens. -/
theorem reported_extract (policy : PartialPolicy) (text path : String) :
    Reported policy path (listing text.toList).tokens (listing text.toList).broken
      (extract policy text path) := by
  unfold extract
  simp only
  generalize listing text.toList = tokens
  obtain ⟨tokens, fault⟩ := tokens
  generalize hending : Option.map _ fault = ending
  have hsearched := searched_declarations path ending tokens
  generalize declarations path ending tokens = result at hsearched ⊢
  cases hsearched with
  | all hall hevents =>
    subst hending
    cases fault with
    | none => exact .complete hall hevents
    | some r =>
      obtain ⟨site, fault⟩ := r
      have hreported : Reported policy path tokens (some (site.before.reverse, fault)) _ :=
        .broken hall hevents
      rw [List.count_reverse] at hreported
      cases policy <;> exact hreported
  | @upTo done later site call cause events hall hofficial hrefuses hevents =>
    have hreported (broken : Option (List Char × LexicalFault)) :
        Reported policy path (done ++ (site, .call call) :: later) broken _ :=
      .refused hall hofficial hrefuses hevents
    cases policy <;> exact hreported _

theorem Reported.fault_eq_none_iff {policy : PartialPolicy} {path : String}
    {tokens : List (Site × Token)} {broken : Option (List Char × LexicalFault)}
    {extraction : Extraction} (h : Reported policy path tokens broken extraction) :
    extraction.fault = none ↔ broken = none ∧ ∀ place ∈ tokens, ¬ Offends place.2 := by
  cases h with
  | complete hall _ => simpa using hall
  | refused _ hofficial hrefuses _ =>
    simp only [reduceCtorEq, false_iff, not_and]
    intro _ hall
    exact hall _ (List.mem_append_right _ List.mem_cons_self) ⟨_, _, rfl, hofficial, hrefuses⟩
  | broken _ _ => simp

/-- **Extraction agrees with the grammar.** Every text has exactly one division into tokens by the
grammar. The search succeeds if every token of it ends and no call of the board's own dispatcher is
refused; what it reports are the events that the tokens announce, each once and in order, up to the
first fault. -/
theorem extract_agrees_with_grammar (policy : PartialPolicy) (text path : String) :
    ∃ tokens broken,
      (∀ tokens' broken', Division false (Site.start text.toList) tokens' broken' ↔
        tokens' = tokens ∧ broken' = broken) ∧
      ((extract policy text path).fault = none ↔
        broken = none ∧ ∀ place ∈ tokens, ¬ Offends place.2) ∧
      Reported policy path tokens broken (extract policy text path) := by
  have hreported := reported_extract policy text path
  exact ⟨(listing text.toList).tokens, (listing text.toList).broken,
    fun _ _ => Listing.division_iff, hreported.fault_eq_none_iff, hreported⟩

end ExtensionAudit.Event
