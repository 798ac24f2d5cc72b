import ExtensionAudit.Event.Extraction
import ExtensionAudit.Proofs.Php.Division

/-!
# A search, token by token

An extraction is a search through the tokens of a text, and what it reports is read off the calls
that the search meets. Told apart from the report, a search can begin at any place, and then it goes
on as the tokens do: one equation for each way in which a text can go on. What stands in front of the
place enters only into the places themselves.
-/

namespace ExtensionAudit.Event

open ExtensionAudit.Php

/-- What a search meets: the calls that name an event, and the place that ends it early, if there is
one, with the cause. -/
structure Search where
  named : List (Site × String)
  stop : Option (Site × Cause)

namespace Search

/-- The search that meets a token and then goes on as another one does. -/
def meet (site : Site) (token : Token) (later : Search) : Search :=
  match token with
  | .call call =>
    match declaredName call with
    | .ok name => ⟨(site, name) :: later.named, later.stop⟩
    | .error cause => if call.official then ⟨[], some (site, cause)⟩ else later
  | _ => later

def along (stop : Option (Site × Cause)) (tokens : List (Site × Token)) : Search :=
  tokens.foldr (fun place later => later.meet place.1 place.2) ⟨[], stop⟩

/-- The search from a site on, which stands in code or outside it. -/
def of (inCode : Bool) (site : Site) : Search :=
  let listing := Listing.from inCode site
  along (listing.fault.map fun (site, fault) => (site, .lexical fault)) listing.tokens

def declared (path : String) (found : Search) : List Declaration :=
  found.named.map fun (site, name) => declarationAt path site name

def fault (path : String) (found : Search) : Option Fault :=
  found.stop.map fun (site, cause) => ⟨cause, path, some site.line⟩

def names (found : Search) : List String := found.named.map Prod.snd

/-- What is reported of a search. The events are dropped if it ended early and they are not to be
kept. -/
def report (policy : PartialPolicy) (path : String) (found : Search) : Extraction where
  path := path
  events := if policy = .keep ∨ found.stop.isNone then found.declared path else []
  fault := found.fault path

/-! ### What is reported of a search -/

theorem declarations_eq (path : String) (stop : Option (Site × Cause))
    (tokens : List (Site × Token)) :
    declarations path (stop.map fun (site, cause) => ⟨cause, path, some site.line⟩) tokens
      = ((along stop tokens).declared path, (along stop tokens).fault path) := by
  induction tokens with
  | nil => rfl
  | cons place tokens ih =>
    obtain ⟨site, token⟩ := place
    have hstep : along stop ((site, token) :: tokens) = (along stop tokens).meet site token := rfl
    rw [hstep]
    cases token with
    | call call =>
      rw [declarations, meet]
      cases declaredName call with
      | ok name => simp [ih, declared, fault]
      | error cause =>
        by_cases hofficial : call.official = true
        · simp [hofficial, declared, fault]
        · simp [hofficial, ih]
    | _ => exact ih

/-- An extraction is the report of the search from the start of the text on, outside code. -/
theorem extract_eq (policy : PartialPolicy) (text path : String) :
    extract policy text path = (Search.of false (Site.start text.toList)).report policy path := by
  have hreport (stop : Option (Site × LexicalFault)) :
      stop.map (fun (site, fault) => (⟨.lexical fault, path, some site.line⟩ : Fault))
        = (stop.map fun (site, fault) => (site, Cause.lexical fault)).map
            fun (site, cause) => ⟨cause, path, some site.line⟩ := by
    rw [Option.map_map]
    rfl
  have hfound : along
      ((listing text.toList).fault.map fun (site, fault) => (site, .lexical fault))
      (listing text.toList).tokens = Search.of false (Site.start text.toList) := rfl
  unfold extract
  simp only [hreport, declarations_eq, hfound]
  generalize Search.of false (Site.start text.toList) = found
  obtain ⟨named, stop⟩ := found
  cases stop with
  | none => simp [report, fault]
  | some place => cases policy <;> simp [report, fault]

theorem fault_eq_none_iff {path : String} {found : Search} :
    found.fault path = none ↔ found.stop = none := by
  rw [fault, Option.map_eq_none_iff]

theorem report_keep_events (path : String) (found : Search) :
    (found.report .keep path).events = found.declared path := by
  simp [report]

theorem report_events_of_stop_eq_none (policy : PartialPolicy) (path : String) {found : Search}
    (h : found.stop = none) : (found.report policy path).events = found.declared path := by
  simp [report, h]

theorem report_events_names (policy : PartialPolicy) (path : String) (found : Search) :
    (found.report policy path).events.map (·.name)
      = if policy = .keep ∨ found.stop.isNone then found.names else [] := by
  have hnames : (found.declared path).map (·.name) = found.names := by
    simp [declared, names, declarationAt, Function.comp_def]
  rw [report, apply_ite (List.map _), hnames, List.map_nil]

/-! ### How a search goes on -/

section Steps

variable {before text rest : List Char}

theorem of_nil (inCode : Bool) (before : List Char) : of inCode ⟨before, []⟩ = ⟨[], none⟩ := by
  rw [of, Listing.from_nil]
  rfl

theorem of_html {piece : List Char} (h : HtmlPiece text piece rest) :
    of false ⟨before, text⟩ = of true ⟨piece.reverse ++ before, rest⟩ := by
  have hread := htmlPiece_iff.1 h
  by_cases hne : text = []
  · subst hne
    obtain ⟨rfl, rfl⟩ := Prod.mk.inj hread
    rw [of_nil, of_nil]
  · rw [of, Listing.from_html hne, hread]
    rfl

theorem of_code {token : Token} (h : CodeToken text token rest) :
    of true ⟨before, text⟩
      = meet ⟨before, text⟩ token
          (of (token != .closeTag) ⟨token.lexeme.reverse ++ before, rest⟩) := by
  rw [of, Listing.from_token h.codeToken_eq h.text_ne_nil]
  rfl

theorem of_broken {skipped : List Char} {fault : LexicalFault}
    (h : NeverEnds text skipped fault) :
    of true ⟨before, text⟩
      = ⟨[], some (⟨skipped.reverse ++ before, []⟩, .lexical fault)⟩ := by
  rw [of, Listing.from_broken h.codeToken_eq h.text_ne_nil]
  rfl

end Steps

/-! ### What a token does to a search -/

section Meet

variable {call : Call} {name : String} {cause : Cause}

theorem meet_named (h : declaredName call = .ok name) (site : Site) (later : Search) :
    later.meet site (.call call) = ⟨(site, name) :: later.named, later.stop⟩ := by
  rw [meet, h]

theorem meet_refused (h : declaredName call = .error cause) (hofficial : call.official = true)
    (site : Site) (later : Search) :
    later.meet site (.call call) = ⟨[], some (site, cause)⟩ := by
  simp [meet, h, hofficial]

theorem meet_passed (h : declaredName call = .error cause) (hofficial : call.official ≠ true)
    (site : Site) (later : Search) : later.meet site (.call call) = later := by
  simp [meet, h, hofficial]

end Meet

theorem meet_of_ne_call {token : Token} (h : ∀ call, token ≠ .call call) (site : Site)
    (later : Search) : later.meet site token = later := by
  cases token with
  | call call => exact absurd rfl (h call)
  | _ => rfl

/-- A token leaves a search as it is, adds an event to it, or ends it, and which of them depends on
the token alone. -/
theorem meet_cases (token : Token) :
    (∀ site later, meet site token later = later) ∨
      (∃ name, ∀ site later, meet site token later = ⟨(site, name) :: later.named, later.stop⟩) ∨
      ∃ cause, ∀ site later, meet site token later = ⟨[], some (site, cause)⟩ := by
  cases token with
  | call call =>
    cases hname : declaredName call with
    | ok name => exact .inr (.inl ⟨name, meet_named hname⟩)
    | error cause =>
      by_cases hofficial : call.official = true
      · exact .inr (.inr ⟨cause, meet_refused hname hofficial⟩)
      · exact .inl (meet_passed hname hofficial)
  | _ => exact .inl fun _ _ => rfl

/-! ### What stands in front of the place -/

/-- The search in a longer text, with `front` in front of it, nearest character first. -/
def behind (front : List Char) (found : Search) : Search where
  named := found.named.map fun (site, name) => (⟨site.before ++ front, site.after⟩, name)
  stop := found.stop.map fun (site, cause) => (⟨site.before ++ front, site.after⟩, cause)

theorem behind_meet (front : List Char) (site : Site) (token : Token) (later : Search) :
    (later.meet site token).behind front
      = (later.behind front).meet ⟨site.before ++ front, site.after⟩ token := by
  rcases meet_cases token with hpassed | ⟨name, hnamed⟩ | ⟨cause, hended⟩
  · rw [hpassed, hpassed]
  · rw [hnamed, hnamed]
    rfl
  · rw [hended, hended]
    rfl

/-- A search finds the same behind any text. -/
theorem of_append (inCode : Bool) (text before front : List Char) :
    of inCode ⟨before ++ front, text⟩ = (of inCode ⟨before, text⟩).behind front := by
  induction inCode, text using reading_induction generalizing before with
  | finished inCode =>
    rw [of_nil, of_nil]
    rfl
  | html text piece rest hne hpiece ih =>
    rw [of_html hpiece, of_html hpiece, ← ih, List.append_assoc]
  | code text token rest htoken ih =>
    rw [of_code htoken, of_code htoken, behind_meet, ← ih, List.append_assoc]
  | broken text skipped fault hbroken =>
    rw [of_broken hbroken, of_broken hbroken]
    simp [behind]

@[simp] theorem names_behind (front : List Char) (found : Search) :
    (found.behind front).names = found.names := by
  simp [behind, names, Function.comp_def]

@[simp] theorem stop_behind_eq_none_iff {front : List Char} {found : Search} :
    (found.behind front).stop = none ↔ found.stop = none := by
  simp [behind]

end Search
end ExtensionAudit.Event
