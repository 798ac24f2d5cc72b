import ExtensionAudit.Proofs.Event.Positions

/-!
# The search by positions ends

Each round of each loop of the search moves its position on: no token is empty, and none is longer
than the text that is left. So the loops end, and none of them looks behind the end of the text.

What the search finds in all is the same at the beginning and the end of each round: the events met
until then, and what a search from the position on would find. So the search reports what the
extraction reports.
-/

namespace ExtensionAudit.Event

open ExtensionAudit.Php ExtensionAudit.Text

/-! ### Moving on -/

/-- The search goes on at a later position of the text, or is given up. -/
def Advances (text : List Char) (s : Cursor) : Except (Halt Blame) Cursor → Prop
  | .ok t => s.position < t.position ∧ t.position ≤ text.length
  | .error reason => ∃ blame, reason = .fault blame

section Moving

variable {rounds : Nat} {text rest after : List Char} {c : Char} {s : Cursor}

theorem reject_advances {start : Nat} (hstart : s.position < start) (hinside : start ≤ text.length)
    (cause : Cause) (official : Bool) : Advances text s (reject s cause official start) := by
  cases official with
  | true => exact ⟨_, rfl⟩
  | false => exact ⟨hstart, hinside⟩

theorem behind_advances {token : Token} (hmoved : 0 < token.lexeme.length)
    (hinside : s.position + token.lexeme.length ≤ text.length) :
    Advances text s (s.behind token) := by
  have hlater : s.position < s.position + token.lexeme.length := Nat.lt_add_of_pos_right hmoved
  cases token with
  | call call =>
    rw [Cursor.behind]
    cases declaredName call with
    | error cause => exact reject_advances hlater hinside cause call.official
    | ok name => exact ⟨hlater, hinside⟩
  | _ => exact ⟨hlater, hinside⟩

/-- At a token the search advances: no token is empty, and none is longer than the text. -/
theorem goOn_advances (hrest : text.drop s.position = c :: rest) :
    Advances text s (s.goOn (codeToken (c :: rest))) := by
  have hlength := congrArg List.length hrest
  rw [List.length_drop] at hlength
  cases hread : codeToken (c :: rest) with
  | error read => exact ⟨_, rfl⟩
  | ok read =>
    obtain ⟨token, after⟩ := read
    have hshort := codeToken_rest_length hread
    have hwhole := congrArg List.length (codeToken_append hread)
    rw [List.length_append] at hwhole
    exact behind_advances (by omega) (by omega)

/-- Each function for a token leaves the position behind the one at which it began, or gives the
search up. -/
theorem Handler.run_advances {handler : Handler} (hc : text[s.position]? = some c)
    (hhandler : handlerAt text s.position c = some handler) (hrounds : text.length + 1 < rounds) :
    Advances text s (handler.run rounds text s) := by
  obtain ⟨hinside, hget⟩ := List.getElem?_eq_some_iff.mp hc
  have hrest : text.drop s.position = c :: text.drop (s.position + 1) := by
    rw [List.drop_eq_getElem_cons hinside, hget]
  rw [Handler.run_eq hrest hrounds hhandler]
  exact goOn_advances hrest

theorem codeRound_movesOn (hrounds : text.length + 1 < rounds) :
    MovesOn Cursor.position text.length (codeRound rounds text) := by
  intro s hs
  cases hrest : text.drop s.position with
  | nil =>
    rw [codeRound, if_neg (not_lt_length_of_drop hrest)]
    exact endsWithin_none le_rfl hs
  | cons c rest =>
    rw [codeRound_eq hrest hrounds]
    split
    · next htag =>
      have htag : s.position + 2 ≤ text.length := by
        rw [← hrest] at htag
        exact standsAt_within hs htag
      exact endsWithin_none (Nat.le_add_right _ 2) htag
    · have hadvances := goOn_advances hrest
      cases hgo : s.goOn (codeToken (c :: rest)) with
      | error reason =>
        rw [hgo] at hadvances
        exact ⟨le_rfl, hs, fun _ heq => Option.some.inj heq ▸ hadvances⟩
      | ok t =>
        rw [hgo] at hadvances
        exact hadvances

/-- Behind the text outside code the position is a later one. -/
theorem inlineHtml_advances (hrest : text.drop s.position = c :: rest) :
    s.position < s.position + (inlineHtml (text.drop s.position)).1.length
      ∧ s.position + (inlineHtml (text.drop s.position)).1.length ≤ text.length := by
  have hinside := lt_length_of_drop hrest
  have hwhole := congrArg List.length (inlineHtml_append (text.drop s.position))
  have hmoved := List.length_pos_iff.mpr (inlineHtml_fst_ne_nil c rest)
  rw [List.length_append, List.length_drop] at hwhole
  rw [← hrest] at hmoved
  omega

theorem scanRound_movesOn (hrounds : text.length + 1 < rounds) :
    MovesOn Cursor.position text.length (scanRound rounds text) := by
  intro s hs
  rw [scanRound]
  cases hrest : text.drop s.position with
  | nil =>
    rw [if_neg (not_lt_length_of_drop hrest)]
    exact endsWithin_none le_rfl hs
  | cons c rest =>
    rw [if_pos (lt_length_of_drop hrest), loop_htmlRound hs (by omega)]
    dsimp only
    obtain ⟨hmoved, hinside⟩ := inlineHtml_advances hrest
    generalize s.position + (inlineHtml (text.drop s.position)).1.length = start at hmoved hinside
    have henough : text.length < (s.moveTo start).position + rounds :=
      Nat.lt_add_left start (by omega)
    obtain ⟨hle, hlimit, hfault⟩ := (codeRound_movesOn hrounds).loop hinside henough
    have hlater := hmoved.trans_le hle
    generalize loop (codeRound rounds text) rounds (s.moveTo start) = ending at hlater hlimit hfault
    obtain ⟨t, stop⟩ := ending
    cases stop with
    | none => exact ⟨hlater, hlimit⟩
    | some reason => exact ⟨hlater.le, hlimit, hfault⟩

end Moving

/-! ### What the search reports -/

def Cursor.placed (text : List Char) (s : Cursor) : List (Site × String) :=
  s.met.map fun (place, name) => (siteAt text place, name)

/-- What a search finds in all that has come to the cursor, in code or outside it. -/
def Cursor.found (text : List Char) (inCode : Bool) (s : Cursor) : Search :=
  (Search.of inCode (siteAt text s.position)).prepend (s.placed text)

/-- The search is given up for the same cause in the same line. -/
def Blame.Ends (text : List Char) (found : Search) (s : Cursor) (blame : Blame) : Prop :=
  ∃ site, found = ⟨s.placed text, some (site, blame.cause)⟩
    ∧ site.line = (siteAt text blame.place).line

section Reports

variable {rounds : Nat} {text rest after : List Char} {c : Char} {s t : Cursor} {found : Search}

theorem siteAt_add {position : Nat} {piece : List Char}
    (hrest : text.drop position = piece ++ rest) :
    siteAt text (position + piece.length)
      = ⟨piece.reverse ++ (siteAt text position).before, rest⟩ := by
  have htake : text.take (position + piece.length) = text.take position ++ piece := by
    rw [List.take_add, hrest, List.take_left]
  rw [siteAt, siteAt, drop_add_of_drop hrest, htake, List.reverse_append]

theorem found_at_end (hrest : text.drop s.position = []) (inCode : Bool) :
    s.found text inCode = ⟨s.placed text, none⟩ := by
  rw [Cursor.found, siteAt, hrest, Search.of_nil, Search.prepend, List.append_nil]

theorem found_html :
    s.found text false
      = (s.moveTo (s.position + (inlineHtml (text.drop s.position)).1.length)).found text true := by
  have hpiece := htmlPiece_inlineHtml (text.drop s.position)
  have hbehind := siteAt_add (inlineHtml_append (text.drop s.position)).symm
  rw [Cursor.found, Cursor.found, Cursor.moveTo, hbehind]
  exact congrArg (Search.prepend _) (Search.of_html hpiece)

/-- What becomes of a cursor keeps what the search finds. -/
def Keeps (text : List Char) (found : Search) (inCode : Bool) (s : Cursor) :
    Except (Halt Blame) Cursor → Prop
  | .ok t => t.found text inCode = found
  | .error (.fault blame) => blame.Ends text found s
  | .error _ => False

/-- At a token of the grammar the search goes on with what it finds behind the token. -/
theorem behind_keeps {token : Token} (htoken : CodeToken (text.drop s.position) token after) :
    Keeps text (s.found text true) (token != .closeTag) s (s.behind token) := by
  have hbehind := siteAt_add (codeToken_iff.mp htoken).2.2.symm
  rcases token_cases token with
    hpassed | ⟨call, name, rfl, hnames⟩ | ⟨call, cause, rfl, hofficial, hrefuses⟩
  · have hok : s.behind token = .ok (s.moveTo (s.position + token.lexeme.length)) := by
      cases token with
      | call call =>
        obtain ⟨hofficial, cause, hrefuses⟩ := hpassed call rfl
        rw [Cursor.behind, declaredName_eq_error_iff.mpr hrefuses, hofficial]
        rfl
      | _ => rfl
    rw [hok, Keeps, Cursor.found, Cursor.moveTo, hbehind]
    exact congrArg (Search.prepend _) (Search.of_token_passed htoken hpassed).symm
  · have hnamed : Search.of true (siteAt text s.position) = _ :=
      Search.of_token_named htoken hnames
    have hlater : siteAt text (s.position + call.lexeme.length) = _ := hbehind
    rw [Cursor.behind, declaredName_eq_ok_iff.mpr hnames, Keeps, Cursor.found, Cursor.found, hnamed,
      hlater, Cursor.placed, Cursor.placed, List.map_append]
    simp only [Search.prepend, List.append_assoc]
    rfl
  · have hrefused : Search.of true (siteAt text s.position) = _ :=
      Search.of_token_refused htoken hofficial hrefuses
    rw [Cursor.behind, declaredName_eq_error_iff.mpr hrefuses, hofficial, Cursor.found, hrefused,
      Search.prepend, List.append_nil]
    exact ⟨siteAt text s.position, rfl, rfl⟩

/-- A token that never ends is to blame at a place in its own text. -/
theorem exists_append_of_neverEnds {skipped : List Char} {fault : LexicalFault}
    (hbroken : NeverEnds rest skipped fault) : ∃ behind, rest = skipped ++ behind := by
  cases hbroken with
  | callWithLiteral => exact ⟨_, rfl⟩
  | _ => exact ⟨_, rfl⟩

theorem goOn_keeps (hrest : text.drop s.position = c :: rest)
    (htag : ¬ ['?', '>'].isPrefixOf (c :: rest) = true) :
    Keeps text (s.found text true) true s (s.goOn (codeToken (c :: rest))) := by
  have hread := readAs_codeToken (List.cons_ne_nil c rest)
  cases htoken : codeToken (c :: rest) with
  | error read =>
    obtain ⟨skipped, fault⟩ := read
    rw [htoken] at hread
    have hbroken : NeverEnds (text.drop s.position) skipped fault := hrest.symm ▸ hread
    have hstopped : Search.of true (siteAt text s.position) = _ := Search.of_broken hbroken
    obtain ⟨behind, hbehind⟩ := exists_append_of_neverEnds hbroken
    rw [Cursor.goOn, Cursor.found, hstopped, Search.prepend, List.append_nil]
    refine ⟨_, rfl, ?_⟩
    rw [siteAt_add hbehind]
    rfl
  | ok read =>
    obtain ⟨token, after⟩ := read
    rw [htoken] at hread
    have hcode : (token != .closeTag) = true := by
      rw [bne_iff_ne]
      rintro rfl
      exact htag (List.isPrefixOf_iff_prefix.mpr ⟨after, codeToken_append htoken⟩)
    have hkeeps := behind_keeps (hrest.symm ▸ hread : CodeToken (text.drop s.position) token after)
    rwa [hcode] at hkeeps

/-- A round of the loop over code keeps what the search finds. -/
theorem codeRound_meets (hrounds : text.length + 1 < rounds) (hfound : s.found text true = found) :
    (codeRound rounds text s).Meets (·.found text true = found) (·.found text false = found)
      (fun t blame => blame.Ends text found t) := by
  subst hfound
  cases hrest : text.drop s.position with
  | nil =>
    rw [codeRound, if_neg (not_lt_length_of_drop hrest), Round.Meets,
      found_at_end hrest, found_at_end hrest]
  | cons c rest =>
    rw [codeRound_eq hrest hrounds]
    split
    · next htag =>
      obtain ⟨tail, htail⟩ := List.isPrefixOf_iff_prefix.mp htag
      rw [← htail] at hrest
      exact behind_keeps (hrest ▸ CodeToken.closeTag)
    · next htag =>
      have hkeeps := goOn_keeps hrest htag
      cases hgo : s.goOn (codeToken (c :: rest)) with
      | ok t =>
        rw [hgo] at hkeeps
        exact hkeeps
      | error reason =>
        rw [hgo] at hkeeps
        cases reason with
        | fault blame => exact hkeeps
        | _ => exact hkeeps.elim

/-- A round of the loop over the text keeps what the search finds, as its two inner loops do. -/
theorem scanRound_meets (hrounds : text.length + 1 < rounds) (hs : s.position ≤ text.length)
    (hfound : s.found text false = found) :
    (scanRound rounds text s).Meets (·.found text false = found)
      (fun t => found = ⟨t.placed text, none⟩) (fun t blame => blame.Ends text found t) := by
  subst hfound
  rw [scanRound]
  cases hrest : text.drop s.position with
  | nil =>
    rw [if_neg (not_lt_length_of_drop hrest)]
    exact found_at_end hrest false
  | cons c rest =>
    rw [if_pos (lt_length_of_drop hrest), loop_htmlRound hs (by omega)]
    dsimp only
    obtain ⟨-, hinside⟩ := inlineHtml_advances hrest
    have hfound : s.found text false = _ := found_html
    generalize s.position + (inlineHtml (text.drop s.position)).1.length = start at hinside hfound
    have henough : text.length < (s.moveTo start).position + rounds :=
      Nat.lt_add_left start (by omega)
    have hends := (codeRound_movesOn hrounds).loop_ends _ _ _
      (fun t _ ht => codeRound_meets hrounds ht) hinside hfound.symm henough
    generalize loop (codeRound rounds text) rounds (s.moveTo start) = ending at hends
    cases hends with
    | left hdone => exact hdone
    | halted hbroken => exact hbroken

/-- The search as a whole: it ends as each of its rounds moves on, and as what it finds is kept. -/
theorem scan_ends (hrounds : text.length + 1 < rounds) :
    (scan rounds text).1.position ≤ text.length
      ∧ Ends (fun t => Search.of false (Site.start text) = ⟨t.placed text, none⟩)
          (fun t blame => blame.Ends text (Search.of false (Site.start text)) t)
          (scan rounds text) := by
  have hmoves := scanRound_movesOn hrounds
  have henough : text.length < (Cursor.mk 0 []).position + rounds :=
    Nat.lt_add_left 0 (by omega)
  refine ⟨(hmoves.loop (Nat.zero_le _) henough).le_limit, ?_⟩
  exact hmoves.loop_ends _ _ _ (fun t ht hfound => scanRound_meets hrounds ht hfound)
    (Nat.zero_le _) rfl henough

theorem declared_eq (path : String) (stop : Option (Site × Cause)) :
    Search.declared path ⟨s.placed text, stop⟩
      = s.met.map fun (place, name) => declarationAt path (siteAt text place) name := by
  rw [Search.declared, Cursor.placed, List.map_map]
  rfl

end Reports

/-- What a call begins with is not empty and stands in the text. -/
theorem head_within {text head : List Char} {position : Nat} {c : Char} {official : Bool}
    (hposition : position ≤ text.length)
    (hcall : handlerAt text position c = some (.call head official)) :
    position < position + head.length ∧ position + head.length ≤ text.length := by
  obtain ⟨after, hread⟩ :
      ∃ after, callHead (text.drop position) = some (head, official, after) := by
    rw [handlerAt] at hcall
    -- The functions for the other tokens are none for a call.
    repeat (split at hcall; cases hcall)
    split at hcall
    · obtain ⟨⟨head', official', after⟩, hread, heq⟩ := Option.map_eq_some_iff.mp hcall
      obtain ⟨rfl, rfl⟩ := Handler.call.inj heq
      exact ⟨after, hread⟩
    · cases hcall
  have hmoved := List.length_pos_iff.mpr (callHead_head_ne_nil hread)
  have hlength := congrArg List.length (callHead_append hread)
  rw [List.length_append, List.length_drop] at hlength
  omega

/-- **A search by positions always ends, stays within the text, and reports what the extraction
reports.** Every round of every loop moves the position on and not past the end of the text, or
leaves the loop, or gives the search up; only the loop over a literal may come to stand one position
behind the end, where the search is given up. Every function for a token leaves the position behind
the token's beginning or gives the search up, also where it refuses a call. Nothing looks for a
character where the text has none. So any number of rounds is enough that exceeds the length of the
text by two or more. -/
theorem scan_ends_within_text (text path : String) (spare : Nat) :
    let cs := text.toList
    let rounds := cs.length + 2 + spare
    MovesOn Cursor.position cs.length (scanRound rounds cs)
      ∧ MovesOn id cs.length (htmlRound (ε := Blame) cs)
      ∧ MovesOn Cursor.position cs.length (codeRound rounds cs)
      ∧ (∀ blame quote, MovesOn id (cs.length + 1) (literalRound (blame : Blame) quote cs))
      ∧ MovesOn id cs.length (passRound (ε := Blame) isBlank cs)
      ∧ (∀ s c handler, cs[s.position]? = some c → handlerAt cs s.position c = some handler →
          Advances cs s (handler.run rounds cs s)
            ∧ ∀ head official, handler = .call head official → ∀ cause,
                Advances cs s (reject s cause official (s.position + head.length)))
      ∧ ∃ s blame, scan rounds cs = (s, blame.map .fault) ∧ s.position ≤ cs.length
          ∧ ∀ policy, extract policy text path =
              { path := path
                events := if policy = .keep ∨ blame = none then
                    s.met.map fun (place, name) => declarationAt path (siteAt cs place) name
                  else []
                fault := blame.map fun blame =>
                  ⟨blame.cause, path, some (siteAt cs blame.place).line⟩ } := by
  intro cs rounds
  have hrounds : cs.length + 1 < rounds := by omega
  refine ⟨scanRound_movesOn hrounds, htmlRound_movesOn cs, codeRound_movesOn hrounds,
    fun blame quote => literalRound_movesOn blame quote cs, passRound_movesOn isBlank cs,
    fun s c handler hc hhandler => ⟨Handler.run_advances hc hhandler hrounds, ?_⟩, ?_⟩
  · rintro head official rfl cause
    have hinside := (List.getElem?_eq_some_iff.mp hc).1
    obtain ⟨hmoved, hbehind⟩ := head_within hinside.le hhandler
    exact reject_advances hmoved hbehind cause official
  · obtain ⟨hposition, hends⟩ := scan_ends hrounds
    generalize scan rounds cs = ending at hposition hends
    cases hends with
    | @left s hfound =>
      refine ⟨s, none, rfl, hposition, fun policy => ?_⟩
      rw [Search.extract_eq, hfound, Search.report, declared_eq]
      simp [Search.fault]
    | @halted s blame hended =>
      obtain ⟨site, hfound, hline⟩ := hended
      refine ⟨s, some blame, rfl, hposition, fun policy => ?_⟩
      rw [Search.extract_eq, hfound, Search.report, declared_eq]
      simp [Search.fault, hline]

/-- A call that is refused and passed over, one that names an event, and a literal that never
ends. -/
example : scan 80 "<?php $dispatcher->dispatch($x); $dispatcher->dispatch('a.b'); 'c".toList
    = (⟨63, [(33, "a.b")]⟩, some (.fault ⟨.lexical .unterminatedLiteral, 63⟩)) := by
  decide +kernel

end ExtensionAudit.Event
