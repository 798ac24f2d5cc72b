import ExtensionAudit.Proofs.Event.Arrival
import ExtensionAudit.Proofs.Php.Positions

/-!
# A search by positions

A search keeps the position it has come to and moves it: a loop over the text alternates between a
loop that looks for the next opening tag and one that goes over code. The loop over code has a
function for each kind of token that is longer than one character, and the function returns the
position behind the token or gives the search up.

At each position the loop over code does what the lexer says of the token there. That is the main
statement here, and whatever is to be said of the search by positions follows from it.
-/

namespace ExtensionAudit.Event

open ExtensionAudit.Php ExtensionAudit.Text

/-- How far a search has come, and the events that it has met, each with its call's position. -/
structure Cursor where
  position : Nat
  met : List (Nat × String)
  deriving DecidableEq, Repr

/-- Why a search is given up, and the position which is to blame. -/
structure Blame where
  cause : Cause
  place : Nat
  deriving DecidableEq, Repr

def Cursor.moveTo (s : Cursor) (position : Nat) : Cursor := { s with position := position }

def siteAt (text : List Char) (position : Nat) : Site :=
  ⟨(text.take position).reverse, text.drop position⟩

/-! ### The functions for tokens -/

/-- The literal that begins at a position, and the position behind it. -/
def readLiteral (rounds : Nat) (text : List Char) (start : Nat) :
    Except (Halt Blame) (Literal × Nat) :=
  match text[start]? with
  | none => .error .outOfRange
  | some quote =>
    let round := literalRound (⟨.lexical .unterminatedLiteral, start⟩ : Blame) quote text
    match loop round rounds (start + 1) with
    | (_, some reason) => .error reason
    | (stop, none) => .ok (⟨quote, (text.take (stop - 1)).drop (start + 1)⟩, stop)

/-- The literal behind the bracket of a call, with the blanks before it, and the position behind it.
Without a literal it is the position behind the bracket. -/
def readArgument (rounds : Nat) (text : List Char) (start : Nat) :
    Except (Halt Blame) (Option (List Char × Literal) × Nat) :=
  match loop (passRound isBlank text) rounds start with
  | (_, some reason) => .error reason
  | (index, none) =>
    if index < text.length then
      match text[index]? with
      | none => .error .outOfRange
      | some c =>
        if c == '\'' || c == '"' then
          match readLiteral rounds text index with
          | .error reason => .error reason
          | .ok (literal, stop) => .ok (some ((text.take index).drop start, literal), stop)
        else .ok (none, start)
    else .ok (none, start)

/-- What becomes of a call without a proper name: behind its bracket the search goes on, unless the
call is one of the board's own dispatcher. -/
def reject (s : Cursor) (cause : Cause) (official : Bool) (start : Nat) :
    Except (Halt Blame) Cursor :=
  if official then .error (.fault ⟨cause, s.position⟩) else .ok (s.moveTo start)

def readCall (rounds : Nat) (text : List Char) (s : Cursor) (head : List Char) (official : Bool) :
    Except (Halt Blame) Cursor :=
  let start := s.position + head.length
  match readArgument rounds text start with
  | .error reason => .error reason
  | .ok (argument, stop) =>
    match declaredName ⟨head, official, argument⟩ with
    | .ok name => .ok ⟨stop, s.met ++ [(s.position, name)]⟩
    | .error cause => (reject s cause official start).map (·.moveTo stop)

/-- The functions for tokens that begin at a position. -/
inductive Handler where
  | lineComment
  | blockComment
  | literal
  | heredoc
  | call (head : List Char) (official : Bool)

/-- The position behind the token, or why the search is given up there. -/
def Handler.run (rounds : Nat) (text : List Char) (s : Cursor) :
    Handler → Except (Halt Blame) Cursor
  | .lineComment => .ok (s.moveTo (lineCommentEnd text s.position))
  | .blockComment =>
    match find text ['*', '/'] (s.position + 2) with
    | none => .error (.fault ⟨.lexical .unterminatedComment, s.position⟩)
    | some stop => .ok (s.moveTo (stop + 2))
  | .literal =>
    match readLiteral rounds text s.position with
    | .error reason => .error reason
    | .ok (_, stop) => .ok (s.moveTo stop)
  | .heredoc =>
    match heredocOpening (text.drop s.position) with
    | none => .ok (s.moveTo (s.position + 3))
    | some (opening, label, after) =>
      match heredocBody label true after with
      | none => .error (.fault ⟨.lexical (.unterminatedHeredoc label), s.position⟩)
      | some (body, _) => .ok (s.moveTo (s.position + opening.length + body.length))
  | .call head official => readCall rounds text s head official

/-- The function for the token that begins at a position with a character, if it needs one. -/
def handlerAt (text : List Char) (position : Nat) (c : Char) : Option Handler :=
  if c == '#' || standsAt text ['/', '/'] position then some .lineComment
  else if standsAt text ['/', '*'] position then some .blockComment
  else if c == '\'' || c == '"' then some .literal
  else if standsAt text ['<', '<', '<'] position then some .heredoc
  else if c == '$' then
    (callHead (text.drop position)).map fun (head, official, _) => .call head official
  else none

/-! ### The loops -/

/-- A round of the loop over code. -/
def codeRound (rounds : Nat) (text : List Char) (s : Cursor) : Round Blame Cursor :=
  if s.position < text.length then
    match text[s.position]? with
    | none => .halt s .outOfRange
    | some c =>
      if standsAt text ['?', '>'] s.position then .leave (s.moveTo (s.position + 2))
      else
        match handlerAt text s.position c with
        | none => .again (s.moveTo (s.position + 1))
        | some handler =>
          match handler.run rounds text s with
          | .error reason => .halt s reason
          | .ok t => .again t
  else .leave s

/-- A round of the loop over the text: what stands outside code, and the code behind it. -/
def scanRound (rounds : Nat) (text : List Char) (s : Cursor) : Round Blame Cursor :=
  if s.position < text.length then
    match loop (htmlRound text) rounds s.position with
    | (position, some reason) => .halt (s.moveTo position) reason
    | (position, none) =>
      match loop (codeRound rounds text) rounds (s.moveTo position) with
      | (t, some reason) => .halt t reason
      | (t, none) => .again t
  else .leave s

/-- The search through a text, in which each loop is given some number of rounds. -/
def scan (rounds : Nat) (text : List Char) : Cursor × Option (Halt Blame) :=
  loop (scanRound rounds text) rounds ⟨0, []⟩

/-! ### What the functions do -/

/-- How the search goes on at a token: behind it, with the event that it names, or not at all. -/
def Cursor.behind (s : Cursor) : Token → Except (Halt Blame) Cursor
  | .call call =>
    let stop := s.position + call.lexeme.length
    match declaredName call with
    | .ok name => .ok ⟨stop, s.met ++ [(s.position, name)]⟩
    | .error cause => reject s cause call.official stop
  | token => .ok (s.moveTo (s.position + token.lexeme.length))

/-- How the search goes on at what the lexer reads. -/
def Cursor.goOn (s : Cursor) :
    Except (List Char × LexicalFault) (Token × List Char) → Except (Halt Blame) Cursor
  | .error (skipped, fault) => .error (.fault ⟨.lexical fault, s.position + skipped.length⟩)
  | .ok (token, _) => s.behind token

section Functions

variable {rounds start : Nat} {text rest after head : List Char} {c quote : Char} {official : Bool}
  {s : Cursor} {handler : Handler}

theorem readLiteral_eq (hrest : text.drop start = quote :: rest)
    (hrounds : text.length + 1 < rounds) :
    readLiteral rounds text start =
      match literalBody quote rest with
      | none => .error (.fault ⟨.lexical .unterminatedLiteral, start⟩)
      | some (body, _) => .ok (⟨quote, body⟩, start + (body.length + 2)) := by
  have hbehind := drop_succ_of_drop hrest
  have hinside := lt_length_of_drop hrest
  have hends := loop_literalRound (⟨.lexical .unterminatedLiteral, start⟩ : Blame) quote
    (by omega : start + 1 ≤ text.length + 1) (by omega : text.length + 1 < start + 1 + rounds)
  rw [readLiteral, getElem?_of_drop hrest]
  dsimp only
  rw [literalEnd, hbehind] at hends
  generalize loop (literalRound _ quote text) rounds (start + 1) = ending at hends
  cases hread : literalBody quote rest with
  | none =>
    rw [hread] at hends
    cases hends with
    | left hdone => cases hdone
    | halted hbroken => rw [hbroken.2]
  | some read =>
    obtain ⟨body, tail⟩ := read
    rw [hread] at hends
    cases hends with
    | left hdone =>
      obtain rfl := Option.some.inj hdone
      rw [← literalBody_append hread] at hbehind
      have hbody : start + 1 + (body.length + 1) - 1 = start + 1 + body.length := rfl
      have hstop : start + 1 + (body.length + 1) = start + (body.length + 2) := by omega
      dsimp only
      rw [hbody, slice_of_drop hbehind, hstop]
    | halted hbroken => cases hbroken.1

theorem readArgument_eq (hstart : start ≤ text.length) (hrest : text.drop start = after)
    (hrounds : text.length + 1 < rounds) :
    readArgument rounds text start =
      match after.dropWhile isBlank with
      | [] => .ok (none, start)
      | quote :: behind =>
        let gap := after.takeWhile isBlank
        if quote == '\'' || quote == '"' then
          match literalBody quote behind with
          | none => .error (.fault ⟨.lexical .unterminatedLiteral, start + gap.length⟩)
          | some (body, _) =>
            .ok (some (gap, ⟨quote, body⟩), start + gap.length + (body.length + 2))
        else .ok (none, start) := by
  have hsplit : text.drop start = after.takeWhile isBlank ++ after.dropWhile isBlank := by
    rw [hrest, List.takeWhile_append_dropWhile]
  have hgap := slice_of_drop hsplit
  have hbehind := drop_add_of_drop hsplit
  rw [readArgument, loop_passRound hstart (by omega), hrest]
  dsimp only
  cases hcase : after.dropWhile isBlank with
  | nil =>
    rw [hcase] at hbehind
    rw [if_neg (not_lt_length_of_drop hbehind)]
  | cons quote behind =>
    rw [hcase] at hbehind
    rw [if_pos (lt_length_of_drop hbehind), getElem?_of_drop hbehind, hgap,
      readLiteral_eq hbehind hrounds]
    dsimp only
    split
    · cases literalBody quote behind <;> rfl
    · rfl

/-- Of the positions to which a refused call moves the search, the last one counts. -/
theorem reject_map_moveTo (cause : Cause) (stop : Nat) :
    (reject s cause official start).map (·.moveTo stop) = reject s cause official stop := by
  cases official <;> rfl

/-- A call whose argument is known is read to its end. -/
theorem readCall_of_argument {argument : Option (List Char × Literal)} {stop : Nat}
    (hargument : readArgument rounds text (s.position + head.length) = .ok (argument, stop))
    (hstop : stop = s.position + (Call.mk head official argument).lexeme.length) :
    readCall rounds text s head official = s.behind (.call ⟨head, official, argument⟩) := by
  rw [readCall, hargument, Cursor.behind, ← hstop]
  dsimp only
  cases declaredName ⟨head, official, argument⟩ with
  | error cause => exact reject_map_moveTo cause stop
  | ok name => rfl

/-- A call is read as the lexer reads it, and what becomes of it is what becomes of its token. -/
theorem readCall_eq (hs : s.position ≤ text.length) (hrest : text.drop s.position = head ++ after)
    (hrounds : text.length + 1 < rounds) :
    readCall rounds text s head official = s.goOn (callToken head official after) := by
  have hstart : s.position + head.length ≤ text.length := by
    have hlength := congrArg List.length hrest
    rw [List.length_drop, List.length_append] at hlength
    omega
  have hargument := readArgument_eq hstart (drop_add_of_drop hrest) hrounds
  rw [callToken]
  cases hbehind : after.dropWhile isBlank with
  | nil =>
    rw [hbehind] at hargument
    exact readCall_of_argument hargument rfl
  | cons quote behind =>
    rw [hbehind] at hargument
    dsimp only at hargument ⊢
    by_cases hquote : (quote == '\'' || quote == '"') = true
    · rw [if_pos hquote] at hargument ⊢
      cases hread : literalBody quote behind with
      | none =>
        rw [hread] at hargument
        rw [readCall, hargument, Cursor.goOn, List.length_append, Nat.add_assoc]
      | some read =>
        rw [hread] at hargument
        refine readCall_of_argument hargument ?_
        simp only [Call.lexeme, Literal.lexeme, List.length_append, List.length_cons,
          List.length_nil]
        omega
    · rw [if_neg hquote] at hargument ⊢
      exact readCall_of_argument hargument rfl

theorem callHead_eq_none (hc : c ≠ '$') : callHead (c :: rest) = none := by
  cases hread : callHead (c :: rest) with
  | none => rfl
  | some read =>
    obtain ⟨head, official, after⟩ := read
    obtain ⟨hhead, happend⟩ := callHead_eq_some_iff.mp hread
    obtain ⟨tail, rfl⟩ := exists_dollar_of_mem_dispatcherWords hhead
    exact absurd (List.cons.inj happend).1.symm hc

theorem lineComment_mark {mark : List Char} (hmark : OpensLineComment mark) (cs : List Char) :
    (lineComment (mark ++ cs)).1 = mark ++ (lineComment cs).1 := by
  rcases hmark with rfl | rfl <;> simp [lineComment]

theorem run_lineComment {mark : List Char} (hmark : OpensLineComment mark)
    (hs : s.position ≤ text.length) (hrest : text.drop s.position = mark ++ rest) :
    Handler.lineComment.run rounds text s = s.goOn (codeToken (mark ++ rest)) := by
  rw [Handler.run, lineCommentEnd_eq hs, hrest, lineComment_mark hmark, codeToken_lineComment hmark]
  rfl

theorem run_blockComment (hrest : text.drop s.position = ['/', '*'] ++ rest) :
    Handler.blockComment.run rounds text s = s.goOn (codeToken (['/', '*'] ++ rest)) := by
  have hbehind : text.drop (s.position + 2) = rest := drop_add_of_drop hrest
  rw [Handler.run, find, hbehind, findFrom_commentBody, codeToken_blockComment]
  cases commentBody rest with
  | none => rfl
  | some read =>
    refine congrArg (fun stop => Except.ok (s.moveTo stop)) ?_
    simp only [Token.lexeme, List.length_cons, List.length_append, List.length_nil]
    omega

theorem run_literal (hquote : IsQuote c) (hrest : text.drop s.position = c :: rest)
    (hrounds : text.length + 1 < rounds) :
    Handler.literal.run rounds text s = s.goOn (codeToken (c :: rest)) := by
  rw [Handler.run, readLiteral_eq hrest hrounds, codeToken_literal hquote]
  cases literalBody c rest with
  | none => rfl
  | some read =>
    refine congrArg (fun stop => Except.ok (s.moveTo stop)) ?_
    simp only [Token.lexeme, Literal.lexeme, List.length_cons, List.length_append, List.length_nil]

theorem run_heredoc (hrest : text.drop s.position = '<' :: '<' :: '<' :: rest) :
    Handler.heredoc.run rounds text s = s.goOn (codeToken ('<' :: '<' :: '<' :: rest)) := by
  rw [Handler.run, hrest, codeToken_tripleLess]
  cases heredocOpening ('<' :: '<' :: '<' :: rest) with
  | none => rfl
  | some read =>
    obtain ⟨opening, label, after⟩ := read
    dsimp only
    cases heredocBody label true after with
    | none => rfl
    | some read =>
      refine congrArg (fun stop => Except.ok (s.moveTo stop)) ?_
      rw [Token.lexeme, List.length_append, Nat.add_assoc]

theorem run_call (hs : s.position ≤ text.length) (hhead : head ∈ dispatcherWords official)
    (hrest : text.drop s.position = head ++ rest) (hrounds : text.length + 1 < rounds) :
    (Handler.call head official).run rounds text s = s.goOn (codeToken (head ++ rest)) := by
  rw [Handler.run, readCall_eq hs hrest hrounds, codeToken_call hhead]

/-- The function for a token does what the lexer says of the token. -/
theorem Handler.run_eq (hrest : text.drop s.position = c :: rest)
    (hrounds : text.length + 1 < rounds) (hhandler : handlerAt text s.position c = some handler) :
    handler.run rounds text s = s.goOn (codeToken (c :: rest)) := by
  have hs := (lt_length_of_drop hrest).le
  have hword (word : List Char) (hstands : standsAt text word s.position = true) :
      ∃ tail, c :: rest = word ++ tail := by
    rw [standsAt, hrest] at hstands
    obtain ⟨tail, htail⟩ := List.isPrefixOf_iff_prefix.mp hstands
    exact ⟨tail, htail.symm⟩
  rw [handlerAt] at hhandler
  split at hhandler
  · next hmark =>
    obtain rfl := Option.some.inj hhandler
    rcases Bool.or_eq_true_iff.mp hmark with hhash | hslashes
    · obtain rfl := beq_iff_eq.mp hhash
      exact run_lineComment (.inl rfl) hs hrest
    · obtain ⟨tail, htail⟩ := hword _ hslashes
      rw [htail] at hrest ⊢
      exact run_lineComment (.inr rfl) hs hrest
  split at hhandler
  · next hmark =>
    obtain rfl := Option.some.inj hhandler
    obtain ⟨tail, htail⟩ := hword _ hmark
    rw [htail] at hrest ⊢
    exact run_blockComment hrest
  split at hhandler
  · next hquote =>
    obtain rfl := Option.some.inj hhandler
    exact run_literal (isQuote_iff.mpr hquote) hrest hrounds
  split at hhandler
  · next hmark =>
    obtain rfl := Option.some.inj hhandler
    obtain ⟨tail, htail⟩ := hword _ hmark
    rw [htail] at hrest ⊢
    exact run_heredoc hrest
  split at hhandler
  · obtain ⟨⟨head, official, after⟩, hread, rfl⟩ := Option.map_eq_some_iff.mp hhandler
    obtain ⟨hhead, happend⟩ := callHead_eq_some_iff.mp hread
    rw [hrest] at happend
    rw [← happend] at hrest ⊢
    exact run_call hs hhead hrest hrounds
  · cases hhandler

/-- Without a function for it, a token that does not end code is a single character. -/
theorem codeToken_of_handlerAt_eq_none (hrest : text.drop start = c :: rest)
    (htag : ¬ ['?', '>'].isPrefixOf (c :: rest) = true) (hnone : handlerAt text start c = none) :
    codeToken (c :: rest) = .ok (.other [c], rest) := by
  rw [handlerAt, standsAt, standsAt, standsAt, hrest] at hnone
  split at hnone
  · cases hnone
  next hline =>
  split at hnone
  · cases hnone
  next hblock =>
  split at hnone
  · cases hnone
  next hquote =>
  split at hnone
  · cases hnone
  next hless =>
  have hcall : callHead (c :: rest) = none := by
    split at hnone
    · exact Option.map_eq_none_iff.mp hnone
    · next hdollar => exact callHead_eq_none (by simpa using hdollar)
  rw [codeToken, if_neg htag, if_neg hline, if_neg hblock, if_neg hquote, if_neg hless, hcall]

/-- A round of the loop over code does what the lexer says of the token at its position. -/
theorem codeRound_eq (hrest : text.drop s.position = c :: rest)
    (hrounds : text.length + 1 < rounds) :
    codeRound rounds text s =
      if ['?', '>'].isPrefixOf (c :: rest) then .leave (s.moveTo (s.position + 2))
      else
        match s.goOn (codeToken (c :: rest)) with
        | .error reason => .halt s reason
        | .ok t => .again t := by
  rw [codeRound, if_pos (lt_length_of_drop hrest), getElem?_of_drop hrest]
  dsimp only
  rw [standsAt, hrest]
  split
  · rfl
  · next htag =>
    cases hhandler : handlerAt text s.position c with
    | none =>
      rw [codeToken_of_handlerAt_eq_none hrest htag hhandler]
      rfl
    | some handler => rw [← Handler.run_eq hrest hrounds hhandler]

end Functions

end ExtensionAudit.Event
