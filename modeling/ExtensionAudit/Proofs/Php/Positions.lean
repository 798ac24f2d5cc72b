import ExtensionAudit.Proofs.Php.LineEnds
import ExtensionAudit.Proofs.Text.Positions

/-!
# Tokens by positions

The pieces of a text that the lexer splits off, found by positions: text outside code and string
literals by a loop each, comments by looking for the marks that end them. Each of them ends where
the lexer ends the piece.
-/

namespace ExtensionAudit.Php

open ExtensionAudit.Text

variable {ε : Type} {text cs : List Char} {start position rounds : Nat}

/-! ### Text outside code -/

/-- A round of the loop that looks for the tag that opens code. -/
def htmlRound (text : List Char) (position : Nat) : Round ε Nat :=
  match find text ['<', '?'] position with
  | none => .leave text.length
  | some start =>
    if standsAt text "<?php".toList start then .leave (start + 5)
    else if standsAt text "<?=".toList start then .leave (start + 3)
    else .again (start + 2)

theorem htmlRound_movesOn (text : List Char) :
    MovesOn (ε := ε) id text.length (htmlRound text) := by
  intro position hposition
  rw [htmlRound]
  cases hfound : find text ['<', '?'] position with
  | none => exact endsWithin_none hposition le_rfl
  | some start =>
    obtain ⟨hstart, hmark⟩ := find_within hposition hfound
    simp only [List.length_cons, List.length_nil] at hmark
    dsimp only
    split
    · next htag =>
      have hbehind := standsAt_within (by omega) htag
      exact endsWithin_none (hstart.trans (Nat.le_add_right start 5)) hbehind
    split
    · next htag =>
      have hbehind := standsAt_within (by omega) htag
      exact endsWithin_none (hstart.trans (Nat.le_add_right start 3)) hbehind
    · exact ⟨Nat.lt_of_le_of_lt hstart (Nat.lt_add_of_pos_right Nat.two_pos), hmark⟩

theorem sign_of_tag {tag : List Char} (htag : ['<', '?'] <+: tag)
    (hstands : tag.isPrefixOf cs = true) : ['<', '?'].isPrefixOf cs = true :=
  List.isPrefixOf_iff_prefix.mpr (htag.trans (List.isPrefixOf_iff_prefix.mp hstands))

/-- A character that begins no tag belongs to the text outside code. -/
theorem inlineHtml_cons {c : Char} (hphp : ¬ "<?php".toList.isPrefixOf (c :: cs) = true)
    (hecho : ¬ "<?=".toList.isPrefixOf (c :: cs) = true) :
    (inlineHtml (c :: cs)).1 = c :: (inlineHtml cs).1 := by
  rw [inlineHtml, if_neg hphp, if_neg hecho]

theorem inlineHtml_of_no_sign {c : Char} (hsign : ¬ ['<', '?'].isPrefixOf (c :: cs) = true) :
    (inlineHtml (c :: cs)).1 = c :: (inlineHtml cs).1 :=
  inlineHtml_cons (fun htag => hsign (sign_of_tag (by decide) htag))
    (fun htag => hsign (sign_of_tag (by decide) htag))

/-- In front of the first sign that can begin a tag there is no tag. -/
theorem length_inlineHtml_of_findFrom
    (hfound : findFrom ['<', '?'] start cs = some position) :
    start ≤ position ∧ (inlineHtml cs).1.length
      = (position - start) + (inlineHtml (cs.drop (position - start))).1.length := by
  induction cs generalizing start with
  | nil => cases hfound
  | cons c cs ih =>
    rw [findFrom] at hfound
    by_cases hsign : ['<', '?'].isPrefixOf (c :: cs) = true
    · rw [if_pos hsign] at hfound
      obtain rfl := Option.some.inj hfound
      simp
    · rw [if_neg hsign] at hfound
      obtain ⟨hle, hlength⟩ := ih hfound
      have hshift : position - start = (position - (start + 1)) + 1 := by omega
      rw [inlineHtml_of_no_sign hsign, List.length_cons, hlength, hshift, List.drop_succ_cons]
      omega

theorem inlineHtml_of_findFrom_eq_none (hmissed : findFrom ['<', '?'] start cs = none) :
    (inlineHtml cs).1 = cs := by
  induction cs generalizing start with
  | nil => rfl
  | cons c cs ih =>
    rw [findFrom] at hmissed
    by_cases hsign : ['<', '?'].isPrefixOf (c :: cs) = true
    · rw [if_pos hsign] at hmissed
      cases hmissed
    · rw [if_neg hsign] at hmissed
      rw [inlineHtml_of_no_sign hsign, ih hmissed]

/-- The loop ends behind the text outside code that the lexer splits off. -/
theorem loop_htmlRound (hposition : position ≤ text.length)
    (hrounds : text.length < position + rounds) :
    loop (ε := ε) (htmlRound text) rounds position
      = (position + (inlineHtml (text.drop position)).1.length, none) := by
  generalize hgoal : position + (inlineHtml (text.drop position)).1.length = goal
  have hends := (htmlRound_movesOn (ε := ε) text).loop_ends
    (fun index => index + (inlineHtml (text.drop index)).1.length = goal) (· = goal)
    (fun _ _ => False) ?_ hposition hgoal hrounds
  · generalize loop (htmlRound text) rounds position = ending at hends
    cases hends with
    | left hdone => rw [hdone]
    | halted hbroken => exact hbroken.elim
  · intro index (hindex : index ≤ text.length) hkept
    rw [htmlRound]
    cases hfound : find text ['<', '?'] index with
    | none =>
      rw [inlineHtml_of_findFrom_eq_none hfound, List.length_drop, Nat.add_sub_cancel' hindex]
        at hkept
      exact hkept
    | some start =>
      obtain ⟨rest, hrest⟩ : ∃ rest, text.drop start = '<' :: '?' :: rest :=
        exists_drop_of_find hfound
      have hbehind : text.drop (start + 2) = rest := by
        rw [← List.drop_drop, hrest]
        rfl
      obtain ⟨hstart, hlength⟩ := length_inlineHtml_of_findFrom hfound
      rw [List.drop_drop, Nat.add_sub_cancel' hstart, hrest] at hlength
      rw [hlength, ← Nat.add_assoc, Nat.add_sub_cancel' hstart] at hkept
      dsimp only
      rw [← hkept, standsAt, standsAt, hrest]
      by_cases hphp : "<?php".toList.isPrefixOf ('<' :: '?' :: rest) = true
      · rw [if_pos hphp, inlineHtml, if_pos hphp]
        rfl
      by_cases hecho : "<?=".toList.isPrefixOf ('<' :: '?' :: rest) = true
      · rw [if_neg hphp, if_pos hecho, inlineHtml, if_neg hphp, if_pos hecho]
        rfl
      · -- The sign begins no tag, and with its second character no tag begins either.
        rw [if_neg hphp, if_neg hecho, Round.Meets, hbehind, inlineHtml_cons hphp hecho,
          inlineHtml_of_no_sign (by simp), List.length_cons, List.length_cons,
          Nat.add_assoc start 2, Nat.add_comm 2]

/-! ### String literals -/

/-- A round of the loop that looks for the quote that ends a literal. -/
def literalRound (fault : ε) (quote : Char) (text : List Char) (index : Nat) : Round ε Nat :=
  if index < text.length then
    match text[index]? with
    | none => .halt index .outOfRange
    | some c =>
      if c == '\\' then .again (index + 2)
      else if c == quote then .leave (index + 1)
      else .again (index + 1)
  else .halt index (.fault fault)

/-- A backslash in front of the end takes the loop one position behind the end of the text. -/
theorem literalRound_movesOn (fault : ε) (quote : Char) (text : List Char) :
    MovesOn id (text.length + 1) (literalRound fault quote text) := by
  intro index hindex
  rw [literalRound]
  split
  · next hinside =>
    rw [List.getElem?_eq_getElem hinside]
    dsimp only
    split
    · exact ⟨Nat.lt_add_of_pos_right Nat.two_pos, Nat.succ_le_succ hinside⟩
    split
    · exact endsWithin_none (Nat.le_succ index) (Nat.succ_le_succ hinside.le)
    · exact ⟨Nat.lt_succ_self index, Nat.succ_le_succ hinside.le⟩
  · exact endsWithin_fault le_rfl hindex fault

/-- The position behind the literal whose body begins at a position, if the literal ends. -/
def literalEnd (quote : Char) (text : List Char) (index : Nat) : Option Nat :=
  (literalBody quote (text.drop index)).map fun read => index + (read.1.length + 1)

/-- The loop ends behind the literal that the lexer splits off, and halts where there is none. -/
theorem loop_literalRound (fault : ε) (quote : Char) (hstart : start ≤ text.length + 1)
    (hrounds : text.length + 1 < start + rounds) :
    Ends (literalEnd quote text start = some ·)
      (fun _ found => literalEnd quote text start = none ∧ found = fault)
      (loop (literalRound fault quote text) rounds start) := by
  generalize hgoal : literalEnd quote text start = goal
  refine (literalRound_movesOn fault quote text).loop_ends (literalEnd quote text · = goal) _ _
    ?_ hstart hgoal hrounds
  intro index _ hkept
  rw [literalRound]
  cases hrest : text.drop index with
  | nil =>
    rw [literalEnd, hrest] at hkept
    rw [if_neg (not_lt_length_of_drop hrest)]
    exact ⟨hkept.symm, rfl⟩
  | cons c rest =>
    rw [if_pos (lt_length_of_drop hrest), getElem?_of_drop hrest]
    dsimp only
    by_cases hescape : c = '\\'
    · subst hescape
      rw [if_pos (beq_self_eq_true _), Round.Meets, ← hkept, literalEnd, literalEnd, hrest,
        ← List.drop_drop, hrest]
      cases rest with
      | nil => rfl
      | cons d rest =>
        rw [literalBody, Option.map_map]
        refine congrArg (Option.map · _) (funext fun read => ?_)
        simp only [Function.comp_apply, List.length_cons]
        omega
    rw [if_neg (by simpa using hescape)]
    by_cases hquote : c = quote
    · rw [if_pos (beq_iff_eq.mpr hquote), Round.Meets, ← hkept, literalEnd, hrest, literalBody,
        if_pos (beq_iff_eq.mpr hquote)]
      · rfl
      · exact fun _ _ heq => absurd heq hescape
      · exact fun heq => absurd heq hescape
    · rw [if_neg (by simpa using hquote), Round.Meets, ← hkept, literalEnd, literalEnd, hrest,
        drop_succ_of_drop hrest, literalBody_plain hescape hquote, Option.map_map]
      refine congrArg (Option.map · _) (funext fun read => ?_)
      simp only [Function.comp_apply, List.length_cons]
      omega

/-! ### Comments -/

theorem findFrom_commentBody (start : Nat) (cs : List Char) :
    findFrom ['*', '/'] start cs = (commentBody cs).map fun read => start + read.1.length := by
  induction cs generalizing start with
  | nil => rfl
  | cons c cs ih =>
    rw [findFrom]
    by_cases hmark : ['*', '/'].isPrefixOf (c :: cs) = true
    · obtain ⟨rest, hrest⟩ := List.isPrefixOf_iff_prefix.mp hmark
      rw [if_pos hmark, ← hrest]
      rfl
    · rw [if_neg hmark, ih, commentBody, Option.map_map]
      · refine congrArg (Option.map · _) (funext fun read => ?_)
        simp only [Function.comp_apply, List.length_cons]
        omega
      · rintro rest rfl rfl
        exact hmark rfl

/-- The position in front of the mark that ends a line comment. -/
def lineCommentEnd (text : List Char) (position : Nat) : Nat :=
  let stop := (find text ['\n'] position).getD text.length
  (find (text.take stop) ['?', '>'] position).getD stop

/-- In front of a line feed the tag that ends code is looked for in the line alone. -/
theorem findFrom_lineComment (start : Nat) (cs : List Char) {stop : Nat}
    (hstop : (findFrom ['\n'] start cs).getD (start + cs.length) = stop) :
    start ≤ stop ∧ (findFrom ['?', '>'] start (cs.take (stop - start))).getD stop
      = start + (lineComment cs).1.length := by
  induction cs generalizing start with
  | nil =>
    obtain rfl : start = stop := hstop
    rw [List.take_nil]
    exact ⟨le_rfl, rfl⟩
  | cons c cs ih =>
    rw [findFrom] at hstop
    by_cases hfeed : c = '\n'
    · subst hfeed
      obtain rfl : start = stop := hstop
      rw [Nat.sub_self]
      exact ⟨le_rfl, rfl⟩
    · have hother : ¬ ['\n'].isPrefixOf (c :: cs) = true := fun hprefix =>
        hfeed (List.cons_prefix_cons.mp (List.isPrefixOf_iff_prefix.mp hprefix)).1.symm
      rw [if_neg hother, List.length_cons,
        show start + (cs.length + 1) = start + 1 + cs.length by omega] at hstop
      obtain ⟨hle, hend⟩ := ih (start + 1) hstop
      refine ⟨by omega, ?_⟩
      obtain ⟨k, hk⟩ := Nat.exists_eq_add_of_le hle
      rw [hk, Nat.add_sub_cancel_left] at hend
      rw [hk, Nat.add_assoc, Nat.add_sub_cancel_left, Nat.add_comm 1 k, List.take_succ_cons,
        findFrom, lineComment]
      by_cases htag : ['?', '>'].isPrefixOf (c :: cs) = true
      · -- The second character of the tag is no line feed, so the line goes on through it.
        obtain ⟨rest, hrest⟩ := List.isPrefixOf_iff_prefix.mp htag
        obtain ⟨rfl, rfl⟩ := List.cons.inj hrest
        cases k with
        | zero =>
          simp [findFrom, lineComment] at hend
        | succ k => simp
      · have hcut : ¬ ['?', '>'].isPrefixOf (c :: cs.take k) = true := fun hprefix =>
          htag (List.isPrefixOf_iff_prefix.mpr ((List.isPrefixOf_iff_prefix.mp hprefix).trans
            (List.cons_prefix_cons.mpr ⟨rfl, List.take_prefix k cs⟩)))
        rw [if_neg hcut, ← Nat.add_assoc, Nat.add_right_comm, hend, if_neg (by simp [hfeed, htag])]
        simp only [List.length_cons]
        omega

/-- A line comment ends where the lexer ends it. -/
theorem lineCommentEnd_eq (hposition : position ≤ text.length) :
    lineCommentEnd text position = position + (lineComment (text.drop position)).1.length := by
  have hlength : position + (text.drop position).length = text.length := by
    rw [List.length_drop, Nat.add_sub_cancel' hposition]
  rw [lineCommentEnd, find, ← hlength, find, List.drop_take]
  exact (findFrom_lineComment position _ rfl).2

end ExtensionAudit.Php
