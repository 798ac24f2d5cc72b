import ExtensionAudit.Proofs.Php.Grammar

/-!
# The scanning functions read the grammar

Each function that splits a piece off a text does what the grammar says of that piece: what it
splits off is such a piece, every such piece is split off, and it fails only where there is none.
-/

namespace ExtensionAudit.Php

open ExtensionAudit.Text

/-! ### First places -/

section FirstPlace

variable {stop : List Char → List Char → Prop} {front back : List Char}

theorem firstPlace_nil : FirstPlace stop [] back ↔ stop [] back := by
  constructor
  · exact fun h => h.1
  · exact fun h => ⟨h, fun _ _ _ _ => Nat.zero_le _⟩

/-- A place is the first one if the start of the text has not the property and the place is the
first one behind the first character. -/
theorem firstPlace_cons {c : Char} :
    FirstPlace stop (c :: front) back ↔
      ¬ stop [] (c :: (front ++ back)) ∧ FirstPlace (fun f b => stop (c :: f) b) front back := by
  constructor
  · rintro ⟨hstop, hfirst⟩
    refine ⟨fun h => ?_, hstop, fun front' back' happend h => ?_⟩
    · have := hfirst [] (c :: (front ++ back)) rfl h
      simp at this
    · have := hfirst (c :: front') back' (by rw [List.cons_append, happend, List.cons_append]) h
      simpa using this
  · rintro ⟨hhead, hstop, hfirst⟩
    refine ⟨hstop, fun front' back' happend h => ?_⟩
    cases front' with
    | nil =>
      rw [List.nil_append] at happend
      rw [happend] at h
      exact absurd h hhead
    | cons d front' =>
      simp only [List.cons_append, List.cons.injEq] at happend
      obtain ⟨rfl, happend⟩ := happend
      have := hfirst front' back' happend h
      simpa using this

theorem FirstPlace.unique {front' back' : List Char} (h : FirstPlace stop front back)
    (h' : FirstPlace stop front' back') (happend : front ++ back = front' ++ back') :
    front = front' ∧ back = back' := by
  have hle := h.2 front' back' happend.symm h'.1
  have hge := h'.2 front back happend h.1
  exact List.append_inj happend (Nat.le_antisymm hle hge)

end FirstPlace

/-! ### Text outside code -/

theorem opensCode_prefix_cases {tag text : List Char} (h : OpensCode tag) (hfront : tag <+: text) :
    "<?php".toList.isPrefixOf text = true ∨ "<?=".toList.isPrefixOf text = true := by
  rcases h with rfl | rfl
  · exact .inl (List.isPrefixOf_iff_prefix.2 hfront)
  · exact .inr (List.isPrefixOf_iff_prefix.2 hfront)

/-- Two tags in front of one text are the same. -/
theorem OpensCode.unique {tag tag' rest rest' : List Char} (h : OpensCode tag)
    (h' : OpensCode tag') (happend : tag ++ rest = tag' ++ rest') : tag = tag' ∧ rest = rest' := by
  rcases h with rfl | rfl <;> rcases h' with rfl | rfl <;> simp_all

theorem htmlPiece_inlineHtml (text : List Char) :
    HtmlPiece text (inlineHtml text).1 (inlineHtml text).2 := by
  induction text with
  | nil =>
    refine .untagged fun tag htag hinfix => ?_
    rw [List.infix_nil] at hinfix
    rcases htag with rfl | rfl <;> simp at hinfix
  | cons c text ih =>
    have tagged (tag : List Char) (htag : OpensCode tag) (hfront : tag <+: c :: text) :
        HtmlPiece (c :: text) tag ((c :: text).drop tag.length) := by
      obtain ⟨rest, hrest⟩ := hfront
      have hpiece : HtmlPiece ([] ++ tag ++ rest) ([] ++ tag) rest :=
        .tagged htag (firstPlace_nil.2 ⟨tag, htag, List.prefix_append _ _⟩)
      simpa [← hrest] using hpiece
    unfold inlineHtml
    split
    · next h => exact tagged _ (.inl rfl) (List.isPrefixOf_iff_prefix.1 h)
    split
    · next h => exact tagged _ (.inr rfl) (List.isPrefixOf_iff_prefix.1 h)
    next hphp hecho =>
    have hnone : ¬ ∃ tag, OpensCode tag ∧ tag <+: c :: text := by
      rintro ⟨tag, htag, hfront⟩
      rcases opensCode_prefix_cases htag hfront with h | h
      · exact hphp h
      · exact hecho h
    generalize hhtml : inlineHtml text = html at ih
    obtain ⟨piece, rest⟩ := html
    cases ih with
    | @tagged body tag _ htag hfirst =>
      have hpiece : HtmlPiece (c :: body ++ tag ++ rest) (c :: body ++ tag) rest :=
        .tagged htag (firstPlace_cons.2 ⟨by simpa using hnone, hfirst⟩)
      simpa using hpiece
    | untagged hno =>
      refine .untagged fun tag htag hinfix => ?_
      rcases List.infix_cons_iff.1 hinfix with h | h
      · exact hnone ⟨tag, htag, h⟩
      · exact hno tag htag h

theorem HtmlPiece.unique {text piece rest piece' rest' : List Char}
    (h : HtmlPiece text piece rest) (h' : HtmlPiece text piece' rest') :
    piece = piece' ∧ rest = rest' := by
  have infix_of_split {body tag rest : List Char} : tag <:+: body ++ tag ++ rest :=
    ⟨body, rest, rfl⟩
  generalize htext : text = other at h'
  cases h with
  | @tagged body tag rest htag hfirst =>
    cases h' with
    | @tagged body' tag' rest' htag' hfirst' =>
      rw [List.append_assoc, List.append_assoc] at htext
      obtain ⟨rfl, htail⟩ := hfirst.unique hfirst' htext
      obtain ⟨rfl, rfl⟩ := htag.unique htag' htail
      exact ⟨rfl, rfl⟩
    | untagged hno => exact absurd (htext ▸ infix_of_split) (hno tag htag)
  | untagged hno =>
    cases h' with
    | tagged htag' _ => exact absurd (htext ▸ infix_of_split) (hno _ htag')
    | untagged _ => exact ⟨htext, rfl⟩

theorem htmlPiece_iff {text piece rest : List Char} :
    HtmlPiece text piece rest ↔ inlineHtml text = (piece, rest) := by
  constructor
  · intro h
    obtain ⟨hpiece, hrest⟩ := (htmlPiece_inlineHtml text).unique h
    exact Prod.ext hpiece hrest
  · intro h
    have hpiece := htmlPiece_inlineHtml text
    rwa [h] at hpiece

/-! ### Comments -/

theorem endsLineComment_cons {c : Char} {cs : List Char} :
    EndsLineComment (c :: cs) ↔ (c == '\n' || ['?', '>'].isPrefixOf (c :: cs)) = true := by
  rw [Bool.or_eq_true, List.isPrefixOf_iff_prefix, beq_iff_eq]
  simp [EndsLineComment, eq_comm]

theorem firstPlace_lineComment (cs : List Char) :
    FirstPlace (fun _ back => EndsLineComment back) (lineComment cs).1 (lineComment cs).2 := by
  induction cs with
  | nil => exact firstPlace_nil.2 (.inl rfl)
  | cons c cs ih =>
    unfold lineComment
    split
    · next h => exact firstPlace_nil.2 (endsLineComment_cons.2 h)
    · next h =>
      refine firstPlace_cons.2 ⟨?_, ih⟩
      rw [lineComment_append, endsLineComment_cons]
      exact h

theorem firstPlace_lineComment_iff {cs body rest : List Char} :
    FirstPlace (fun _ back => EndsLineComment back) body rest ∧ body ++ rest = cs ↔
      lineComment cs = (body, rest) := by
  constructor
  · rintro ⟨h, happend⟩
    have heq := (firstPlace_lineComment cs).unique h ((lineComment_append cs).trans happend.symm)
    exact Prod.ext heq.1 heq.2
  · intro h
    have hfirst := firstPlace_lineComment cs
    have happend := lineComment_append cs
    rw [h] at hfirst happend
    exact ⟨hfirst, happend⟩

theorem firstPlace_commentBody {cs body rest : List Char} (h : commentBody cs = some (body, rest)) :
    FirstPlace (fun _ back => ['*', '/'] <+: back) body (['*', '/'] ++ rest) := by
  fun_induction commentBody cs generalizing body rest with
  | case1 r =>
    simp only [Option.some.injEq, Prod.mk.injEq] at h
    obtain ⟨rfl, rfl⟩ := h
    exact firstPlace_nil.2 (List.prefix_append _ _)
  | case2 c r hmark ih =>
    obtain ⟨⟨b, s⟩, hb, heq⟩ := Option.map_eq_some_iff.1 h
    simp only [Prod.mk.injEq] at heq
    obtain ⟨rfl, rfl⟩ := heq
    refine firstPlace_cons.2 ⟨?_, ih hb⟩
    have happend : b ++ (['*', '/'] ++ s) = r := commentBody_append hb
    rw [happend]
    rintro ⟨tail, htail⟩
    simp only [List.cons_append, List.nil_append, List.cons.injEq] at htail
    exact hmark tail htail.1.symm htail.2.symm
  | case3 => simp at h

theorem not_infix_of_commentBody {cs : List Char} (h : commentBody cs = none) :
    ¬ ['*', '/'] <:+: cs := by
  fun_induction commentBody cs with
  | case1 => simp at h
  | case2 c r hmark ih =>
    rw [Option.map_eq_none_iff] at h
    intro hinfix
    rcases List.infix_cons_iff.1 hinfix with ⟨tail, htail⟩ | hinfix
    · simp only [List.cons_append, List.nil_append, List.cons.injEq] at htail
      exact hmark tail htail.1.symm htail.2.symm
    · exact ih h hinfix
  | case3 => simp

theorem commentBody_eq_some_iff {cs body rest : List Char} :
    commentBody cs = some (body, rest) ↔
      FirstPlace (fun _ back => ['*', '/'] <+: back) body (['*', '/'] ++ rest) ∧
        body ++ (['*', '/'] ++ rest) = cs := by
  constructor
  · exact fun h => ⟨firstPlace_commentBody h, commentBody_append h⟩
  · rintro ⟨hfirst, rfl⟩
    cases h : commentBody (body ++ (['*', '/'] ++ rest)) with
    | none => exact absurd ⟨body, rest, by simp⟩ (not_infix_of_commentBody h)
    | some r =>
      obtain ⟨body', rest'⟩ := r
      have heq := (firstPlace_commentBody h).unique hfirst (commentBody_append h)
      simp only [List.append_cancel_left_eq] at heq
      rw [heq.1, heq.2]

theorem commentBody_eq_none_iff {cs : List Char} :
    commentBody cs = none ↔ ¬ ['*', '/'] <:+: cs := by
  constructor
  · exact not_infix_of_commentBody
  · intro h
    cases hbody : commentBody cs with
    | none => rfl
    | some r =>
      obtain ⟨body, rest⟩ := r
      have happend := commentBody_append hbody
      exact absurd ⟨body, rest, by simpa using happend⟩ h

/-! ### String literals -/

theorem IsQuote.ne_backslash {quote : Char} (h : IsQuote quote) : quote ≠ '\\' := by
  rcases h with rfl | rfl <;> decide

theorem literalBody_of_eq_some {quote : Char} {cs body rest : List Char}
    (h : literalBody quote cs = some (body, rest)) : LiteralBody quote body := by
  fun_induction literalBody quote cs generalizing body rest with
  | case1 c r ih =>
    obtain ⟨⟨b, s⟩, hb, heq⟩ := Option.map_eq_some_iff.1 h
    simp only [Prod.mk.injEq] at heq
    rw [← heq.1]
    exact .escaped (ih hb)
  | case2 => simp at h
  | case3 c r _ _ _ =>
    simp only [Option.some.injEq, Prod.mk.injEq] at h
    rw [← h.1]
    exact .nil
  | case4 c r hescape hlone hquote ih =>
    obtain ⟨⟨b, s⟩, hb, heq⟩ := Option.map_eq_some_iff.1 h
    simp only [Prod.mk.injEq] at heq
    rw [← heq.1]
    refine .plain ?_ (by simpa using hquote) (ih hb)
    rintro rfl
    cases r with
    | nil => exact hlone rfl rfl
    | cons d r => exact hescape d r rfl rfl
  | case5 => simp at h

theorem literalBody_append_quote {quote : Char} {body : List Char} (hquote : quote ≠ '\\')
    (h : LiteralBody quote body) (rest : List Char) :
    literalBody quote (body ++ quote :: rest) = some (body, rest) := by
  induction h with
  | nil => unfold literalBody; split <;> simp_all
  | plain hescape hplain hbody ih =>
    rw [List.cons_append]
    unfold literalBody
    split <;> simp_all
  | escaped hbody ih => simp [literalBody, ih]

theorem literalBody_eq_some_iff {quote : Char} {cs body rest : List Char} (hquote : IsQuote quote) :
    literalBody quote cs = some (body, rest) ↔
      LiteralBody quote body ∧ body ++ quote :: rest = cs := by
  constructor
  · exact fun h => ⟨literalBody_of_eq_some h, literalBody_append h⟩
  · rintro ⟨hbody, rfl⟩
    exact literalBody_append_quote hquote.ne_backslash hbody rest

theorem literalBody_eq_none_iff {quote : Char} {cs : List Char} (hquote : IsQuote quote) :
    literalBody quote cs = none ↔
      ∀ body after, LiteralBody quote body → body ++ quote :: after ≠ cs := by
  constructor
  · intro h body after hbody happend
    rw [(literalBody_eq_some_iff hquote).2 ⟨hbody, happend⟩] at h
    cases h
  · intro h
    cases hread : literalBody quote cs with
    | none => rfl
    | some r =>
      obtain ⟨body, rest⟩ := r
      obtain ⟨hbody, happend⟩ := (literalBody_eq_some_iff hquote).1 hread
      exact absurd happend (h body rest hbody)

end ExtensionAudit.Php
