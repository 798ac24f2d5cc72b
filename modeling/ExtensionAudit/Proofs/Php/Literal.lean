import Mathlib
import ExtensionAudit.Php.Literal
import ExtensionAudit.Proofs.Php.Lexemes

/-!
# What stands between two quotes

The value of a literal is found by going over its body twice and replacing pairs of characters
wherever they stand. On any text this would not undo escapes: in front of a quote the first pass
takes a backslash away that may itself be escaped. The body of a literal, however, ends at the first
quote that is not escaped, so every quote in it has an odd run of backslashes in front. The first
pass then leaves an even run, and the two passes come to the same as a single one from the left.
Escaping a text gives such a body, and the text is its value again.

Whether a dollar sign is escaped is a matter of the whole run of backslashes in front of it.
-/

namespace ExtensionAudit.Php

open ExtensionAudit.Text

/-! ### Escapes -/

/-- Undoes escapes in one pass from the left: of a backslash and a quote and of two backslashes the
second character is left, and any other backslash stays. -/
def unescape (quote : Char) : List Char → List Char
  | '\\' :: c :: rest =>
    if c = quote ∨ c = '\\' then c :: unescape quote rest else '\\' :: c :: unescape quote rest
  | c :: rest => c :: unescape quote rest
  | [] => []

def escapeChar (quote c : Char) : List Char := if c = quote ∨ c = '\\' then ['\\', c] else [c]

/-- The text with a backslash in front of each quote and of each backslash. -/
def escape (quote : Char) (text : List Char) : List Char := text.flatMap (escapeChar quote)

section Escapes

variable {quote : Char} {body : List Char}

theorem unescape_cons {c : Char} (hc : c ≠ '\\') (rest : List Char) :
    unescape quote (c :: rest) = c :: unescape quote rest := by
  conv_lhs => unfold unescape
  split <;> simp_all

/-- A literal does not end where its body begins, so no quote comes first in the body. -/
theorem LiteralBody.head_ne_quote (hquote : IsQuote quote) (hbody : LiteralBody quote body) :
    ∀ c ∈ body.head?, c ≠ quote := by
  intro c hc
  cases hbody with
  | nil => cases hc
  | plain _ hplain _ =>
    rw [List.head?_cons, Option.mem_some_iff] at hc
    rwa [← hc]
  | escaped _ =>
    rw [List.head?_cons, Option.mem_some_iff] at hc
    rw [← hc]
    exact hquote.ne_backslash.symm

/-- A backslash in front of a body is not taken for that of an escaped quote. -/
theorem LiteralBody.replacePair_backslash (hquote : IsQuote quote)
    (hbody : LiteralBody quote body) :
    replacePair '\\' quote quote ('\\' :: body) = '\\' :: replacePair '\\' quote quote body := by
  cases body with
  | nil => rfl
  | cons c rest =>
    have hc : c ≠ quote := hbody.head_ne_quote hquote c rfl
    simp [replacePair, hc]

/-- Going over a body twice undoes its escapes. -/
theorem LiteralBody.value_eq (hquote : IsQuote quote) (hbody : LiteralBody quote body) :
    Literal.value ⟨quote, body⟩ = unescape quote body := by
  have hne : quote ≠ '\\' := hquote.ne_backslash
  simp only [Literal.value]
  induction hbody with
  | nil => rfl
  | plain hescape _ _ ih =>
    rw [replacePair_cons_of_ne hescape, replacePair_cons_of_ne hescape, unescape_cons hescape, ih]
  | @escaped c body hbody ih =>
    by_cases hcquote : c = quote
    · subst hcquote
      simp [replacePair, replacePair_cons_of_ne hne, unescape, ih]
    by_cases hcescape : c = '\\'
    · subst hcescape
      have hfirst : replacePair '\\' quote quote ('\\' :: '\\' :: body)
          = '\\' :: '\\' :: replacePair '\\' quote quote body := by
        rw [replacePair, if_neg (by simp [Ne.symm hne]), hbody.replacePair_backslash hquote]
      rw [hfirst]
      simp [replacePair, unescape, ih]
    · have hfirst : replacePair '\\' quote quote ('\\' :: c :: body)
          = '\\' :: c :: replacePair '\\' quote quote body := by
        rw [replacePair, if_neg (by simp [hcquote]), replacePair_cons_of_ne hcescape]
      rw [hfirst]
      simp [replacePair, replacePair_cons_of_ne hcescape, unescape, hcquote, hcescape, ih]

theorem literalBody_escape (quote : Char) (text : List Char) :
    LiteralBody quote (escape quote text) := by
  induction text with
  | nil => exact .nil
  | cons c text ih =>
    rw [escape, List.flatMap_cons, escapeChar]
    split
    · exact .escaped ih
    · next hc =>
      rw [not_or] at hc
      exact .plain hc.2 hc.1 ih

/-- Escaping is undone. -/
theorem unescape_escape (quote : Char) (text : List Char) :
    unescape quote (escape quote text) = text := by
  induction text with
  | nil => rfl
  | cons c text ih =>
    rw [escape] at ih
    rw [escape, List.flatMap_cons, escapeChar]
    split
    · next hc => simp [unescape, hc, ih]
    · next hc =>
      rw [not_or] at hc
      rw [List.singleton_append, unescape_cons hc.2, ih]

theorem value_escape (hquote : IsQuote quote) (text : List Char) :
    Literal.value ⟨quote, escape quote text⟩ = text := by
  rw [(literalBody_escape quote text).value_eq hquote, unescape_escape]

end Escapes

/-! ### Variables -/

/-- How many backslashes stand at the end of a text. -/
def trailingBackslashes (front : List Char) : Nat := (front.reverse.takeWhile (· == '\\')).length

/-- What can follow a dollar sign at the beginning of a variable. -/
def StartsName (c : Char) : Prop :=
  ('a' ≤ c ∧ c ≤ 'z') ∨ ('A' ≤ c ∧ c ≤ 'Z') ∨ c = '_' ∨ c = '{'

/-- A text begins like a variable. -/
def VariableAt (back : List Char) : Prop :=
  ∃ next rest, back = '$' :: next :: rest ∧ StartsName next

/-- Between `front` and `back` a variable begins that is not escaped: the backslashes in front of it
go together in pairs. -/
def LiveVariable (front back : List Char) : Prop :=
  Even (trailingBackslashes front) ∧ VariableAt back

theorem trailingBackslashes_eq_zero_iff {front : List Char} :
    trailingBackslashes front = 0 ↔ front.getLast? ≠ some '\\' := by
  rw [trailingBackslashes, List.length_eq_zero_iff, ← List.head?_reverse]
  cases front.reverse with
  | nil => simp
  | cons c rest => simp [List.takeWhile_cons]

theorem beginsVariable_iff {c next : Char} :
    beginsVariable c next = true ↔ (c = '$' ∧ StartsName next) ∨ (c = '{' ∧ next = '$') := by
  simp only [beginsVariable, StartsName, Bool.or_eq_true, Bool.and_eq_true, beq_iff_eq,
    decide_eq_true_eq, or_assoc]

end ExtensionAudit.Php
