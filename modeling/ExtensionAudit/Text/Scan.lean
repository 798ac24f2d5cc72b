/-!
Scans: functions that split a piece off the front of a text. A scan that succeeds returns the piece
and what follows it; the scans built here lose nothing, so piece and rest together are the text.
-/

namespace ExtensionAudit.Text

/-- A function that splits a piece off the front of a text, or fails. -/
abbrev Scan := List Char → Option (List Char × List Char)

/-- A scan loses nothing: piece and rest together are the text. -/
def Scan.Lossless (scan : Scan) : Prop :=
  ∀ cs piece rest, scan cs = some (piece, rest) → piece ++ rest = cs

namespace Scan

def exactly (word : List Char) : Scan := fun cs =>
  if word.isPrefixOf cs then some (word, cs.drop word.length) else none

/-- The longest stretch of characters of a class, possibly empty. -/
def many (p : Char → Bool) : Scan := fun cs => some (cs.takeWhile p, cs.dropWhile p)

def andThen (first second : Scan) : Scan := fun cs =>
  match first cs with
  | none => none
  | some (a, rest) =>
    match second rest with
    | none => none
    | some (b, rest) => some (a ++ b, rest)

def orElse (first second : Scan) : Scan := fun cs =>
  match first cs with
  | some result => some result
  | none => second cs

def opt (scan : Scan) : Scan := fun cs => some ((scan cs).getD ([], cs))

theorem exactly_lossless (word : List Char) : (exactly word).Lossless := by
  intro cs piece rest h
  simp only [exactly, Option.ite_none_right_eq_some, Option.some.injEq, Prod.mk.injEq] at h
  obtain ⟨hpre, rfl, rfl⟩ := h
  obtain ⟨tail, rfl⟩ := List.isPrefixOf_iff_prefix.1 hpre
  simp

theorem many_lossless (p : Char → Bool) : (many p).Lossless := by
  intro cs piece rest h
  simp only [many, Option.some.injEq, Prod.mk.injEq] at h
  obtain ⟨rfl, rfl⟩ := h
  exact List.takeWhile_append_dropWhile

theorem andThen_lossless {a b : Scan} (ha : a.Lossless) (hb : b.Lossless) :
    (a.andThen b).Lossless := by
  intro cs piece rest h
  unfold andThen at h
  split at h
  · cases h
  · next x r hx =>
    split at h
    · cases h
    · next y r' hy =>
      simp only [Option.some.injEq, Prod.mk.injEq] at h
      obtain ⟨rfl, rfl⟩ := h
      rw [List.append_assoc, hb _ _ _ hy, ha _ _ _ hx]

theorem orElse_lossless {a b : Scan} (ha : a.Lossless) (hb : b.Lossless) :
    (a.orElse b).Lossless := by
  intro cs piece rest h
  unfold orElse at h
  split at h
  · next r hr =>
    obtain rfl : r = (piece, rest) := by simpa using h
    exact ha _ _ _ hr
  · exact hb _ _ _ h

theorem opt_lossless {a : Scan} (ha : a.Lossless) : a.opt.Lossless := by
  intro cs piece rest h
  simp only [opt, Option.some.injEq] at h
  cases hr : a cs with
  | none =>
    rw [hr] at h
    simp only [Option.getD_none, Prod.mk.injEq] at h
    obtain ⟨rfl, rfl⟩ := h
    rfl
  | some r =>
    rw [hr] at h
    obtain rfl : r = (piece, rest) := by simpa using h
    exact ha _ _ _ hr

end Scan

end ExtensionAudit.Text
