import ExtensionAudit.Text.Scan
import Mathlib.Computability.Language

/-!
# Scans and the languages that they read

A scan is greedy, so what it splits off depends on what follows. It reads a language when every
piece that it splits off is a word, and when it splits off every word that stands in front of a text
with which it could not go on. The characters with which it could go on are part of the statement:
they are what makes two scans compose, the second one beginning where the first one has to end.
-/

namespace ExtensionAudit.Text

open Language

def stretch (p : Char → Bool) : Language Char := {word | ∀ c ∈ word, p c = true}

/-- Every word of the language begins with a character of the class. -/
def StartsIn (p : Char → Bool) (l : Language Char) : Prop :=
  ∀ word ∈ l, ∃ c tail, word = c :: tail ∧ p c = true

/-- Every word of the language consists of characters of the class. -/
def Over (p : Char → Bool) (l : Language Char) : Prop := ∀ word ∈ l, word ∈ stretch p

/-- The text does not begin with a character of the class. -/
def Clear (p : Char → Bool) (cs : List Char) : Prop := ∀ c ∈ cs.head?, p c = false

/-- The scan splits off words of the language only, and each of them unless the text behind it
begins with a character with which the scan could go on. -/
structure Scan.Reads (scan : Scan) (l : Language Char) (goesOn : Char → Bool) : Prop where
  sound : ∀ {cs piece rest}, scan cs = some (piece, rest) → piece ∈ l ∧ piece ++ rest = cs
  complete : ∀ {piece rest}, piece ∈ l → Clear goesOn rest →
    scan (piece ++ rest) = some (piece, rest)

section Start

variable {p q : Char → Bool} {l m : Language Char}

theorem mem_stretch {word : List Char} : word ∈ stretch p ↔ ∀ c ∈ word, p c = true := Iff.rfl

theorem mem_word {word w : List Char} : w ∈ ({word} : Language Char) ↔ w = word := Iff.rfl

theorem not_mem_of_stretch {word : List Char} {c : Char} (h : word ∈ stretch p)
    (hc : p c = false) : c ∉ word := by
  intro hmem
  rw [h c hmem] at hc
  cases hc

theorem append_mem_stretch {word tail : List Char} :
    word ++ tail ∈ stretch p ↔ word ∈ stretch p ∧ tail ∈ stretch p := by
  simp only [mem_stretch, List.forall_mem_append]

theorem over_word {word : List Char} (h : word.all p = true) :
    Over p ({word} : Language Char) := by
  intro w hw
  rw [mem_word.1 hw]
  exact List.all_eq_true.1 h

theorem over_one : Over p (1 : Language Char) := by
  intro w hw
  rw [(mem_one w).1 hw]
  exact mem_stretch.2 (by simp)

theorem over_stretch (hpq : ∀ c, q c = true → p c = true) : Over p (stretch q) := by
  intro w hw c hc
  exact hpq c (hw c hc)

theorem Over.mul (hl : Over p l) (hm : Over p m) : Over p (l * m) := by
  intro w hw
  obtain ⟨a, ha, b, hb, rfl⟩ := mem_mul.1 hw
  exact append_mem_stretch.2 ⟨hl a ha, hm b hb⟩

theorem Over.add (hl : Over p l) (hm : Over p m) : Over p (l + m) := by
  intro w hw
  rcases (mem_add _ _ _).1 hw with h | h
  · exact hl w h
  · exact hm w h

theorem clear_cons {c : Char} {cs : List Char} : Clear p (c :: cs) ↔ p c = false := by
  simp [Clear]

theorem clear_nothing (cs : List Char) : Clear (fun _ => false) cs := by simp [Clear]

theorem Clear.mono {cs : List Char} (h : Clear q cs) (hpq : ∀ c, p c = true → q c = true) :
    Clear p cs := by
  intro c hc
  have hq := h c hc
  by_contra hp
  rw [hpq c (by simpa using hp)] at hq
  cases hq

/-- A word that begins outside the class keeps the text clear of it, whatever follows. -/
theorem StartsIn.clear {word rest : List Char} (h : StartsIn q l) (hword : word ∈ l)
    (hpq : ∀ c, q c = true → p c = false) : Clear p (word ++ rest) := by
  obtain ⟨c, tail, rfl, hc⟩ := h word hword
  exact clear_cons.2 (hpq c hc)

theorem startsIn_word {c : Char} {tail : List Char} (hc : p c = true) :
    StartsIn p ({c :: tail} : Language Char) := by
  intro word hword
  exact ⟨c, tail, mem_word.1 hword, hc⟩

theorem StartsIn.mul (h : StartsIn p l) : StartsIn p (l * m) := by
  intro word hword
  obtain ⟨a, ha, b, _, rfl⟩ := mem_mul.1 hword
  obtain ⟨c, tail, rfl, hc⟩ := h a ha
  exact ⟨c, tail ++ b, rfl, hc⟩

theorem StartsIn.add (hl : StartsIn p l) (hm : StartsIn p m) : StartsIn p (l + m) := by
  intro word hword
  rcases (mem_add _ _ _).1 hword with h | h
  · exact hl word h
  · exact hm word h

theorem StartsIn.opt_mul (hl : StartsIn p l) (hm : StartsIn p m) :
    StartsIn p ((1 + l) * m) := by
  rw [add_mul, one_mul]
  exact hm.add hl.mul

theorem StartsIn.mono (h : StartsIn p l) (hpq : ∀ c, p c = true → q c = true) :
    StartsIn q l := by
  intro word hword
  obtain ⟨c, tail, rfl, hc⟩ := h word hword
  exact ⟨c, tail, rfl, hpq c hc⟩

end Start

namespace Scan

variable {a b : Scan} {l m : Language Char} {f p q : Char → Bool}

theorem Reads.mono (h : a.Reads l p) (hpq : ∀ c, p c = true → q c = true) : a.Reads l q where
  sound := h.sound
  complete := fun hpiece hrest => h.complete hpiece (hrest.mono hpq)

theorem exactly_append (word rest : List Char) :
    exactly word (word ++ rest) = some (word, rest) := by
  simp [exactly]

theorem exactly_reads (word : List Char) : (exactly word).Reads {word} fun _ => false where
  sound := fun {cs piece rest} h => by
    have happend := exactly_lossless word cs piece rest h
    simp only [exactly, Option.ite_none_right_eq_some, Option.some.injEq, Prod.mk.injEq] at h
    exact ⟨mem_word.2 h.2.1.symm, happend⟩
  complete := fun hpiece _ => by
    rw [mem_word.1 hpiece]
    exact exactly_append word _

theorem many_append {word rest : List Char} (hword : word ∈ stretch p) (hrest : Clear p rest) :
    many p (word ++ rest) = some (word, rest) := by
  have htake : rest.takeWhile p = [] := by
    cases rest with
    | nil => rfl
    | cons c rest => simp [clear_cons.1 hrest]
  have hdrop : rest.dropWhile p = rest := by
    cases rest with
    | nil => rfl
    | cons c rest => simp [clear_cons.1 hrest]
  unfold many
  rw [List.takeWhile_append_of_pos (mem_stretch.1 hword),
    List.dropWhile_append_of_pos (mem_stretch.1 hword), htake, hdrop, List.append_nil]

theorem many_reads (p : Char → Bool) : (many p).Reads (stretch p) p where
  sound := fun {cs piece rest} h => by
    refine ⟨?_, many_lossless p cs piece rest h⟩
    simp only [many, Option.some.injEq, Prod.mk.injEq] at h
    rw [← h.1]
    exact List.all_eq_true.1 List.all_takeWhile
  complete := fun hpiece hrest => many_append hpiece hrest

theorem andThen_eq_some_iff {cs piece rest : List Char} :
    a.andThen b cs = some (piece, rest) ↔
      ∃ x y mid, a cs = some (x, mid) ∧ b mid = some (y, rest) ∧ x ++ y = piece := by
  constructor
  · intro h
    unfold andThen at h
    split at h
    · cases h
    · next x mid hx =>
      split at h
      · cases h
      · next y tail hy =>
        simp only [Option.some.injEq, Prod.mk.injEq] at h
        obtain ⟨rfl, rfl⟩ := h
        exact ⟨x, y, mid, hx, hy, rfl⟩
  · rintro ⟨x, y, mid, hx, hy, rfl⟩
    simp [andThen, hx, hy]

/-- Scans compose where every text that the second one can meet is one with which the first one
cannot go on. -/
theorem Reads.andThen_of_clear (ha : a.Reads l p) (hb : b.Reads m q)
    (hclear : ∀ word ∈ m, ∀ rest, Clear q rest → Clear p (word ++ rest)) :
    (a.andThen b).Reads (l * m) q where
  sound := fun h => by
    obtain ⟨x, y, mid, hx, hy, rfl⟩ := andThen_eq_some_iff.1 h
    obtain ⟨hxl, rfl⟩ := ha.sound hx
    obtain ⟨hym, rfl⟩ := hb.sound hy
    exact ⟨append_mem_mul hxl hym, by rw [List.append_assoc]⟩
  complete := fun {piece rest} hpiece hrest => by
    obtain ⟨x, hx, y, hy, rfl⟩ := mem_mul.1 hpiece
    rw [List.append_assoc]
    exact andThen_eq_some_iff.2
      ⟨x, y, y ++ rest, ha.complete hx (hclear y hy rest hrest), hb.complete hy hrest, rfl⟩

theorem Reads.andThen (ha : a.Reads l p) (hb : b.Reads m q) (hm : StartsIn f m)
    (hstart : ∀ c, f c = true → p c = false) : (a.andThen b).Reads (l * m) q :=
  ha.andThen_of_clear hb fun _ hword _ _ => hm.clear hword hstart

theorem Reads.exactly_andThen {word : List Char} (hb : b.Reads m q) :
    ((exactly word).andThen b).Reads ({word} * m) q :=
  (exactly_reads word).andThen_of_clear hb fun _ _ _ _ => clear_nothing _

/-- A scan fails on a text that begins as no word of its language does. -/
theorem Reads.eq_none (ha : a.Reads l p) (hl : StartsIn f l) {cs : List Char}
    (hcs : Clear f cs) : a cs = none := by
  cases h : a cs with
  | none => rfl
  | some r =>
    obtain ⟨piece, rest⟩ := r
    obtain ⟨hpiece, rfl⟩ := ha.sound h
    obtain ⟨c, tail, rfl, hc⟩ := hl piece hpiece
    have := clear_cons.1 hcs
    rw [hc] at this
    cases this

theorem Reads.opt (ha : a.Reads l p) (hl : StartsIn f l) :
    a.opt.Reads (1 + l) fun c => p c || f c where
  sound := fun {cs piece rest} h => by
    simp only [Scan.opt, Option.some.injEq] at h
    cases hr : a cs with
    | none =>
      rw [hr, Option.getD_none, Prod.mk.injEq] at h
      obtain ⟨rfl, rfl⟩ := h
      exact ⟨(mem_add _ _ _).2 (.inl nil_mem_one), rfl⟩
    | some r =>
      rw [hr, Option.getD_some] at h
      subst h
      exact ⟨(mem_add _ _ _).2 (.inr (ha.sound hr).1), (ha.sound hr).2⟩
  complete := fun {piece rest} hpiece hrest => by
    have hp : Clear p rest := hrest.mono fun c hc => by simp [hc]
    have hstart : Clear f rest := hrest.mono fun c hc => by simp [hc]
    rcases (mem_add _ _ _).1 hpiece with h | h
    · rw [(mem_one _).1 h, List.nil_append]
      simp [Scan.opt, ha.eq_none hl hstart]
    · simp [Scan.opt, ha.complete h hp]

theorem Reads.orElse (ha : a.Reads l p) (hb : b.Reads m q) (hl : StartsIn f l)
    (hm : StartsIn (fun c => !f c) m) :
    (a.orElse b).Reads (l + m) fun c => p c || q c where
  sound := fun {cs piece rest} h => by
    unfold Scan.orElse at h
    cases hr : a cs with
    | none =>
      rw [hr] at h
      exact ⟨(mem_add _ _ _).2 (.inr (hb.sound h).1), (hb.sound h).2⟩
    | some r =>
      rw [hr] at h
      obtain rfl := Option.some.inj h
      exact ⟨(mem_add _ _ _).2 (.inl (ha.sound hr).1), (ha.sound hr).2⟩
  complete := fun {piece rest} hpiece hrest => by
    have hp : Clear p rest := hrest.mono fun c hc => by simp [hc]
    have hq : Clear q rest := hrest.mono fun c hc => by simp [hc]
    unfold Scan.orElse
    rcases (mem_add _ _ _).1 hpiece with h | h
    · rw [ha.complete h hp]
    · have hnone : a (piece ++ rest) = none :=
        ha.eq_none hl (hm.clear h fun c hc => by simpa using hc)
      rw [hnone]
      exact hb.complete h hq

end Scan

end ExtensionAudit.Text
