import Mathlib.Order.Nat

/-!
# Loops over the positions of a text

A loop that goes over a text by positions looks at the text at the position of its state, in each
round, and goes on with another state, is left, or halts. Two ways to halt say nothing about the
text and must not come about: a look at a position that the text does not have, and a loop that has
used up the rounds which it was given.

The rule for loops is the main statement here. If each round moves on within a limit, then as many
rounds are enough as there are positions up to the limit.
-/

namespace ExtensionAudit.Text

/-- Why a loop halts. -/
inductive Halt (ε : Type) where
  | fault (fault : ε)
  | outOfRange
  | endless
  deriving DecidableEq, Repr

/-- How one round of a loop ends. -/
inductive Round (ε σ : Type) where
  | again (state : σ)
  | leave (state : σ)
  | halt (state : σ) (reason : Halt ε)

section Loops

variable {ε σ : Type} {position : σ → Nat} {limit rounds : Nat} {round : σ → Round ε σ} {s : σ}

/-- The state in which a loop ends that is given some number of rounds, and why it halts, if it is
not left. -/
def loop (round : σ → Round ε σ) : Nat → σ → σ × Option (Halt ε)
  | 0, s => (s, some .endless)
  | rounds + 1, s =>
    match round s with
    | .again t => loop round rounds t
    | .leave t => (t, none)
    | .halt t reason => (t, some reason)

/-- From a state on, something ended at a position from there up to the limit, and if it halted,
then at a fault. -/
structure EndsWithin (position : σ → Nat) (limit : Nat) (s : σ) (ending : σ × Option (Halt ε)) :
    Prop where
  le : position s ≤ position ending.1
  le_limit : position ending.1 ≤ limit
  fault : ∀ reason, ending.2 = some reason → ∃ fault, reason = .fault fault

/-- A round that is to be followed by another one has moved on. -/
def Round.MovesOn (position : σ → Nat) (limit : Nat) (s : σ) : Round ε σ → Prop
  | .again t => position s < position t ∧ position t ≤ limit
  | .leave t => EndsWithin (ε := ε) position limit s (t, none)
  | .halt t reason => EndsWithin position limit s (t, some reason)

/-- Each round of the loop moves on within the limit, leaves the loop or halts at a fault. -/
def MovesOn (position : σ → Nat) (limit : Nat) (round : σ → Round ε σ) : Prop :=
  ∀ s, position s ≤ limit → (round s).MovesOn position limit s

theorem endsWithin_none {t : σ} (hle : position s ≤ position t) (hlimit : position t ≤ limit) :
    EndsWithin (ε := ε) position limit s (t, none) :=
  ⟨hle, hlimit, fun _ hreason => nomatch hreason⟩

theorem endsWithin_fault {t : σ} (hle : position s ≤ position t) (hlimit : position t ≤ limit)
    (fault : ε) : EndsWithin position limit s (t, some (.fault fault)) :=
  ⟨hle, hlimit, fun _ hreason => ⟨fault, (Option.some.inj hreason).symm⟩⟩

/-- What is known of a round, by how it ends. -/
def Round.Meets (kept done : σ → Prop) (broken : σ → ε → Prop) : Round ε σ → Prop
  | .again t => kept t
  | .leave t => done t
  | .halt t (.fault fault) => broken t fault
  | .halt _ _ => True

/-- What is known of a loop that was left or halted at a fault. -/
inductive Ends (done : σ → Prop) (broken : σ → ε → Prop) : σ × Option (Halt ε) → Prop where
  | left {t : σ} : done t → Ends done broken (t, none)
  | halted {t : σ} {fault : ε} : broken t fault → Ends done broken (t, some (.fault fault))

/-- A loop whose rounds move on and keep what is known ends with what its last round makes of it. -/
theorem MovesOn.loop_ends (hround : MovesOn position limit round) (kept done : σ → Prop)
    (broken : σ → ε → Prop)
    (hmeets : ∀ s, position s ≤ limit → kept s → (round s).Meets kept done broken)
    (hs : position s ≤ limit) (hkept : kept s) (hrounds : limit < position s + rounds) :
    Ends done broken (Text.loop round rounds s) := by
  induction rounds generalizing s with
  | zero => omega
  | succ rounds ih =>
    have hnext := hround s hs
    have hmet := hmeets s hs hkept
    rw [Text.loop]
    cases hcase : round s with
    | again t =>
      rw [hcase] at hnext hmet
      obtain ⟨hmoved, hlimit⟩ := hnext
      exact ih hlimit hmet (by omega)
    | leave t =>
      rw [hcase] at hmet
      exact .left hmet
    | halt t reason =>
      rw [hcase] at hnext hmet
      obtain ⟨fault, rfl⟩ := hnext.fault reason rfl
      exact .halted hmet

/-- A loop whose rounds move on ends within the limit. -/
theorem MovesOn.loop (hround : MovesOn position limit round) (hs : position s ≤ limit)
    (hrounds : limit < position s + rounds) :
    EndsWithin position limit s (Text.loop round rounds s) := by
  have hends := hround.loop_ends (fun t => position s ≤ position t)
    (fun t => position s ≤ position t ∧ position t ≤ limit)
    (fun t _ => position s ≤ position t ∧ position t ≤ limit) ?_ hs le_rfl hrounds
  · generalize Text.loop round rounds s = ending at hends
    cases hends with
    | left hdone => exact endsWithin_none hdone.1 hdone.2
    | halted hbroken => exact endsWithin_fault hbroken.1 hbroken.2 _
  · intro t ht hle
    have hnext := hround t ht
    cases hcase : round t with
    | again u =>
      rw [hcase] at hnext
      exact hle.trans hnext.1.le
    | leave u =>
      rw [hcase] at hnext
      exact ⟨hle.trans hnext.le, hnext.le_limit⟩
    | halt u reason =>
      rw [hcase] at hnext
      obtain ⟨fault, rfl⟩ := hnext.fault reason rfl
      exact ⟨hle.trans hnext.le, hnext.le_limit⟩

end Loops

/-! ### Words at positions -/

variable {text word cs : List Char} {start position : Nat}

def standsAt (text word : List Char) (position : Nat) : Bool := word.isPrefixOf (text.drop position)

/-- The first position at which a word stands, in a text that begins at some position. -/
def findFrom (word : List Char) : Nat → List Char → Option Nat
  | _, [] => none
  | start, c :: rest =>
    if word.isPrefixOf (c :: rest) then some start else findFrom word (start + 1) rest

/-- The first position from a position on at which a word stands in a text. -/
def find (text word : List Char) (start : Nat) : Option Nat := findFrom word start (text.drop start)

theorem exists_of_findFrom (hfound : findFrom word start cs = some position) :
    ∃ front rest, cs = front ++ (word ++ rest) ∧ position = start + front.length := by
  induction cs generalizing start with
  | nil => cases hfound
  | cons c cs ih =>
    rw [findFrom] at hfound
    split at hfound
    · next hword =>
      obtain ⟨rest, hrest⟩ := List.isPrefixOf_iff_prefix.mp hword
      obtain rfl := Option.some.inj hfound
      exact ⟨[], rest, hrest.symm, rfl⟩
    · obtain ⟨front, rest, rfl, rfl⟩ := ih hfound
      exact ⟨c :: front, rest, rfl, by rw [List.length_cons]; omega⟩

theorem find_within (hstart : start ≤ text.length) (hfound : find text word start = some position) :
    start ≤ position ∧ position + word.length ≤ text.length := by
  obtain ⟨front, rest, hsplit, rfl⟩ := exists_of_findFrom hfound
  have hlength := congrArg List.length hsplit
  simp only [List.length_drop, List.length_append] at hlength
  omega

theorem exists_drop_of_find (hfound : find text word start = some position) :
    ∃ rest, text.drop position = word ++ rest := by
  obtain ⟨front, rest, hsplit, rfl⟩ := exists_of_findFrom hfound
  exact ⟨rest, by rw [← List.drop_drop, hsplit, List.drop_left]⟩

theorem lt_length_of_drop {c : Char} {rest : List Char} (hrest : text.drop position = c :: rest) :
    position < text.length := by
  have hlength := congrArg List.length hrest
  rw [List.length_drop, List.length_cons] at hlength
  omega

theorem not_lt_length_of_drop (hrest : text.drop position = []) : ¬ position < text.length :=
  Nat.not_lt.mpr (List.drop_eq_nil_iff.mp hrest)

theorem getElem?_of_drop {c : Char} {rest : List Char} (hrest : text.drop position = c :: rest) :
    text[position]? = some c := by
  have hfirst := congrArg (·[0]?) hrest
  simpa using hfirst

theorem drop_succ_of_drop {c : Char} {rest : List Char} (hrest : text.drop position = c :: rest) :
    text.drop (position + 1) = rest := by
  rw [← List.tail_drop, hrest, List.tail_cons]

theorem slice_of_drop {piece rest : List Char} (hrest : text.drop position = piece ++ rest) :
    (text.take (position + piece.length)).drop position = piece := by
  rw [List.drop_take, hrest, Nat.add_sub_cancel_left, List.take_left]

theorem drop_add_of_drop {piece rest : List Char} (hrest : text.drop position = piece ++ rest) :
    text.drop (position + piece.length) = rest := by
  rw [← List.drop_drop, hrest, List.drop_left]

theorem standsAt_within (hposition : position ≤ text.length)
    (hstands : standsAt text word position = true) : position + word.length ≤ text.length := by
  have hlength := (List.isPrefixOf_iff_prefix.mp hstands).length_le
  rw [List.length_drop] at hlength
  omega

/-! ### Passing over characters of a class -/

section Pass

variable {ε : Type} {p : Char → Bool} {rounds : Nat}

/-- A round of the loop that passes over characters of a class. -/
def passRound (p : Char → Bool) (text : List Char) (position : Nat) : Round ε Nat :=
  if position < text.length then
    match text[position]? with
    | none => .halt position .outOfRange
    | some c => if p c then .again (position + 1) else .leave position
  else .leave position

theorem passRound_movesOn (p : Char → Bool) (text : List Char) :
    MovesOn (ε := ε) id text.length (passRound p text) := by
  intro position hposition
  rw [passRound]
  split
  · next hinside =>
    rw [List.getElem?_eq_getElem hinside]
    dsimp only
    split
    · exact ⟨Nat.lt_succ_self position, hinside⟩
    · exact endsWithin_none le_rfl hposition
  · exact endsWithin_none le_rfl hposition

/-- The loop ends behind the longest stretch of characters of the class. -/
theorem loop_passRound (hposition : position ≤ text.length)
    (hrounds : text.length < position + rounds) :
    loop (ε := ε) (passRound p text) rounds position
      = (position + ((text.drop position).takeWhile p).length, none) := by
  generalize hgoal : position + ((text.drop position).takeWhile p).length = goal
  have hends := (passRound_movesOn (ε := ε) p text).loop_ends
    (fun index => index + ((text.drop index).takeWhile p).length = goal) (· = goal)
    (fun _ _ => False) ?_ hposition hgoal hrounds
  · generalize loop (passRound p text) rounds position = ending at hends
    cases hends with
    | left hdone => rw [hdone]
    | halted hbroken => exact hbroken.elim
  · intro position _ hkept
    rw [passRound]
    cases hrest : text.drop position with
    | nil =>
      rw [if_neg (not_lt_length_of_drop hrest)]
      rwa [hrest] at hkept
    | cons c rest =>
      rw [if_pos (lt_length_of_drop hrest), getElem?_of_drop hrest]
      rw [hrest] at hkept
      dsimp only
      by_cases hc : p c = true
      · rw [List.takeWhile_cons_of_pos hc, List.length_cons] at hkept
        rw [if_pos hc, Round.Meets, drop_succ_of_drop hrest, ← hkept]
        omega
      · rw [List.takeWhile_cons_of_neg hc] at hkept
        rw [if_neg hc]
        exact hkept

end Pass

end ExtensionAudit.Text
