import Mathlib
import ExtensionAudit.Proofs.Rule.ForbiddenCalls

/-!
# Where a line calls forbidden functions

The search for calls goes over a line once, tries the longer names first, and goes on behind the
bracket of a call that it found. On ASCII all of that comes to a description of single places: at a
call stands a whole name, as far as name characters go, and it is equal to a forbidden name ignoring
case. Which other names are forbidden, and in what order they are tried, is nothing to it.
-/

namespace ExtensionAudit.ForbiddenCalls

/-! ### Identifiers -/

def isNameCharacter (c : Char) : Bool := c.isAlphanum || c == '_'

/-- A name of ASCII letters, digits and low lines. It may begin with a digit as well. -/
structure IsIdentifier (name : List Char) : Prop where
  nonempty : name ≠ []
  characters : ∀ c ∈ name, isNameCharacter c = true

instance (name : List Char) : Decidable (IsIdentifier name) :=
  decidable_of_iff (name ≠ [] ∧ name.all isNameCharacter = true)
    ⟨fun h => ⟨h.1, List.all_eq_true.mp h.2⟩, fun h => ⟨h.1, List.all_eq_true.mpr h.2⟩⟩

/-- Equal but for the case of ASCII letters. -/
def EqualIgnoringCase (a b : List Char) : Prop := a.map Char.toLower = b.map Char.toLower

theorem toNat_lt_of_isNameCharacter {c : Char} (hc : isNameCharacter c = true) : c.toNat < 128 := by
  rw [isNameCharacter, Bool.or_eq_true, beq_iff_eq] at hc
  obtain hletter | rfl := hc
  · simp only [Char.isAlphanum, Char.isAlpha, Char.isUpper, Char.isLower, Char.isDigit,
      Bool.or_eq_true, Bool.and_eq_true, decide_eq_true_eq, UInt32.le_iff_toNat_le] at hletter
    have hupper : 'Z'.val.toNat = 90 := rfl
    have hlower : 'z'.val.toNat = 122 := rfl
    have hdigit : '9'.val.toNat = 57 := rfl
    change c.val.toNat < 128
    omega
  · decide

theorem isNameCharacter_toLower {c : Char} (hc : c.toNat < 128) :
    isNameCharacter c.toLower = isNameCharacter c :=
  Text.of_ascii (motive := fun c => isNameCharacter c.toLower = isNameCharacter c) (by decide) hc

theorem isWord_eq_isNameCharacter {c : Char} (hc : c.toNat < 128) :
    Text.isWord c = isNameCharacter c :=
  Text.of_ascii (motive := fun c => Text.isWord c = isNameCharacter c) (by decide) hc

theorem isNameCharacter_eq_false_of_isBlank {c : Char} (hc : Text.isBlank c = true) :
    isNameCharacter c = false := by
  rw [← Bool.not_eq_true]
  intro hname
  have hnone : ∀ n < 128,
      Text.isBlank (Char.ofNat n) = true → isNameCharacter (Char.ofNat n) = false := by
    decide
  have hother := Text.of_ascii
    (motive := fun c => Text.isBlank c = true → isNameCharacter c = false) hnone
    (toNat_lt_of_isNameCharacter hname) hc
  rw [hname] at hother
  cases hother

theorem IsIdentifier.isAscii {name : List Char} (hname : IsIdentifier name) : Text.IsAscii name :=
  fun c hc => toNat_lt_of_isNameCharacter (hname.characters c hc)

/-- Among ASCII texts, to be equal to an identifier ignoring case is to be one. -/
theorem IsIdentifier.of_equalIgnoringCase {name written : List Char} (hname : IsIdentifier name)
    (hwritten : Text.IsAscii written) (hsame : EqualIgnoringCase name written) :
    IsIdentifier written where
  nonempty := by
    rintro rfl
    exact hname.nonempty (List.map_eq_nil_iff.mp hsame)
  characters c hc := by
    have hlower : c.toLower ∈ name.map Char.toLower := hsame ▸ List.mem_map_of_mem hc
    obtain ⟨d, hd, hletter⟩ := List.mem_map.mp hlower
    rw [← isNameCharacter_toLower (hwritten c hc), ← hletter,
      isNameCharacter_toLower (hname.isAscii d hd)]
    exact hname.characters d hd

theorem equalIgnoringCase_map_toLower_iff {a b : List Char} (ha : Text.IsAscii a) :
    EqualIgnoringCase (a.map Char.toLower) b ↔ EqualIgnoringCase a b := by
  have hagain : (a.map Char.toLower).map Char.toLower = a.map Char.toLower := by
    rw [List.map_map]
    exact List.map_congr_left fun c hc => Text.toLower_toLower (ha c hc)
  rw [EqualIgnoringCase, hagain, EqualIgnoringCase]

theorem IsIdentifier.map_toLower {name : List Char} (hname : IsIdentifier name) :
    IsIdentifier (name.map Char.toLower) := by
  apply hname.of_equalIgnoringCase
  · intro c hc
    obtain ⟨d, hd, rfl⟩ := List.mem_map.mp hc
    exact Text.toNat_toLower_lt (hname.isAscii d hd)
  · exact ((equalIgnoringCase_map_toLower_iff hname.isAscii).mpr rfl).symm

theorem spells_iff_of_ascii {name written : List Char} (hname : Text.IsAscii name)
    (hwritten : Text.IsAscii written) : Spells name written ↔ EqualIgnoringCase name written := by
  induction name generalizing written with
  | nil => cases written <;> simp [Spells, EqualIgnoringCase]
  | cons p name ih =>
    cases written with
    | nil => simp [Spells, EqualIgnoringCase]
    | cons c written =>
      obtain ⟨hp, hname⟩ := List.forall_mem_cons.mp hname
      obtain ⟨hc, hwritten⟩ := List.forall_mem_cons.mp hwritten
      have hlater := ih hname hwritten
      rw [Spells, EqualIgnoringCase] at hlater ⊢
      rw [List.forall₂_cons, List.map_cons, List.map_cons, List.cons.injEq, hlater,
        Text.sameLetter_iff_of_ascii hp hc]

/-! ### Calls at a place -/

/-- Between the two texts the name stands as a call: a whole name that no dollar sign or member sign
precedes, with an opening bracket behind it and blanks between at most. -/
structure IsCall (front name behind : List Char) : Prop where
  identifier : IsIdentifier name
  starts : ∀ c ∈ front.getLast?, isNameCharacter c = false ∧ c ∉ ['$', '>', ':']
  ends : ∀ c ∈ behind.head?, isNameCharacter c = false
  called : ∃ gap rest, (∀ c ∈ gap, Text.isBlank c = true) ∧ behind = gap ++ '(' :: rest

/-- At a place of the line one of the names is called, as it is written there. -/
def IsCallAt (names : List (List Char)) (line : List Char) (place : Nat) (written : List Char) :
    Prop :=
  ∃ front behind, line = front ++ (written ++ behind) ∧ front.length = place
    ∧ IsCall front written behind ∧ ∃ name ∈ names, EqualIgnoringCase name written

variable {names : List (List Char)} {front written behind gap rest line cs : List Char}

theorem isNameCharacter_bracket : isNameCharacter '(' = false := by decide

theorem IsCall.takeWhile_eq (hcall : IsCall front written behind) :
    (written ++ behind).takeWhile isNameCharacter = written := by
  rw [List.takeWhile_append_of_pos hcall.identifier.characters]
  cases behind with
  | nil => simp
  | cons c later => rw [List.takeWhile_cons_of_neg (by simp [hcall.ends c rfl]), List.append_nil]

theorem IsCallAt.unique {place : Nat} {other : List Char}
    (hcall : IsCallAt names line place written) (hother : IsCallAt names line place other) : written = other := by
  obtain ⟨front, behind, rfl, hplace, hcall, -⟩ := hcall
  obtain ⟨front', behind', hsplit, hplace', hother, -⟩ := hother
  obtain ⟨-, hrest⟩ := List.append_inj hsplit (hplace.trans hplace'.symm)
  rw [← hcall.takeWhile_eq, hrest, hother.takeWhile_eq]

theorem isBoundary_iff {before : Option Char} (hbefore : ∀ c ∈ before, c.toNat < 128) :
    isBoundary before = true ↔ ∀ c ∈ before, isNameCharacter c = false ∧ c ∉ ['$', '>', ':'] := by
  cases before with
  | none => simp [isBoundary]
  | some c =>
    rw [isBoundary, isWord_eq_isNameCharacter (hbefore c rfl)]
    simp [and_assoc]

theorem exists_isCall_of_callAt (hnames : ∀ name ∈ names, IsIdentifier name)
    (hfront : Text.IsAscii front) (hcs : Text.IsAscii cs)
    (hboundary : isBoundary front.getLast? = true)
    (hfound : callAt names cs = some (written, rest)) :
    ∃ gap, (∀ c ∈ gap, Text.isBlank c = true) ∧ cs = written ++ (gap ++ '(' :: rest)
      ∧ IsCall front written (gap ++ '(' :: rest)
      ∧ ∃ name ∈ names, EqualIgnoringCase name written := by
  obtain ⟨name, hmem, hspells, gap, hgap, rfl⟩ := exists_of_callAt hfound
  have hwritten : Text.IsAscii written := fun c hc => hcs c (List.mem_append_left _ hc)
  have hsame := (spells_iff_of_ascii (hnames name hmem).isAscii hwritten).mp hspells
  refine ⟨gap, hgap, rfl, ⟨?_, ?_, ?_, gap, rest, hgap, rfl⟩, name, hmem, hsame⟩
  · exact (hnames name hmem).of_equalIgnoringCase hwritten hsame
  · exact (isBoundary_iff fun c hc => hfront c (List.mem_of_getLast? hc)).mp hboundary
  · cases gap with
    | nil => simpa using isNameCharacter_bracket
    | cons c later =>
      simpa using isNameCharacter_eq_false_of_isBlank (hgap c List.mem_cons_self)

theorem not_isCallAt_of_callAt (hnames : ∀ name ∈ names, IsIdentifier name)
    (hline : Text.IsAscii (front ++ cs))
    (hmissed : (if isBoundary front.getLast? then callAt names cs else none) = none) :
    ¬ IsCallAt names (front ++ cs) front.length written := by
  rintro ⟨front', behind, hsplit, hplace, hcall, name, hname, hsame⟩
  obtain ⟨rfl, rfl⟩ := List.append_inj hsplit hplace.symm
  obtain ⟨gap, rest, hgap, rfl⟩ := hcall.called
  have hascii := List.forall_mem_append.mp hline
  have hwritten : Text.IsAscii written := fun c hc => hascii.2 c (List.mem_append_left _ hc)
  have hboundary : isBoundary front.getLast? = true :=
    (isBoundary_iff fun c hc => hascii.1 c (List.mem_of_getLast? hc)).mpr hcall.starts
  rw [if_pos hboundary] at hmissed
  exact callAt_ne_none hname ((spells_iff_of_ascii (hnames name hname).isAscii hwritten).mpr hsame)
    hgap hmissed

/-- Behind the start of a call nothing is called before its bracket. -/
theorem not_isCallAt_within (hidentifier : IsIdentifier written)
    (hgap : ∀ c ∈ gap, Text.isBlank c = true) {place : Nat} (hafter : front.length < place)
    (hbefore : place < front.length + (written ++ (gap ++ ['('])).length) {other : List Char} :
    ¬ IsCallAt names (front ++ (written ++ (gap ++ '(' :: rest))) place other := by
  rintro ⟨front', behind, hsplit, rfl, hcall, -⟩
  obtain ⟨c, later, rfl⟩ := List.exists_cons_of_ne_nil hcall.identifier.nonempty
  have hc : isNameCharacter c = true := hcall.identifier.characters c List.mem_cons_self
  obtain ⟨middle, rfl, hmiddle⟩ : ∃ middle, front' = front ++ middle
      ∧ written ++ (gap ++ '(' :: rest) = middle ++ (c :: later ++ behind) := by
    obtain ⟨middle, hfront, hrest⟩ | ⟨middle, rfl, hrest⟩ := List.append_eq_append_iff.mp hsplit
    · exact ⟨middle, hfront, hrest⟩
    · rw [List.length_append] at hafter
      omega
  have hnonempty : middle ≠ [] := by
    rintro rfl
    simp at hafter
  obtain ⟨blanks, rfl, hblanks⟩ | ⟨tail, rfl, htail⟩ := List.append_eq_append_iff.mp hmiddle
  · -- The other name starts in the blanks or at the bracket, where no name character is.
    have hplace : (gap ++ '(' :: rest)[blanks.length]? = some c := by
      rw [hblanks, List.getElem?_append_right le_rfl, Nat.sub_self]
      rfl
    have hshort : blanks.length < (gap ++ ['(']).length := by
      simp only [List.length_append] at hbefore ⊢
      omega
    rw [List.append_cons, List.getElem?_append_left hshort] at hplace
    have hother : isNameCharacter c = false := by
      obtain hblank | hbracket := List.mem_append.mp (List.mem_of_getElem? hplace)
      · exact isNameCharacter_eq_false_of_isBlank (hgap c hblank)
      · rw [List.mem_singleton.mp hbracket]
        exact isNameCharacter_bracket
    rw [hc] at hother
    cases hother
  · -- The other name starts inside the name, behind a name character.
    have hlast : middle.getLast hnonempty ∈ (front ++ middle).getLast? := by
      rw [List.getLast?_append_of_ne_nil _ hnonempty, List.getLast?_eq_getLast_of_ne_nil hnonempty]
      rfl
    have hinside := hidentifier.characters (middle.getLast hnonempty)
      (List.mem_append_left _ (List.getLast_mem hnonempty))
    rw [(hcall.starts _ hlast).1] at hinside
    cases hinside

/-! ### The search over a line -/

/-- The places and the names of the calls of a line from some place on, in order. -/
structure Lists (names : List (List Char)) (line : List Char) (start : Nat)
    (places : List (Nat × List Char)) : Prop where
  ordered : places.Pairwise fun a b => a.1 < b.1
  mem_iff : ∀ place written,
    (place, written) ∈ places ↔ start ≤ place ∧ IsCallAt names line place written

section Lists

variable {start : Nat} {places : List (Nat × List Char)}

theorem Lists.pass (hlater : Lists names line (start + 1) places)
    (hhere : ∀ written, ¬ IsCallAt names line start written) : Lists names line start places where
  ordered := hlater.ordered
  mem_iff place written := by
    rw [hlater.mem_iff]
    constructor
    · rintro ⟨hplace, hcall⟩
      exact ⟨by omega, hcall⟩
    · rintro ⟨hplace, hcall⟩
      have hne : place ≠ start := by
        rintro rfl
        exact hhere written hcall
      exact ⟨by omega, hcall⟩

theorem Lists.cons (hlater : Lists names line (start + 1) places)
    (hcall : IsCallAt names line start written) :
    Lists names line start ((start, written) :: places) where
  ordered := by
    refine List.pairwise_cons.mpr ⟨fun ⟨place, other⟩ hmem => ?_, hlater.ordered⟩
    exact ((hlater.mem_iff place other).mp hmem).1
  mem_iff place other := by
    rw [List.mem_cons, Prod.mk.injEq, hlater.mem_iff]
    constructor
    · rintro (⟨rfl, rfl⟩ | ⟨hplace, hother⟩)
      · exact ⟨le_rfl, hcall⟩
      · exact ⟨by omega, hother⟩
    · rintro ⟨hplace, hother⟩
      obtain rfl | hafter := Nat.eq_or_lt_of_le hplace
      · exact .inl ⟨rfl, hother.unique hcall⟩
      · exact .inr ⟨hafter, hother⟩

end Lists

/-- The search finds the calls of the rest of a line, each one once and in their order. The
invariant is on the characters to be skipped: nothing is called there. -/
theorem exists_lists_callsFrom (front : List Char) (skip : Nat)
    (hnames : ∀ name ∈ names, IsIdentifier name) (hline : Text.IsAscii line)
    (hsplit : line = front ++ cs)
    (hskip : ∀ place written, front.length ≤ place → place < front.length + skip →
      ¬ IsCallAt names line place written) :
    ∃ places, Lists names line front.length places
      ∧ places.map Prod.snd = callsFrom names skip front.getLast? cs := by
  induction cs generalizing front skip with
  | nil =>
    refine ⟨[], ⟨.nil, fun place written => ?_⟩, by cases skip <;> rfl⟩
    refine iff_of_false List.not_mem_nil ?_
    rintro ⟨hplace, front', behind, hother, rfl, hcall, -⟩
    have hlength := congrArg List.length (hsplit.symm.trans hother)
    have hpos := List.length_pos_of_ne_nil hcall.identifier.nonempty
    simp only [List.append_nil, List.length_append] at hlength
    omega
  | cons c later ih =>
    have hrest (skip : Nat) (hskip : ∀ place written, front.length < place →
        place < front.length + 1 + skip → ¬ IsCallAt names line place written) :
        ∃ places, Lists names line (front.length + 1) places
          ∧ places.map Prod.snd = callsFrom names skip (some c) later := by
      have hlength : (front ++ [c]).length = front.length + 1 := by simp
      have hlast : (front ++ [c]).getLast? = some c := List.getLast?_concat
      rw [← hlength, ← hlast]
      exact ih (front ++ [c]) skip (by rw [hsplit, List.append_cons])
        fun place written hafter hbefore => hskip place written (by omega) (by omega)
    cases skip with
    | succ skip =>
      obtain ⟨places, hlists, hfound⟩ := hrest skip fun place written hafter hbefore =>
        hskip place written (by omega) (by omega)
      exact ⟨places, hlists.pass fun written => hskip _ written le_rfl (by omega), hfound⟩
    | zero =>
      rw [hsplit] at hline
      rw [callsFrom]
      split
      · next written after hfound =>
        split at hfound
        · next hboundary =>
          obtain ⟨gap, hgap, hcs, hcall, hname⟩ := exists_isCall_of_callAt hnames
            (fun d hd => hline d (List.mem_append_left _ hd))
            (fun d hd => hline d (List.mem_append_right _ hd)) hboundary hfound
          -- What is skipped is the rest of the call, up to and with its bracket.
          have hlength := congrArg List.length hcs
          simp only [List.length_cons, List.length_append] at hlength
          rw [hcs] at hsplit
          obtain ⟨places, hlists, hlater⟩ := hrest (later.length - after.length)
            fun place other hafter hbefore => by
              rw [hsplit]
              refine not_isCallAt_within hcall.identifier hgap hafter ?_
              simp only [List.length_append, List.length_singleton]
              omega
          refine ⟨_, hlists.cons ⟨front, _, hsplit, rfl, hcall, hname⟩, ?_⟩
          rw [List.map_cons, hlater]
        · cases hfound
      · next hmissed =>
        obtain ⟨places, hlists, hfound⟩ := hrest 0 fun place written hafter hbefore =>
          absurd hafter (by omega)
        refine ⟨places, hlists.pass fun written => ?_, hfound⟩
        rw [hsplit]
        exact not_isCallAt_of_callAt hnames hline hmissed

/-! ### The report of a line -/

/-- A call of a forbidden function: where it starts, its name as it is written there, and how bad it
is. -/
structure CallSite where
  place : Nat
  name : List Char
  severity : Severity
  deriving DecidableEq, Repr

/-- A whole name stands at the place as a call, and the severity is that of the last entry that is
equal to it ignoring case. -/
def IsSite (entries : List (String × Severity)) (line : List Char) (site : CallSite) : Prop :=
  (∃ front behind, line = front ++ (site.name ++ behind) ∧ front.length = site.place
      ∧ IsCall front site.name behind)
    ∧ IsLastEntry (fun key => EqualIgnoringCase key.toList site.name) entries site.severity

/-- What is reported of a call: a unit of work, and a message with the name in lower case. -/
def CallSite.effects (location : String) (site : CallSite) : List Effect :=
  [.declare 1, .message site.severity
    ("Usage of " ++ String.ofList (site.name.map Char.toLower) ++ "() is not allowed in "
      ++ location)]

section Sites

variable {entries : List (String × Severity)} {location : String}

theorem lookedUp_of_ascii (hwritten : Text.IsAscii written) :
    lookedUp written = String.ofList (written.map Char.toLower) := by
  have htext : Text.IsAscii (String.ofList written).toList := by rwa [String.toList_ofList]
  rw [lookedUp, ← String.toList_inj, Text.toList_lower_of_ascii htext, String.toList_ofList,
    String.toList_ofList]

theorem lower_eq_lookedUp_iff {key : String} (hkey : Text.IsAscii key.toList)
    (hwritten : Text.IsAscii written) :
    Text.lower key = lookedUp written ↔ EqualIgnoringCase key.toList written := by
  rw [lookedUp_of_ascii hwritten, ← String.toList_inj, Text.toList_lower_of_ascii hkey,
    String.toList_ofList, EqualIgnoringCase]

theorem Reports.exists_sites (hentries : ∀ entry ∈ entries, Text.IsAscii entry.1.toList)
    {places : List (Nat × List Char)} {effects : List Effect}
    (hplaces : ∀ place ∈ places, Text.IsAscii place.2)
    (hreports : Reports entries location (places.map Prod.snd) effects) :
    ∃ sites : List CallSite, sites.map (fun site => (site.place, site.name)) = places
      ∧ (∀ site ∈ sites,
          IsLastEntry (fun key => EqualIgnoringCase key.toList site.name) entries site.severity)
      ∧ effects = sites.flatMap (CallSite.effects location) := by
  induction places generalizing effects with
  | nil =>
    cases hreports
    exact ⟨[], rfl, by simp, rfl⟩
  | cons first places ih =>
    obtain ⟨hfirst, hothers⟩ := List.forall_mem_cons.mp hplaces
    rw [List.map_cons] at hreports
    cases hreports with
    | @cons _ _ severity effects hlast hlater =>
      obtain ⟨sites, rfl, hsites, rfl⟩ := ih hothers hlater
      refine ⟨⟨first.1, first.2, severity⟩ :: sites, rfl, List.forall_mem_cons.mpr ⟨?_, hsites⟩, ?_⟩
      · exact (isLastEntry_congr fun entry hentry =>
          lower_eq_lookedUp_iff (hentries entry hentry) hfirst).mp hlast
      · rw [List.flatMap_cons, CallSite.effects, lookedUp_of_ascii hfirst]
        rfl

end Sites

/-- What the search looks for is what has a severity. -/
theorem isCallAt_iff_exists_isSite {settings : Settings} {place : Nat}
    (hascii : ∀ entry ∈ settings.forbiddenCalls, Text.IsAscii entry.1.toList) :
    IsCallAt (alternatives (lowerCalls settings)) line place written
      ↔ ∃ severity, IsSite settings.forbiddenCalls line ⟨place, written, severity⟩ := by
  have hname : (∃ name ∈ alternatives (lowerCalls settings), EqualIgnoringCase name written)
      ↔ ∃ severity, IsLastEntry (fun key => EqualIgnoringCase key.toList written)
          settings.forbiddenCalls severity := by
    rw [exists_isLastEntry_iff]
    constructor
    · rintro ⟨name, hname, hsame⟩
      obtain ⟨entry, hentry, rfl⟩ := mem_alternatives_iff.mp hname
      rw [Text.toList_lower_of_ascii (hascii entry hentry),
        equalIgnoringCase_map_toLower_iff (hascii entry hentry)] at hsame
      exact ⟨entry, hentry, hsame⟩
    · rintro ⟨entry, hentry, hsame⟩
      refine ⟨_, mem_alternatives_iff.mpr ⟨entry, hentry, rfl⟩, ?_⟩
      rwa [Text.toList_lower_of_ascii (hascii entry hentry),
        equalIgnoringCase_map_toLower_iff (hascii entry hentry)]
  simp only [IsSite, exists_and_left, ← hname]
  simp only [IsCallAt, ← exists_and_right, and_assoc]

theorem isComment_eq_false_iff :
    isComment line = false
      ↔ ∀ mark ∈ ["//", "#", "*", "/*"], ¬ mark.toList <+: line.dropWhile Text.isBlank := by
  simp [isComment, commentMarks, Text.dropBlanks, ← List.isPrefixOf_iff_prefix]

/-- **The calls of a line are the places where a forbidden name is called.** If the forbidden names
are identifiers and the line is of ASCII and no comment, the line has a list of sites, in order and
each at its own place. They are all the places at which a whole name stands that is equal to a
forbidden one ignoring case, that no dollar sign or member sign precedes and that a bracket follows.
For each of them in turn, and for nothing else, a unit of work is announced and a message made. -/
theorem check_eq_sites {σ : Type} (context : RuleContext) (source : SourceLine) (state : σ)
    (hnames : ∀ entry ∈ context.settings.forbiddenCalls, IsIdentifier entry.1.toList)
    (hline : Text.IsAscii source.text.toList)
    (hcode : ∀ mark ∈ ["//", "#", "*", "/*"],
      ¬ mark.toList <+: source.text.toList.dropWhile Text.isBlank) :
    ∃ sites : List CallSite,
      sites.Pairwise (fun a b => a.place < b.place)
        ∧ (∀ site, site ∈ sites ↔ IsSite context.settings.forbiddenCalls source.text.toList site)
        ∧ (rule context).check (.line source) state
            = ({ effects := sites.flatMap
                  (CallSite.effects (source.file.relativePath ++ ":" ++ toString source.number)) },
                state) := by
  have hascii (entry : String × Severity) (hentry : entry ∈ context.settings.forbiddenCalls) :=
    (hnames entry hentry).isAscii
  have hkeys (name : List Char) (hname : name ∈ alternatives (lowerCalls context.settings)) :
      IsIdentifier name := by
    obtain ⟨entry, hentry, rfl⟩ := mem_alternatives_iff.mp hname
    rw [Text.toList_lower_of_ascii (hascii entry hentry)]
    exact (hnames entry hentry).map_toLower
  obtain ⟨places, hlists, hplaces⟩ := exists_lists_callsFrom [] 0 hkeys hline rfl
    fun place written _ hbefore => absurd hbefore (by simp)
  have hfound : callsOfLine (lowerCalls context.settings) source.text.toList
      = places.map Prod.snd := by
    rw [callsOfLine_eq, isComment_eq_false_iff.mpr hcode, hplaces]
    rfl
  have hcalled (place : Nat × List Char) (hplace : place ∈ places) :=
    (isCallAt_iff_exists_isSite hascii).mp ((hlists.mem_iff place.1 place.2).mp hplace).2
  have hwritten (place : Nat × List Char) (hplace : place ∈ places) : Text.IsAscii place.2 := by
    obtain ⟨severity, ⟨front, behind, -, -, hcall⟩, -⟩ := hcalled place hplace
    exact hcall.identifier.isAscii
  have hknown (written : List Char) (hmem : written ∈ places.map Prod.snd) :
      ∃ entry ∈ context.settings.forbiddenCalls, Text.lower entry.1 = lookedUp written := by
    obtain ⟨place, hplace, rfl⟩ := List.mem_map.mp hmem
    obtain ⟨severity, -, hlast⟩ := hcalled place hplace
    obtain ⟨entry, hentry, hsame⟩ := exists_isLastEntry_iff.mp ⟨severity, hlast⟩
    exact ⟨entry, hentry,
      (lower_eq_lookedUp_iff (hascii entry hentry) (hwritten place hplace)).mpr hsame⟩
  have hends := reportAll_ends context.settings source.location (places.map Prod.snd)
  obtain ⟨effects, hreports, houtcome⟩ := hends.reports (hends.failure_eq_none_iff.mpr hknown)
  obtain ⟨sites, rfl, hsites, rfl⟩ := hreports.exists_sites hascii hwritten
  refine ⟨sites, ?_, fun site => ⟨fun hmem => ?_, fun hsite => ?_⟩, ?_⟩
  · have hordered := hlists.ordered
    rwa [List.pairwise_map] at hordered
  · obtain ⟨severity, hcall, -⟩ := hcalled _ (List.mem_map_of_mem hmem)
    exact ⟨hcall, hsites site hmem⟩
  · have hcall := (isCallAt_iff_exists_isSite hascii).mpr ⟨site.severity, hsite⟩
    obtain ⟨found, hmem, hsame⟩ :=
      List.mem_map.mp ((hlists.mem_iff site.place site.name).mpr ⟨Nat.zero_le _, hcall⟩)
    obtain ⟨hplace, hname⟩ := Prod.mk.inj hsame
    have hlast := hsites found hmem
    rw [hname] at hlast
    obtain rfl : found = site := by
      cases found
      cases site
      simp only at hplace hname hlast
      rw [hplace, hname, hlast.unique hsite.2]
    exact hmem
  · rw [← hfound] at houtcome
    exact congrArg (·, state) houtcome

/-- One name is the start of another one and is in the settings twice. -/
theorem check_eq_sites_prefix :
    let entries : List (String × Severity) := [("ev", .error), ("eval", .warning), ("EV", .notice)]
    let context : RuleContext := { settings := { forbiddenCalls := entries } }
    let text := "Eval (ev(1)); $ev(2); EVAL;"
    let source : SourceLine := ⟨.ofText ⟨0, ["a.php"]⟩ "a.php" text, 1, text⟩
    (∀ entry ∈ entries, IsIdentifier entry.1.toList)
      ∧ Text.IsAscii source.text.toList
      ∧ (∀ mark ∈ ["//", "#", "*", "/*"],
          ¬ mark.toList <+: source.text.toList.dropWhile Text.isBlank)
      ∧ ∃ sites : List CallSite,
          sites.Pairwise (fun a b => a.place < b.place)
            ∧ (∀ site, site ∈ sites ↔ IsSite entries source.text.toList site)
            ∧ (rule context).check (.line source) ()
                = ({ effects := sites.flatMap (CallSite.effects "a.php:1") }, ()) := by
  intro entries context text source
  have hnames : ∀ entry ∈ entries, IsIdentifier entry.1.toList := by decide
  have hline : Text.IsAscii source.text.toList := by decide +kernel
  have hcode : ∀ mark ∈ ["//", "#", "*", "/*"],
      ¬ mark.toList <+: source.text.toList.dropWhile Text.isBlank := by decide +kernel
  have hlocation : source.file.relativePath ++ ":" ++ toString source.number = "a.php:1" := by
    decide +kernel
  rw [← hlocation]
  exact ⟨hnames, hline, hcode, check_eq_sites context source () hnames hline hcode⟩

end ExtensionAudit.ForbiddenCalls
