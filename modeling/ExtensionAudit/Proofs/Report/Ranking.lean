import Mathlib
import ExtensionAudit.Report.Table

/-!
# The most urgent messages first

A report keeps its messages in the order in which they came. A table wants them in another order,
the urgent ones first, and shows a few of them. The order is made by a sort on ranks, while the
messages of one severity are picked by a filter, and the order of the severities themselves stands a
third time in the list of all of them. That the three agree rests on one fact about the sort: it
moves no message past another of its own severity.
-/

namespace ExtensionAudit

section Levels

variable {α σ : Type} {rank : σ → Nat} {level : α → σ}

/-- If nothing that satisfies a condition stands behind something that does not, the list is its
one part behind the other. -/
theorem eq_filter_append_filter_not (p : α → Bool) {items : List α}
    (hfront : items.Pairwise fun first second => p second → p first) :
    items = items.filter p ++ items.filter (!p ·) := by
  induction items with
  | nil => rfl
  | cons item rest ih =>
    obtain ⟨hitem, hrest⟩ := List.pairwise_cons.mp hfront
    by_cases hp : p item
    · rw [List.filter_cons_of_pos hp, List.filter_cons_of_neg (by simp [hp]), List.cons_append,
        ← ih hrest]
    · have hnone : rest.filter p = [] :=
        List.filter_eq_nil_iff.mpr fun other hmem hother => hp (hitem other hmem hother)
      have hall : rest.filter (!p ·) = rest := by
        rw [hnone, List.nil_append] at ih
        exact (ih hrest).symm
      rw [List.filter_cons_of_neg hp, List.filter_cons_of_pos (by simp [hp]), hnone, hall,
        List.nil_append]

/-- A list in descending order of rank is what it has of the highest level, then what it has of the
next one, and so on. -/
theorem eq_flatMap_filter_of_descending [DecidableEq σ] {levels : List σ}
    (hlevels : levels.Pairwise fun upper lower => rank lower < rank upper) {items : List α}
    (hsorted : items.Pairwise fun first second => rank (level second) ≤ rank (level first))
    (hmem : ∀ item ∈ items, level item ∈ levels) :
    items = levels.flatMap fun asked => items.filter (level · == asked) := by
  induction levels generalizing items with
  | nil =>
    exact List.eq_nil_iff_forall_not_mem.mpr fun item hitem => List.not_mem_nil (hmem item hitem)
  | cons upper rest ih =>
    obtain ⟨hupper, hrest⟩ := List.pairwise_cons.mp hlevels
    have hfront : items.Pairwise fun first second =>
        level second == upper → level first == upper := by
      refine hsorted.imp_of_mem fun {first second} hfirst _ hle hsecond => ?_
      rw [beq_iff_eq] at hsecond ⊢
      rw [hsecond] at hle
      refine (List.mem_cons.mp (hmem first hfirst)).resolve_right fun hlower => ?_
      exact absurd hle (Nat.not_le_of_lt (hupper _ hlower))
    have hothers := ih hrest (hsorted.filter (!level · == upper)) fun item hitem => by
      obtain ⟨hitem, hne⟩ := List.mem_filter.mp hitem
      exact (List.mem_cons.mp (hmem item hitem)).resolve_left (by simpa using hne)
    rw [List.flatMap_cons]
    conv_lhs => rw [eq_filter_append_filter_not (level · == upper) hfront, hothers]
    refine congrArg _ (List.flatMap_congr fun asked hasked => ?_)
    -- What is of a lower level is not of the upper one, so nothing is lost by looking behind it.
    rw [List.filter_filter]
    refine List.filter_congr fun item _ => ?_
    by_cases hlevel : level item = asked
    · have hne : asked ≠ upper := by
        rintro rfl
        exact lt_irrefl _ (hupper _ hasked)
      simp [hlevel, hne]
    · simp [hlevel]

end Levels

namespace Report

variable (report : Report)

/-! ### The order -/

/-- One message may stand in front of another if it is at least as urgent. -/
def noLessUrgent (first second : Message) : Bool := second.severity.rank ≤ first.severity.rank

theorem noLessUrgent_trans (a b c : Message) (hab : noLessUrgent a b) (hbc : noLessUrgent b c) :
    noLessUrgent a c := by
  simp only [noLessUrgent, decide_eq_true_eq] at *
  exact hbc.trans hab

theorem noLessUrgent_total (a b : Message) : (noLessUrgent a b || noLessUrgent b a) = true := by
  simp only [noLessUrgent, Bool.or_eq_true, decide_eq_true_eq]
  exact le_total _ _

theorem byUrgency_eq_mergeSort : report.byUrgency = report.messages.mergeSort noLessUrgent := rfl

theorem byUrgency_perm : report.byUrgency.Perm report.messages := List.mergeSort_perm _ _

theorem byUrgency_pairwise :
    report.byUrgency.Pairwise fun first second =>
      second.severity.rank ≤ first.severity.rank := by
  rw [byUrgency_eq_mergeSort]
  simpa only [noLessUrgent, decide_eq_true_eq] using
    List.pairwise_mergeSort noLessUrgent_trans noLessUrgent_total report.messages

/-- Messages that came in order of urgency are still in order. -/
theorem sublist_byUrgency {messages : List Message} (hsub : messages.Sublist report.messages)
    (hordered : messages.Pairwise fun first second =>
      second.severity.rank ≤ first.severity.rank) :
    messages.Sublist report.byUrgency :=
  List.sublist_mergeSort noLessUrgent_trans noLessUrgent_total
    (by simpa only [noLessUrgent, decide_eq_true_eq] using hordered) hsub

/-- The messages of one severity stay in the order in which they came. -/
theorem filter_byUrgency (severity : Severity) :
    report.byUrgency.filter (·.severity == severity) = report.messagesOf severity := by
  have hsame : (report.messagesOf severity).Pairwise fun first second =>
      second.severity.rank ≤ first.severity.rank := by
    refine List.pairwise_of_forall_mem_list fun first hfirst second hsecond => ?_
    have hfirst := beq_iff_eq.mp (List.mem_filter.mp hfirst).2
    have hsecond := beq_iff_eq.mp (List.mem_filter.mp hsecond).2
    rw [hfirst, hsecond]
  have hkept : ((report.messagesOf severity).filter (·.severity == severity)).Sublist
      (report.byUrgency.filter (·.severity == severity)) :=
    (report.sublist_byUrgency List.filter_sublist hsame).filter _
  simp only [messagesOf, List.filter_filter, Bool.and_self] at hkept
  exact (hkept.eq_of_length (report.byUrgency_perm.filter _).length_eq.symm).symm

theorem all_descending :
    Severity.all.Pairwise fun upper lower => lower.rank < upper.rank := by decide

/-- The sorted messages are those of each severity in turn. -/
theorem byUrgency_eq_flatMap : report.byUrgency = Severity.all.flatMap report.messagesOf := by
  rw [eq_flatMap_filter_of_descending all_descending report.byUrgency_pairwise
    fun message _ => message.severity.mem_all]
  exact List.flatMap_congr fun severity _ => report.filter_byUrgency severity

/-- The order is also the one of a composite key: the rank negated, then the place in the report. -/
theorem byUrgency_eq_sort_key :
    report.byUrgency
      = (report.messages.zipIdx.mergeSort fun first second =>
          toLex (-(first.1.severity.rank : Int), first.2)
            ≤ toLex (-(second.1.severity.rank : Int), second.2)).map Prod.fst := by
  rw [byUrgency, ← List.mergeSort_zipIdx]
  congr 2
  funext first second
  have hkey : (List.zipIdxLE (fun a b : Message => decide (b.severity.rank ≤ a.severity.rank))
      first second = true) ↔ toLex (-(first.1.severity.rank : Int), first.2)
        ≤ toLex (-(second.1.severity.rank : Int), second.2) := by
    simp only [List.zipIdxLE, Prod.Lex.toLex_le_toLex, decide_eq_true_eq]
    split_ifs <;> simp <;> omega
  rw [Bool.eq_iff_iff, hkey, decide_eq_true_eq]

/-! ### The front -/

theorem upTo_of_nonneg {n : Int} (hnonneg : 0 ≤ n) (messages : List Message) :
    upTo (some n) messages = messages.take n.toNat := by
  rw [upTo, if_pos hnonneg]

theorem upTo_of_neg {n : Int} (hneg : n < 0) (messages : List Message) :
    upTo (some n) messages = messages.take (messages.length - n.natAbs) := by
  rw [upTo, if_neg (by omega)]

theorem top_zero : report.top (some 0) = [] := by
  rw [top, upTo_of_nonneg (le_refl 0)]
  rfl

/-! ### The table -/

/-- What a table says of the most urgent messages, behind all else. -/
def sectionText (messages : List Message) : String :=
  if messages.isEmpty then ""
  else "\n\nTop Messages\n" ++ ruler 40 '-' ++ String.join (messages.map ("\n" ++ listed ·))

/-- The lines of a table are those of one without messages, and the section. -/
theorem tableLines_eq (limit : Option Int) :
    report.tableLines limit = report.tableLines (some 0) ++ topSection (report.top limit) := by
  rw [tableLines, tableLines, top_zero]
  simp only [topSection, List.isEmpty_nil, if_true, List.append_nil]

theorem intercalate_append_eq_join {lines : List String} (hlines : lines ≠ [])
    (more : List String) :
    String.intercalate "\n" (lines ++ more)
      = String.intercalate "\n" lines ++ String.join (more.map ("\n" ++ ·)) := by
  induction more generalizing lines with
  | nil => simp
  | cons line rest ih =>
    have hsplit : lines ++ line :: rest = (lines ++ [line]) ++ rest := by simp
    rw [hsplit, ih (by simp), String.intercalate_append_of_ne_nil hlines (by simp),
      String.intercalate_singleton, List.map_cons, String.join_cons]
    simp only [String.append_assoc]

theorem join_topSection (messages : List Message) :
    String.join ((topSection messages).map ("\n" ++ ·)) = sectionText messages := by
  rw [topSection, sectionText]
  split
  · rfl
  · rw [List.map_append, List.map_map]
    simp only [List.map_cons, List.map_nil, List.cons_append, List.nil_append, String.join_cons,
      Function.comp_def, ← String.append_assoc]
    rfl

theorem table_eq (limit : Option Int) :
    report.table limit = report.table (some 0) ++ sectionText (report.top limit) := by
  rw [table, tableLines_eq, intercalate_append_eq_join (by simp [tableLines]), join_topSection,
    table]

theorem head?_row (severity : Severity) (right : String) :
    (row severity.name right).toList.head? ≠ some 'T' := by
  cases severity <;> simp [row, leftAligned, Severity.name]

theorem head?_ruler {c : Char} (hc : c ≠ 'T') (width : Nat) :
    (ruler width c).toList.head? ≠ some 'T' := by
  cases width <;> simp [ruler, List.replicate_succ, hc]

/-- No line in front of the section reads like its title. -/
theorem title_not_mem_tableLines_zero : "Top Messages" ∉ report.tableLines (some 0) := by
  have hhead : ∀ line ∈ report.tableLines (some 0), line.toList.head? ≠ some 'T' := by
    intro line hline
    simp only [tableLines, top_zero, topSection, List.isEmpty_nil, if_true, List.append_nil,
      List.mem_append, List.mem_cons, List.not_mem_nil, or_false, List.mem_map, Tally.rows] at hline
    obtain ((rfl | rfl | rfl | rfl) | ⟨_, ⟨severity, _, rfl⟩, rfl⟩) | rfl | rfl | rfl | rfl := hline
    · decide
    · exact head?_ruler (by decide) _
    · decide
    · exact head?_ruler (by decide) _
    · exact head?_row severity _
    · exact head?_ruler (by decide) _
    all_goals simp
  exact fun hmem => hhead _ hmem (by decide)

theorem title_mem_tableLines_iff (limit : Option Int) :
    "Top Messages" ∈ report.tableLines limit ↔ report.top limit ≠ [] := by
  rw [tableLines_eq, List.mem_append, or_iff_right report.title_not_mem_tableLines_zero, topSection]
  cases report.top limit <;> simp

/-- **The most urgent messages first.** Without a limit they are all messages, severity by severity
and in the order in which they came, which is also the order of the key made of the negated rank and
the place. A limit takes as many of them from the front, a negative one leaves out as many at the
end. A table shows just these, in this order and each with its severity in brackets, behind a title
that is there if and only if there is something to show. -/
theorem top_accounts :
    report.top none = report.messagesOf .fatal ++ report.messagesOf .error
        ++ report.messagesOf .warning ++ report.messagesOf .notice
      ∧ (report.top none).Perm report.messages
      ∧ (∀ severity,
          (report.top none).filter (·.severity == severity) = report.messagesOf severity)
      ∧ report.top none
          = (report.messages.zipIdx.mergeSort fun first second =>
              toLex (-(first.1.severity.rank : Int), first.2)
                ≤ toLex (-(second.1.severity.rank : Int), second.2)).map Prod.fst
      ∧ (∀ n : Int, 0 ≤ n →
          report.top (some n) = (report.top none).take n.toNat
            ∧ (report.top (some n)).length = min n.toNat report.messages.length)
      ∧ (∀ n : Int, n < 0 → ∃ omitted,
          report.top none = report.top (some n) ++ omitted
            ∧ omitted.length = min n.natAbs report.messages.length)
      ∧ ∀ limit,
          report.tableLines limit = report.tableLines (some 0)
              ++ (if report.top limit = [] then []
                else ["", "Top Messages", String.ofList (List.replicate 40 '-')]
                  ++ (report.top limit).map fun message =>
                    "[" ++ message.severity.name ++ "] " ++ message.text)
            ∧ report.table limit = report.table (some 0)
              ++ (if report.top limit = [] then ""
                else "\n\nTop Messages\n" ++ String.ofList (List.replicate 40 '-')
                  ++ String.join ((report.top limit).map fun message =>
                    "\n" ++ ("[" ++ message.severity.name ++ "] " ++ message.text)))
            ∧ ("Top Messages" ∈ report.tableLines limit ↔ report.top limit ≠ []) := by
  have hnone : report.top none = report.byUrgency := rfl
  have hlength : report.byUrgency.length = report.messages.length :=
    report.byUrgency_perm.length_eq
  refine ⟨?_, report.byUrgency_perm, report.filter_byUrgency, report.byUrgency_eq_sort_key, ?_, ?_,
    ?_⟩
  · rw [hnone, byUrgency_eq_flatMap]
    simp only [Severity.all, List.flatMap_cons, List.flatMap_nil, List.append_nil,
      List.append_assoc]
  · intro n hnonneg
    have hfront : report.top (some n) = report.byUrgency.take n.toNat :=
      upTo_of_nonneg hnonneg _
    rw [hfront, List.length_take, hlength]
    exact ⟨rfl, rfl⟩
  · intro n hneg
    have hfront : report.top (some n)
        = report.byUrgency.take (report.byUrgency.length - n.natAbs) := upTo_of_neg hneg _
    refine ⟨report.byUrgency.drop (report.byUrgency.length - n.natAbs), ?_, ?_⟩
    · rw [hfront, hnone, List.take_append_drop]
    · rw [List.length_drop, hlength]
      omega
  · intro limit
    refine ⟨?_, ?_, report.title_mem_tableLines_iff limit⟩
    · rw [tableLines_eq, topSection]
      simp only [List.isEmpty_iff]
      rfl
    · rw [table_eq, sectionText]
      simp only [List.isEmpty_iff]
      rfl

end Report

end ExtensionAudit
