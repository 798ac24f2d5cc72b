import Mathlib
import ExtensionAudit.Proofs.Text.Words
import ExtensionAudit.Rule.PhpTags

/-!
# What the rule on PHP tags sees of a text

The rule looks for the opening tag in the first line that is not blank, and for the closing tag at
the end of the whole text. The division into lines does not matter for either of them. A line break
is a blank, so the first line that is not blank begins, once its own blanks are dropped, where the
text does; and the tag holds no line break, so the end of that line cannot cut it. What the rule says
is settled by the words of the text, whatever breaks and other blanks stand between them.
-/

namespace ExtensionAudit.Text

/-- The lines that are not blank begin where the text does, blanks aside. -/
theorem dropBlanks_find?_linesFrom (cs : List Char) {line : List Char}
    (hline : isAllBlank line = true) :
    dropBlanks (((linesFrom line cs).find? fun piece => !isAllBlank piece).getD [])
      = uptoBreak (dropBlanks cs) := by
  have hreverse {piece : List Char} (hpiece : isAllBlank piece = true) :
      isAllBlank piece.reverse = true := by
    rwa [isAllBlank, List.all_reverse]
  -- Along the division itself; the line so far stays blank until a word begins.
  induction line, cs using linesFrom.induct with
  | case1 line hempty => simp [linesFrom, hempty, dropBlanks, uptoBreak]
  | case2 line hsome => simp [linesFrom, hsome, hreverse hline, dropBlanks, uptoBreak]
  | case3 line rest ih =>
    rw [linesFrom_return_newline, List.find?_cons_of_neg (by simp [hreverse hline]), ih rfl,
      dropBlanks_cons_of_blank (by decide), dropBlanks_cons_of_blank (by decide)]
  | case4 line c rest hpair hbreak ih =>
    have hnext : c = '\r' → rest.head? ≠ some '\n' := by
      intro hreturn hnewline
      obtain ⟨others, rfl⟩ := List.head?_eq_some_iff.mp hnewline
      exact hpair others hreturn rfl
    rw [linesFrom_break hbreak line hnext, List.find?_cons_of_neg (by simp [hreverse hline]),
      ih rfl, dropBlanks_cons_of_blank (isBlank_of_isLineBreak hbreak)]
  | case5 line c rest hpair hplain ih =>
    rw [Bool.not_eq_true] at hplain
    by_cases hblank : isBlank c = true
    · rw [linesFrom_plain hplain, ih (by simpa [isAllBlank, hblank] using hline),
        dropBlanks_cons_of_blank hblank]
    · have hkept : uptoBreak (c :: rest) = c :: uptoBreak rest := by
        simp [uptoBreak, hplain]
      have hfirst := head?_linesFrom (List.cons_ne_nil c rest) line
      obtain ⟨later, hlines⟩ := List.head?_eq_some_iff.mp hfirst
      have hword : isAllBlank (line.reverse ++ uptoBreak (c :: rest)) = false := by
        simp [hkept, isAllBlank, hblank]
      rw [hlines, List.find?_cons_of_pos (by rw [hword, Bool.not_false]), Option.getD_some,
        dropBlanks_append_of_all (hreverse hline), dropBlanks_cons_of_not_blank hblank, hkept,
        dropBlanks_cons_of_not_blank hblank]

end ExtensionAudit.Text

namespace ExtensionAudit.PhpTags

variable {path : Path} {relativePath content : String}

theorem openingTag_isWord : ∀ c ∈ "<?php".toList, (!Text.isBlank c) = true :=
  List.all_eq_true.mp (by decide)

theorem closingTag_isWord : ∀ c ∈ "?>".toList, (!Text.isBlank c) = true :=
  List.all_eq_true.mp (by decide)

theorem beginsWithTag_ofText :
    beginsWithTag (.ofText path relativePath content) = true
      ↔ "<?php".toList <+: Text.dropBlanks content.toList := by
  have hfirst : Text.dropBlanks (firstLine (Text.lines content))
      = Text.uptoBreak (Text.dropBlanks content.toList) := by
    have hback : String.toList ∘ String.ofList = id := by
      funext cs
      exact String.toList_ofList
    rw [firstLine, Text.lines, List.map_map, hback, List.map_id]
    exact Text.dropBlanks_find?_linesFrom content.toList rfl
  rw [beginsWithTag, List.isPrefixOf_iff_prefix, SourceFile.ofText, hfirst]
  apply Text.prefix_takeWhile_iff
  intro c hc
  have hunbroken := mt Text.isBlank_of_isLineBreak (by simpa using openingTag_isWord c hc)
  simpa using hunbroken

theorem endsWithTag_ofText :
    endsWithTag (.ofText path relativePath content) = true
      ↔ "?>".toList <:+ Text.dropTrailingBlanks content.toList :=
  List.isSuffixOf_iff_suffix

/-- **What the rule says of a text.** It passes the opening tag exactly if the whole text, without
the blanks in front, begins with that tag, and else reports one error; and it says the same of any
text with the same words, in whatever way that one is divided into lines. -/
theorem check_ofText (path : Path) (relativePath content : String) :
    check (.ofText path relativePath content)
        = { effects := [.declare 2,
              if "<?php".toList <+: content.toList.dropWhile Text.isBlank then .pass
              else .message .error (relativePath ++ " should start with <?php"),
              if "?>".toList <:+ Text.dropTrailingBlanks content.toList then
                .message .notice
                  (relativePath ++ " ends with a closing ?> tag which should be omitted")
              else .pass] }
      ∧ ∀ other : String, Text.SameWords content.toList other.toList →
          check (.ofText path relativePath other) = check (.ofText path relativePath content) := by
  have hcheck (text : String) : check (.ofText path relativePath text)
      = { effects := [.declare 2,
            if "<?php".toList <+: Text.dropBlanks text.toList then .pass
            else .message .error (relativePath ++ " should start with <?php"),
            if "?>".toList <:+ Text.dropTrailingBlanks text.toList then
              .message .notice
                (relativePath ++ " ends with a closing ?> tag which should be omitted")
            else .pass] } := by
    simp only [check, beginsWithTag_ofText, endsWithTag_ofText]
    rfl
  refine ⟨hcheck content, fun other hsame => ?_⟩
  have hopening := hsame.prefix_iff openingTag_isWord
  have hclosing := hsame.suffix_iff closingTag_isWord
  rw [hcheck, hcheck]
  simp only [hopening, hclosing]

end ExtensionAudit.PhpTags
