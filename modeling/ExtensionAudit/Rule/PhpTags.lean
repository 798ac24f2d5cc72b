import ExtensionAudit.Rule.Basic

/-!
The rule on the tags of PHP files: a file begins with its opening tag, and leaves out the closing
one at its end.
-/

namespace ExtensionAudit.PhpTags

/-- The first line of a file that is not blank, empty if there is none. -/
def firstLine (lines : List String) : List Char :=
  ((lines.map String.toList).find? fun line => !Text.isAllBlank line).getD []

/-- Whether the first line that is not blank begins with the opening tag. -/
def beginsWithTag (file : SourceFile) : Bool :=
  "<?php".toList.isPrefixOf (Text.dropBlanks (firstLine file.lines))

def endsWithTag (file : SourceFile) : Bool :=
  ['?', '>'].isSuffixOf (Text.dropTrailingBlanks file.content.toList)

def check (file : SourceFile) : Outcome where
  effects := [.declare 2,
    if beginsWithTag file then .pass
    else .message .error (file.relativePath ++ " should start with <?php"),
    if endsWithTag file then
      .message .notice (file.relativePath ++ " ends with a closing ?> tag which should be omitted")
    else .pass]

def rule {σ : Type} : Rule σ :=
  .stateless { fileTypes := [.php] } fun
    | .file source => check source
    | _ => {}

end ExtensionAudit.PhpTags
