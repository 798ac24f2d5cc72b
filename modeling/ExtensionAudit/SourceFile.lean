import ExtensionAudit.Path
import ExtensionAudit.Text.Case
import ExtensionAudit.Text.Lines

/-!
The files of a package as rules see them: path, type, content and lines. The type of a file follows
from the suffix of its name, whatever its case.
-/

namespace ExtensionAudit

/-- What kind of file a name promises. -/
inductive FileType where
  | php
  | html
  | js
  | css
  | json
  | yaml
  | xml
  | text
  | markdown
  | image
  | other
  deriving DecidableEq, Repr

namespace FileType

def all : List FileType :=
  [.php, .html, .js, .css, .json, .yaml, .xml, .text, .markdown, .image, .other]

def name : FileType → String
  | .php => "php"
  | .html => "html"
  | .js => "js"
  | .css => "css"
  | .json => "json"
  | .yaml => "yaml"
  | .xml => "xml"
  | .text => "text"
  | .markdown => "markdown"
  | .image => "image"
  | .other => "other"

def ofName? (name : String) : Option FileType := all.find? (·.name == name)

/-- The suffixes in lower case with the types that they promise. -/
def suffixes : List (String × FileType) :=
  [(".php", .php), (".html", .html), (".htm", .html), (".js", .js), (".css", .css),
    (".json", .json), (".yml", .yaml), (".yaml", .yaml), (".xml", .xml), (".txt", .text),
    (".md", .markdown), (".png", .image), (".gif", .image), (".jpg", .image), (".jpeg", .image),
    (".svg", .image)]

def ofPath (path : Path) : FileType :=
  (suffixes.lookup (Text.lower path.suffix)).getD .other

theorem mem_all (t : FileType) : t ∈ all := by cases t <;> simp [all]

end FileType

/-- A file of a package. -/
structure SourceFile where
  path : Path
  relativePath : String
  fileType : FileType
  content : String
  lines : List String
  deriving DecidableEq, Repr

/-- A line of a file, with its number. -/
structure SourceLine where
  file : SourceFile
  number : Nat
  text : String
  deriving DecidableEq, Repr

def SourceLine.location (line : SourceLine) : String :=
  line.file.relativePath ++ ":" ++ toString line.number

namespace SourceFile

def ofText (path : Path) (relativePath content : String) : SourceFile where
  path := path
  relativePath := relativePath
  fileType := .ofPath path
  content := content
  lines := Text.lines content

def numberLines (file : SourceFile) : Nat → List String → List SourceLine
  | _, [] => []
  | number, text :: rest => ⟨file, number, text⟩ :: numberLines file (number + 1) rest

def numberedLines (file : SourceFile) : List SourceLine := numberLines file 1 file.lines

end SourceFile

end ExtensionAudit
