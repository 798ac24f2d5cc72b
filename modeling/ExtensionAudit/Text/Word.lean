import ExtensionAudit.Text.Ranges
import ExtensionAudit.Text.WordRanges

/-!
Characters of words: letters, digits and other numbers of any script, and the low line.
-/

namespace ExtensionAudit.Text

def isAsciiAlphanumeric (c : Char) : Bool :=
  ('a' ≤ c && c ≤ 'z') || ('A' ≤ c && c ≤ 'Z') || ('0' ≤ c && c ≤ '9')

def isWord (c : Char) : Bool :=
  if c.toNat < 128 then isAsciiAlphanumeric c || c == '_' else inRanges c.toNat wordRanges

end ExtensionAudit.Text
