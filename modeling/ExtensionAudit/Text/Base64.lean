/-!
Bytes written in base 64. Characters outside the alphabet are passed over, and a group of four that
is left unfinished has to be filled with equality signs, behind which nothing counts any more.
-/

namespace ExtensionAudit.Text

def base64Value? (c : Char) : Option Nat :=
  if 'A' ≤ c && c ≤ 'Z' then some (c.toNat - 0x41)
  else if 'a' ≤ c && c ≤ 'z' then some (c.toNat - 0x61 + 26)
  else if '0' ≤ c && c ≤ '9' then some (c.toNat - 0x30 + 52)
  else if c == '+' then some 62
  else if c == '/' then some 63
  else none

/-- Decodes inside a group: how many of its characters were read, the bits that make no byte yet,
and how many equality signs stand since the last character. -/
def base64From (place bits fillers : Nat) : List Char → Option (List UInt8)
  | [] => if place == 0 then some [] else none
  | c :: rest =>
    if c == '=' then
      if place < 2 then base64From place bits fillers rest
      else if place + fillers + 1 ≥ 4 then some []
      else base64From place bits (fillers + 1) rest
    else match base64Value? c with
      | none => base64From place bits fillers rest
      | some value =>
        let bits := bits * 64 + value
        if place == 0 then base64From 1 bits 0 rest
        else if place == 1 then
          (base64From 2 (bits % 16) 0 rest).map (UInt8.ofNat (bits / 16) :: ·)
        else if place == 2 then
          (base64From 3 (bits % 4) 0 rest).map (UInt8.ofNat (bits / 4) :: ·)
        else (base64From 0 0 0 rest).map (UInt8.ofNat bits :: ·)

def base64? (cs : List Char) : Option (List UInt8) := base64From 0 0 0 cs

end ExtensionAudit.Text
