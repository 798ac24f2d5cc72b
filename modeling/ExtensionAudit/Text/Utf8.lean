/-!
UTF-8 as read from files. Decoding either demands well-formed bytes or puts one U+FFFD in place of
each ill-formed stretch, where a stretch is the longest run of bytes that begins a well-formed
sequence, and at least one byte.
-/

namespace ExtensionAudit.Text

/-- How a sequence goes on after its lead byte: the bits of the lead byte, the bounds of the second
byte, and how many continuation bytes follow in all. -/
structure LeadByte where
  bits : Nat
  low : UInt8
  high : UInt8
  count : Nat

/-- What a byte above ASCII announces, if it can begin a sequence. -/
def leadByte? (b : UInt8) : Option LeadByte :=
  if 0xC2 ≤ b && b ≤ 0xDF then some ⟨b.toNat - 0xC0, 0x80, 0xBF, 1⟩
  else if b == 0xE0 then some ⟨0, 0xA0, 0xBF, 2⟩
  else if b == 0xED then some ⟨0xD, 0x80, 0x9F, 2⟩
  else if 0xE1 ≤ b && b ≤ 0xEF then some ⟨b.toNat - 0xE0, 0x80, 0xBF, 2⟩
  else if b == 0xF0 then some ⟨0, 0x90, 0xBF, 3⟩
  else if 0xF1 ≤ b && b ≤ 0xF3 then some ⟨b.toNat - 0xF0, 0x80, 0xBF, 3⟩
  else if b == 0xF4 then some ⟨4, 0x80, 0x8F, 3⟩
  else none

/-- The state of a sequence that has begun: its bits so far and what the next byte must be. -/
structure Pending where
  bits : Nat
  low : UInt8
  high : UInt8
  missing : Nat

/-- Decodes byte by byte. `none` stands for an ill-formed stretch. -/
def decodeFrom : Option Pending → List UInt8 → List (Option Char)
  | none, [] => []
  | some _, [] => [none]
  | pending, b :: rest =>
    let fresh (_ : Unit) : List (Option Char) :=
      if b < 0x80 then some (Char.ofNat b.toNat) :: decodeFrom none rest
      else match leadByte? b with
        | some lead => decodeFrom (some ⟨lead.bits, lead.low, lead.high, lead.count⟩) rest
        | none => none :: decodeFrom none rest
    match pending with
    | none => fresh ()
    | some p =>
      if p.low ≤ b && b ≤ p.high then
        let bits := p.bits * 64 + (b.toNat - 0x80)
        if p.missing ≤ 1 then some (Char.ofNat bits) :: decodeFrom none rest
        else decodeFrom (some ⟨bits, 0x80, 0xBF, p.missing - 1⟩) rest
      else none :: fresh ()

/-- The text of the bytes, with U+FFFD in place of each ill-formed stretch. -/
def decodeLenient (bytes : List UInt8) : String :=
  String.ofList ((decodeFrom none bytes).map (·.getD '\uFFFD'))

/-- The text of the bytes, if they are well formed. -/
def decodeStrict? (bytes : List UInt8) : Option String :=
  ((decodeFrom none bytes).mapM id).map String.ofList

/-- The text with each carriage return, and each carriage return with its line feed, made one line
feed. -/
def unifyNewlines : List Char → List Char
  | [] => []
  | '\r' :: '\n' :: rest => '\n' :: unifyNewlines rest
  | '\r' :: rest => '\n' :: unifyNewlines rest
  | c :: rest => c :: unifyNewlines rest

end ExtensionAudit.Text
