/-!
# Base64

Bytes can be written as text, six bits to a character. Characters outside the
alphabet are passed over, so that line ends and blanks may stand anywhere. The text
ends at the padding that completes a group of four; a text whose last group is not
complete is refused, and so is one with a character beyond ASCII.
-/

namespace ComponentCatalog.Text

/-- The six bits that a character stands for. -/
def sixBits? (c : Char) : Option Nat :=
  if 'A' ≤ c && c ≤ 'Z' then some (c.toNat - 'A'.toNat)
  else if 'a' ≤ c && c ≤ 'z' then some (c.toNat - 'a'.toNat + 26)
  else if c.isDigit then some (c.toNat - '0'.toNat + 52)
  else if c == '+' then some 62
  else if c == '/' then some 63
  else none

/-- What has been read of a text: the bytes, last first, the characters of the group
that is open, and the bits of it that are not yet in a byte. -/
structure Base64State where
  bytes : List UInt8 := []
  /-- How many characters of the open group have been read. -/
  place : Nat := 0
  /-- The bits left over from the last character. -/
  left : Nat := 0
  /-- How many padding characters were read since the last other one. -/
  pads : Nat := 0

/-- The state after one more character of the alphabet. -/
def Base64State.push (s : Base64State) (bits : Nat) : Base64State :=
  match s.place with
  | 0 => { bytes := s.bytes, place := 1, left := bits }
  | 1 => { bytes := UInt8.ofNat (s.left * 4 + bits / 16) :: s.bytes, place := 2, left := bits % 16 }
  | 2 => { bytes := UInt8.ofNat (s.left * 16 + bits / 4) :: s.bytes, place := 3, left := bits % 4 }
  | _ => { bytes := UInt8.ofNat (s.left * 64 + bits) :: s.bytes, place := 0 }

/-- Reads the rest of a text. -/
def decodeBase64From (s : Base64State) : List Char → Option (List UInt8)
  | [] => if s.place == 0 then some s.bytes.reverse else none
  | c :: cs =>
    if c == '=' then
      if 2 ≤ s.place && 4 ≤ s.place + s.pads + 1 then some s.bytes.reverse
      else decodeBase64From { s with pads := if 2 ≤ s.place then s.pads + 1 else s.pads } cs
    else match sixBits? c with
      | some bits => decodeBase64From (s.push bits) cs
      | none => decodeBase64From s cs

/-- The bytes that a text writes, if it is complete. -/
def decodeBase64? (s : String) : Option (List UInt8) :=
  if s.toList.all fun c => c.toNat < 128 then decodeBase64From {} s.toList else none

end ComponentCatalog.Text
