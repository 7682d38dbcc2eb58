/-!
# Octets of a text

Texts are written in UTF-8.  Reading octets back comes in two ways: strictly, where one ill-formed
sequence refuses the whole, and leniently, where each maximal ill-formed part becomes one U+FFFD.
-/

namespace ParseAudit

/-- The octets of files, of names and of what a program prints. -/
abbrev Octets := List UInt8

namespace Octets

/-- The UTF-8 octets of a text. -/
def ofText (s : String) : Octets := s.toList.flatMap String.utf8EncodeChar

/-- The text that the octets encode, if they are UTF-8. -/
def toText? (octets : Octets) : Option String := String.fromUTF8? octets.toByteArray

theorem toByteArray_ofText (s : String) : (ofText s).toByteArray = s.toUTF8 := by
  have h : s.toByteArray = s.toList.utf8Encode := by
    conv => lhs; rw [← String.ofList_toList (s := s)]
    rfl
  exact h.symm

/-- The octets of a text read back as that text. -/
theorem toText?_ofText (s : String) : toText? (ofText s) = some s := by
  rw [toText?, toByteArray_ofText, String.fromUTF8?]
  exact dif_pos s.isValidUTF8

/-- Whether an octet lies between two bounds. -/
def within (low high b : UInt8) : Bool := low ≤ b && b ≤ high

/-- The six low bits, which a continuation octet carries. -/
def low6 (b : UInt8) : Nat := b.toNat % 64

/-- Reads a character whose first octet is `b`: how many further octets belong to it, and the
character, or `none` where these octets are a maximal ill-formed part. -/
def decodeOne (b : UInt8) (rest : Octets) : Nat × Option Char :=
  if b < 0x80 then (0, some (Char.ofNat b.toNat))
  -- Two octets; 0xC0 and 0xC1 could only write ASCII characters the long way.
  else if within 0xC2 0xDF b then
    match rest with
    | c :: _ =>
      if within 0x80 0xBF c then (1, some (Char.ofNat (b.toNat % 32 * 64 + low6 c))) else (0, none)
    | [] => (0, none)
  -- Three octets, but no long way round and no half of a surrogate pair.
  else if within 0xE0 0xEF b then
    let low := if b == 0xE0 then 0xA0 else 0x80
    let high := if b == 0xED then 0x9F else 0xBF
    match rest with
    | c :: d :: _ =>
      if !within low high c then (0, none)
      else if !within 0x80 0xBF d then (1, none)
      else (2, some (Char.ofNat <| (b.toNat % 16 * 64 + low6 c) * 64 + low6 d))
    | [c] => (if within low high c then 1 else 0, none)
    | [] => (0, none)
  -- Four octets, but no long way round and nothing beyond U+10FFFF.
  else if within 0xF0 0xF4 b then
    let low := if b == 0xF0 then 0x90 else 0x80
    let high := if b == 0xF4 then 0x8F else 0xBF
    match rest with
    | c :: more =>
      if !within low high c then (0, none)
      else match more with
        | d :: e :: _ =>
          if !within 0x80 0xBF d then (1, none)
          else if !within 0x80 0xBF e then (2, none)
          else (3, some (Char.ofNat <| ((b.toNat % 8 * 64 + low6 c) * 64 + low6 d) * 64 + low6 e))
        | [d] => (if within 0x80 0xBF d then 2 else 1, none)
        | [] => (1, none)
    | [] => (0, none)
  else (0, none)

/-- All characters, with one U+FFFD for each maximal ill-formed part. -/
def lenientChars : Octets → List Char
  | [] => []
  | b :: rest =>
    match decodeOne b rest with
    | (n, c) => c.getD '\uFFFD' :: lenientChars (rest.drop n)
termination_by octets => octets.length
decreasing_by simp only [List.length_drop, List.length_cons]; omega

/-- The text that the octets encode, with one U+FFFD for each maximal ill-formed part. -/
def toTextLenient (octets : Octets) : String := String.ofList (lenientChars octets)

end Octets

end ParseAudit
