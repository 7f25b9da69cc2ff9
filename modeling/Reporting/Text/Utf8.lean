/-!
Text as bytes. Characters take one to four bytes; a sequence that is longer than need be, names half of a
surrogate pair or lies beyond the last character is refused.
-/

namespace Reporting.Text

/-- The lowest six bits of a byte that continues a character. -/
def continuation? (b : UInt8) : Option Nat :=
  if 0x80 ≤ b ∧ b ≤ 0xBF then some (b.toNat - 0x80) else none

/-- The first character of some bytes, and the rest. -/
def decodeChar? : List UInt8 → Option (Char × List UInt8)
  | [] => none
  | a :: rest =>
    if a < 0x80 then some (Char.ofNat a.toNat, rest)
    else if 0xC2 ≤ a ∧ a ≤ 0xDF then
      match rest with
      | b :: rest => (continuation? b).map fun b => (Char.ofNat ((a.toNat - 0xC0) * 64 + b), rest)
      | _ => none
    else if 0xE0 ≤ a ∧ a ≤ 0xEF then
      match rest with
      | b :: c :: rest =>
        match continuation? b, continuation? c with
        | some b, some c =>
          let n := (a.toNat - 0xE0) * 4096 + b * 64 + c
          if n < 0x800 ∨ (0xD800 ≤ n ∧ n ≤ 0xDFFF) then none else some (Char.ofNat n, rest)
        | _, _ => none
      | _ => none
    else if 0xF0 ≤ a ∧ a ≤ 0xF4 then
      match rest with
      | b :: c :: d :: rest =>
        match continuation? b, continuation? c, continuation? d with
        | some b, some c, some d =>
          let n := (a.toNat - 0xF0) * 262144 + b * 4096 + c * 64 + d
          if n < 0x10000 ∨ 0x10FFFF < n then none else some (Char.ofNat n, rest)
        | _, _, _ => none
      | _ => none
    else none

/-- A character takes at least one byte. -/
theorem length_decodeChar? {bytes rest : List UInt8} {c : Char} (h : decodeChar? bytes = some (c, rest)) :
    rest.length < bytes.length := by
  unfold decodeChar? at h
  split at h
  · simp at h
  · repeat' split at h
    all_goals simp_all
    all_goals grind

/-- The characters of the bytes; a byte that belongs to none stands for one that is not known. -/
def decodeLossy (bytes : List UInt8) : List Char :=
  match bytes with
  | [] => []
  | b :: more =>
    match _found : decodeChar? (b :: more) with
    | some (c, rest) => c :: decodeLossy rest
    | none => '\ufffd' :: decodeLossy more
termination_by bytes.length
decreasing_by
  · exact length_decodeChar? _found
  · simp

/-- Decodes at most so many characters; if that fails, the number of bytes before the failure. -/
def decodeFrom (read : Nat) : Nat → List UInt8 → Except Nat (List Char)
  | 0, _ => .ok []
  | _ + 1, [] => .ok []
  | most + 1, bytes =>
    match decodeChar? bytes with
    | some (c, rest) => (decodeFrom (read + c.utf8Size) most rest).map (c :: ·)
    | none => .error read

/-- The text of the bytes, or the number of bytes before the first that cannot be read. -/
def decode (bytes : List UInt8) : Except Nat (List Char) :=
  decodeFrom 0 bytes.length bytes

/-- The bytes of a text. -/
def encode (s : String) : List UInt8 :=
  s.toUTF8.toList

end Reporting.Text
