import ApiDescription.Text.CodePoint

/-!
# The text of files

The bytes of a file are UTF-8, decoded character by character. A byte that cannot stand
where it does ends the decoding, and the fault names the bytes of the broken character
that were still in order. Files end their lines with a line feed, a carriage return, or
both; once read, a text ends them with line feeds alone.
-/

namespace ApiDescription

namespace Utf8

/-- Why bytes are no character. -/
inductive Reason where
  | invalidStart | invalidContinuation | unexpectedEnd
  deriving DecidableEq, Repr

/-- The bytes of a broken character and their position. -/
structure Fault where
  position : Nat
  bytes : List UInt8
  reason : Reason
  deriving DecidableEq, Repr

/-- The text of a reason. -/
def Reason.text : Reason → String
  | .invalidStart => "invalid start byte"
  | .invalidContinuation => "invalid continuation byte"
  | .unexpectedEnd => "unexpected end of data"

/-- The text of a fault: the byte if there is only one, else the positions. -/
def Fault.message (fault : Fault) : String :=
  let place :=
    match fault.bytes with
    | [byte] =>
      "byte 0x" ++ String.ofList (Text.hexDigits 2 byte.toNat) ++ " in position " ++
        toString fault.position
    | bytes =>
      "bytes in position " ++ toString fault.position ++ "-" ++
        toString (fault.position + bytes.length - 1)
  "'utf-8' codec can't decode " ++ place ++ ": " ++ fault.reason.text

/-- The shape of a character by its first byte: the number of further bytes, and the
range of the second byte. The range leaves out spellings that are too long,
surrogates, and numbers beyond the last code point. -/
def shape? (first : UInt8) : Option (Nat × UInt8 × UInt8) :=
  if first < 0x80 then some (0, 0x80, 0xbf)
  else if first < 0xc2 then none
  else if first < 0xe0 then some (1, 0x80, 0xbf)
  else if first < 0xf0 then
    some (2, if first = 0xe0 then 0xa0 else 0x80, if first = 0xed then 0x9f else 0xbf)
  else if first < 0xf5 then
    some (3, if first = 0xf0 then 0x90 else 0x80, if first = 0xf4 then 0x8f else 0xbf)
  else none

/-- The bits that the first byte of a character contributes. -/
def leadBits (first : UInt8) (further : Nat) : Nat :=
  match further with
  | 0 => first.toNat
  | 1 => first.toNat % 0x20
  | 2 => first.toNat % 0x10
  | _ => first.toNat % 0x08

/-- Reads the further bytes of a character: `count` are to come, the next one between
`low` and `high`; `value` is the number so far and `read` the bytes, the latest first.
Answers the number and how many bytes it took, or the bytes that were in order and why
they do not go on. -/
def further (count : Nat) (low high : UInt8) (value : Nat) (read : List UInt8)
    (bytes : List UInt8) : Except (List UInt8 × Reason) (Nat × Nat) :=
  match count, bytes with
  | 0, _ => .ok (value, read.length)
  | _ + 1, [] => .error (read.reverse, .unexpectedEnd)
  | count + 1, byte :: rest =>
    if low ≤ byte ∧ byte ≤ high then
      further count 0x80 0xbf (0x40 * value + byte.toNat % 0x40) (byte :: read) rest
    else .error (read.reverse, .invalidContinuation)

/-- Decodes the bytes from a position on. The first `skip` of them belong to a character
that has been decoded already. -/
def decodeFrom (position : Nat) (skip : Nat) : List UInt8 → Except Fault (List Char)
  | [] => .ok []
  | byte :: rest =>
    match skip with
    | skip + 1 => decodeFrom (position + 1) skip rest
    | 0 =>
      match shape? byte with
      | none => .error ⟨position, [byte], .invalidStart⟩
      | some (count, low, high) =>
        match further count low high (leadBits byte count) [byte] rest with
        | .error (bytes, reason) => .error ⟨position, bytes, reason⟩
        | .ok (value, length) =>
          (decodeFrom (position + 1) (length - 1) rest).map (Char.ofNat value :: ·)

/-- The text of bytes. -/
def decode (bytes : List UInt8) : Except Fault (List Char) := decodeFrom 0 0 bytes

end Utf8

/-- Text with every line ended by a line feed alone: a carriage return counts as a line
end, together with a line feed behind it. -/
def Text.withLineFeeds : List Char → List Char
  | [] => []
  | '\r' :: '\n' :: rest => '\n' :: withLineFeeds rest
  | c :: rest => (if c = '\r' then '\n' else c) :: withLineFeeds rest

end ApiDescription
