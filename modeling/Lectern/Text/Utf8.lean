import Lectern.Text.Digit

/-!
# Bytes of a text

`encode` writes a text as UTF-8, `decode` reads it back and says where and why it fails, and
`decodeLossy` puts the replacement character in place of every faulty run.  A faulty run is as long
as the bytes before the first one that cannot continue it.

`unifyLineEnds` makes every line end of a file read as text a single line feed.
-/

namespace Lectern.Text

abbrev Bytes := List UInt8

/-- Why a run of bytes is no character. -/
inductive DecodeReason where
  | invalidStart
  | invalidContinuation
  | unexpectedEnd
  deriving DecidableEq

/-- The faulty run: the position of its first byte, that byte, and its length. -/
structure DecodeError where
  position : Nat
  byte : UInt8
  length : Nat
  reason : DecodeReason
  deriving DecidableEq

def DecodeReason.message : DecodeReason → String
  | .invalidStart => "invalid start byte"
  | .invalidContinuation => "invalid continuation byte"
  | .unexpectedEnd => "unexpected end of data"

def DecodeError.message (e : DecodeError) : String :=
  let place :=
    if e.length = 1 then
      s!"byte 0x{String.ofList (hex 2 e.byte.toNat)} in position {e.position}"
    else s!"bytes in position {e.position}-{e.position + e.length - 1}"
  "'utf-8' codec can't decode " ++ place ++ ": " ++ e.reason.message

/-- The bytes of one character. -/
def encodeChar (c : Char) : Bytes :=
  let n := c.toNat
  if n < 0x80 then [n.toUInt8]
  else if n < 0x800 then [(0xc0 + n / 0x40).toUInt8, (0x80 + n % 0x40).toUInt8]
  else if n < 0x10000 then
    [(0xe0 + n / 0x1000).toUInt8, (0x80 + n / 0x40 % 0x40).toUInt8, (0x80 + n % 0x40).toUInt8]
  else
    [(0xf0 + n / 0x40000).toUInt8, (0x80 + n / 0x1000 % 0x40).toUInt8,
      (0x80 + n / 0x40 % 0x40).toUInt8, (0x80 + n % 0x40).toUInt8]

def encode (t : Text) : Bytes := t.flatMap encodeChar

/-- What one step of reading finds: a character and how many bytes follow its first one, or a fault
and its length. -/
inductive DecodeStep where
  | char (c : Char) (more : Nat)
  | fault (length : Nat) (reason : DecodeReason)

def isContinuation (b : UInt8) : Bool := 0x80 ≤ b && b < 0xc0

/-- The least and the greatest second byte a first byte may have. -/
def secondRange (first : UInt8) : UInt8 × UInt8 :=
  if first = 0xe0 then (0xa0, 0xbf)
  else if first = 0xed then (0x80, 0x9f)
  else if first = 0xf0 then (0x90, 0xbf)
  else if first = 0xf4 then (0x80, 0x8f)
  else (0x80, 0xbf)

/-- How many bytes follow a first byte; none for a byte that starts no character. -/
def continuationCount? (first : UInt8) : Option Nat :=
  if first < 0x80 then some 0
  else if 0xc2 ≤ first && first < 0xe0 then some 1
  else if 0xe0 ≤ first && first < 0xf0 then some 2
  else if 0xf0 ≤ first && first < 0xf5 then some 3
  else none

/-- Reads the character that starts with `first`; `rest` are the bytes after it. -/
def decodeStep (first : UInt8) (rest : Bytes) : DecodeStep :=
  match continuationCount? first with
  | none => .fault 1 .invalidStart
  | some 0 => .char (Char.ofNat first.toNat) 0
  | some more =>
    let good (i : Nat) (b : UInt8) : Bool :=
      if i = 0 then (secondRange first).1 ≤ b && b ≤ (secondRange first).2 else isContinuation b
    let tail := rest.take more
    match (tail.zipIdx).find? fun bi => !good bi.2 bi.1 with
    | some (_, i) => .fault (i + 1) .invalidContinuation
    | none =>
      if tail.length < more then .fault (tail.length + 1) .unexpectedEnd
      else
        let lead := first.toNat % (if more = 1 then 0x20 else if more = 2 then 0x10 else 8)
        .char (Char.ofNat (tail.foldl (fun n b => n * 0x40 + b.toNat % 0x40) lead)) more

/-- Reads from position `pos`; the first argument counts the bytes still to pass over. -/
def decodeAux : Nat → Nat → Bytes → Except DecodeError Text
  | _, _, [] => .ok []
  | skip + 1, pos, _ :: bs => decodeAux skip (pos + 1) bs
  | 0, pos, b :: bs =>
    match decodeStep b bs with
    | .char c more => (decodeAux more (pos + 1) bs).map (c :: ·)
    | .fault length reason => .error ⟨pos, b, length, reason⟩

def decode (bs : Bytes) : Except DecodeError Text := decodeAux 0 0 bs

def decodeLossyAux : Nat → Bytes → Text
  | _, [] => []
  | skip + 1, _ :: bs => decodeLossyAux skip bs
  | 0, b :: bs =>
    match decodeStep b bs with
    | .char c more => c :: decodeLossyAux more bs
    | .fault length _ => Char.ofNat 0xfffd :: decodeLossyAux (length - 1) bs

/-- Reads bytes with the replacement character for every faulty run. -/
def decodeLossy (bs : Bytes) : Text := decodeLossyAux 0 bs

/-- Line ends in any of the three conventions become line feeds. -/
def unifyLineEnds : Text → Text
  | [] => []
  | '\r' :: '\n' :: t => '\n' :: unifyLineEnds t
  | c :: t => (if c = '\r' then '\n' else c) :: unifyLineEnds t

end Lectern.Text
