import Lectern.Text.Utf8

/-!
# Percent-encoded addresses

`percentEncode` writes every byte that is not allowed as `%` and two capital hexadecimal digits;
`percentEncodeKeeping` leaves escapes that are already there as they are.  `percentDecode` reads the
escapes of each run of ASCII characters as UTF-8, faulty bytes becoming the replacement character.
-/

namespace Lectern.Text

/-- One byte as `%` and two digits. -/
def percentByte (b : UInt8) : Text :=
  ['%', (hexDigit (b.toNat / 16)).toUpper, (hexDigit b.toNat).toUpper]

def percentEncode (allowed : Char → Bool) (t : Text) : Text :=
  t.flatMap fun c => if allowed c then [c] else (encodeChar c).flatMap percentByte

/-- Letters, digits, `_`, `.`, `-`, `~` and the slash. -/
def isPathChar (c : Char) : Bool :=
  isLetterOrDigit c || c = '_' || c = '.' || c = '-' || c = '~' || c = '/'

/-- A file name within an address. -/
def percentPath (t : Text) : Text := percentEncode isPathChar t

/-- The characters an address may hold as they are. -/
def isAddressChar (c : Char) : Bool :=
  isLetterOrDigit c || ";/?:@&=+$,-_.!~*'()#".toList.contains c

/-- As `percentEncode`, but an escape that is there stays; the first argument counts the characters
of it still to pass on. -/
def percentEncodeKeepingAux : Nat → Text → Text
  | _, [] => []
  | skip + 1, c :: t => c :: percentEncodeKeepingAux skip t
  | 0, c :: t =>
    match c, t with
    | '%', a :: b :: _ =>
      if (hexDigit? a).isSome && (hexDigit? b).isSome then c :: percentEncodeKeepingAux 2 t
      else percentByte 0x25 ++ percentEncodeKeepingAux 0 t
    | _, _ =>
      (if isAddressChar c then [c] else (encodeChar c).flatMap percentByte)
        ++ percentEncodeKeepingAux 0 t

def percentEncodeKeeping (t : Text) : Text := percentEncodeKeepingAux 0 t

/-- The bytes of a run of ASCII characters, escapes read; the first argument counts the digits of an
escape still to pass over. -/
def escapedBytesAux : Nat → Text → Bytes
  | _, [] => []
  | skip + 1, _ :: t => escapedBytesAux skip t
  | 0, c :: t =>
    match c, t with
    | '%', a :: b :: _ =>
      match hexDigit? a, hexDigit? b with
      | some x, some y => (16 * x + y).toUInt8 :: escapedBytesAux 2 t
      | _, _ => 0x25 :: escapedBytesAux 0 t
    | _, _ => c.toNat.toUInt8 :: escapedBytesAux 0 t

/-- Reads escapes; `acc` is the run of ASCII characters begun, in reverse. -/
def percentDecodeAux : Text → Text → Text
  | acc, [] => decodeLossy (escapedBytesAux 0 acc.reverse)
  | acc, c :: t =>
    if c.toNat < 0x80 then percentDecodeAux (c :: acc) t
    else decodeLossy (escapedBytesAux 0 acc.reverse) ++ c :: percentDecodeAux [] t

def percentDecode (t : Text) : Text := percentDecodeAux [] t

end Lectern.Text
