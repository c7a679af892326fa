import Lectern.Text.Entity
import Lectern.Text.Punctuation

/-!
# Escapes of the notes and of markup

* `escapeMarkup`   a text as it stands in markup: `&`, `<`, `>` and the double quote as references;
* `literal`        a text of the notes with its backslash escapes and character references read;
* `referenced?`    the characters that a reference with a semicolon stands for.

A character reference of the notes needs its semicolon, and a number that stands for no character
is left as it is written, except in running text, where it becomes the replacement character.
-/

namespace Lectern.Markdown
open Text

def escapeChar (c : Char) : Text :=
  if c = '&' then "&amp;".toList
  else if c = '<' then "&lt;".toList
  else if c = '>' then "&gt;".toList
  else if c = '"' then "&quot;".toList
  else [c]

def escapeMarkup (t : Text) : Text := t.flatMap escapeChar

/-- The characters that a backslash makes literal. -/
def isEscapable (c : Char) : Bool := isAsciiPunctuation c

/-- The number is the code point of a character that a text may hold. -/
def isTextCode (n : Nat) : Bool :=
  !(inRanges [(0x0, 0x8), (0xb, 0xb), (0xe, 0x1f), (0x7f, 0x9f), (0xd800, 0xdfff),
    (0xfdd0, 0xfdef)] n || n % 0x10000 ≥ 0xfffe || n > 0x10ffff)

/-- The number in a reference after the number sign: hexadecimal after `x`, else decimal, of no
more digits than each may have. -/
def referenceNumber? (decimals hexadecimals : Nat) (body : Text) : Option Nat :=
  match body with
  | x :: ds =>
    if x = 'x' ∨ x = 'X' then
      if ds ≠ [] ∧ ds.length ≤ hexadecimals ∧ ds.all (fun c => (hexDigit? c).isSome) then
        some (ofHex ds)
      else none
    else if body.length ≤ decimals ∧ body.all Char.isDigit then some (natural body)
    else none
  | [] => none

/-- The name or number of the reference that the text after an ampersand begins with. -/
def referenceBody? (t : Text) : Option Text :=
  let body := t.takeWhile (· ≠ ';')
  if body.length < t.length then some body else none

/-- The characters a reference stands for inside an address, a title or a language name. -/
def referenced? (body : Text) : Option Text :=
  match body with
  | '#' :: r =>
    match referenceNumber? 8 8 r with
    | some n => if isTextCode n then some [Char.ofNat n] else none
    | none => none
  | _ => Entity.named? body

/-- Reads escapes; the first argument counts the characters of one still to pass over. -/
def literalAux : Nat → Text → Text
  | _, [] => []
  | skip + 1, _ :: t => literalAux skip t
  | 0, c :: t =>
    match c, t with
    | '\\', d :: t' => if isEscapable d then d :: literalAux 1 (d :: t') else c :: literalAux 0 (d :: t')
    | '&', t =>
      match (referenceBody? t).bind fun body => (referenced? body).map (body.length, ·) with
      | some (n, cs) => cs ++ literalAux (n + 1) t
      | none => c :: literalAux 0 t
    | c, t => c :: literalAux 0 t

/-- A text with its backslash escapes and character references read. -/
def literal (t : Text) : Text := literalAux 0 t

end Lectern.Markdown
