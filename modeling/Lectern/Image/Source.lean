import Lectern.Text.Blank

/-!
# Image sources

An image source may end in a size directive: a delimiter that stands alone, and a height.  A doubled
delimiter is a literal one and sizes nothing.

* `loneSplits`     the ways to cut a source at a delimiter that stands alone;
* `sizeDirective`  path and height of a source;
* `isRelative`     whether a path lies next to its document;
* `resolve`        the address and the style an image ends up with.
-/

namespace Lectern.Image
open Text

/-- How often `d` is repeated from the start of the text on; the first argument bounds the
count. -/
def leadingRun (d : Text) : Nat → Text → Nat
  | 0, _ => 0
  | fuel + 1, s =>
    match stripPrefix? d s with
    | some r => leadingRun d fuel r + 1
    | none => 0

/-- The cuts of what is left, the characters before being `acc` in reverse; the first argument
counts the characters of a run still to pass over. -/
def loneSplitsAux (d : Text) : Nat → Text → Text → List (Text × Text)
  | _, _, [] => []
  | skip + 1, acc, c :: t => loneSplitsAux d skip (c :: acc) t
  | 0, acc, c :: t =>
    let n := leadingRun d (c :: t).length (c :: t)
    if n = 1 then
      (acc.reverse, (c :: t).drop d.length) :: loneSplitsAux d (d.length - 1) (c :: acc) t
    else loneSplitsAux d (n * d.length - 1) (c :: acc) t

/-- What stands before and after each occurrence of `d` that is not doubled. -/
def loneSplits (d s : Text) : List (Text × Text) :=
  if d = [] then [] else loneSplitsAux d 0 [] s

/-- Path and height of a source.  There is a height only where exactly one delimiter stands alone
and something follows it; the doubled delimiters of the path become single ones. -/
def sizeDirective (d s : Text) : Text × Option Text :=
  let undouble (p : Text) : Text := replaceAll (d ++ d) d p
  match loneSplits d s with
  | [(path, tail)] => (undouble path, if strip tail = [] then none else some (strip tail))
  | _ => (undouble s, none)

/-- The character may stand in a scheme after its first letter. -/
def isSchemeChar (c : Char) : Bool :=
  isLetterOrDigit c || c = '+' || c = '.' || c = '-'

/-- What follows the scheme and its colon, if the address begins with one. -/
def afterScheme? : Text → Option Text
  | [] => none
  | c :: t =>
    if isLetter c then
      match t.dropWhile isSchemeChar with
      | ':' :: r => some r
      | _ => none
    else none

def hasScheme (t : Text) : Bool := (afterScheme? t).isSome

/-- The path lies next to its document: it neither goes up, nor starts at the root, nor has a
scheme. -/
def isRelative (path : Text) : Bool :=
  !(startsWith ['.', '.'] path || startsWith ['/'] path || hasScheme path)

/-- The escapes of the bar, in either case, read as bars. -/
def readBars : Text → Text
  | '%' :: '7' :: 'C' :: t => '|' :: readBars t
  | '%' :: '7' :: 'c' :: t => '|' :: readBars t
  | c :: t => c :: readBars t
  | [] => []

/-- The style that gives an image its height. -/
def heightStyle (height : Text) : Text := "max-height: ".toList ++ height ++ "em;".toList

/-- Address and style of an image.  A relative path is rooted in the folder of images, and at the
root of the site when `fromRoot`. -/
def resolve (imageDir : Text) (fromRoot : Bool) (source : Text) : Text × Option Text :=
  let (path, height) := sizeDirective ['|'] (readBars source)
  let path := replaceAll ['|'] ['%', '7', 'C'] path
  let address :=
    if isRelative path then (if fromRoot then ['/'] else []) ++ imageDir ++ '/' :: path else path
  (address, height.map heightStyle)

end Lectern.Image
