import Lectern.Text.Case
import Lectern.Text.Digit
import Lectern.Text.Entity
import Lectern.Text.Utf8
import Lectern.Text.Wrap

/-!
# What is done with a text

The functions that the filters and the methods of texts are made of: words with capitals, texts
brought to a width, parts of texts, markup taken out, lines moved to the right, and addresses.
-/

namespace Lectern.Theme.Template
open Text

/-! ## Letters -/

/-- The characters with which a word begins in a heading stand behind these. -/
def partsWords (c : Char) : Bool := "-(\x7b[<".toList.contains c || isBlank c

/-- Every word with a capital and small letters behind it.  The word begun is given backwards. -/
def headingWords : (begun : Text) → Text → Text
  | begun, [] => word begun.reverse
  | begun, c :: t =>
    if partsWords c then word begun.reverse ++ c :: headingWords [] t
    else headingWords (c :: begun) t
where
  word : Text → Text
    | [] => []
    | c :: t => upperChar c ++ lower t

/-- Every run of letters with a capital and small letters behind it. -/
def titleCase (t : Text) : Text := go false [] t
where
  go (inWord : Bool) (before : Text) : Text → Text
    | [] => []
    | c :: t =>
      (if inWord then (if c = 'Σ' then [if endsWord before t then 'ς' else 'σ'] else lowerChar c)
        else firstChar c) ++ go (isCased c) (c :: before) t

/-- A letter that is no small one, though it has a case. -/
def isCapital (c : Char) : Bool := isCased c && lowerChar c ≠ [c]

/-- A letter that is a small one. -/
def isSmall (c : Char) : Bool := isCased c && lowerChar c = [c]

/-- Capitals and small letters exchanged. -/
def swapCase (t : Text) : Text := go [] t
where
  go (before : Text) : Text → Text
    | [] => []
    | c :: t =>
      (if isCapital c then
        (if c = 'Σ' then [if endsWord before t then 'ς' else 'σ'] else lowerChar c)
      else if isSmall c then upperChar c else [c]) ++ go (c :: before) t

/-- Every run of letters begins with a capital, which stands nowhere else. -/
def isTitle (t : Text) : Bool := t.any isCased && go false t
where
  go (inWord : Bool) : Text → Bool
    | [] => true
    | c :: t =>
      if isCased c then (isCapital c != inWord) && go true t else go false t

/-! ## Widths -/

/-- A text in the middle of a line. -/
def center (width : Nat) (fill : Char) (t : Text) : Text :=
  let space := width - t.length
  let left := space / 2 + (if space % 2 = 1 && width % 2 = 1 then 1 else 0)
  List.replicate left fill ++ t ++ List.replicate (space - left) fill

/-- Zeros between the sign of a number and its digits. -/
def zeroFill (width : Nat) (t : Text) : Text :=
  let zeros := List.replicate (width - t.length) '0'
  match t with
  | c :: r => if c = '+' || c = '-' then c :: zeros ++ r else zeros ++ t
  | [] => zeros

/-- Tabs exchanged for spaces up to the next place that `size` divides. -/
def expandTabs (size : Nat) : (column : Nat) → Text → Text
  | _, [] => []
  | column, c :: t =>
    if c = '\t' then
      let gap := if size = 0 then 0 else size - column % size
      List.replicate gap ' ' ++ expandTabs size (column + gap) t
    else if c = '\n' || c = '\r' then c :: expandTabs size 0 t
    else c :: expandTabs size (column + 1) t

/-! ## Parts -/

def stripEnds (isEdge : Char → Bool) (atStart atEnd : Bool) (t : Text) : Text :=
  let t := if atStart then t.dropWhile isEdge else t
  if atEnd then (t.reverse.dropWhile isEdge).reverse else t

/-- At most `count` occurrences of a text exchanged, `skip` characters being passed over. -/
def replaceSome (old new : Text) : Nat → (skip : Nat) → Text → Text
  | _, _, [] => []
  | count, skip + 1, _ :: t => replaceSome old new count skip t
  | 0, 0, c :: t => c :: replaceSome old new 0 0 t
  | count + 1, 0, c :: t =>
    if startsWith old (c :: t) then new ++ replaceSome old new count (old.length - 1) t
    else c :: replaceSome old new (count + 1) 0 t

/-- A text put before at most `count` characters, and at the end. -/
def spread (new : Text) : (count : Nat) → Text → Text
  | 0, t => t
  | _ + 1, [] => new
  | count + 1, c :: t => new ++ c :: spread new count t

/-- Occurrences of a text exchanged, all of them or at most so many. -/
def replaceText (old new : Text) (count? : Option Int) (t : Text) : Text :=
  let count := match count? with
    | some n => if n < 0 then t.length + 1 else n.toNat
    | none => t.length + 1
  if old = [] then spread new count t else replaceSome old new count 0 t

/-- How often a text occurs in another one. -/
def occurrences (p t : Text) : Nat :=
  if p = [] then t.length + 1 else (splitOn p t).length - 1

/-- The position at which `p` last occurs in `t`. -/
def lastIndexOf? (p t : Text) : Option Nat :=
  (indexOf? p.reverse t.reverse).map fun i => t.length - i - p.length

/-- The first parts of a text, at most so many, and the rest of it. -/
def splitFront (sep : Text) : (count : Nat) → Text → List Text
  | 0, t => [t]
  | count + 1, t =>
    match indexOf? sep t with
    | some i => t.take i :: splitFront sep count (t.drop (i + sep.length))
    | none => [t]

/-- The last parts of a text, at most so many, behind the rest of it. -/
def splitBack (sep : Text) (count : Nat) (t : Text) : List Text :=
  ((splitFront sep.reverse count t.reverse).map List.reverse).reverse

/-- The first words of a text, at most so many, and the rest of it. -/
def wordsFront : (count : Nat) → Text → List Text
  | 0, t => if (stripLeft t).isEmpty then [] else [stripLeft t]
  | count + 1, t =>
    match stripLeft t with
    | [] => []
    | t => t.takeWhile (!isBlank ·) :: wordsFront count (t.dropWhile (!isBlank ·))

/-- The last words of a text, at most so many, behind the rest of it. -/
def wordsBack (count : Nat) (t : Text) : List Text :=
  ((wordsFront count t.reverse).map List.reverse).reverse

/-- How many runs of letters, numbers and underscores there are. -/
def countWords (t : Text) : Nat := (wordsAux (!isWordChar ·) [] t).length

/-! ## Markup -/

/-- A text without its parts from one mark up to another; the first argument bounds their number. -/
def withoutSpans (start stop : Text) : Nat → Text → Text
  | 0, t => t
  | fuel + 1, t =>
    match indexOf? start t with
    | none => t
    | some i =>
      match indexOf? stop (t.drop i) with
      | none => t
      | some j => withoutSpans start stop fuel (t.take i ++ t.drop (i + j + stop.length))

/-- Markup as it is read: no comments and no tags, blanks drawn together. -/
def withoutTags (t : Text) : Text :=
  let t := withoutSpans "<!--" "-->" t.length t
  join [' '] (words (withoutSpans ['<'] ['>'] t.length t))

/-! ## Lines -/

/-- A text cut at a length, at the end of a word if it is not to be cut inside one. -/
def truncateText (length : Nat) (cutsWords : Bool) (mark : Text) (leeway : Nat) (t : Text) : Text :=
  if t.length ≤ length + leeway then t
  else
    let kept := t.take (length - mark.length)
    if cutsWords then kept ++ mark else (splitBack [' '] 1 kept).headD [] ++ mark

/-- Lines behind the first one moved to the right. -/
def indentText (gap : Text) (movesFirst movesEmpty : Bool) (t : Text) : Text :=
  match lines (t ++ ['\n']) with
  | [] => []
  | first :: rest =>
    let moved := rest.map fun l => if l.isEmpty && !movesEmpty then l else gap ++ l
    join ['\n'] ((if movesFirst then gap ++ first else first) :: moved)

/-- The lines of a text, each broken where it is too wide. -/
def wrapLines (width : Nat) (cutsWords partsHyphens : Bool) (lineEnd t : Text) : Text :=
  join lineEnd ((lines t).map fun l => join lineEnd (wrap width cutsWords partsHyphens l))

/-! ## Addresses -/

/-- Characters that stand for themselves in an address. -/
def isPlainInAddress (c : Char) : Bool := isLetterOrDigit c || "_.-~".toList.contains c

/-- A text with codes for the characters that have a meaning in an address; in a query a slash has
one, and a space is written as a plus sign. -/
def addressText (inQuery : Bool) (t : Text) : Text :=
  t.flatMap fun c =>
    if isPlainInAddress c || (c = '/' && !inQuery) then [c]
    else if inQuery && c = ' ' then ['+']
    else (encodeChar c).flatMap fun b => '%' :: (hex 2 b.toNat).map Char.toUpper

end Lectern.Theme.Template
