import Lectern.Text.Basic

/-!
# The notes' own markup, coloured

Notes that explain how notes are written show pieces of notes.  `Piece.ofText` cuts such a sample
into pieces, each with the role it plays:

* `prepare`       the sample as it is cut: plain line ends, no empty lines around it, one line end
                  behind it;
* `lineRule?`     what can only stand at the start of a line;
* `inlineRule`    what can stand anywhere;
* `cut`           all pieces, where a sigil's argument reaches to the end of its line.
-/

namespace Lectern.Highlight
open Text

/-- What a piece of a sample is. -/
inductive Role where
  | comment
  /-- The marker that opens or closes a directive block. -/
  | marker
  /-- The title behind a marker. -/
  | title
  | lineEnd
  | heading
  | plain
  | sigil
  | inclusion
  | key
  | formula
  /-- What follows a sigil on its line. -/
  | argument
  deriving DecidableEq

structure Piece where
  role : Role
  text : Text
  deriving DecidableEq

def stripLineFeeds (t : Text) : Text :=
  ((t.dropWhile (· = '\n')).reverse.dropWhile (· = '\n')).reverse

/-- A text with every line end written as a line feed. -/
def plainLineEnds : Text → Text
  | '\r' :: '\n' :: t => '\n' :: plainLineEnds t
  | '\r' :: t => '\n' :: plainLineEnds t
  | c :: t => c :: plainLineEnds t
  | [] => []

def withoutMark : Text → Text
  | c :: t => if c.toNat = 0xfeff then t else c :: t
  | [] => []

def prepare (t : Text) : Text := stripLineFeeds (plainLineEnds (withoutMark t)) ++ ['\n']

/-- The characters of directive markers, each with the least number of repetitions. -/
def markers : List (Char × Nat) :=
  [('!', 3), ('?', 3), (':', 3), ('´', 3), (';', 3), ('|', 3), ('/', 21), ('+', 42)]

def sigils : Text := ['^', '!', ':', ';', '@', '%', '&']

def isLineChar (c : Char) : Bool := c ≠ '\n'

/-- What a rule has cut off: the pieces, and the rest. -/
abbrev Cut := List Piece × Text

/-- A marker with its title, through the end of the line. -/
def markerRule? (t : Text) : Option Cut :=
  match t with
  | [] => none
  | c :: _ =>
    let (run, rest) := t.span (· = c)
    if markers.any fun m => m.1 = c && m.2 ≤ run.length then
      match rest.span isLineChar with
      | (title, '\n' :: rest) =>
        some ([⟨.marker, run⟩] ++ (if title.isEmpty then [] else [⟨.title, title⟩])
          ++ [⟨.lineEnd, ['\n']⟩], rest)
      | _ => none
    else none

def headingRule? : Text → Option Cut
  | '#' :: t =>
    match t.span isLineChar with
    | (line, '\n' :: rest) => some ([⟨.heading, '#' :: line ++ ['\n']⟩], rest)
    | _ => none
  | _ => none

/-- A sigil, doubled or not; the flag says that its argument follows. -/
def sigilRule? : Text → Option (Cut × Bool)
  | c :: t =>
    if sigils.contains c then
      match t with
      | d :: rest =>
        if d = c then some (([⟨.plain, [c, c]⟩], rest), false)
        else some (([⟨.sigil, [c]⟩], d :: rest), true)
      | [] => some (([⟨.sigil, [c]⟩], []), true)
    else none
  | [] => none

/-- A comment that ends on its own line. -/
def commentRule? (t : Text) : Option Cut :=
  (stripPrefix? "<!--" t).bind fun rest =>
    let line := rest.takeWhile isLineChar
    (indexOf? "-->" line).map fun i =>
      ([⟨.comment, "<!--".toList ++ line.take i ++ "-->".toList⟩], rest.drop (i + 3))

/-- A piece between two marks, with a run of the given characters inside. -/
def enclosedRule? (role : Role) (opening closing : Text) (inside : Char → Bool) (t : Text) :
    Option Cut :=
  (stripPrefix? opening t).bind fun rest =>
    let (run, rest) := rest.span inside
    (stripPrefix? closing rest).map fun rest => ([⟨role, opening ++ run ++ closing⟩], rest)

def formulaRule? (t : Text) : Option Cut :=
  (enclosedRule? .formula ['$'] ['$'] (fun c => c ≠ '$' && c ≠ '\n') t).filter fun c =>
    c.1.all fun p => 2 < p.text.length

/-- The rules that hold at the start of a line; the flag says that a sigil's argument follows. -/
def lineRule? (t : Text) : Option (Cut × Bool) :=
  ((markerRule? t).orElse fun _ => headingRule? t).map (·, false) |>.orElse fun _ => sigilRule? t

/-- A character that begins no piece of its own. -/
def isPlain (c : Char) : Bool := !"\n\x7b[$<".toList.contains c

/-- The rules that hold anywhere, for a text that begins with `c`. -/
def inlineRule (c : Char) (t : Text) : Cut :=
  ((enclosedRule? .inclusion ['{', '{'] ['}', '}'] (· ≠ '}') (c :: t)).orElse fun _ =>
    (enclosedRule? .key "[[" "]]" (fun c => c ≠ ']' && c ≠ '\n') (c :: t)).orElse fun _ =>
      formulaRule? (c :: t)).getD
  (if c = '\n' then ([⟨.lineEnd, ['\n']⟩], t)
  else
    let (run, rest) := t.span isPlain
    if isPlain c then ([⟨.plain, c :: run⟩], rest) else ([⟨.plain, [c]⟩], t))

/-- The pieces of a text.  `argument` says that a sigil's argument is next, `atStart` that a line
begins here; the first argument bounds the number of steps. -/
def cut : Nat → (argument atStart : Bool) → Text → List Piece
  | 0, _, _, _ => []
  | _, _, _, [] => []
  | fuel + 1, true, _, c :: t =>
    let (run, rest) := (c :: t).span isLineChar
    if c = '\n' then ⟨.lineEnd, ['\n']⟩ :: cut fuel false true t
    else ⟨.argument, run⟩ :: cut fuel true false rest
  | fuel + 1, false, atStart, c :: t =>
    let inline := (inlineRule c t, false)
    let ((pieces, rest), argument) :=
      match commentRule? (c :: t) with
      | some r => (r, false)
      | none => if atStart then (lineRule? (c :: t)).getD inline else inline
    let ended := (pieces.getLast?.bind fun p => p.text.getLast?) = some '\n'
    pieces ++ cut fuel argument ended rest

/-- The pieces of a sample. -/
def Piece.ofText (t : Text) : List Piece :=
  let t := prepare t
  cut (t.length + 1) false true t

end Lectern.Highlight
