import Lectern.Markdown.Address

/-!
# Destinations and titles of links

* `destination?`    the address at the start of a text, in angle brackets or bare;
* `readTitle`       a title in quotes or parentheses, which may go on in the next line;
* `definition?`     a label with its address and title, as a block of its own;
* `normalLabel`     the form in which labels are compared.
-/

namespace Lectern.Markdown
open Text

/-- The end of an address in angle brackets: the address and the rest after the bracket. -/
def bracketed? : Text → Text → Option (Text × Text)
  | _, [] => none
  | _, '\n' :: _ => none
  | _, '<' :: _ => none
  | acc, '>' :: t => some (literal acc.reverse, t)
  | acc, '\\' :: c :: t => bracketed? (c :: '\\' :: acc) t
  | acc, c :: t => bracketed? (c :: acc) t

/-- A bare address: the address and the rest, the parentheses in it being balanced.  `depth` counts
those still open. -/
def bare? : Nat → Text → Text → Option (Text × Text)
  | depth, acc, [] => if depth = 0 then some (acc.reverse, []) else none
  | depth, acc, c :: t =>
    let stop : Option (Text × Text) := if depth = 0 then some (acc.reverse, c :: t) else none
    if c.toNat ≤ 0x20 ∨ c.toNat = 0x7f then stop
    else if c = '\\' then
      match t with
      | d :: t' => if d = ' ' then stop else bare? depth (d :: c :: acc) t'
      | [] => bare? depth (c :: acc) []
    else if c = '(' then if depth ≥ 32 then none else bare? (depth + 1) (c :: acc) t
    else if c = ')' then if depth = 0 then stop else bare? (depth - 1) (c :: acc) t
    else bare? depth (c :: acc) t

/-- The address at the start of a text and the rest after it. -/
def destination? : Text → Option (Text × Text)
  | '<' :: t => bracketed? [] t
  | t =>
    match bare? 0 [] t with
    | some ([], _) => none
    | some (address, r) => some (literal address, r)
    | none => none

/-- What reading a title comes to. -/
inductive TitleRead where
  | absent
  | closed (title rest : Text)

/-- The title up to its closing mark. -/
def titleBody (closing : Char) : Text → Text → TitleRead
  | _, [] => .absent
  | acc, c :: t =>
    if c = closing then .closed (literal acc.reverse) t
    else if c = '(' ∧ closing = ')' then .absent
    else match c, t with
      | '\\', d :: t' => titleBody closing (d :: c :: acc) t'
      | c, t => titleBody closing (c :: acc) t

/-- The title at the start of a text. -/
def readTitle : Text → TitleRead
  | '"' :: t => titleBody '"' [] t
  | '\'' :: t => titleBody '\'' [] t
  | '(' :: t => titleBody ')' [] t
  | _ => .absent

/-- The form in which labels are compared: spaces made single, and without regard to case. -/
def normalLabel (label : Text) : Text := foldCase (Text.join [' '] (spacedWords label))

/-- A label in brackets with no bracket in it, and what follows. -/
def definitionLabel? : Text → Text → Option (Text × Text)
  | _, [] => none
  | _, '[' :: _ => none
  | acc, ']' :: t => some (acc.reverse, t)
  | acc, '\\' :: c :: t => definitionLabel? (c :: '\\' :: acc) t
  | acc, c :: t => definitionLabel? (c :: acc) t

def isLinkSpace (c : Char) : Bool := c = ' ' || c = '\t' || c = '\n'

def isInLineSpace (c : Char) : Bool := c = ' ' || c = '\t'

/-- The rest of a line holds nothing. -/
def endsLine (t : Text) : Bool :=
  match t.dropWhile isInLineSpace with
  | [] => true
  | c :: _ => c = '\n'

structure Definition where
  label : Text
  address : Text
  title : Text
  deriving DecidableEq

/-- The line at the start of a text, its end included, and what follows it. -/
def firstLine : Text → Text × Text
  | [] => ([], [])
  | c :: t =>
    if c = '\n' then ([c], t)
    else
      let (line, rest) := firstLine t
      (c :: line, rest)

/-- The title behind an address and the rest after it.  A space parts the two, or the title runs over
several lines.  Where the title does not end its last line, there is none, and the line belongs to the
text again. -/
def definitionTitle (t : Text) : Text × Text :=
  let spaced := t.dropWhile isLinkSpace
  match readTitle spaced with
  | .closed title r =>
    let isParted : Bool :=
      spaced.length < t.length || (spaced.take (spaced.length - r.length)).contains '\n'
    if isParted && (endsLine r || title = []) then (title, r) else ([], t)
  | .absent => ([], t)

/-- A definition at the start of a text and the number of lines it takes.  The address lies in one
line; a backslash may take the end of that line along, and then nothing follows the address. -/
def definition? (t : Text) : Option (Definition × Nat) :=
  match t with
  | '[' :: t₁ =>
    match definitionLabel? [] t₁ with
    | some (label, ':' :: t₂) =>
      let (line, more) := firstLine (t₂.dropWhile isLinkSpace)
      match destination? line with
      | none => none
      | some (address, t₃) =>
        let address := normalAddress address
        let label := normalLabel label
        let (title, rest) := if t₃.isEmpty then ([], more) else definitionTitle (t₃ ++ more)
        let taken := t.take (t.length - rest.length)
        let atEnd := taken.getLast? = some '\n'
        if !isSafeAddress address ∨ !(t₃.isEmpty || endsLine rest) ∨ label = [] then none
        else some (⟨label, address, title⟩, taken.count '\n' + if atEnd then 0 else 1)
    | _ => none
  | _ => none

end Lectern.Markdown
