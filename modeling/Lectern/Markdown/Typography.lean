import Lectern.Markdown.Inline.Token
import Lectern.Text.Punctuation

/-!
# Typography

Plain text is set as a printer would: signs for what had to be typed in several characters, dashes
for hyphens, and quotes that turn to the side they stand on.

* `setSigns`    the sign for a letter or two in parentheses;
* `setDashes`   dots, marks, commas and dashes;
* `setQuotes`   quotes, which are paired over the tokens of one piece of text.

The text of an address that was made a link by itself is left alone.
-/

namespace Lectern.Markdown
open Text

/-! ## signs -/

def signs : List (Text × Char) :=
  [("(c)", '©'), ("(C)", '©'), ("(r)", '®'), ("(R)", '®'), ("(tm)", '™'), ("(TM)", '™'),
    ("(tM)", '™'), ("(Tm)", '™')]

def setSigns (t : Text) : Text :=
  signs.foldl (fun t s => replaceAll s.1 [s.2] t) t

def hasSign (t : Text) : Bool := signs.any fun s => occurs s.1 t

/-! ## dots, marks and dashes -/

/-- Every run of at least `least` characters of a class exchanged; `run` is the run begun, in
reverse. -/
def mapRuns (p : Char → Bool) (least : Nat) (f : Text → Text) : Text → Text → Text
  | run, [] => if run.length ≥ least then f run.reverse else run.reverse
  | run, c :: t =>
    if p c then mapRuns p least f (c :: run) t
    else (if run.length ≥ least then f run.reverse else run.reverse) ++ c :: mapRuns p least f [] t

/-- A dash for `count` hyphens between characters of two classes, or the ends of a line.  `skip`
counts the hyphens still to pass over and `atStart` tells that a line starts here. -/
def dashAux (before after : Char → Bool) (count : Nat) (dash : Char) : Nat → Bool → Text → Text
  | _, _, [] => []
  | skip + 1, _, _ :: t => dashAux before after count dash skip false t
  | 0, atStart, c :: t =>
    let stands (r : Text) : Bool :=
      startsWith (List.replicate count '-') r
        && (r.drop count).head?.all fun d => after d || d = '\n'
    if atStart && stands (c :: t) then dash :: dashAux before after count dash (count - 1) false t
    else if before c && stands t then c :: dash :: dashAux before after count dash count false t
    else c :: dashAux before after count dash 0 (c = '\n') t

def setDash (before after : Char → Bool) (count : Nat) (dash : Char) (t : Text) : Text :=
  dashAux before after count dash 0 true t

def isMark (c : Char) : Bool := c = '?' || c = '!'

/-- An ellipsis after a mark is two dots again. -/
def unsetDots : Text → Text
  | [] => []
  | c :: t =>
    match t with
    | '…' :: r => if isMark c then c :: '.' :: '.' :: unsetDots r else c :: unsetDots ('…' :: r)
    | t => c :: unsetDots t

/-- The characters that show that something is to be set. -/
def hasRare (t : Text) : Bool :=
  ["+-", "..", "????", "!!!!", ",,", "--"].any fun p => occurs p.toList t

def setDashes (t : Text) : Text :=
  if !hasRare t then t
  else
    let t := replaceAll ['+', '-'] ['±'] t
    let t := mapRuns (· = '.') 2 (fun _ => ['…']) [] t
    let t := unsetDots t
    let t := mapRuns isMark 4 (fun r => List.replicate 3 (r.getLastD '!')) [] t
    let t := mapRuns (· = ',') 2 (fun _ => [',']) [] t
    let t := setDash (· ≠ '-') (· ≠ '-') 3 '—' t
    let t := setDash isBlank isBlank 2 '–' t
    setDash (fun c => c ≠ '-' && !isBlank c) (fun c => c ≠ '-' && !isBlank c) 2 '–' t

/-- Changes the plain text outside addresses that are links by themselves. -/
def mapPlain (f : Text → Text) : Bool → List Token → List Token
  | _, [] => []
  | inside, .text t :: ts => .text (if inside then t else f t) :: mapPlain f inside ts
  | _, .opening (.link a n true) :: ts => .opening (.link a n true) :: mapPlain f true ts
  | _, .closing (.link a n true) :: ts => .closing (.link a n true) :: mapPlain f false ts
  | inside, t :: ts => t :: mapPlain f inside ts

/-! ## quotes -/

structure OpenQuote where
  token : Nat
  pos : Nat
  single : Bool
  level : Int

/-- The last character before token `i`, a space at the start of a line. -/
def lastBefore (ts : Array Token) : Nat → Char
  | 0 => ' '
  | i + 1 =>
    match ts[i]? with
    | some t =>
      if t.isBreak then ' '
      else match t.content.getLast? with
        | some c => c
        | none => lastBefore ts i
    | none => ' '

/-- The first character of tokens, a space at the end of a line. -/
def firstOf : List Token → Char
  | [] => ' '
  | t :: ts =>
    if t.isBreak then ' '
    else match t.content.head? with
      | some c => c
      | none => firstOf ts

/-- The token with one character exchanged. -/
def setChar (ts : Array Token) (i pos : Nat) (c : Char) : Array Token :=
  match ts[i]? with
  | some (.text t) => ts.setIfInBounds i (.text (t.set pos c))
  | _ => ts

/-- The innermost quote of a kind that was opened on the same level, and the quotes around it. -/
def matching? (single : Bool) (level : Int) : List OpenQuote → Option (OpenQuote × List OpenQuote)
  | [] => none
  | q :: qs =>
    if q.level < level then none
    else if q.single = single ∧ q.level = level then some (q, qs)
    else matching? single level qs

/-- Whether a quote between two characters may open and whether it may close. -/
def quoteSides (last next : Char) (single : Bool) : Bool × Bool :=
  let opens := !(isSpacing next || (isPunctuation next && !(isSpacing last || isPunctuation last)))
  let closes := !(isSpacing last || (isPunctuation last && !(isSpacing next || isPunctuation next)))
  -- a double quote after a digit and before another one is an inch sign
  if next = '"' ∧ !single ∧ last.isDigit then (false, false)
  else if opens && closes then (isPunctuation last, isPunctuation next)
  else (opens, closes)

/-- Sets the quote at position `pos` of token `i`, which lies on a level. -/
def setQuote (ts : Array Token) (stack : List OpenQuote) (i pos : Nat) (level : Int) (quote : Char)
    (text : Text) : Array Token × List OpenQuote :=
  let single := quote == '\''
  let last := if pos > 0 then (text[pos - 1]?).getD ' ' else lastBefore ts i
  let next := match text[pos + 1]? with
    | some c => c
    | none => firstOf (ts.extract (i + 1) ts.size).toList
  let (opens, closes) := quoteSides last next single
  if !opens && !closes then (if single then setChar ts i pos '’' else ts, stack)
  else
    match (if closes then matching? single level stack else none) with
    | some (q, around) =>
      let ts := setChar ts i pos (if single then '’' else '”')
      (setChar ts q.token q.pos (if single then '‘' else '“'), around)
    | none =>
      if opens then (ts, ⟨i, pos, single, level⟩ :: stack)
      else (if single then setChar ts i pos '’' else ts, stack)

/-- Sets the quotes of one token from position `pos` on. -/
def setQuotesIn (i : Nat) (level : Int) :
    Nat → Nat → Array Token → List OpenQuote → Array Token × List OpenQuote
  | 0, _, ts, stack => (ts, stack)
  | fuel + 1, pos, ts, stack =>
    match ts[i]? with
    | some (.text t) =>
      match t[pos]? with
      | some c =>
        let (ts, stack) :=
          if c = '"' ∨ c = '\'' then setQuote ts stack i pos level c t else (ts, stack)
        setQuotesIn i level fuel (pos + 1) ts stack
      | none => (ts, stack)
    | _ => (ts, stack)

/-- Sets the quotes of the tokens from number `i` on. -/
def setQuotesFrom : Nat → Nat → Int → Array Token → List OpenQuote → Array Token
  | 0, _, _, ts, _ => ts
  | fuel + 1, i, level, ts, stack =>
    match ts[i]? with
    | none => ts
    | some t =>
      let here := if t.step < 0 then level - 1 else level
      let stack := stack.dropWhile (·.level > here)
      let (ts, stack) := setQuotesIn i here (t.content.length) 0 ts stack
      setQuotesFrom fuel (i + 1) (if t.step > 0 then here + 1 else here) ts stack

def setQuotes (ts : List Token) : List Token :=
  (setQuotesFrom ts.length 0 0 ts.toArray []).toList

/-! ## all together -/

/-- The tokens of a piece of text, which was written as `source`, as they are set. -/
def typeset (source : Text) (ts : List Token) : List Token :=
  let ts := if hasSign source then mapPlain setSigns false ts else ts
  let ts := if hasRare source then mapPlain setDashes false ts else ts
  if source.any fun c => c = '"' || c = '\'' then setQuotes ts else ts

end Lectern.Markdown
