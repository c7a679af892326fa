import Lectern.Markdown.Block.Basic
import Lectern.Markdown.Line
import Lectern.Markdown.Tag

/-!
# What a line begins

Each block that can be told from its first line has a reader of that line here, given the text after
the indentation.  A `Place` says where lines are read: the column the enclosing block starts at, the
column of the list around it, how deep the block lies and before which line a paragraph must end.

`interrupts` collects the readers: whether a line ends the text before it.
-/

namespace Lectern.Markdown
open Text

structure Place where
  column : Nat
  listColumn : Option Nat
  depth : Nat
  bound : Nat

/-- The line is indented so far that it is code. -/
def Place.isCode (p : Place) (l : Line) : Bool := l.indent - p.column ≥ 4

/-! ## fences and directives -/

structure FenceStart where
  mark : Char
  length : Nat
  info : Text

/-- Three backquotes or tildes; after backquotes no other may follow in the line. -/
def fenceStart? (t : Text) : Option FenceStart :=
  match t with
  | c :: _ =>
    let length := (t.takeWhile (· = c)).length
    let info := t.drop length
    if (c = '~' ∨ c = '`') ∧ length ≥ 3 ∧ ¬(c = '`' ∧ info.contains '`') then
      some ⟨c, length, info⟩
    else none
  | [] => none

/-- The line closes the fence: enough marks, then only spaces. -/
def FenceStart.closes (f : FenceStart) (t : Text) : Bool :=
  (t.takeWhile (· = f.mark)).length ≥ f.length && (t.dropWhile (· = f.mark)).all isSpace

/-- How many characters agree with a pattern repeated without end; `left` is what is left of the
repetition begun. -/
def cycleLength (pattern : Text) : Text → Text → Nat
  | _, [] => 0
  | left, c :: t =>
    match (if left.isEmpty then pattern else left) with
    | [] => 0
    | d :: left => if c = d then cycleLength pattern left t + 1 else 0

/-- How often a marker is repeated in full at the start of a line. -/
def repetitions (marker t : Text) : Nat := cycleLength marker [] t / marker.length

structure DirectiveStart where
  directive : Directive
  count : Nat
  params : Text

/-- The marker three times or more and words that the directive accepts. -/
def directiveStart? (t : Text) : Option DirectiveStart :=
  Directive.all.findSome? fun d =>
    let count := repetitions d.marker t
    let params := t.drop (count * d.marker.length)
    if count ≥ 3 ∧ d.accepts params then some ⟨d, count, params⟩ else none

/-- The line closes the block: at least as many markers, then only spaces. -/
def DirectiveStart.closes (s : DirectiveStart) (t : Text) : Bool :=
  let count := repetitions s.directive.marker t
  count ≥ s.count && (t.drop (count * s.directive.marker.length)).all isSpace

/-! ## rules, headings and quotes -/

/-- Three or more stars, hyphens or underscores of one kind, spaces between them. -/
def isRule (t : Text) : Bool :=
  match t with
  | c :: r => (c = '*' || c = '-' || c = '_') && r.all (fun d => d = c || isSpace d) && t.count c ≥ 3
  | [] => false

/-- The level and the text of a heading: one to six number signs, and those that close it left
out. -/
def heading? (t : Text) : Option (Nat × Text) :=
  let level := (t.takeWhile (· = '#')).length
  let r := t.drop level
  if 1 ≤ level ∧ level ≤ 6 ∧ (r.head?.all isSpace) then
    let body := (r.reverse.dropWhile isSpace).reverse
    let stem := (body.reverse.dropWhile (· = '#')).reverse
    some (level, trim (if stem.getLast?.any isSpace then stem else body))
  else none

def startsQuote (t : Text) : Bool := t.head? = some '>'

/-! ## markup -/

/-- The names of tags that begin a block of markup. -/
def blockTagNames : List String :=
  ["address", "article", "aside", "base", "basefont", "blockquote", "body", "caption", "center",
    "col", "colgroup", "dd", "details", "dialog", "dir", "div", "dl", "dt", "fieldset",
    "figcaption", "figure", "footer", "form", "frame", "frameset", "h1", "h2", "h3", "h4", "h5",
    "h6", "head", "header", "hr", "html", "iframe", "legend", "li", "link", "main", "menu",
    "menuitem", "nav", "noframes", "ol", "optgroup", "option", "p", "param", "search", "section",
    "summary", "table", "tbody", "td", "tfoot", "th", "thead", "title", "tr", "track", "ul"]

/-- The names of tags whose content is no markup. -/
def plainTagNames : List String := ["script", "pre", "style", "textarea"]

/-- How a block of markup ends. -/
inductive MarkupEnd where
  | plainTag
  | mark (pattern : Text)
  | blankLine (interrupts : Bool)

/-- The letter as it is compared in the names of tags: small, and as the plain letter whose form it is
in the other case. -/
def tagLetter (c : Char) : Char :=
  let n := c.toNat
  if n = 0x130 ∨ n = 0x131 then 'i'
  else if n = 0x17f then 's'
  else if n = 0x212a then 'k'
  else c.toLower

/-- The name that starts a text, in small letters, and what follows. -/
def wordName (t : Text) : String × Text :=
  let name := (t.map tagLetter).takeWhile isLetterOrDigit
  (String.ofList name, t.drop name.length)

def isTagStop (closable : Bool) (t : Text) : Bool :=
  match t with
  | [] => true
  | '/' :: '>' :: _ => closable
  | c :: _ => c = '>' || isBlank c

/-- The kind of markup a line begins. -/
def markupStart? (t : Text) : Option MarkupEnd :=
  match t with
  | '<' :: r =>
    let (plain, afterPlain) := wordName r
    let (name, after) := wordName (if r.head? = some '/' then r.drop 1 else r)
    if plainTagNames.contains plain && isTagStop false afterPlain then some .plainTag
    else if startsWith "!--".toList r then some (.mark "-->".toList)
    else if startsWith ['?'] r then some (.mark ['?', '>'])
    else if r.head? = some '!' ∧ (r.drop 1).head?.any isLetter then some (.mark ['>'])
    else if startsWith "![CDATA[".toList r then some (.mark "]]>".toList)
    else if blockTagNames.contains name && isTagStop true after then some (.blankLine true)
    else
      match (openTag? t).orElse fun _ => closeTag? t with
      | some rest => if isAllBlank rest then some (.blankLine false) else none
      | none => none
  | _ => none

/-- The closing tag of a tag whose content is no markup occurs. -/
def hasPlainClose : Text → Bool
  | [] => false
  | c :: t =>
    (startsWith ['<', '/'] (c :: t)
      && (let (name, after) := wordName ((c :: t).drop 2)
          plainTagNames.contains name && after.head? = some '>'))
      || hasPlainClose t

/-- The line is the last one of the block. -/
def MarkupEnd.isMet (e : MarkupEnd) (t : Text) : Bool :=
  match e with
  | plainTag => hasPlainClose t
  | mark pattern => occurs pattern t
  | blankLine _ => t.isEmpty

def MarkupEnd.interrupts : MarkupEnd → Bool
  | blankLine b => b
  | _ => true

/-! ## lists -/

/-- The mark of a list item: its last character, its length, and the number before it. -/
structure ItemMark where
  mark : Char
  length : Nat
  number : Option Nat

def bullet? (t : Text) : Option ItemMark :=
  match t with
  | c :: r =>
    if (c = '*' ∨ c = '-' ∨ c = '+') ∧ r.head?.all isSpace then some ⟨c, 1, none⟩ else none
  | [] => none

def ordinal? (t : Text) : Option ItemMark :=
  let digits := t.takeWhile Char.isDigit
  match t.drop digits.length with
  | c :: r =>
    if 1 ≤ digits.length ∧ digits.length ≤ 9 ∧ (c = '.' ∨ c = ')') ∧ r.head?.all isSpace then
      some ⟨c, digits.length + 1, some (natural digits)⟩
    else none
  | [] => none

def itemMark? (t : Text) : Option ItemMark := (ordinal? t).orElse fun _ => bullet? t

/-- The line starts a list.  In a paragraph that it would end, a numbered list starts with one and
the first item is not empty. -/
def listStart? (p : Place) (inParagraph : Bool) (l : Line) : Option ItemMark :=
  let outdented := p.listColumn.any fun c => l.indent - c ≥ 4 && l.indent < p.column
  if p.isCode l || outdented then none
  else
    let ending := inParagraph && l.indent ≥ p.column
    match itemMark? l.content with
    | none => none
    | some m =>
      if ending && (m.number.any (· ≠ 1) || (l.content.drop m.length).all isSpace) then none
      else some m

/-! ## tables -/

/-- Cuts a row at its bars; a backslash makes a bar part of a cell and is left out.  `acc` is the
cell begun, in reverse. -/
def rowCells : Text → Text → List Text
  | acc, [] => [acc.reverse]
  | acc, '|' :: t =>
    match acc with
    | '\\' :: acc => rowCells ('|' :: acc) t
    | acc => acc.reverse :: rowCells [] t
  | acc, c :: t => rowCells (c :: acc) t

/-- The cells of a row, without the empty ones before the first and after the last bar. -/
def row (t : Text) : List Text :=
  let cells := rowCells [] (trim t)
  let cells := if cells.head? = some [] then cells.drop 1 else cells
  if cells.getLast? = some [] then cells.dropLast else cells

/-- The alignment that a cell of the second row stands for. -/
def align? (cell : Text) : Option Align :=
  let left := cell.head? = some ':'
  let core := if left then cell.drop 1 else cell
  let right := core.getLast? = some ':'
  let core := if right then core.dropLast else core
  if core = [] ∨ !core.all (· = '-') then none
  else some (if right then (if left then .center else .right) else if left then .left else .none)

/-- The alignments of the columns, empty cells being allowed at the two ends only. -/
def aligns? (t : Text) : Option (List Align) :=
  let cells := (splitOn ['|'] t).map trim
  let cells := if cells.head? = some [] then cells.drop 1 else cells
  let cells := if cells.getLast? = some [] then cells.dropLast else cells
  cells.mapM align?

/-- The second row of a table holds bars, hyphens, colons and spaces only, at least two of
them. -/
def isAlignRow (t : Text) : Bool :=
  let isMark (c : Char) : Bool := c = '|' || c = '-' || c = ':'
  match t with
  | a :: b :: r =>
    isMark a && (isMark b || isSpace b) && !(a = '-' && isSpace b)
      && r.all fun c => isMark c || isSpace c
  | _ => false

/-- The header and the alignments of a table that starts with these two lines. -/
def tableStart? (p : Place) (first second : Line) : Option (List Text × List Align) :=
  if second.indent < p.column ∨ p.isCode second ∨ !isAlignRow second.content
    ∨ !first.content.contains '|' ∨ p.isCode first then none
  else
    match aligns? second.content with
    | none => none
    | some aligns =>
      let header := row first.content
      if header = [] ∨ header.length ≠ aligns.length then none else some (header, aligns)

/-! ## interruptions -/

/-- The text that a line may end. -/
inductive Running where
  | paragraph
  | definition
  | quote
  | list
  deriving DecidableEq

/-- The line `i` ends the text before it. -/
def interrupts (r : Running) (p : Place) (ls : Lines) (i last : Nat) : Bool :=
  let l := ls.at i
  let t := l.content
  let always := !p.isCode l
    && ((directiveStart? t).isSome || (fenceStart? t).isSome || startsQuote t || isRule t)
  let unlessInList := r ≠ .list
    && ((listStart? p (r = .paragraph) l).isSome
      || (!p.isCode l && ((markupStart? t).any MarkupEnd.interrupts || (heading? t).isSome)))
  let table := (r = .paragraph || r = .definition) && i + 2 ≤ last
    && (tableStart? p l (ls.at (i + 1))).isSome
  always || unlessInList || table

end Lectern.Markdown
