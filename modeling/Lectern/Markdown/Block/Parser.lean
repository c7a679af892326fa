import Lectern.Markdown.Block.Start

/-!
# From lines to blocks

Each rule looks at line `i` and either finds a block that starts there, with the line that comes
after it, or finds nothing.  `blockAt` is the first rule that finds something, and `blocksFrom` goes
from block to block.  Rules for blocks that hold blocks are given the reader of the inner lines; the
depth a page may reach bounds how often readers are nested.

A page may end in a quote mark with nothing behind it.  Where a rule has to see how that line begins,
in search of the end of a directive, of a table or of a list with an empty item, reading fails.

* `PageFault`    why a page cannot be read;
* `Found`        what a rule finds;
* `Run`          what reading some lines comes to, and whether no blank line parted two blocks;
* `parseBlocks`  the blocks of a page.
-/

namespace Lectern.Markdown
open Text

inductive PageFault where
  /-- The character that a rule asks for lies behind the end of the page. -/
  | pastEnd
  deriving DecidableEq

def PageFault.message : PageFault → String
  | pastEnd => "string index out of range"

structure Found where
  blocks : List Block
  next : Nat

structure Run where
  blocks : List Block
  next : Nat
  tight : Bool

/-- Reads the lines from one number up to another. -/
abbrev Reader := Place → Lines → Nat → Nat → Except PageFault Run

/-- Looks for a block at a line; the second number is the line at which reading ends. -/
abbrev BlockRule := Place → Lines → Nat → Nat → Except PageFault (Option Found)

/-- A rule that always sees what it needs. -/
def plainly (rule : Place → Lines → Nat → Nat → Option Found) : BlockRule := fun p ls i last =>
  .ok (rule p ls i last)

/-- The depth from which on nothing is read. -/
def maxDepth : Nat := 20

/-! ## leaves -/

/-- The first line from `i` on that is neither code nor followed by code over blank lines; `stop` is
the line after the last code line. -/
def codeEnd (p : Place) (ls : Lines) : Nat → Nat → Nat → Nat
  | 0, _, stop => stop
  | fuel + 1, i, stop =>
    let l := ls.at i
    if l.isEmpty then codeEnd p ls fuel (i + 1) stop
    else if p.isCode l then codeEnd p ls fuel (i + 1) (i + 1)
    else stop

def codeRule (p : Place) (ls : Lines) (i last : Nat) : Option Found :=
  if p.isCode (ls.at i) then
    let stop := codeEnd p ls (last - (i + 1)) (i + 1) (i + 1)
    some ⟨[.code (joinLines ls (4 + p.column) false i (stop - i) ++ ['\n'])], stop⟩
  else none

/-- The line that closes a fenced block, or the line at which it ends without one. -/
def fenceEnd (p : Place) (ls : Lines) (closes : Text → Bool) : Nat → Nat → Nat × Bool
  | 0, i => (i, false)
  | fuel + 1, i =>
    let l := ls.at i
    if !l.isEmpty && l.indent < p.column then (i, false)
    else if !p.isCode l && closes l.content then (i, true)
    else fenceEnd p ls closes fuel (i + 1)

def fenceRule (p : Place) (ls : Lines) (i last : Nat) : Option Found :=
  let l := ls.at i
  match (if p.isCode l then none else fenceStart? l.content) with
  | none => none
  | some f =>
    let (stop, closed) := fenceEnd p ls f.closes (last - (i + 1)) (i + 1)
    let content := joinLines ls l.indent true (i + 1) (stop - (i + 1))
    some ⟨[.fence f.info content], if closed then stop + 1 else stop⟩

def breakRule (p : Place) (ls : Lines) (i _last : Nat) : Option Found :=
  let l := ls.at i
  if !p.isCode l && isRule l.content then some ⟨[.rule], i + 1⟩ else none

def headingRule (p : Place) (ls : Lines) (i _last : Nat) : Option Found :=
  let l := ls.at i
  match (if p.isCode l then none else heading? l.content) with
  | some (level, t) => some ⟨[.heading level t], i + 1⟩
  | none => none

/-- The line after a block of markup.  A line that holds something and stands before the column of the
block around it ends the markup too. -/
def markupEnd (p : Place) (ls : Lines) (e : MarkupEnd) : Nat → Nat → Nat
  | 0, i => i
  | fuel + 1, i =>
    let l := ls.at i
    if !l.isEmpty && l.indent < p.column then i
    else if e.isMet l.content then (if l.content.isEmpty then i else i + 1)
    else markupEnd p ls e fuel (i + 1)

def markupRule (p : Place) (ls : Lines) (i last : Nat) : Option Found :=
  let l := ls.at i
  match (if p.isCode l then none else markupStart? l.content) with
  | none => none
  | some e =>
    let stop := if e.isMet l.content then i + 1 else markupEnd p ls e (last - (i + 1)) (i + 1)
    some ⟨[.markup (joinLines ls p.column true i (stop - i))], stop⟩

/-! ## formulas -/

/-- Two dollar signs and a label in parentheses at the end of a line: the text before them and the
label. -/
def labelledEnd? (t : Text) : Option (Text × Text) :=
  match t.reverse.dropWhile isBlank with
  | ')' :: r =>
    let isLabel (c : Char) : Bool := c ≠ ')' && c ≠ '$' && c ≠ '\r' && c ≠ '\n'
    let run := r.takeWhile isLabel
    -- the label is the shortest run before a parenthesis that dollar signs precede
    (List.range run.length).findSome? fun k =>
      if k = 0 then none
      else match run.drop k with
        | '(' :: more =>
          match (more ++ r.drop run.length).dropWhile isBlank with
          | '$' :: '$' :: before => some (before.reverse, (run.take k).reverse)
          | _ => none
        | _ => none
  | _ => none

/-- The end of a formula in a line: the text before it and the label. -/
def formulaEnd? (t : Text) : Option (Text × Option Text) :=
  if endsWith ['$', '$'] (strip t) then
    some (t.take (t.length - 2 - (t.length - (strip t).length)), none)
  else (labelledEnd? t).map fun (before, label) => (before, some label)

/-- The line in which a formula ends, with the text before the end. -/
def formulaLine? (ls : Lines) : Nat → Nat → Option (Nat × Text × Option Text)
  | 0, _ => none
  | fuel + 1, i =>
    match formulaEnd? (ls.at i).content with
    | some (before, label) => some (i, before, label)
    | none => formulaLine? ls fuel (i + 1)

/-- Whole lines, with their indentation. -/
def rawLines (ls : Lines) (first count : Nat) : Text :=
  (List.range count).flatMap fun k => (ls.at (first + k)).text ++ ['\n']

/-- A label with each run of blanks written as one hyphen; `inBlank` tells that the run has been
written. -/
def formulaLabel (inBlank : Bool) : Text → Text
  | [] => []
  | c :: t =>
    if isBlank c then (if inBlank then [] else ['-']) ++ formulaLabel true t
    else c :: formulaLabel false t

/-- A formula set off from the text: in one line, or up to a line that ends it.  Where its first line
goes on after a closing mark, it is no such formula. -/
def mathRule (p : Place) (ls : Lines) (i last : Nat) : Option Found :=
  let l := ls.at i
  match (if p.isCode l then none else stripPrefix? ['$', '$'] l.content) with
  | none => none
  | some body =>
    let here := if (strip l.content).length > 3 then formulaEnd? l.content else none
    match here with
    | some (before, label) =>
      some ⟨[.math (label.map (formulaLabel false)) (before.drop 2)], i + 1⟩
    | none =>
      match (if occurs ['$', '$'] body then none else formulaLine? ls (last - (i + 1)) (i + 1)) with
      | none => none
      | some (stop, before, label) =>
        let l := ls.at stop
        let content := body ++ ['\n'] ++ rawLines ls (i + 1) (stop - (i + 1))
          ++ l.text.take l.shift ++ before
        some ⟨[.math (label.map (formulaLabel false)) content], stop + 1⟩

/-! ## paragraphs -/

/-- The line goes on with a paragraph whatever it holds: it is indented far, or was read as a
paragraph by the quote around it. -/
def isContinuation (p : Place) (l : Line) : Bool := l.indent - p.column > 3 || l.indent < 0

/-- The line after a paragraph. -/
def paragraphEnd (r : Running) (p : Place) (ls : Lines) : Nat → Nat → Nat
  | 0, i => i
  | fuel + 1, i =>
    let l := ls.at i
    if l.isEmpty then i
    else if isContinuation p l || !interrupts r p ls i p.bound then
      paragraphEnd r p ls fuel (i + 1)
    else i

def paragraphRule (p : Place) (ls : Lines) (i _last : Nat) : Found :=
  let stop := paragraphEnd .paragraph p ls (p.bound - (i + 1)) (i + 1)
  ⟨[.paragraph (trim (joinLines ls p.column false i (stop - i)))], stop⟩

/-- The level of a heading that a line of equals signs or hyphens makes of the line before. -/
def underline? (t : Text) : Option Nat :=
  match t with
  | c :: _ =>
    if (c = '=' ∨ c = '-') ∧ (t.dropWhile (· = c)).all isSpace then
      some (if c = '=' then 1 else 2)
    else none
  | [] => none

/-- The underline of a paragraph. -/
def underlineOf? (p : Place) (ls : Lines) (last : Nat) : Nat → Nat → Option (Nat × Nat)
  | 0, _ => none
  | fuel + 1, i =>
    let l := ls.at i
    if l.isEmpty then none
    else if l.indent - p.column > 3 then underlineOf? p ls last fuel (i + 1)
    else
      match (if l.indent ≥ p.column then underline? l.content else none) with
      | some level => some (i, level)
      | none =>
        if l.indent < 0 || !interrupts .paragraph p ls i last then
          underlineOf? p ls last fuel (i + 1)
        else none

def underlinedRule (p : Place) (ls : Lines) (i last : Nat) : Option Found :=
  if p.isCode (ls.at i) then none
  else
    (underlineOf? p ls last (last - (i + 1)) (i + 1)).map fun (stop, level) =>
      ⟨[.heading level (trim (joinLines ls p.column false i (stop - i)))], stop + 1⟩

/-- The lines from `i` on that may belong to a definition, each from its indentation on. -/
def definitionText (p : Place) (ls : Lines) (i : Nat) : Text :=
  let stop := paragraphEnd .definition p ls (p.bound - (i + 1)) (i + 1)
  ((List.range (stop - i)).map fun k =>
    let l := ls.at (i + k)
    l.content ++ if l.ended then ['\n'] else []).flatten

def definitionRule (p : Place) (ls : Lines) (i _last : Nat) : Option Found :=
  if p.isCode (ls.at i) ∨ (ls.at i).content.head? ≠ some '[' then none
  else (definition? (definitionText p ls i)).map fun (d, count) => ⟨[.definition d], i + count⟩

/-! ## tables -/

/-- The rows of a table with `columns` cells each, and the line after it; `missing` counts the cells
that had to be added. -/
def tableRows (p : Place) (ls : Lines) (last columns : Nat) :
    Nat → Nat → Int → List (List Text) × Nat
  | 0, i, _ => ([], i)
  | fuel + 1, i, missing =>
    let l := ls.at i
    if l.indent < p.column || interrupts .quote p ls i last || (trim l.content).isEmpty
      || p.isCode l then ([], i)
    else
      let cells := row l.content
      let missing := missing + ((columns : Int) - cells.length)
      if missing > 0x10000 then ([], i)
      else
        let (rows, stop) := tableRows p ls last columns fuel (i + 1) missing
        ((List.range columns).map (fun k => trim (cells.getD k [])) :: rows, stop)

def tableRule : BlockRule := fun p ls i last =>
  match (if i + 2 > last then none else tableStart? p (ls.at i) (ls.at (i + 1))) with
  | none => .ok none
  | some (header, aligns) =>
    let (rows, stop) := tableRows p ls last header.length (last - (i + 2)) (i + 2) 0
    let l := ls.at stop
    if stop < last ∧ l.isCutOff ∧ l.indent ≥ p.column ∧ !p.isCode l then .error .pastEnd
    else .ok (some ⟨[.table aligns (header.map trim) rows], stop⟩)

/-! ## directives, quotes and lists -/

def directiveRule (read : Reader) : BlockRule := fun p ls i last =>
  let l := ls.at i
  match (if p.isCode l then none else directiveStart? l.content) with
  | none => .ok none
  | some s =>
    let (stop, closed) := fenceEnd p ls s.closes (last - (i + 1)) (i + 1)
    if i + 1 < stop ∧ !closed ∧ (ls.at (stop - 1)).isCutOff then .error .pastEnd
    else do
      let body ← read { p with depth := p.depth + 1, bound := stop } ls (i + 1) stop
      return some
        ⟨[.directive s.directive s.params body.blocks], if closed then stop + 1 else stop⟩

/-- The column after the blanks at the start of a text, tabs reaching to stops that `base` shifts. -/
def columnOver (base col : Nat) (t : Text) : Nat :=
  (t.takeWhile isSpace).foldl (fun c d => if d = '\t' then c + (4 - (c + base) % 4) else c + 1) col

/-- The line as it is seen from behind the mark of a quote. -/
def quotedLine (l : Line) : Line :=
  let column := l.indent.toNat + 1
  let after := l.content.drop 1
  let base := l.base + column
  let next := after.head?
  let spaced : Bool := next.any isSpace
  -- a tab that reaches over one column only is the space after the mark
  let eats : Bool := next = some ' ' || (next = some '\t' && base % 4 == 3)
  let wide : Bool := next = some '\t' && !eats
  let text := if eats then after.drop 1 else after
  let start := if eats then column + 1 else column
  let stop := columnOver (l.base + if wide then 1 else 0) start text
  { text
    shift := (text.takeWhile isSpace).length
    indent := (stop - start : Nat)
    base := column + if spaced then 1 else 0
    ended := l.ended }

/-- The lines of a quote: the line after the last, the lines seen from behind the marks, and whether
another block ended it.  `wasEmpty` tells that nothing stood behind the last mark. -/
def quoteLines (p : Place) (last : Nat) : Nat → Nat → Bool → Lines → Nat × Lines × Bool
  | 0, i, _, ls => (i, ls, false)
  | fuel + 1, i, wasEmpty, ls =>
    let l := ls.at i
    if l.isEmpty then (i, ls, false)
    else if startsQuote l.content && l.indent ≥ p.column then
      let q := quotedLine l
      quoteLines p last fuel (i + 1) q.isEmpty (ls.setIfInBounds i q)
    else if wasEmpty then (i, ls, false)
    else if interrupts .quote p ls i last then
      (i, ls.setIfInBounds i { l with indent := l.indent - p.column }, true)
    else quoteLines p last fuel (i + 1) wasEmpty (ls.setIfInBounds i { l with indent := -1 })

def quoteRule (read : Reader) : BlockRule := fun p ls i last =>
  let l := ls.at i
  if p.isCode l || !startsQuote l.content then .ok none
  else do
    let q := quotedLine l
    let (stop, ls, ended) :=
      quoteLines p last (last - (i + 1)) (i + 1) q.isEmpty (ls.setIfInBounds i q)
    let body ← read
      { p with column := 0, depth := p.depth + 1, bound := if ended then stop else p.bound } ls i stop
    return some ⟨[.quote body.blocks], body.next⟩

/-- The items of a list from line `i` on, whose mark is `m`; also the line after the list and
whether it is tight.  `gap` tells that the item before ended in a blank line. -/
def listItems (read : Reader) (p : Place) (last : Nat) (ls : Lines) :
    Nat → Nat → ItemMark → Bool → Except PageFault (List (List Block) × Nat × Bool)
  | 0, i, _, _ => .ok ([], i, true)
  | fuel + 1, i, m, gap => do
    let l := ls.at i
    let after := l.content.drop m.length
    let initial := l.indent.toNat + m.length
    let offset := columnOver l.base initial after
    let isBare : Bool := after.all isSpace
    let width := if isBare || offset - initial > 4 then 1 else offset - initial
    let inner : Line :=
      { l with shift := l.shift + m.length + (after.takeWhile isSpace).length, indent := offset }
    let place : Place :=
      { p with column := initial + width, listColumn := some p.column, depth := p.depth + 2 }
    let item : Run ←
      if isBare && (ls.at (i + 1)).isEmpty then .ok ⟨[], min (i + 2) last, true⟩
      else read place (ls.setIfInBounds i inner) i last
    let loose := !item.tight || gap
    let next := item.next
    let gap : Bool := next - i > 1 && (ls.at (next - 1)).isEmpty
    let l := ls.at next
    let mark? : Option ItemMark ←
      if next ≥ last || l.indent < p.column || p.isCode l then .ok none
      else if l.isCutOff then .error .pastEnd
      else if interrupts .list p ls next last then .ok none
      else
        .ok ((if m.number.isSome then ordinal? l.content else bullet? l.content).filter
          (·.mark = m.mark))
    match mark? with
    | none => return ([item.blocks], next, !loose)
    | some m' => do
      let (items, stop, tight) ← listItems read p last ls fuel next m' gap
      return (item.blocks :: items, stop, !loose && tight)

def listRule (read : Reader) : BlockRule := fun p ls i last =>
  match listStart? p false (ls.at i) with
  | none => .ok none
  | some m => do
    let (items, stop, tight) ← listItems read p last ls (last - i) i m false
    return some ⟨[.list m.number tight items], stop⟩

/-! ## the page -/

/-- The rules in the order in which they are tried. -/
def blockRules (read : Reader) : List BlockRule :=
  [tableRule, plainly codeRule, plainly mathRule, directiveRule read, plainly fenceRule,
    quoteRule read, plainly breakRule, listRule read, plainly definitionRule, plainly markupRule,
    plainly headingRule, plainly underlinedRule]

/-- The block that starts at a line: the first rule that finds one, and a paragraph if none does. -/
def blockAt (read : Reader) (p : Place) (ls : Lines) (i last : Nat) : Except PageFault Found := do
  let found ← (blockRules read).findSomeM? fun rule => rule p ls i last
  return found.getD (paragraphRule p ls i last)

/-- The first line from `i` on that is not blank. -/
def skipBlank (ls : Lines) : Nat → Nat → Nat
  | 0, i => i
  | fuel + 1, i => if (ls.at i).isEmpty then skipBlank ls fuel (i + 1) else i

/-- Reads block after block; `parted` tells that a blank line came between two of them. -/
def blocksFrom (read : Reader) (p : Place) (ls : Lines) (last : Nat) :
    Nat → Nat → Bool → Bool → Except PageFault Run
  | 0, i, _, tight => .ok ⟨[], i, tight⟩
  | fuel + 1, i, parted, tight =>
    if i ≥ last then .ok ⟨[], i, tight⟩
    else
      let i := skipBlank ls (p.bound - i) i
      if i ≥ last || (ls.at i).indent < p.column then .ok ⟨[], i, tight⟩
      else if p.depth ≥ maxDepth then .ok ⟨[], last, tight⟩
      else do
        let found ← blockAt read p ls i last
        let tight := !parted
        let next := found.next
        let parted := parted || (next - 1 < last && (ls.at (next - 1)).isEmpty)
        let (next, parted) :=
          if next < last && (ls.at next).isEmpty then (next + 1, true) else (next, parted)
        let rest ← blocksFrom read p ls last fuel next parted tight
        return ⟨found.blocks ++ rest.blocks, rest.next, rest.tight⟩

/-- The reader that nests at most `n` times. -/
def reader : Nat → Reader
  | 0 => fun _ _ _ last => .ok ⟨[], last, true⟩
  | n + 1 => fun p ls i last => blocksFrom (reader n) p ls last (last - i + 1) i false true

/-- The blocks of a page. -/
def parseBlocks (t : Text) : Except PageFault (List Block) :=
  let ls := (linesOf t).toArray
  (reader (maxDepth + 1) ⟨0, none, 0, ls.size⟩ ls 0 ls.size).map Run.blocks

end Lectern.Markdown
