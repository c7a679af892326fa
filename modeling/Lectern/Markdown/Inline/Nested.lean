import Lectern.Markdown.Inline.Leaf

/-!
# Tokens with text inside

Links, images and coloured text hold running text, so their rules are given the walk that reads it.
A walk either reads the whole window or only finds where the token at the cursor ends.

* `colourRule`, `linkRule`, `imageRule`   the rules;
* `balancedLength?`   how far a text with balanced parentheses reaches;
* `labelEnd?`         the bracket that ends a label;
* `walk`              all rules together, nested at most a given number of times.
-/

namespace Lectern.Markdown
open Text

/-- What a walk is asked for. -/
inductive Task where
  | window
  | token

abbrev Walk := Task → Cursor → Cursor

/-! ## coloured text -/

/-- The length of the text before the parenthesis that closes one already open, the parentheses in
it being balanced and a backslash taking the character after it along; `depth` counts those still
open inside. -/
def balancedLength? : Nat → Text → Option Nat
  | _, [] => none
  | _, ['\\'] => none
  | depth, '\\' :: _ :: t => (balancedLength? depth t).map (· + 2)
  | depth, '(' :: t => (balancedLength? (depth + 1) t).map (· + 1)
  | 0, ')' :: _ => some 0
  | depth + 1, ')' :: t => (balancedLength? depth t).map (· + 1)
  | depth, _ :: t => (balancedLength? depth t).map (· + 1)

/-- A colour in braces before an opening parenthesis, and what follows. -/
def colourName? : Text → Option (Text × Text)
  | '\x7b' :: r =>
    let name := r.takeWhile fun d => isLetterOrDigit d || d = '-'
    match r.drop name.length with
    | '\x7d' :: '(' :: t => if name.head?.any isLetter then some (name, t) else none
    | _ => none
  | _ => none

/-- The colour, and where the coloured text begins and ends. -/
def colourAt? (c : Cursor) : Option (Text × Nat × Nat) :=
  match colourName? (c.window c.pos) with
  | none => none
  | some (name, t) =>
    match balancedLength? 0 t with
    | some (n + 1) => some (name, c.pos + name.length + 3, c.pos + name.length + 3 + (n + 1))
    | _ => none

def colourRule (walk : Walk) : InlineRule := fun dry c =>
  match colourAt? c with
  | none => (false, c)
  | some (name, start, stop) =>
    if dry then (true, c.moveTo (stop + 1))
    else
      let inner := (({ c with pos := start, stop }).openSpan (.colour name))
      let inner := (walk .window inner).closeSpan (.colour name)
      (true, { inner with pos := stop + 1, stop := c.stop })

/-! ## labels -/

/-- Walks from token to token until the bracket that ends the label; `open` counts the brackets to
be closed.  A `flat` label holds no bracket that belongs to a token. -/
def labelEndFrom (walk : Walk) (flat : Bool) : Nat → Nat → Cursor → Option Nat × Cursor
  | 0, _, c => (none, c)
  | fuel + 1, level, c =>
    if c.pos ≥ c.stop then (none, c)
    else
      let level := if c.head? = some ']' then level - 1 else level
      if level = 0 then (some c.pos, c)
      else
        let next := walk .token c
        if c.head? = some '[' then
          if next.pos = c.pos + 1 then labelEndFrom walk flat fuel (level + 1) next
          else if flat then (none, next)
          else labelEndFrom walk flat fuel level next
        else labelEndFrom walk flat fuel level next

/-- The bracket that ends the label whose opening bracket stands at `start`. -/
def labelEnd? (walk : Walk) (flat : Bool) (c : Cursor) (start : Nat) : Option Nat × Cursor :=
  let (stop, c') := labelEndFrom walk flat (c.stop - start) 1 (c.moveTo (start + 1))
  (stop, c'.moveTo c.pos)

/-! ## targets -/

structure Target where
  address : Text
  title : Text
  next : Nat

/-- What stands in parentheses after a label. -/
inductive Inlined where
  | unfinished
  | target (t : Target)
  /-- No target; `at` is the position after the character that does not fit. -/
  | misfit (next : Nat)

/-- Reads an address and a title in the parentheses that open at `i`. -/
def inlined (c : Cursor) (i : Nat) : Inlined :=
  let t := (c.window (i + 1)).dropWhile isLinkSpace
  if t.isEmpty then .unfinished
  else
    let (address, t) :=
      match destination? t with
      | none => ([], t)
      | some (d, r) => if isSafeAddress (normalAddress d) then (normalAddress d, r) else ([], t)
    let spaced := t.dropWhile isLinkSpace
    let (title, rest) :=
      if spaced.length < t.length then
        match readTitle spaced with
        | .closed title r => (title, r.dropWhile isLinkSpace)
        | .absent => ([], spaced)
      else ([], spaced)
    let next := c.stop - rest.length + 1
    match rest with
    | ')' :: _ => .target ⟨address, title, next⟩
    | _ => .misfit next

/-- The target of a reference.  At `i` a second label may stand; without one, or where it is empty,
the first label names the definition. -/
def referred? (walk : Walk) (c : Cursor) (label : Text) (after i : Nat) : Option Target × Cursor :=
  if c.definitions.isEmpty then (none, c)
  else
    let (second, next, c) : Text × Nat × Cursor :=
      if i < c.stop ∧ c.char? i = some '[' then
        match labelEnd? walk false c i with
        | (some stop, c) => (c.slice (i + 1) stop, stop + 1, c)
        | (none, c) => ([], after, c)
      else ([], after, c)
    let name := normalLabel (if second.isEmpty then label else second)
    ((c.definitions.find? (·.label = name)).map fun d => ⟨d.address, d.title, next⟩, c)

def linkRule (walk : Walk) : InlineRule := fun dry c =>
  if c.head? ≠ some '[' then (false, c)
  else
    match labelEnd? walk true c c.pos with
    | (none, c) => (false, c)
    | (some stop, c) =>
      let label := c.slice (c.pos + 1) stop
      let after := stop + 1
      let (target?, c) : Option Target × Cursor :=
        if after < c.stop ∧ c.char? after = some '(' then
          match inlined c after with
          | .unfinished => (none, c)
          | .target t => (some t, c)
          | .misfit next => referred? walk c label after next
        else referred? walk c label after after
      match target? with
      | none => (false, c)
      | some t =>
        if dry then (true, c.moveTo t.next)
        else
          let s := Span.link t.address t.title false
          let inner := ({ c with pos := c.pos + 1, stop }).openSpan s
          let inner := (walk .window inner).closeSpan s
          (true, { inner with pos := t.next, stop := c.stop })

/-! ## pairing

After a window has been read, delimiters are paired and the tokens of a pair become the ends of a
span.  What is left over stays plain text. -/

/-- The state of pairing: the delimiters, for each how many before it a search may pass over, and for
each kind of closer below which delimiter no opener is left. -/
structure Pairing where
  delimiters : Array Delimiter
  jumps : Array Nat
  floors : List ((Char × Bool × Nat) × Int)

namespace Pairing

def delimiter (s : Pairing) (i : Nat) : Delimiter :=
  (s.delimiters[i]?).getD ⟨' ', 0, 0, none, false, false⟩

def jump (s : Pairing) (i : Nat) : Nat := (s.jumps[i]?).getD 0

/-- The two runs may not be paired: one of them could also do the other thing and their lengths add
up to a multiple of three without being such themselves. -/
def isOdd (opener closer : Delimiter) : Bool :=
  (opener.closes || closer.opens) && (opener.length + closer.length) % 3 == 0
    && (opener.length % 3 != 0 || closer.length % 3 != 0)

/-- The nearest opener for a closer, from number `i` downwards and above `floor`. -/
def openerFor? (s : Pairing) (closer : Delimiter) (floor : Int) : Nat → Int → Option Nat
  | 0, _ => none
  | fuel + 1, i =>
    if i ≤ floor ∨ i < 0 then none
    else
      let o := s.delimiter i.toNat
      if o.mark = closer.mark && o.opens && o.partner.isNone && !isOdd o closer then some i.toNat
      else openerFor? s closer floor fuel (i - (s.jump i.toNat + 1))

/-- Pairs the delimiter number `i`; `header` is the first one of its run. -/
def pairAt (s : Pairing) (header i : Nat) : Pairing × Bool :=
  let closer := s.delimiter i
  if !closer.closes then (s, false)
  else
    let key := (closer.mark, closer.opens, closer.length % 3)
    let floor := (s.floors.lookup key).getD (-1)
    let first : Int := (header : Int) - s.jump header - 1
    match s.openerFor? closer floor (i + 1) first with
    | none => (if first = -1 then s else { s with floors := (key, first) :: s.floors }, false)
    | some o =>
      let opener := s.delimiter o
      let last := if o > 0 && !(s.delimiter (o - 1)).opens then s.jump (o - 1) + 1 else 0
      let ds := s.delimiters.setIfInBounds i { closer with opens := false }
      let ds := ds.setIfInBounds o { opener with partner := some i, closes := false }
      let jumps := (s.jumps.setIfInBounds i (i - o + last)).setIfInBounds o last
      ({ s with delimiters := ds, jumps }, true)

/-- Pairs delimiter after delimiter.  A run goes on while marks and tokens follow each other;
`lastToken` is the token of the delimiter before, unless that one has just been paired. -/
def pairFrom : Nat → Nat → Nat → Option Nat → Pairing → Pairing
  | 0, _, _, _, s => s
  | fuel + 1, header, i, lastToken, s =>
    if i ≥ s.delimiters.size then s
    else
      let closer := s.delimiter i
      let header :=
        if (s.delimiter header).mark = closer.mark ∧ lastToken.any (· + 1 = closer.token) then header
        else i
      let (s, paired) := s.pairAt header i
      pairFrom fuel header (i + 1) (if paired then none else some closer.token) s

end Pairing

/-- The delimiters with their partners. -/
def pairDelimiters (ds : Array Delimiter) : Array Delimiter :=
  (Pairing.pairFrom ds.size 0 0 none ⟨ds, Array.replicate ds.size 0, []⟩).delimiters

/-- Moves the odd tilde at `i` behind the spans that end after it. -/
def moveTilde (ts : Array Token) (i : Nat) : Array Token :=
  let count := ((ts.extract (i + 1) ts.size).toList.takeWhile (· = .closing .strike)).length
  if count = 0 then ts
  else (ts.setIfInBounds i (.closing .strike)).setIfInBounds (i + count) (.text ['~'])

/-- Strikes out what stands between paired tildes. -/
def strikeOut (ts : Array Token) (ds : Array Delimiter) : Array Token :=
  let (ts, lone) := ds.foldl (fun (ts, lone) d =>
    match (if d.mark = '~' then d.partner else none) with
    | none => (ts, lone)
    | some j =>
      let stop := (ds[j]?.map Delimiter.token).getD 0
      let ts := (ts.setIfInBounds d.token (.opening .strike)).setIfInBounds stop (.closing .strike)
      let before := ts[stop - 1]?
      (ts, if stop > 0 ∧ before = some (.text ['~']) then (stop - 1) :: lone else lone))
    (ts, ([] : List Nat))
  lone.foldl moveTilde ts

/-- Delimiters `i - 1` and `i` open, and close right after one another, with the same mark: together
they make a strong span. -/
def isStrongAt (ds : Array Delimiter) (i : Nat) (d : Delimiter) (partner : Nat) : Bool :=
  i > 0 &&
    match ds[i - 1]?, ds[partner]?, ds[partner + 1]? with
    | some b, some e, some f =>
      b.partner = some (partner + 1) && b.mark = d.mark && b.token + 1 = d.token
        && f.token = e.token + 1
    | _, _, _ => false

/-- Emphasises what stands between paired stars or underscores, from the last delimiter to the
first; the number counts the delimiters left. -/
def emphasise (ds : Array Delimiter) : Nat → Array Token → Array Token
  | 0, ts => ts
  | i + 1, ts =>
    match ds[i]? with
    | none => emphasise ds i ts
    | some d =>
      match (if d.mark = '*' ∨ d.mark = '_' then d.partner else none) with
      | none => emphasise ds i ts
      | some j =>
        let stop := (ds[j]?.map Delimiter.token).getD 0
        if isStrongAt ds i d j then
          let ts := (ts.setIfInBounds d.token (.opening .strong)).setIfInBounds stop (.closing .strong)
          let ts := (ts.setIfInBounds (d.token - 1) (.text [])).setIfInBounds (stop + 1) (.text [])
          match i with
          | 0 => ts
          | k + 1 => emphasise ds k ts
        else
          emphasise ds i
            ((ts.setIfInBounds d.token (.opening .emphasis)).setIfInBounds stop (.closing .emphasis))

/-- Neighbouring texts put together. -/
def joinTexts : List Token → List Token
  | [] => []
  | t :: ts =>
    match t, joinTexts ts with
    | .text s, .text u :: r => .text (s ++ u) :: r
    | t, r => t :: r

/-- The tokens of a window that has been read to its end. -/
def Cursor.finish (c : Cursor) : List Token :=
  let scopes := (c.delimiters :: c.ended).map pairDelimiters
  let ts := scopes.foldl strikeOut c.tokens
  let ts := scopes.foldl (fun ts ds => emphasise ds ds.size ts) ts
  joinTexts ts.toList

/-! ## images and the walk -/

def imageRule (walk : Walk) : InlineRule := fun dry c =>
  if c.head? ≠ some '!' ∨ (c.pos + 1 < c.stop ∧ c.char? (c.pos + 1) ≠ some '[') then (false, c)
  else
    match labelEnd? walk false c (c.pos + 1) with
    | (none, c) => (false, c)
    | (some stop, c) =>
      let label := c.slice (c.pos + 2) stop
      let after := stop + 1
      let (target?, c) : Option Target × Cursor :=
        if after < c.stop ∧ c.char? after = some '(' then
          match inlined c after with
          | .target t => (some t, c)
          | _ => (none, c)
        else referred? walk c label after after
      match target? with
      | none => (false, c)
      | some t =>
        if dry then (true, c.moveTo t.next)
        else
          let ts := (walk .window (Cursor.start c.definitions label)).finish
          let token := .image t.address t.title label (Token.spoken true ts) (Token.spoken false ts)
          (true, (c.push token).moveTo t.next)

/-- The rules in the order in which they are tried. -/
def inlineRules (walk : Walk) : List InlineRule :=
  [plainRule, lineBreakRule, formulaRule, escapeRule, spanCodeRule, strikeRule, emphasisRule,
    keyRule, colourRule walk, linkRule walk, imageRule walk, autolinkRule, tagRule, referenceRule]

/-- Tries rule after rule. -/
def tryRules (dry : Bool) : List InlineRule → Cursor → Bool × Cursor
  | [], c => (false, c)
  | r :: rs, c =>
    match r dry c with
    | (true, c) => (true, c)
    | (false, c) => tryRules dry rs c

/-- The depth from which on text is plain. -/
def maxSpanDepth : Nat := 20

/-- Moves to the end of the token at the cursor.  A character that begins no token is passed over
alone. -/
def skipToken (walk : Walk) (c : Cursor) : Cursor :=
  match c.known.lookup c.pos with
  | some stop => c.moveTo stop
  | none =>
    let (read, next) :=
      if c.depth < maxSpanDepth then
        let (read, c') := tryRules true (inlineRules walk) { c with depth := c.depth + 1 }
        (read, { c' with depth := c.depth })
      else (false, c.moveTo c.stop)
    let stop := if read then next.pos else next.pos + 1
    { next with pos := stop, known := (c.pos, stop) :: next.known }

/-- Reads token after token up to the end of the window; the first argument bounds their number. -/
def readWindow (walk : Walk) (stop : Nat) : Nat → Cursor → Cursor
  | 0, c => c.flush
  | fuel + 1, c =>
    if c.pos ≥ stop then c.flush
    else
      let (read, next) :=
        if c.depth < maxSpanDepth then tryRules false (inlineRules walk) c else (false, c)
      if read then readWindow walk stop fuel next
      else readWindow walk stop fuel ((next.say next.head?.toList).moveTo (next.pos + 1))

/-- The walk with rules nested at most `n` times. -/
def walk : Nat → Walk
  | 0, _, c => c.moveTo c.stop
  | n + 1, .token, c => skipToken (walk n) c
  | n + 1, .window, c => readWindow (walk n) c.stop (c.stop - c.pos) c

/-- The tokens of a piece of running text. -/
def parseInline (definitions : List Definition) (t : Text) : List Token :=
  (walk ((maxSpanDepth + 2) * (t.length + 1)) .window (Cursor.start definitions t)).finish

end Lectern.Markdown
