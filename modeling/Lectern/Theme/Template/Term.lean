import Lectern.Theme.Template.Token

/-!
# Terms of a template

A term stands for a value.  From the loosest to the tightest bond there are: a choice by a test,
`or`, `and`, `not`, comparisons, sums, texts put together, products, powers, signs, and what stands
behind a term: members, items, arguments, filters and tests.

* `Term`        terms;
* `Reader`      reads tokens one after the other;
* `tupleTerm`   reads one term, or several with commas between them.
-/

namespace Lectern.Theme.Template
open Text

inductive Operation where
  | add | sub | mul | div | floor | mod | pow
  deriving DecidableEq

inductive Comparison where
  | equal | unequal | less | atMost | greater | atLeast | within | without
  deriving DecidableEq

inductive Term where
  | name (t : Text)
  | text (t : Text)
  | whole (n : Nat)
  | decimal (t : Text)
  | truth (b : Bool)
  | nothing
  | list (items : List Term)
  | tuple (items : List Term)
  | map (entries : List (Term × Term))
  | member (of : Term) (name : Text)
  | item (of key : Term)
  | slice (start stop step : Option Term)
  | call (of : Term) (arguments : List Term) (named : List (Text × Term))
  /-- Arguments that a value holds: the items of a list, or the entries of a mapping. -/
  | spread (of : Term) (isNamed : Bool)
  /-- A filter; the text of the part it stands behind, if it has no term. -/
  | filter (of : Option Term) (name : Text) (arguments : List Term) (named : List (Text × Term))
  | test (of : Term) (name : Text) (arguments : List Term) (named : List (Text × Term))
  | negated (of : Term)
  | minus (of : Term)
  | plus (of : Term)
  | both (a b : Term)
  | either (a b : Term)
  | operate (op : Operation) (a b : Term)
  | concat (parts : List Term)
  | compare (first : Term) (rest : List (Comparison × Term))
  /-- One of two terms, by a test; the second may be missing. -/
  | chosen (test yes : Term) (no : Option Term)
  /-- A place in a record of values, to which a value may be given. -/
  | field (of name : Text)

/-- What a term is called where it cannot be given a value. -/
def Term.kind : Term → String
  | .list _ => "list"
  | .map _ => "dict"
  | .tuple _ => "tuple"
  | .name _ => "name"
  | .field _ _ => "nsref"
  | _ => "const"

/-- A value can be given to the term. -/
def Term.isPlace : Nat → Term → Bool
  | 0, _ => false
  | _ + 1, .name _ => true
  | _ + 1, .field _ _ => true
  | fuel + 1, .tuple items => items.all (Term.isPlace fuel)
  | _ + 1, _ => false

/-! ## Reading tokens -/

structure ReadState where
  tokens : List Token
  /-- The names of the open blocks, the innermost one first. -/
  blocks : List Text := []
  /-- The names of the blocks that are looked for, the innermost ones first. -/
  wanted : List (List Text) := []

abbrev Reader := StateT ReadState (Except ReadFault)

namespace Reader

def fail {α : Type} (message : Text) : Reader α := throw (.form message)

/-- The first of the tokens, unless it is a fault. -/
def firstOf (ts : List Token) : Reader Token :=
  match ts with
  | .fault e :: _ => throw e
  | t :: _ => return t
  | [] => return .finish

def current : Reader Token := do firstOf (← get).tokens

/-- The token behind the current one. -/
def look : Reader Token := do
  match (← get).tokens with
  | .finish :: _ => return .finish
  | ts => firstOf (ts.drop 1)

/-- Passes over the current token, which is not the last one, to one that can be read. -/
def next : Reader Token := do
  let t ← current
  if t ≠ .finish then
    modify fun s => { s with tokens := s.tokens.drop 1 }
    discard current
  return t

def isAt (t : Token) : Reader Bool := return (← current) = t

def isAtName (w : String) : Reader Bool := return (← current).isName w

def isAtSign (s : String) : Reader Bool := isAt (.sign s)

/-- Passes over the current token if it is this one. -/
def skipIf (t : Token) : Reader Bool := do
  if ← isAt t then
    discard next
    return true
  else return false

def skipName (w : String) : Reader Bool := skipIf (.name w.toList)

def skipSign (s : String) : Reader Bool := skipIf (.sign s)

/-- What is said where another token should stand. -/
def mismatch {α : Type} (wanted : Text) : Reader α := do
  match ← current with
  | .finish =>
    fail ("unexpected end of template, expected ".toList ++ Text.quoted wanted ++ ['.'])
  | t =>
    fail ("expected token ".toList ++ Text.quoted wanted ++ ", got ".toList ++ Text.quoted t.describe)

/-- Passes over this token, which must stand here. -/
def expect (t : Token) : Reader Unit := do
  if ← isAt t then discard next else mismatch t.describe

def expectSign (s : String) : Reader Unit := expect (.sign s)

/-- Passes over a name, which must stand here. -/
def expectName : Reader Text := do
  match ← current with
  | .name n => do
    discard next
    return n
  | _ => mismatch "name"

end Reader
open Reader

/-! ## Reading terms -/

def comparison? : Token → Option Comparison
  | .sign "==" => some .equal
  | .sign "!=" => some .unequal
  | .sign "<" => some .less
  | .sign "<=" => some .atMost
  | .sign ">" => some .greater
  | .sign ">=" => some .atLeast
  | _ => none

def sum? : Token → Option Operation
  | .sign "+" => some .add
  | .sign "-" => some .sub
  | _ => none

def product? : Token → Option Operation
  | .sign "*" => some .mul
  | .sign "/" => some .div
  | .sign "//" => some .floor
  | .sign "%" => some .mod
  | _ => none

def power? : Token → Option Operation
  | .sign "**" => some .pow
  | _ => none

/-- A constant among the names, or a name. -/
def Term.ofName (t : Text) : Term :=
  match String.ofList t with
  | "true" | "True" => .truth true
  | "false" | "False" => .truth false
  | "none" | "None" => .nothing
  | _ => .name t

/-- A name, and the names behind points after it. -/
def dottedName : Nat → Text → Reader Text
  | 0, done => return done
  | fuel + 1, done => do
    if ← skipSign "." then dottedName fuel (done ++ '.' :: (← expectName))
    else return done

/-- Further quoted texts, which belong to the one before. -/
def moreQuoted : Nat → Text → Reader Text
  | 0, done => return done
  | fuel + 1, done => do
    match ← current with
    | .quoted t => do
      discard next
      moreQuoted fuel (done ++ t)
    | _ => return done

/-- Terms joined from the left by operations of one strength. -/
def leftJoined (operation? : Token → Option Operation) (read : Reader Term) :
    Nat → Term → Reader Term
  | 0, a => return a
  | fuel + 1, a => do
    match operation? (← current) with
    | some op => do
      discard next
      leftJoined operation? read fuel (.operate op a (← read))
    | none => return a

/-- Terms joined from the left by a word. -/
def wordJoined (word : String) (join : Term → Term → Term) (read : Reader Term) :
    Nat → Term → Reader Term
  | 0, a => return a
  | fuel + 1, a => do
    if ← skipName word then wordJoined word join read fuel (join a (← read)) else return a

/-- What a list of terms may hold. -/
inductive TupleStyle where
  /-- Any terms. -/
  | full
  /-- Terms that are no choices. -/
  | plain
  /-- Places for values; a point behind a name is a field of a record if `fields` says so. -/
  | places (fields : Bool)
  deriving DecidableEq

mutual

/-- A choice by a test, or a term that binds tighter. -/
def term : Nat → Reader Term
  | 0 => throw (.form "nesting too deep")
  | fuel + 1 => do choices fuel (← orTerm fuel)

/-- The tests behind a term that is chosen by them. -/
def choices : Nat → Term → Reader Term
  | 0, a => return a
  | fuel + 1, a => do
    if ← skipName "if" then
      let test ← orTerm fuel
      let no ← if ← skipName "else" then pure (some (← term fuel)) else pure none
      choices fuel (.chosen test a no)
    else return a

def orTerm : Nat → Reader Term
  | 0 => throw (.form "nesting too deep")
  | fuel + 1 => do wordJoined "or" .either (andTerm fuel) fuel (← andTerm fuel)

def andTerm : Nat → Reader Term
  | 0 => throw (.form "nesting too deep")
  | fuel + 1 => do wordJoined "and" .both (notTerm fuel) fuel (← notTerm fuel)

def notTerm : Nat → Reader Term
  | 0 => throw (.form "nesting too deep")
  | fuel + 1 => do
    if ← skipName "not" then return .negated (← notTerm fuel)
    else
      let first ← sumTerm fuel
      let rest ← comparisons fuel
      return if rest.isEmpty then first else .compare first rest

def comparisons : Nat → Reader (List (Comparison × Term))
  | 0 => return []
  | fuel + 1 => do
    let t ← current
    match comparison? t with
    | some c => do
      discard next
      let a ← sumTerm fuel
      return (c, a) :: (← comparisons fuel)
    | none => do
      if ← skipName "in" then
        let a ← sumTerm fuel
        return (.within, a) :: (← comparisons fuel)
      else if t.isName "not" then
        if (← look).isName "in" then
          discard next
          discard next
          let a ← sumTerm fuel
          return (.without, a) :: (← comparisons fuel)
        else return []
      else return []

def sumTerm : Nat → Reader Term
  | 0 => throw (.form "nesting too deep")
  | fuel + 1 => do leftJoined sum? (concatTerm fuel) fuel (← concatTerm fuel)

def concatTerm : Nat → Reader Term
  | 0 => throw (.form "nesting too deep")
  | fuel + 1 => do
    let first ← productTerm fuel
    let rest ← concatRest fuel
    return if rest.isEmpty then first else .concat (first :: rest)

def concatRest : Nat → Reader (List Term)
  | 0 => return []
  | fuel + 1 => do
    if ← skipSign "~" then
      let a ← productTerm fuel
      return a :: (← concatRest fuel)
    else return []

def productTerm : Nat → Reader Term
  | 0 => throw (.form "nesting too deep")
  | fuel + 1 => do leftJoined product? (powerTerm fuel) fuel (← powerTerm fuel)

def powerTerm : Nat → Reader Term
  | 0 => throw (.form "nesting too deep")
  | fuel + 1 => do leftJoined power? (signedTerm fuel true) fuel (← signedTerm fuel true)

/-- A term with its sign, and what stands behind it; filters only if `mayFilter`. -/
def signedTerm : Nat → (mayFilter : Bool) → Reader Term
  | 0, _ => throw (.form "nesting too deep")
  | fuel + 1, mayFilter => do
    let a ←
      if ← skipSign "-" then pure (.minus (← signedTerm fuel false))
      else if ← skipSign "+" then pure (.plus (← signedTerm fuel false))
      else primary fuel false
    let a ← ends fuel a
    if mayFilter then filters fuel a else return a

/-- A name, a constant, or a term in brackets; `mayBeField` says that a point behind a name makes
it a field of a record. -/
def primary : Nat → (mayBeField : Bool) → Reader Term
  | 0, _ => throw (.form "nesting too deep")
  | fuel + 1, mayBeField => do
    match ← current with
    | .name n => do
      discard next
      match Term.ofName n with
      | .name n =>
        if mayBeField then
          if ← skipSign "." then return .field n (← expectName) else return .name n
        else return .name n
      | a => return a
    | .quoted t => do
      discard next
      return .text (← moreQuoted fuel t)
    | .whole n => do
      discard next
      return .whole n
    | .decimal t => do
      discard next
      return .decimal t
    | .sign "(" => do
      discard next
      let a ← tupleTerm fuel .full [] true
      expectSign ")"
      return a
    | .sign "[" => do
      discard next
      return .list (← items fuel true)
    | .sign "\x7b" => do
      discard next
      return .map (← entries fuel true)
    | t => fail ("unexpected ".toList ++ Text.quoted t.describe)

/-- The items of a list, up to its closing bracket. -/
def items : Nat → (isFirst : Bool) → Reader (List Term)
  | 0, _ => throw (.form "nesting too deep")
  | fuel + 1, isFirst => do
    if ← skipSign "]" then return []
    if !isFirst then expectSign ","
    if ← skipSign "]" then return []
    let a ← term fuel
    return a :: (← items fuel false)

/-- The entries of a mapping, up to its closing brace. -/
def entries : Nat → (isFirst : Bool) → Reader (List (Term × Term))
  | 0, _ => throw (.form "nesting too deep")
  | fuel + 1, isFirst => do
    if ← skipSign "\x7d" then return []
    if !isFirst then expectSign ","
    if ← skipSign "\x7d" then return []
    let key ← term fuel
    expectSign ":"
    let value ← term fuel
    return (key, value) :: (← entries fuel false)

/-- Members, items and arguments behind a term. -/
def ends : Nat → Term → Reader Term
  | 0, a => return a
  | fuel + 1, a => do
    match ← current with
    | .sign "." => do
      discard next
      match ← next with
      | .name n => ends fuel (.member a n)
      | .whole n => ends fuel (.item a (.whole n))
      | _ => fail "expected name or number"
    | .sign "[" => do
      discard next
      match ← keys fuel true with
      | [k] => ends fuel (.item a k)
      | ks => ends fuel (.item a (.tuple ks))
    | .sign "(" => do
      let (arguments, named) ← arguments fuel
      ends fuel (.call a arguments named)
    | _ => return a

/-- The keys in brackets behind a term, up to the closing one. -/
def keys : Nat → (isFirst : Bool) → Reader (List Term)
  | 0, _ => throw (.form "nesting too deep")
  | fuel + 1, isFirst => do
    if ← skipSign "]" then return []
    if !isFirst then expectSign ","
    let k ← key fuel
    return k :: (← keys fuel false)

/-- A key, or the range between two of them. -/
def key : Nat → Reader Term
  | 0 => throw (.form "nesting too deep")
  | fuel + 1 => do
    let bound : Reader (Option Term) := do
      match ← current with
      | .sign ":" | .sign "]" | .sign "," => return none
      | _ => return some (← term fuel)
    let range (start : Option Term) : Reader Term := do
      let stop ← bound
      if ← skipSign ":" then
        match ← current with
        | .sign "]" | .sign "," => return .slice start stop none
        | _ => return .slice start stop (some (← term fuel))
      else return .slice start stop none
    if ← skipSign ":" then range none
    else
      let a ← term fuel
      if ← skipSign ":" then range (some a) else return a

/-- Filters and tests behind a term. -/
def filters : Nat → Term → Reader Term
  | 0, a => return a
  | fuel + 1, a => do
    match ← current with
    | .sign "|" => do
      discard next
      filters fuel (← filterTerm fuel (some a))
    | .sign "(" => do
      let (arguments, named) ← arguments fuel
      filters fuel (.call a arguments named)
    | t => if t.isName "is" then do filters fuel (← testTerm fuel a) else return a

/-- A filter, from its name on. -/
def filterTerm : Nat → Option Term → Reader Term
  | 0, _ => throw (.form "nesting too deep")
  | fuel + 1, a => do
    let name ← dottedName fuel (← expectName)
    let (arguments, named) ←
      if ← isAtSign "(" then arguments fuel else pure (([] : List Term), ([] : List (Text × Term)))
    return .filter a name arguments named

/-- A test, from the word before it on. -/
def testTerm : Nat → Term → Reader Term
  | 0, _ => throw (.form "nesting too deep")
  | fuel + 1, a => do
    discard next
    let negated ← skipName "not"
    let name ← dottedName fuel (← expectName)
    let lone : Reader (List Term × List (Text × Term)) := do
      let b ← ends fuel (← primary fuel false)
      return ([b], [])
    let (arguments, named) ← match ← current with
      | .sign "(" => arguments fuel
      | .sign "[" | .sign "\x7b" | .quoted _ | .whole _ | .decimal _ => lone
      | .name n =>
        if ["else", "or", "and"].any (·.toList = n) then pure ([], [])
        else if n = "is".toList then fail "You cannot chain multiple tests with is"
        else lone
      | _ => pure ([], [])
    let test := Term.test a name arguments named
    return if negated then .negated test else test

/-- Arguments in parentheses. -/
def arguments : Nat → Reader (List Term × List (Text × Term))
  | 0 => throw (.form "nesting too deep")
  | fuel + 1 => do
    expectSign "("
    moreArguments fuel true [] [] false false

/-- Arguments up to the closing parenthesis, behind those that were read. -/
def moreArguments : Nat → (isFirst : Bool) → List Term → List (Text × Term) →
    (hasSpread hasNamedSpread : Bool) → Reader (List Term × List (Text × Term))
  | 0, _, _, _, _, _ => throw (.form "nesting too deep")
  | fuel + 1, isFirst, done, named, hasSpread, hasNamedSpread => do
    let ensure (b : Bool) : Reader Unit :=
      if b then pure () else fail "invalid syntax for function call expression"
    if ← skipSign ")" then return (done, named)
    if !isFirst then expectSign ","
    if !isFirst && (← skipSign ")") then return (done, named)
    match ← current with
    | .sign "*" => do
      ensure (!hasSpread && !hasNamedSpread)
      discard next
      let a ← term fuel
      moreArguments fuel false (done ++ [.spread a false]) named true hasNamedSpread
    | .sign "**" => do
      ensure !hasNamedSpread
      discard next
      let a ← term fuel
      moreArguments fuel false (done ++ [.spread a true]) named hasSpread true
    | t => do
      let name? ← match t with
        | .name n => do pure (if (← look) = .sign "=" then some n else none)
        | _ => pure none
      match name? with
      | some n => do
        ensure !hasNamedSpread
        discard next
        discard next
        let a ← term fuel
        moreArguments fuel false done (named ++ [(n, a)]) hasSpread hasNamedSpread
      | none => do
        ensure (!hasSpread && !hasNamedSpread && named.isEmpty)
        let a ← term fuel
        moreArguments fuel false (done ++ [a]) named hasSpread hasNamedSpread

/-- One term, or several with commas between them, up to a gap's end, a closing parenthesis or one
of the names `ending`. -/
def tupleTerm : Nat → TupleStyle → (ending : List Text) → (inParentheses : Bool) → Reader Term
  | 0, _, _, _ => throw (.form "nesting too deep")
  | fuel + 1, style, ending, inParentheses => do
    let (parts, hasComma) ← tupleParts fuel style ending []
    match hasComma, parts with
    | false, a :: _ => return a
    | false, [] =>
      if inParentheses then return .tuple []
      else fail ("Expected an expression, got ".toList ++ Text.quoted (← current).describe)
    | true, parts => return .tuple parts

/-- The terms between commas, behind those that were read; the second answer says that a comma
stands behind one of them. -/
def tupleParts : Nat → TupleStyle → (ending : List Text) → List Term → Reader (List Term × Bool)
  | 0, _, _, _ => throw (.form "nesting too deep")
  | fuel + 1, style, ending, done => do
    if !done.isEmpty then expectSign ","
    let ended := match ← current with
      | .closeOutput | .closeBlock | .sign ")" => true
      | .name n => ending.contains n
      | _ => false
    if ended then return (done, !done.isEmpty)
    let a ← match style with
      | .full => term fuel
      | .plain => orTerm fuel
      | .places fields => primary fuel fields
    if ← isAtSign "," then tupleParts fuel style ending (done ++ [a])
    else return (done ++ [a], !done.isEmpty)

end

/-- Places to which values are given. -/
def places (fuel : Nat) (fields : Bool) (ending : List Text) : Reader Term := do
  let a ← tupleTerm fuel (.places fields) ending false
  if a.isPlace fuel then return a
  else
    let bad := match a with
      | .tuple _ => "tuple"
      | a => a.kind
    fail ("can't assign to ".toList ++ Text.quoted bad.toList)

end Lectern.Theme.Template
