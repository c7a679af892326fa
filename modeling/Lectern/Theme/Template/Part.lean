import Lectern.Theme.Template.Signature
import Lectern.Theme.Template.Term

/-!
# The parts of a template

A template is a list of parts: texts, terms whose values are written, choices, loops, names that are
given values, and other templates that are put in or built upon.

* `Part`          the parts;
* `Part.check`    every filter and test has a meaning, and no slot is there twice;
* `parse`         the parts of a text.
-/

namespace Lectern.Theme.Template
open Text Reader

inductive Part where
  | text (t : Text)
  | output (terms : List Term)
  /-- The first of the branches whose test holds, or the other part. -/
  | choice (branches : List (Term × List Part)) (no : List Part)
  /-- The body for every item for which the test holds; the other part if there is none. -/
  | loop (target among : Term) (test : Option Term) (body no : List Part)
  | assign (target value : Term)
  /-- The text of the body becomes a value, through the filters of a term. -/
  | capture (target : Term) (through : Option Term) (body : List Part)
  /-- The body with values given to names. -/
  | scope (values : List (Term × Term)) (body : List Part)
  /-- A part that a template built upon this one may put another in place of. -/
  | slot (name : Text) (isScoped isRequired : Bool) (body : List Part)
  | insert (name : Term) (mayMiss withNames : Bool)
  | base (name : Term)
  /-- A part that can be called with arguments, some of which may have values already. -/
  | define (name : Text) (parameters : List (Text × Option Term)) (body : List Part)
  | through (filter : Term) (body : List Part)
  | escaping (on : Term) (body : List Part)
  /-- A call of a part that is given the body. -/
  | callWith (call : Term) (parameters : List (Text × Option Term)) (body : List Part)
  /-- Names from another template: all of it under one name, or some names, each under its own or
  another one. -/
  | bring (source : Term) (whole : Option Text) (names : List (Text × Text)) (withNames : Bool)

/-- The part is text of nothing but blanks. -/
def Part.isBlank : Part → Bool
  | .text t => isAllBlank t
  | _ => false

/-! ## Reading parts -/

/-- Names as they are listed in messages. -/
def listed (ws : List Text) : Text := join " or " (ws.map Text.quoted)

/-- What is said of a block that has no meaning here, or of a text that ends too early. -/
def failHere {α : Type} (name : Option Text) (wanted : List (List Text)) : Reader α := do
  let first : Text := match name with
    | none => "Unexpected end of template."
    | some n => "Encountered unknown tag ".toList ++ Text.quoted n ++ ['.']
  let second : List Text := match wanted with
    | [] => []
    | ws :: _ =>
      if name.any fun n => wanted.any (·.contains n) then
        ["You probably made a nesting mistake. Jinja is expecting this tag, but currently looking ".toList
          ++ "for ".toList ++ listed ws ++ ['.']]
      else ["Jinja was looking for the following tags: ".toList ++ listed ws ++ ['.']]
  let third : List Text := match (← get).blocks with
    | [] => []
    | b :: _ =>
      ["The innermost block that needs to be closed is ".toList ++ Text.quoted b ++ ['.']]
  fail (join [' '] (first :: second ++ third))

/-- A word about the names of the template that is put in: whether it may use them. -/
def withNames (default : Bool) : Reader Bool := do
  let t ← current
  if t.isName "with" || t.isName "without" then
    if (← look).isName "context" then
      discard next
      discard next
      return t.isName "with"
    else return default
  else return default

/-- The names a part is called with, and their values. -/
def parameters : Nat → (isFirst hasDefault : Bool) → Reader (List (Text × Option Term))
  | 0, _, _ => fail "nesting too deep"
  | fuel + 1, isFirst, hasDefault => do
    if ← skipSign ")" then return []
    if !isFirst then expectSign ","
    let a ← primaryName
    if ← skipSign "=" then
      let value ← term fuel
      return (a, some value) :: (← parameters fuel false true)
    else if hasDefault then fail "non-default argument follows default argument"
    else return (a, none) :: (← parameters fuel false false)
where
  primaryName : Reader Text := expectName

/-- Names that are taken from another template. -/
def broughtNames : Nat → List (Text × Text) → Reader (List (Text × Text) × Bool)
  | 0, _ => fail "nesting too deep"
  | fuel + 1, done => do
    if !done.isEmpty then expectSign ","
    match ← current with
    | .name n => do
      let t ← current
      if t.isName "with" || t.isName "without" then
        if (← look).isName "context" then return (done, ← withNames false)
      discard next
      let other ← if ← skipName "as" then expectName else pure n
      let done := done ++ [(n, other)]
      let t ← current
      if t.isName "with" || t.isName "without" then
        if (← look).isName "context" then return (done, ← withNames false)
      if ← isAtSign "," then broughtNames fuel done else return (done, false)
    | _ => mismatch "name"

/-- The words with which a block ends that is closed by one of them. -/
def closers (ws : List String) : List Text := ws.map String.toList

mutual

/-- Parts up to a block that begins with one of the words `ending`, or to the end of the text; that
block's word is the current token then. -/
def parts : Nat → (ending : List Text) → Reader (List Part)
  | 0, _ => fail "nesting too deep"
  | fuel + 1, ending => do
    match ← current with
    | .text t => do
      discard next
      return .text t :: (← parts fuel ending)
    | .openOutput => do
      discard next
      let a ← tupleTerm fuel .full [] false
      expect .closeOutput
      return .output [a] :: (← parts fuel ending)
    | .openBlock => do
      discard next
      let ended := match ← current with
        | .name n => ending.contains n
        | _ => false
      if ended then return []
      let ps ← block fuel
      expect .closeBlock
      return ps ++ (← parts fuel ending)
    | _ => return []

/-- The parts of the block that begins here, up to the block with which they end; the current token
is that block's word. -/
def body : Nat → (ending : List Text) → Reader (List Part)
  | 0, _ => fail "nesting too deep"
  | fuel + 1, ending => do
    discard (skipSign ":")
    expect .closeBlock
    modify fun s => { s with wanted := ending :: s.wanted }
    let ps ← parts fuel ending
    let wanted := (← get).wanted
    if ← isAt .finish then failHere none wanted
    modify fun s => { s with wanted := s.wanted.drop 1 }
    return ps

/-- As `body`, with the word of the block that ends the parts passed over. -/
def closedBody : Nat → (closer : String) → Reader (List Part)
  | 0, _ => fail "nesting too deep"
  | fuel + 1, closer => do
    let ps ← body fuel [closer.toList]
    discard next
    return ps

/-- A block from its word on, up to its closing brace. -/
def block : Nat → Reader (List Part)
  | 0 => fail "nesting too deep"
  | fuel + 1 => do
    match ← current with
    | .name w => do
      modify fun s => { s with blocks := w :: s.blocks }
      let ps ← match String.ofList w with
        | "if" => do
          discard next
          pure [← choice fuel []]
        | "for" => do
          discard next
          let target ← places fuel false [['i', 'n']]
          expect (.name ['i', 'n'])
          let among ← tupleTerm fuel .plain ["recursive".toList] false
          let test ← if ← skipName "if" then pure (some (← term fuel)) else pure none
          discard (skipName "recursive")
          let ps ← body fuel (closers ["endfor", "else"])
          let no ← if (← next).isName "endfor" then pure [] else closedBody fuel "endfor"
          pure [.loop target among test ps no]
        | "set" => do
          discard next
          let target ← places fuel true []
          if ← skipSign "=" then pure [.assign target (← tupleTerm fuel .full [] false)]
          else
            let filter? ← filtersOnly fuel none
            pure [.capture target filter? (← closedBody fuel "endset")]
        | "with" => do
          discard next
          let values ← givenValues fuel true
          pure [.scope values (← closedBody fuel "endwith")]
        | "autoescape" => do
          discard next
          let on ← term fuel
          pure [.escaping on (← closedBody fuel "endautoescape")]
        | "block" => do
          discard next
          let name ← expectName
          let isScoped ← skipName "scoped"
          let isRequired ← skipName "required"
          if ← isAtSign "-" then
            fail ("Block names in Jinja have to be valid Python identifiers and may not contain ".toList
              ++ "hyphens, use an underscore instead.".toList)
          let ps ← closedBody fuel "endblock"
          if isRequired && !ps.all Part.isBlank then
            fail "Required blocks can only contain comments or whitespace"
          discard (skipIf (.name name))
          pure [.slot name isScoped isRequired ps]
        | "extends" => do
          discard next
          pure [.base (← term fuel)]
        | "include" => do
          discard next
          let name ← term fuel
          let mayMiss ← if ← isAtName "ignore" then
              pure ((← look).isName "missing")
            else pure false
          if mayMiss then
            discard next
            discard next
          pure [.insert name mayMiss (← withNames true)]
        | "print" => do
          discard next
          pure [.output (← printed fuel true)]
        | "filter" => do
          discard next
          let filter ← filterTerm fuel none
          let filter ← filtersOnly fuel (some filter)
          pure [.through (filter.getD .nothing) (← closedBody fuel "endfilter")]
        | "macro" => do
          discard next
          let name ← expectName
          expectSign "("
          let ps ← parameters fuel true false
          pure [.define name ps (← closedBody fuel "endmacro")]
        | "call" => do
          discard next
          let ps ← if ← skipSign "(" then parameters fuel true false else pure []
          match ← term fuel with
          | .call f arguments named =>
            pure [.callWith (.call f arguments named) ps (← closedBody fuel "endcall")]
          | _ => fail "expected call"
        | "import" => do
          discard next
          let source ← term fuel
          expect (.name "as".toList)
          let name ← expectName
          pure [.bring source (some name) [] (← withNames false)]
        | "from" => do
          discard next
          let source ← term fuel
          expect (.name "import".toList)
          let (names, withNames) ← broughtNames fuel []
          pure [.bring source none names withNames]
        | _ => do
          modify fun s => { s with blocks := s.blocks.drop 1 }
          failHere (some w) (← get).wanted
      modify fun s => { s with blocks := s.blocks.drop 1 }
      return ps
    | _ => fail "tag name expected"

/-- A choice from the test of a branch on, behind the branches that were read. -/
def choice : Nat → List (Term × List Part) → Reader Part
  | 0, _ => fail "nesting too deep"
  | fuel + 1, done => do
    let test ← tupleTerm fuel .plain [] false
    let ps ← body fuel (closers ["elif", "else", "endif"])
    let done := done ++ [(test, ps)]
    let t ← next
    if t.isName "elif" then choice fuel done
    else if t.isName "else" then return .choice done (← closedBody fuel "endif")
    else return .choice done []

/-- Names and their values. -/
def givenValues : Nat → (isFirst : Bool) → Reader (List (Term × Term))
  | 0, _ => fail "nesting too deep"
  | fuel + 1, isFirst => do
    if ← isAt .closeBlock then return []
    if !isFirst then expectSign ","
    let target ← places fuel false []
    expectSign "="
    let value ← term fuel
    return (target, value) :: (← givenValues fuel false)

/-- Terms with commas between them, up to the closing brace. -/
def printed : Nat → (isFirst : Bool) → Reader (List Term)
  | 0, _ => fail "nesting too deep"
  | fuel + 1, isFirst => do
    if ← isAt .closeBlock then return []
    if !isFirst then expectSign ","
    let a ← term fuel
    return a :: (← printed fuel false)

/-- Filters behind a term, if there are any. -/
def filtersOnly : Nat → Option Term → Reader (Option Term)
  | 0, a => return a
  | fuel + 1, a => do
    if ← skipSign "|" then filtersOnly fuel (some (← filterTerm fuel a)) else return a

end

/-! ## Checks -/

/-- A name is one of those that have a meaning. -/
def checkName (kind : String) (known : List (String × Signature)) (n : Text) :
    Except ReadFault Unit :=
  if (signature? n known).isSome then .ok ()
  else .error (.unknown ("No ".toList ++ kind.toList ++ " named ".toList ++ Text.quoted n ++ ['.']))

/-- The filters and tests of a term have a meaning; inside a choice they need it only when they are
used. -/
def Term.check : Nat → (isSoft : Bool) → Term → Except ReadFault Unit
  | 0, _, _ => .ok ()
  | fuel + 1, isSoft, a => do
    let check := Term.check fuel isSoft
    let checkAll (as : List Term) : Except ReadFault Unit := as.forM check
    let checkSome (a : Option Term) : Except ReadFault Unit := a.toList.forM check
    let checkNamed (as : List (Text × Term)) : Except ReadFault Unit := as.forM fun e => check e.2
    match a with
    | .name _ | .text _ | .whole _ | .decimal _ | .truth _ | .nothing | .field _ _ => return
    | .list as | .tuple as | .concat as => checkAll as
    | .map es => es.forM fun e => do
      check e.1
      check e.2
    | .member a _ | .negated a | .minus a | .plus a | .spread a _ => check a
    | .item a k => do
      check a
      check k
    | .slice start stop step => do
      checkSome start
      checkSome stop
      checkSome step
    | .call f as named => do
      check f
      checkAll as
      checkNamed named
    | .filter a n as named => do
      if !isSoft then checkName "filter" filterSignatures n
      checkSome a
      checkAll as
      checkNamed named
    | .test a n as named => do
      if !isSoft then checkName "test" testSignatures n
      check a
      checkAll as
      checkNamed named
    | .both a b | .either a b | .operate _ a b => do
      check a
      check b
    | .compare a rest => do
      check a
      rest.forM fun e => check e.2
    | .chosen on yes no => do
      Term.check fuel true on
      Term.check fuel true yes
      no.toList.forM (Term.check fuel true)

/-- The slots in a part, in their order. -/
def Part.slots : Nat → Part → List (Text × List Part)
  | 0, _ => []
  | fuel + 1, p =>
    let slotsOf (ps : List Part) : List (Text × List Part) := ps.flatMap (Part.slots fuel)
    match p with
    | .text _ | .output _ | .assign _ _ | .insert _ _ _ | .base _ | .bring .. => []
    | .choice branches no => branches.flatMap (fun b => slotsOf b.2) ++ slotsOf no
    | .loop _ _ _ ps no => slotsOf ps ++ slotsOf no
    | .capture _ _ ps | .scope _ ps | .define _ _ ps | .through _ ps | .escaping _ ps
    | .callWith _ _ ps => slotsOf ps
    | .slot n _ _ ps => (n, ps) :: slotsOf ps

/-- The filters and tests of a part have a meaning. -/
def Part.check : Nat → (isSoft : Bool) → Part → Except ReadFault Unit
  | 0, _, _ => .ok ()
  | fuel + 1, isSoft, p => do
    let term := Term.check fuel isSoft
    let hard := Term.check fuel false
    let inside (ps : List Part) : Except ReadFault Unit := ps.forM (Part.check fuel false)
    let values (ps : List (Text × Option Term)) : Except ReadFault Unit :=
      ps.forM fun p => p.2.toList.forM hard
    match p with
    | .text _ => return
    | .output as => as.forM term
    | .choice branches no => do
      branches.forM fun b => do
        Term.check fuel true b.1
        b.2.forM (Part.check fuel true)
      no.forM (Part.check fuel true)
    | .loop _ among test ps no => do
      test.toList.forM hard
      term among
      inside ps
      inside no
    | .assign _ value => term value
    | .capture _ filter ps => do
      inside ps
      filter.toList.forM hard
    | .scope vs ps => do
      vs.forM fun v => term v.2
      inside ps
    | .slot _ _ _ ps => inside ps
    | .insert name _ _ | .base name | .bring name _ _ _ => term name
    | .define _ ps body => do
      values ps
      inside body
    | .through filter ps => do
      inside ps
      hard filter
    | .escaping on ps => do
      term on
      inside ps
    | .callWith call ps body => do
      values ps
      inside body
      term call

/-- How deep parts may nest. -/
def partDepth : Nat := 1000

/-- The slots of parts, in their order. -/
def slotsOf (ps : List Part) : List (Text × List Part) := ps.flatMap (Part.slots partDepth)

/-- No two names are the same. -/
def checkSlots : List Text → Except ReadFault Unit
  | [] => .ok ()
  | n :: ns =>
    if ns.contains n then
      .error (.unknown ("block ".toList ++ Text.quoted n ++ " defined twice".toList))
    else checkSlots ns

/-- The parts of a text. -/
def parse (t : Text) : Except ReadFault (List Part) := do
  let ts := tokens t
  let fuel := 16 * ts.length + 32
  let (ps, _) ← (parts fuel []).run { tokens := ts }
  checkSlots ((slotsOf ps).map (·.1))
  ps.forM (Part.check partDepth false)
  return ps

end Lectern.Theme.Template
