import Lectern.Theme.Template.Filter.Number
import Lectern.Theme.Template.Filter.Phrase
import Lectern.Theme.Template.Filter.Script
import Lectern.Theme.Template.Method.Text
import Lectern.Theme.Template.Test

/-!
# Filters

`applyFilter` makes a value from a value.  Texts that are markup stay markup where nothing is put into
them that is not escaped; a filter may be applied to every value of a row, and a test may pick values
from it.
-/

namespace Lectern.Theme.Template
open Text Value

/-- A text through a function of its characters. -/
def onText (f : Text → Text) (v : Value) : Result Value := do
  return likeText v.isMarkup (f (← v.shown))

/-- The values of a row; none where the value says nothing. -/
def rowOf (v : Value) : Result (List Value) := do
  if ← v.isFilled then v.items else return []

/-- The entries of a mapping. -/
def entriesOf : Value → Result (List (Value × Value))
  | .map es => .ok es
  | v => v.lacks "items"

/-- A text with occurrences exchanged.  If there is markup in it, or is put into it, what is put in is
escaped. -/
def replaceIn (escapes : Bool) (old new : Value) (count? : Option Int) (v : Value) : Result Value := do
  let isMarkup := escapes && (v.isMarkup || old.isMarkup || new.isMarkup)
  let t ← v.output isMarkup
  return likeText isMarkup (replaceText (← old.shown) (← new.output isMarkup) count? t)

/-- The value of a format. -/
def formatValue (v : Value) (c : Call) : Result Value := do
  if !c.values.isEmpty && !c.named.isEmpty then
    throw (.arguments "can't handle positional and keyword arguments at the same time")
  let t ← v.shown
  let given : Value :=
    if c.named.isEmpty then .tuple c.values else .map (c.named.map fun e => (.text e.1, e.2))
  return likeText v.isMarkup (← format v.isMarkup t given)

/-- A text without its tags and with its character references read. -/
def strippedText (t : Text) : Result Value :=
  match Text.unescape (withoutTags t) with
  | .ok t => .ok (.text t)
  | .error e => .error (.value e.message.toList)

/-- An address, or the query that a mapping or pairs stand for. -/
def addressOf (v : Value) : Result Value := do
  let query (es : List (Value × Value)) : Result Value := do
    let parts ← es.mapM fun (k, v) => do
      return addressText true (← k.shown) ++ '=' :: addressText true (← v.shown)
    return .text (join ['&'] parts)
  match v with
  | .map es => query es
  | .list vs | .tuple vs | .view _ vs | .stream vs => do
    let pairs ← vs.mapM fun v => v.unpack 2
    query (pairs.filterMap fun p => match p with
      | [k, w] => some (k, w)
      | _ => none)
  | .range .. => do
    for i in ← v.items do discard (i.unpack 2)
    return .text []
  | v => return .text (addressText false (← v.shown))

/-- A text cut at a length. -/
def truncated (a : Arguments) (v : Value) : Result Value := do
  let length ← a.number "length" 255
  let mark ← a.text "end" "..."
  let leeway ← match a.some? "leeway" with
    | none => pure 5
    | some _ => a.number "leeway" 5
  if length < mark.length then
    throw (.short ("expected length >= ".toList ++ ofNat mark.length ++ ", got ".toList
      ++ ofInt length))
  if leeway < 0 then throw (.short ("expected leeway >= 0, got ".toList ++ ofInt leeway))
  let cutsWords ← a.flag "killwords"
  if v.text?.isSome then
    let mark := if v.isMarkup then escape mark else mark
    onText (truncateText length.toNat cutsWords mark leeway.toNat) v
  else if (← v.length) ≤ length + leeway then return v
  else
    let cut ← Value.slice v .nothing (.int (length - mark.length)) .nothing
    if cutsWords then add cut (.text mark) else cut.lacks "rsplit"

/-- Values that a test holds of, or does not hold of; each is looked at through a member if `byMember`
says so. -/
def select (byMember keeps : Bool) (v : Value) (c : Call) : Result Value := do
  let (getter, rest) ← match byMember, c.values with
    | false, vs => pure ((⟨[], false, .nothing⟩ : Getter), vs)
    | true, p :: vs => pure (⟨stepsTo (some p), false, .nothing⟩, vs)
    | true, [] => throw (.arguments "Missing parameter for attribute name")
  let holds (v : Value) : Result Bool := do
    let w ← getter.of v
    match rest with
    | [] => w.isFilled
    | name :: vs =>
      let n ← name.shown
      if (signature? n testSignatures).isNone then
        throw (.unable ("No test named ".toList ++ (← name.written) ++ ['.']))
      applyTest n w { c with values := vs }
  let kept ← (← rowOf v).filterM fun v => do return (← holds v) == keeps
  return .stream kept

/-- The value of a filter; the first argument bounds how often a filter applies another one. -/
def applyFilter (escapes : Bool) : Nat → Text → Value → Call → Result Value
  | 0, _, _, _ => .error .depth
  | fuel + 1, name, v, c => do
    let some s := signature? name filterSignatures | unknownName "filter" name
    let a ← s.bind c
    let getter : Result Getter := do
      let minds ← a.flag "case_sensitive"
      return ⟨stepsTo (a.get? "attribute"), !minds, .nothing⟩
    match String.ofList name with
    | "safe" => return .markup (← v.shown)
    | "e" | "escape" => return .markup (← v.output true)
    | "forceescape" => return .markup (escape (← v.shown))
    | "string" => onText id v
    | "upper" => onText upper v
    | "lower" => onText lower v
    | "capitalize" => onText capitalize v
    | "title" => return .text (headingWords [] (← v.shown))
    | "trim" => onText (stripEnds (isEdge (a.some? "chars")) true true) v
    | "center" => do
      let width ← a.number "width" 80
      onText (center width.toNat ' ') v
    | "replace" => replaceIn escapes (a.get "old") (a.get "new") ((a.some? "count").bind int?) v
    | "default" | "d" => do
      let other := (a.get? "default_value").getD (.text [])
      match v with
      | .undefined _ | .missing => return other
      | v => do
        let filled ← v.isFilled
        return if (← a.flag "boolean") && !filled then other else v
    | "length" | "count" => return .int (← v.length)
    | "first" => do
      match ← v.items with
      | w :: _ => return w
      | [] => return .undefined "No first item, sequence was empty."
    | "last" => do
      match v, v.items with
      | .stream _, _ => misfit "'generator' object is not reversible"
      | .undefined m, _ => throw (.undefined m)
      | v, .error _ => misfit ("'" ++ v.kindName ++ "' object is not reversible")
      | _, .ok vs =>
        return vs.getLast?.getD (.undefined "No last item, sequence was empty.")
    | "random" => do
      match ← v.items with
      | w :: _ => return w
      | [] => return .undefined "No random item, sequence was empty."
    | "list" => return .list (← v.items)
    | "reverse" => do
      match v with
      | .text t => return .text t.reverse
      | .markup t => return .markup t.reverse
      | v => do
        v.check
        match v.items with
        | .ok vs => return .stream vs.reverse
        | .error _ => throw (.arguments "argument must be iterable")
    | "join" => do
      let g : Getter := ⟨stepsTo (a.get? "attribute"), false, .nothing⟩
      joinValues escapes ((a.get? "d").getD (.text [])) (← (← v.items).mapM g.of)
    | "sort" =>
      return .list (← sortValues (a.get? "attribute") (← a.flag "reverse")
        (!(← a.flag "case_sensitive")) (← v.items))
    | "unique" => return .stream (← uniqueValues (← getter) (← v.items))
    | "min" => extreme .less (← getter) (← v.items)
    | "max" => extreme .greater (← getter) (← v.items)
    | "groupby" => do
      let g ← getter
      return .list (← groups { g with default := a.get "default" } (← v.items))
    | "sum" => do
      let g : Getter := ⟨stepsTo (a.get? "attribute"), false, .nothing⟩
      let start := (a.get? "start").getD (.int 0)
      if start.text?.isSome then misfit "sum() can't sum strings [use ''.join(seq) instead]"
      (← v.items).foldlM (fun sum w => do operate .add sum (← g.of w)) start
    | "batch" => do
      let size ← a.number "linecount" 1
      let row ← v.items
      return .stream (batches size.toNat (a.some? "fill_with") row.length row)
    | "slice" => do
      let count ← a.number "slices" 1
      if count = 0 then throw (.division "integer division or modulo by zero")
      return .stream (columns count.toNat (a.some? "fill_with") (← v.items))
    | "items" => do
      match v with
      | .map es => return .stream (es.map fun e => .tuple [e.1, e.2])
      | .undefined _ | .missing => return .stream []
      | _ => misfit "Can only get item pairs from a mapping."
    | "dictsort" => do
      let byKey ← match (a.get? "by").bind text? with
        | none => pure true
        | some t =>
          if t = "key".toList then pure true
          else if t = "value".toList then pure false
          else throw (.arguments "You can only sort by either \"key\" or \"value\"")
      let g : Getter := ⟨[.int (if byKey then 0 else 1)], !(← a.flag "case_sensitive"), .nothing⟩
      let pairs := (← entriesOf v).map fun e => Value.tuple [e.1, e.2]
      return .list (← sortBy g.of (← a.flag "reverse") pairs)
    | "map" => do
      let row ← rowOf v
      match c.values, c.named.find? (·.1 = "attribute".toList) with
      | [], some (_, path) => do
        let isKnown (n : Text) : Bool := ["attribute", "default"].any (·.toList = n)
        if let some e := c.named.find? fun e => !isKnown e.1 then
          throw (.arguments ("Unexpected keyword argument ".toList ++ quoted e.1))
        let g : Getter := ⟨stepsTo (some path), false,
          (c.named.lookup "default".toList).getD .nothing⟩
        return .stream (← row.mapM g.of)
      | [], none => throw (.arguments "map requires a filter argument")
      | n :: vs, _ => do
        let other ← n.shown
        if (signature? other filterSignatures).isNone then
          if row.isEmpty then return .stream []
          else throw (.unable ("No filter named ".toList ++ (← n.written) ++ ['.']))
        return .stream (← row.mapM fun v => applyFilter escapes fuel other v { c with values := vs })
    | "select" => select false true v c
    | "reject" => select false false v c
    | "selectattr" => select true true v c
    | "rejectattr" => select true false v c
    | "abs" => do
      match v, v.int? with
      | .float x, _ => return .float x.abs
      | _, some i => return .int i.natAbs
      | .undefined m, none => throw (.undefined m)
      | v, none => misfit ("bad operand type for abs(): '" ++ v.kindName ++ "'")
    | "int" => do
      let base ← a.number "base" 10
      toInt ((a.get? "default").getD (.int 0)) base.toNat v
    | "float" => toFloat ((a.get? "default").getD (.float 0.0)) v
    | "round" => do
      roundTo (← a.number "precision" 0) (← a.text "method" "common") v
    | "filesizeformat" => return .text (← sizeText (← a.flag "binary") v)
    | "format" => formatValue v c
    | "wordcount" => return .int (countWords (← v.shown))
    | "wordwrap" => do
      let width ← a.number "width" 79
      let some t := v.text? | v.lacks "splitlines"
      if width ≤ 0 && !t.isEmpty then
        throw (.value ("invalid width ".toList ++ ofInt width ++ " (must be > 0)".toList))
      let lineEnd ← match a.some? "wrapstring" with
        | some w => w.shown
        | none => pure ['\n']
      let cuts ← a.flag "break_long_words" true
      let parts ← a.flag "break_on_hyphens" true
      return .text (wrapLines width.toNat cuts parts lineEnd t)
    | "striptags" => strippedText (← v.shown)
    | "truncate" => truncated a v
    | "indent" => do
      let gap ← match (a.get? "width").bind text? with
        | some t => pure t
        | none => pure (List.replicate (← a.number "width" 4).toNat ' ')
      match v with
      | .text _ | .markup _ => onText (indentText gap (← a.flag "first") (← a.flag "blank")) v
      | .list _ => v.lacks "splitlines"
      | .tuple _ => add v (.text ['\n'])
      | v => do
        v.check
        unsupported "+=" v (.text [])
    | "urlencode" => addressOf v
    | "urlize" => do
      let t := escape (← v.shown)
      return if escapes then .markup t else .text t
    | "xmlattr" => do
      let t ← attributesText (← entriesOf v)
      let t := if (← a.flag "autospace" true) && !t.isEmpty then ' ' :: t else t
      return if escapes then .markup t else .text t
    | "tojson" => do
      let gap := (a.some? "indent").bind fun w =>
        (w.text?).orElse fun _ => w.int?.map fun n => List.replicate n.toNat ' '
      return .markup (← scriptData gap scriptDepth 0 v)
    | "attr" => do
      v.check
      let n ← (a.get "name").shown
      return (ownMember? v n).getD (lacksMember v n)
    | "pprint" => return .text (← v.written)
    | _ => return v

end Lectern.Theme.Template
