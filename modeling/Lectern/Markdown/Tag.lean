import Lectern.Text.Blank

/-!
# Tags of raw markup

The forms in which markup may stand in the notes: opening and closing tags, comments, processing
instructions, declarations and character data sections.  Each reader takes the text from the angle
bracket on and gives the rest after its end.
-/

namespace Lectern.Markdown
open Text

/-- What follows the first occurrence of a pattern. -/
def afterFirst? (p t : Text) : Option Text := (indexOf? p t).map fun i => t.drop (i + p.length)

def isTagNameChar (c : Char) : Bool := isLetterOrDigit c || c = '-'

/-- The name of a tag and what follows it. -/
def tagName? : Text → Option (Text × Text)
  | c :: t => if isLetter c then some ((c :: t).span isTagNameChar) else none
  | [] => none

def isAttributeStart (c : Char) : Bool := isLetter c || c = '_' || c = ':'

def isAttributeChar (c : Char) : Bool := isAttributeStart c || c.isDigit || c = '.' || c = '-'

/-- A character of an attribute value without quotes. -/
def isBareValueChar (c : Char) : Bool := c.toNat > 0x20 && !"\"'=<>`".toList.contains c

/-- The rests after the bare values that begin a text, the longest value first.  A blank beyond
ASCII is a character of such a value, and the value may also end before one. -/
def bareValueRests : Text → List Text
  | c :: t =>
    if isBareValueChar c then
      let ends := match t with
        | d :: _ => isBlank d || !isBareValueChar d
        | [] => true
      bareValueRests t ++ (if ends then [t] else [])
    else []
  | [] => []

/-- The rests after the values that may follow an equals sign, in the order in which they are
tried: first with all blanks before the value passed over, then with fewer. -/
def valueRests : Text → List Text
  | '"' :: t => (afterFirst? ['"'] t).toList
  | '\'' :: t => (afterFirst? ['\''] t).toList
  | c :: t => (if isBlank c then valueRests t else []) ++ bareValueRests (c :: t)
  | [] => []

/-- The rests after the attribute, with a blank before it, that begins a text: those after a value
come before the one after the bare name. -/
def attributeRests (t : Text) : List Text :=
  if (t.head?.map isBlank).getD false then
    match t.dropWhile isBlank with
    | c :: r =>
      if isAttributeStart c then
        let named := r.dropWhile isAttributeChar
        match named.dropWhile isBlank with
        | '=' :: v => valueRests v ++ [named]
        | _ => [named]
      else []
    | [] => []
  else []

/-- What follows the angle bracket that ends an opening tag. -/
def tagEnd? (t : Text) : Option Text :=
  match t.dropWhile isBlank with
  | '/' :: '>' :: r => some r
  | '>' :: r => some r
  | _ => none

/-- What follows the attributes and the end of an opening tag; the first argument bounds the number
of attributes. -/
def afterAttributes? : Nat → Text → Option Text
  | 0, t => tagEnd? t
  | fuel + 1, t =>
    ((attributeRests t).findSome? (afterAttributes? fuel)).orElse fun _ => tagEnd? t

def openTag? : Text → Option Text
  | '<' :: t => (tagName? t).bind fun (_, r) => afterAttributes? r.length r
  | _ => none

def closeTag? : Text → Option Text
  | '<' :: '/' :: t =>
    match tagName? t with
    | none => none
    | some (_, r) =>
      match r.dropWhile isBlank with
      | '>' :: r => some r
      | _ => none
  | _ => none

/-- The rest after the end of a comment.  Two hyphens that no angle bracket follows are passed over
together with the character after them. -/
def commentEnd? : Text → Option Text
  | '-' :: '-' :: '>' :: t => some t
  | '-' :: '-' :: _ :: t => commentEnd? t
  | '-' :: c :: t => if c = '-' then none else commentEnd? t
  | '-' :: [] => none
  | _ :: t => commentEnd? t
  | [] => none

def comment? (t : Text) : Option Text :=
  match stripPrefix? "<!--".toList t with
  | none => none
  | some ('>' :: r) => some r
  | some ('-' :: '>' :: r) => some r
  | some r => commentEnd? r

def processing? (t : Text) : Option Text := (stripPrefix? ['<', '?'] t).bind (afterFirst? ['?', '>'])

def declaration? : Text → Option Text
  | '<' :: '!' :: c :: t => if isLetter c then afterFirst? ['>'] t else none
  | _ => none

def dataSection? (t : Text) : Option Text :=
  (stripPrefix? "<![CDATA[".toList t).bind (afterFirst? [']', ']', '>'])

/-- The markup at the start of a text and the rest after it. -/
def rawMarkup? (t : Text) : Option (Text × Text) :=
  ([openTag?, closeTag?, comment?, processing?, declaration?, dataSection?].findSome? (· t)).map
    fun r => (t.take (t.length - r.length), r)

end Lectern.Markdown
