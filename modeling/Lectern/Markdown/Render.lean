import Lectern.Journal
import Lectern.Markdown.Block.Parser
import Lectern.Markdown.Inline.Nested
import Lectern.Markdown.Typography

/-!
# From notes to markup

`Markdown.render` reads the blocks of a page, then the text inside them, and writes both as markup.
The paragraphs of a tight list are written without their tags.

* `Token.render`    a token of running text;
* `Block.render`    a block;
* `mathMarkup`      a formula between the marks that a formula renderer looks for;
* `captionNotes`    a warning for each directive left as text because it has no caption.
-/

namespace Lectern.Markdown
open Text

/-- A formula as the page shows it, set off or in the line. -/
def mathMarkup (display : Bool) (t : Text) : Text :=
  if display then ['\\', '['] ++ escapeMarkup t ++ ['\\', ']']
  else ['\\', '('] ++ escapeMarkup t ++ ['\\', ')']

/-- An attribute with a space before it. -/
def attr (name : String) (value : Text) : Text :=
  ' ' :: name.toList ++ ['=', '"'] ++ escapeMarkup value ++ ['"']

/-! ## running text -/

def Span.name : Span → String
  | emphasis => "em"
  | strong => "strong"
  | strike => "s"
  | key => "kbd"
  | colour _ => "span"
  | link _ _ _ => "a"

/-- The class of text in a colour. -/
def colourClass (name : Text) : Text := "md-colorify md-colorify--".toList ++ name

def Span.attributes : Span → Text
  | colour name => attr "class" (colourClass name)
  | link address title _ =>
    attr "href" address ++ (if title.isEmpty then [] else attr "title" title)
  | _ => []

def Token.render : Token → Text
  | text t => escapeMarkup t
  | literal t => escapeMarkup t
  | softBreak => ['\n']
  | hardBreak => "<br />\n"
  | code t => "<code>".toList ++ escapeMarkup t ++ "</code>".toList
  | markup t => t
  | math t => "<span class=\"math inline\">".toList ++ mathMarkup false (strip t) ++ "</span>".toList
  | image address title _ alt _ =>
    "<img".toList ++ attr "src" address ++ attr "alt" alt
      ++ (if title.isEmpty then [] else attr "title" title) ++ " />".toList
  | opening s => '<' :: s.name.toList ++ s.attributes ++ ['>']
  | closing s => "</".toList ++ s.name.toList ++ ['>']

/-- A piece of running text as markup. -/
def renderText (definitions : List Definition) (t : Text) : Text :=
  (typeset t (parseInline definitions t)).flatMap Token.render

/-! ## blocks -/

def Align.attr : Align → Text
  | none => []
  | left => Markdown.attr "style" "text-align:left"
  | center => Markdown.attr "style" "text-align:center"
  | right => Markdown.attr "style" "text-align:right"

/-- An element in a line of its own. -/
def element (name : String) (attributes body : Text) : Text :=
  '<' :: name.toList ++ attributes ++ ['>'] ++ body ++ "</".toList ++ name.toList ++ ['>', '\n']

/-- One row of a table. -/
def renderRow (show_ : Text → Text) (name : String) (aligns : List Align) (cells : List Text) :
    Text :=
  element "tr" [] ('\n' :: (cells.zip aligns).flatMap fun (cell, align) =>
    element name align.attr (show_ cell))

def renderTable (show_ : Text → Text) (aligns : List Align) (header : List Text)
    (rows : List (List Text)) : Text :=
  let head := element "thead" [] ('\n' :: renderRow show_ "th" aligns header)
  let body :=
    if rows.isEmpty then []
    else element "tbody" [] ('\n' :: rows.flatMap (renderRow show_ "td" aligns))
  element "table" [] ('\n' :: head ++ body)

/-- The language of a fenced block, the first word after the fence. -/
def fenceLanguage? (info : Text) : Option Text := (spacedWords (literal info)).head?

def renderFence (info content : Text) : Text :=
  let language := match fenceLanguage? info with
    | some l => attr "class" ("language-".toList ++ l)
    | none => []
  "<pre><code".toList ++ language ++ ['>'] ++ escapeMarkup content ++ "</code></pre>\n".toList

def renderMath (label : Option Text) (content : Text) : Text :=
  let body := mathMarkup true (strip content) ++ "\n</div>\n".toList
  match label with
  | none => "<div class=\"math block\">\n".toList ++ body
  | some l =>
    let name := escapeMarkup l
    "<div id=\"".toList ++ name ++ "\" class=\"math block\">\n<a href=\"#".toList ++ name
      ++ "\" class=\"mathlabel\" title=\"Permalink to this equation\">¶</a>\n".toList ++ body

/-- The block is a paragraph without tags in a tight list. -/
def Block.isHidden (tight : Bool) : Block → Bool
  | paragraph _ => tight
  | _ => false

/-- The markup of the block begins a line of its own even after text without tags. -/
def Block.opensLine : Block → Bool
  | paragraph _ => true
  | heading _ _ => true
  | rule => true
  | table _ _ _ => true
  | quote _ => true
  | list _ _ _ => true
  | _ => false

/-- The content of an element begins a line: there is some, and it begins with a tag or with markup. -/
def Block.beginsLine (tight : Bool) (body : List Block) : Bool :=
  match body.find? fun b => !b.isDefinition with
  | some b => !b.isHidden tight
  | none => false

/-- Content after the tag that opens it. -/
def lineBefore (begins : Bool) : Text := if begins then ['\n'] else []

section
variable (definitions : List Definition) (labels : Labels)

mutual

/-- A block as markup; `hidden` if its tags are left out. -/
def Block.render (hidden : Bool) : Block → Text
  | .paragraph t =>
    if hidden then renderText definitions t else element "p" [] (renderText definitions t)
  | .heading level t => element ("h" ++ toString level) [] (renderText definitions t)
  | .code t => "<pre><code>".toList ++ escapeMarkup t ++ "</code></pre>\n".toList
  | .fence info t => renderFence info t
  | .markup t => t
  | .rule => "<hr />\n"
  | .math label t => renderMath label t
  | .table aligns header rows => renderTable (renderText definitions) aligns header rows
  | .definition _ => []
  | .quote body => element "blockquote" [] (lineBefore (Block.beginsLine false body) ++ Block.renderAll false false body)
  | .list start tight items =>
    let attributes := match start with
      | some n => if n = 1 then [] else attr "start" (Text.ofNat n)
      | none => []
    element (if start.isSome then "ol" else "ul") attributes
      ('\n' :: Block.renderItems tight items)
  | .directive d params body =>
    d.opening (d.title labels params) ++ Block.renderAll false false body ++ d.closing

/-- Block after block; `afterHidden` tells that a paragraph without tags came before. -/
def Block.renderAll (tight afterHidden : Bool) : List Block → Text
  | [] => []
  | b :: bs =>
    if b.isDefinition then Block.renderAll tight afterHidden bs
    else
      (if afterHidden && b.opensLine && !b.isHidden tight then ['\n'] else [])
        ++ Block.render (b.isHidden tight) b ++ Block.renderAll tight (b.isHidden tight) bs

def Block.renderItems (tight : Bool) : List (List Block) → Text
  | [] => []
  | i :: is => element "li" [] (lineBefore (Block.beginsLine tight i) ++ Block.renderAll tight false i)
      ++ Block.renderItems tight is

end
end

/-! ## the page -/

/-- Line ends in any of the three conventions made line feeds, and the null character replaced. -/
def normalized (t : Text) : Text :=
  (unifyLineEnds t).map fun c => if c.toNat = 0 then Char.ofNat 0xfffd else c

/-- A warning for each captioned directive whose marker stands alone in a line of text. -/
def captionNotes (blocks : List Block) : List Message :=
  ((Block.contentsAll blocks).flatMap Directive.uncaptioned).map fun d =>
    .warning ("Block '".toList ++ d.name.toList ++ "' without caption rendered as paragraph".toList)

/-- The markup of a page of notes. -/
def render (labels : Labels) (t : Text) : Logged PageFault Text := do
  match parseBlocks (normalized t) with
  | .error e => throw e
  | .ok blocks => do
    (captionNotes blocks).forM Logged.write
    return Block.renderAll (Block.definitionsAll blocks) labels false false blocks

end Lectern.Markdown
