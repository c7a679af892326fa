import Lectern.Text.Blank

/-!
# Directive blocks

A directive is a block fenced by a repeated marker.  Each has a marker, a category, and the markup
that opens and closes it around its content.

* `Directive.title`       the title of an opened block: its own words, or the default one;
* `Directive.accepts`     whether a marker line opens the block: a caption must not be missing;
* `Directive.opening`, `closing`   the markup around the content;
* `uncaptioned`           the captioned directives whose marker fills a line alone.
-/

namespace Lectern
open Text

/-- A note and a panel have a default title, a captioned block must be given one, and a structural
block needs none. -/
inductive DirectiveCategory where
  | note
  | captioned
  | panel
  | structural
  deriving DecidableEq

inductive Directive where
  | warning
  | question
  | answer
  | file
  | part
  | item
  | times
  | slide
  deriving DecidableEq

def DirectiveCategory.name : DirectiveCategory → String
  | note => "note"
  | captioned => "captioned"
  | panel => "panel"
  | structural => "structural"

/-- Titles that take the place of the default ones, by the name of the directive. -/
abbrev Labels := List (Text × Text)

namespace Directive

/-- Every directive, in the order in which a line is tried. -/
def all : List Directive := [warning, question, answer, file, part, item, times, slide]

def name : Directive → String
  | warning => "warning"
  | question => "question"
  | answer => "answer"
  | file => "file"
  | part => "section"
  | item => "item"
  | times => "times"
  | slide => "slide"

def ofName? (t : Text) : Option Directive := all.find? fun d => d.name.toList = t

def marker : Directive → Text
  | warning => ['!']
  | question => ['?']
  | answer => [':']
  | file => ['´']
  | part => [';']
  | item => ['|']
  | times => List.replicate 7 '/'
  | slide => List.replicate 14 '+'

def category : Directive → DirectiveCategory
  | warning => .note
  | question => .note
  | answer => .panel
  | file => .captioned
  | part => .captioned
  | item => .captioned
  | times => .structural
  | slide => .structural

def needsCaption (d : Directive) : Bool := d.category = .captioned

def defaultTitle? : Directive → Option Text
  | warning => some "Warning"
  | question => some "Question"
  | answer => some "Answer"
  | _ => none

/-- The words after the marker, or the label, or the default title where there are none. -/
def title (labels : Labels) (d : Directive) (params : Text) : Text :=
  match words params with
  | [] => (labels.lookup d.name.toList).getD (d.defaultTitle?.getD [])
  | ws => Text.join [' '] ws

/-- A marker line with these words opens the block. -/
def accepts (d : Directive) (params : Text) : Bool := !(d.needsCaption && strip params = [])

/-- The tag that opens a collapsible block and its summary. -/
def summary (name title : Text) : Text :=
  "<details class=\"".toList ++ name ++ "\">\n<summary>".toList ++ title ++ "</summary>\n".toList

/-- The tag that opens a quoted note and its title. -/
def quoted (name title : Text) : Text :=
  "<blockquote class=\"".toList ++ name ++ "\">\n<p>".toList ++ title ++ "</p>\n".toList

/-- The markup before the content. -/
def opening (d : Directive) (title : Text) : Text :=
  match d with
  | warning => quoted "warning" title
  | question => quoted "question" title
  | answer => summary "answer" title
  | file => summary "file" title
  | part => summary "section" title
  | item =>
    "<div class=\"item\">\n<div class=\"item-marker\">\n".toList ++ title
      ++ "\n</div>\n<div class=\"item-content\">\n".toList
  | times => "<pre class=\"times\">\n"
  | slide =>
    "<div class=\"slide\">\n<div class=\"slide-container\">\n<div class=\"slide-header\">\n".toList
      ++ title ++ "\n</div>\n<div class=\"slide-main\">\n".toList

/-- The markup after the content. -/
def closing : Directive → Text
  | warning => "</blockquote>\n"
  | question => "</blockquote>\n"
  | answer => "</details>\n"
  | file => "</details>\n"
  | part => "</details>\n"
  | item => "</div>\n</div>\n"
  | times => "</pre>\n"
  | slide => "</div>\n</div>\n</div>\n"

/-- The line holds nothing but the marker, which would have opened the block had a caption
followed. -/
def fillsLine (d : Directive) (line : Text) : Bool :=
  let t := strip line
  t.length ≥ 3 * d.marker.length && replaceAll d.marker [] t = []

/-- The captioned directives that the lines of a paragraph would have opened, line by line. -/
def uncaptioned (content : Text) : List Directive :=
  (lines content).flatMap fun line => (all.filter needsCaption).filter (·.fillsLine line)

end Directive
end Lectern
