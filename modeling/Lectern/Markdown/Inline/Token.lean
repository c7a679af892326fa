import Lectern.Text.Basic

/-!
# Tokens of running text

Running text is a row of tokens.  A span begins and ends with a token of its own; what lies between
belongs to it.  `text` is what typography may still change, `literal` what an escape has fixed.

* `Token.content`   the characters of a token, for tokens that show some;
* `Token.step`      how much deeper the text after a token lies than the text before it.
-/

namespace Lectern.Markdown

/-- What a stretch of text is made into. -/
inductive Span where
  | emphasis
  | strong
  | strike
  | key
  | colour (name : Text)
  | link (address title : Text) (automatic : Bool)
  deriving DecidableEq

inductive Token where
  | text (t : Text)
  | literal (t : Text)
  | softBreak
  | hardBreak
  | code (t : Text)
  | markup (t : Text)
  | math (t : Text)
  /-- `alt` are the words that stand for the image, `altInside` those it adds to the words for an
  image around it. -/
  | image (address title source alt altInside : Text)
  | opening (s : Span)
  | closing (s : Span)
  deriving DecidableEq

namespace Token

def content : Token → Text
  | text t => t
  | literal t => t
  | code t => t
  | markup t => t
  | math t => t
  | image _ _ source _ _ => source
  | _ => []

def isBreak : Token → Bool
  | softBreak => true
  | hardBreak => true
  | _ => false

def step : Token → Int
  | opening _ => 1
  | closing _ => -1
  | _ => 0

/-- What a token adds to the words that stand for an image around it; what an escape has fixed counts
only if `escaped`. -/
def spokenPart (escaped : Bool) : Token → Text
  | text t => t
  | literal t => if escaped then t else []
  | code t => t
  | markup t => t
  | softBreak => ['\n']
  | hardBreak => ['\n']
  | image _ _ _ _ altInside => altInside
  | _ => []

/-- The words that stand for an image where it cannot be shown.  Escapes inside an image that stands
in another one are silent. -/
def spoken (escaped : Bool) (ts : List Token) : Text := ts.flatMap (spokenPart escaped)

end Token
end Lectern.Markdown
