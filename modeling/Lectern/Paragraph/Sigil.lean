import Lectern.Text.Entity

/-!
# Sigils

A sigil is the beginning of a paragraph that selects what becomes of it.  A doubled sigil is an
escape: it selects nothing and stands for one literal sigil.

* `Sigil.mark`       the beginning as it stands in rendered markup;
* `Sigil.fires`      the paragraph begins with the mark and not with the doubled one;
* `Sigil.select?`    the first sigil of a table that fires;
* `Sigil.unescape?`  the paragraph with a leading doubled mark made single;
* `Sigil.fields`     the values in the remainder of a paragraph.
-/

namespace Lectern
open Text

inductive Sigil where
  | small
  | alert
  | lecture
  | animation
  | anchor
  | video
  | embed
  deriving DecidableEq

namespace Sigil

/-- Every sigil, in the order in which they are tried. -/
def all : List Sigil := [small, alert, lecture, animation, anchor, video, embed]

def name : Sigil → String
  | small => "small"
  | alert => "alert"
  | lecture => "lecture"
  | animation => "animation"
  | anchor => "anchor"
  | video => "video"
  | embed => "embed"

/-- The beginning of a paragraph that the sigil answers to; the ampersand is written as markup
writes it. -/
def mark : Sigil → Text
  | small => ['^']
  | alert => ['!']
  | lecture => [':']
  | animation => [';']
  | anchor => ['@']
  | video => ['%']
  | embed => ['&', 'a', 'm', 'p', ';']

/-- What separates the values in the remainder; nothing where there is one value only. -/
def separator : Sigil → Text
  | video => ['%']
  | embed => ['&', 'a', 'm', 'p', ';']
  | _ => []

/-- The doubled mark. -/
def doubled (s : Sigil) : Text := s.mark ++ s.mark

/-- The sigil acts on a paragraph with this markup inside. -/
def fires (s : Sigil) (inner : Text) : Bool :=
  startsWith s.mark inner && !startsWith s.doubled inner

/-- The first sigil of the table that acts. -/
def select? (table : List Sigil) (inner : Text) : Option Sigil := table.find? (·.fires inner)

/-- The markup with its leading doubled mark made single, if it begins with one. -/
def unescape? (table : List Sigil) (inner : Text) : Option Text :=
  (table.find? fun s => startsWith s.doubled inner).map fun s => inner.drop s.mark.length

/-- Why a remainder gives no values. -/
inductive FieldFault where
  /-- The sigil has no separator. -/
  | noSeparator
  | number (e : TooManyDigits)
  deriving DecidableEq

def FieldFault.message : FieldFault → String
  | noSeparator => "empty separator"
  | number e => e.message

/-- The values of a remainder, their character references read. -/
def fields (s : Sigil) (remainder : Text) : Except FieldFault (List Text) :=
  if s.separator = [] then .error .noSeparator
  else ((splitOn s.separator (strip remainder)).mapM unescape).mapError .number

end Sigil
end Lectern
