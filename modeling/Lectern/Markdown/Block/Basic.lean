import Lectern.Markdown.Directive
import Lectern.Markdown.Link

/-!
# Blocks

The blocks of a page before the text inside them has been read.

* `Block.contents`      every piece of running text, in the order of the page;
* `Block.definitions`   the link definitions, in the order of the page;
* `Block.isDefinition`  blocks that print nothing.
-/

namespace Lectern.Markdown

inductive Align where
  | none
  | left
  | center
  | right
  deriving DecidableEq

inductive Block where
  | paragraph (content : Text)
  | heading (level : Nat) (content : Text)
  | code (content : Text)
  | fence (info content : Text)
  | markup (content : Text)
  | rule
  | math (label : Option Text) (content : Text)
  | table (aligns : List Align) (header : List Text) (rows : List (List Text))
  | definition (d : Definition)
  | quote (body : List Block)
  | list (start : Option Nat) (tight : Bool) (items : List (List Block))
  | directive (d : Directive) (params : Text) (body : List Block)

namespace Block

def isDefinition : Block → Bool
  | definition _ => true
  | _ => false

mutual

/-- Every piece of running text of a block. -/
def contents : Block → List Text
  | paragraph t => [t]
  | heading _ t => [t]
  | table _ header rows => header ++ rows.flatten
  | quote body => contentsAll body
  | list _ _ items => contentsItems items
  | directive _ _ body => contentsAll body
  | _ => []

def contentsAll : List Block → List Text
  | [] => []
  | b :: bs => contents b ++ contentsAll bs

def contentsItems : List (List Block) → List Text
  | [] => []
  | i :: is => contentsAll i ++ contentsItems is

end

mutual

/-- The link definitions of a block. -/
def definitions : Block → List Definition
  | definition d => [d]
  | quote body => definitionsAll body
  | list _ _ items => definitionsItems items
  | directive _ _ body => definitionsAll body
  | _ => []

def definitionsAll : List Block → List Definition
  | [] => []
  | b :: bs => definitions b ++ definitionsAll bs

def definitionsItems : List (List Block) → List Definition
  | [] => []
  | i :: is => definitionsAll i ++ definitionsItems is

end

end Block
end Lectern.Markdown
