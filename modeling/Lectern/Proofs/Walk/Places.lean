import Lectern.Page.Walk
import Lectern.Proofs.Html.Back
import Lectern.Proofs.Walk.Shape

/-!
# Where the walk comes to an image

The walk comes to an image in the flow of a page: in paragraphs, in the items of lists and in the cells of
tables, through quotes, details, divisions, emphasis and spans.  It does not enter links, headings, struck
text, code and preformatted text.

* `Spot.inside`     where the walk goes on in an element;
* `imagesAll`       the images of a tree, each with whether the walk comes to it;
* `Resolved`        the images of a page after the walk, against those before.
-/

namespace Lectern.Page
open Text Html Html.Node

abbrev Attributes := List (Text × Text)

def isImage (t : Tag) : Bool := t.name = "img".toList

/-- Where a node stands, as far as the walk is concerned. -/
inductive Spot where
  | flow
  /-- In a list or in a row: only elements of these names are looked at. -/
  | only (names : List String)
  /-- In a table: only rows are looked at. -/
  | rows
  | nowhere
  deriving DecidableEq

def Spot.isFlow : Spot → Bool
  | flow => true
  | _ => false

/-- Where what an element holds stands. -/
def Spot.inside (tag : Tag) : Spot → Spot
  | flow =>
    if isOneOf ["p", "blockquote", "details", "div", "em", "strong", "span"] tag then flow
    else if isOneOf ["ul", "ol"] tag then only ["li"]
    else if isOneOf ["table"] tag then rows
    else nowhere
  | only names => if isOneOf names tag then flow else nowhere
  | rows => if tag.name = "tr".toList then only cellNames else rows
  | nowhere => nowhere

/-- The walk goes on in the flow by what the name of an element says about it. -/
theorem inside_flow (tag : Tag) : Spot.inside tag .flow = match Part.ofName tag.name with
    | .paragraph | .wrapper => .flow
    | .table => .rows
    | .list => .only ["li"]
    | .preformatted | .code | .link | .image | .other => .nowhere := by
  cases hpart : Part.ofName tag.name with
  | other =>
    have hnone : ∀ n ∈ ["p", "blockquote", "details", "div", "em", "strong", "span", "ul", "ol", "table"],
        n.toList ≠ tag.name := fun n hn e =>
      (by decide : ∀ n ∈ ["p", "blockquote", "details", "div", "em", "strong", "span", "ul", "ol", "table"],
        Part.ofName n.toList ≠ .other) n hn (e ▸ hpart)
    have hnot (names : List String)
        (h : ∀ n ∈ names, n ∈ ["p", "blockquote", "details", "div", "em", "strong", "span", "ul", "ol", "table"]) :
        ¬ isOneOf names tag = true := fun hone => by
      obtain ⟨n, hn, e⟩ := isOneOf_iff.mp hone
      exact hnone n (h n hn) e
    rw [Spot.inside, if_neg (hnot _ (by decide)), if_neg (hnot _ (by decide)), if_neg (hnot _ (by decide))]
  | _ =>
    obtain ⟨n, hn, e⟩ := isOneOf_iff.mp (isOneOf_of_part hpart (by decide))
    rw [Spot.inside, isOneOf, isOneOf, isOneOf, ← e]
    clear e
    revert n
    decide

mutual

/-- The images of a tree by their attributes, each with whether the walk comes to it. -/
def images (s : Spot) : Node → List (Bool × Attributes)
  | .element tag cs =>
    (if isImage tag then [(s.isFlow, tag.attributes)] else []) ++ imagesAll (s.inside tag) cs
  | _ => []

def imagesAll (s : Spot) : List Node → List (Bool × Attributes)
  | [] => []
  | n :: ns => images s n ++ imagesAll s ns

end

/-- The images of a tree by their attributes. -/
def pictures (ns : List Node) : List Attributes := ((tagsAll ns).filter isImage).map (·.attributes)

section
variable {s : Spot} {tag : Tag} {cs ns : List Node} {n : Node}

theorem imagesAll_cons (s : Spot) (n : Node) (ns : List Node) :
    imagesAll s (n :: ns) = images s n ++ imagesAll s ns := rfl

theorem imagesAll_single (s : Spot) (n : Node) : imagesAll s [n] = images s n := List.append_nil _

theorem images_element (s : Spot) (tag : Tag) (cs : List Node) :
    images s (.element tag cs)
      = (if isImage tag then [(s.isFlow, tag.attributes)] else []) ++ imagesAll (s.inside tag) cs := rfl

theorem imagesAll_append (s : Spot) (ms ns : List Node) :
    imagesAll s (ms ++ ns) = imagesAll s ms ++ imagesAll s ns := by
  induction ms with
  | nil => rfl
  | cons m ms ih => rw [List.cons_append, imagesAll_cons, imagesAll_cons, ih, List.append_assoc]

theorem pictures_append (ms ns : List Node) : pictures (ms ++ ns) = pictures ms ++ pictures ns := by
  rw [pictures, tagsAll_append, List.filter_append, List.map_append]
  rfl

theorem pictures_cons (n : Node) (ns : List Node) : pictures (n :: ns) = pictures [n] ++ pictures ns :=
  pictures_append [n] ns

theorem pictures_element (tag : Tag) (cs : List Node) :
    pictures [.element tag cs] = (if isImage tag then [tag.attributes] else []) ++ pictures cs := by
  rw [pictures, tagsAll_single, tags_element, List.filter_cons]
  split
  · rfl
  · rfl

mutual

/-- To where nothing is looked at the walk comes to no image. -/
theorem images_nowhere : (n : Node) → images .nowhere n = (pictures [n]).map (false, ·)
  | .element tag cs => by
    rw [images_element, pictures_element, List.map_append, Spot.inside, imagesAll_nowhere cs]
    split <;> rfl
  | .text _ | .aside _ | .note _ _ => rfl

theorem imagesAll_nowhere : (ns : List Node) → imagesAll .nowhere ns = (pictures ns).map (false, ·)
  | [] => rfl
  | n :: ns => by
    rw [imagesAll_cons, pictures_cons, List.map_append, images_nowhere n, imagesAll_nowhere ns]

end

mutual

/-- The images of a tree stand in its bones. -/
theorem imagesAll_bones (s : Spot) : (n : Node) → imagesAll s n.bones = images s n
  | .element tag cs => by
    rw [bones, imagesAll_single, images_element, images_element, ← imagesAll_bonesAll (s.inside tag) cs]
    cases s <;> rfl
  | .text _ | .aside _ | .note _ _ => rfl

theorem imagesAll_bonesAll (s : Spot) : (ns : List Node) → imagesAll s (bonesAll ns) = imagesAll s ns
  | [] => rfl
  | n :: ns => by
    rw [bonesAll, imagesAll_append, imagesAll_bones s n, imagesAll_bonesAll s ns]
    rfl

end

mutual

theorem map_snd_images (s : Spot) : (n : Node) → (images s n).map (·.2) = pictures [n]
  | .element tag cs => by
    rw [images_element, pictures_element, List.map_append, map_snd_imagesAll (s.inside tag) cs]
    split <;> rfl
  | .text _ | .aside _ | .note _ _ => rfl

/-- Wherever a tree stands, its images are the same. -/
theorem map_snd_imagesAll (s : Spot) : (ns : List Node) → (imagesAll s ns).map (·.2) = pictures ns
  | [] => rfl
  | n :: ns => by
    rw [imagesAll_cons, pictures_cons, List.map_append, map_snd_images s n, map_snd_imagesAll s ns]

end

end

/-! ## before and after -/

/-- The attributes that an image gets when the walk comes to it. -/
def finalForm (a : Appearance) (as : Attributes) : Attributes :=
  (a.finishImage { name := "img", attributes := as }).attributes

theorem attributes_finishImage (a : Appearance) (tag : Tag) :
    (a.finishImage tag).attributes = finalForm a tag.attributes := by
  unfold finalForm Appearance.finishImage
  dsimp only
  have hget : tag.get "src" = Tag.get { name := "img", attributes := tag.attributes } "src" := rfl
  rw [hget]
  split <;> rfl

/-- The attributes are those of a frame of an animation. -/
def IsFrame (a : Appearance) (as : Attributes) : Prop :=
  ∃ folder number name, pictures [frameNode a folder number name] = [as]

/-- What becomes of the images of a page: one that the walk comes to is resolved, one that it does not come
to is left or lost.  In a page in which a sigil has taken a paragraph (`w`), the images there may be left or
lost too, and there may be frames. -/
inductive Resolved (a : Appearance) (w : Bool) : List (Bool × Attributes) → List Attributes → Prop where
  | nil : Resolved a w [] []
  | resolved {as : Attributes} {xs : List (Bool × Attributes)} {ys : List Attributes} (h : Resolved a w xs ys) :
    Resolved a w ((true, as) :: xs) (finalForm a as :: ys)
  | left {x : Bool × Attributes} {xs : List (Bool × Attributes)} {ys : List Attributes}
    (hx : x.1 = true → w = true) (h : Resolved a w xs ys) : Resolved a w (x :: xs) (x.2 :: ys)
  | lost {x : Bool × Attributes} {xs : List (Bool × Attributes)} {ys : List Attributes}
    (hx : x.1 = true → w = true) (h : Resolved a w xs ys) : Resolved a w (x :: xs) ys
  | frame {as : Attributes} {xs : List (Bool × Attributes)} {ys : List Attributes} (hw : w = true)
    (hf : IsFrame a as) (h : Resolved a w xs ys) : Resolved a w xs (as :: ys)

namespace Resolved
variable {a : Appearance} {w : Bool} {xs xs' : List (Bool × Attributes)} {ys ys' : List Attributes}

theorem append (h : Resolved a w xs ys) (h' : Resolved a w xs' ys') :
    Resolved a w (xs ++ xs') (ys ++ ys') := by
  induction h with
  | nil => exact h'
  | resolved _ ih => exact .resolved ih
  | left hx _ ih => exact .left hx ih
  | lost hx _ ih => exact .lost hx ih
  | frame hw hf _ ih => exact .frame hw hf ih

/-- Images that the walk does not come to are left, or some are lost. -/
theorem of_sublist {ls : List Attributes} (h : ys.Sublist ls) : Resolved a w (ls.map (false, ·)) ys := by
  induction h with
  | slnil => exact .nil
  | cons _ _ ih => exact .lost (fun e => absurd e Bool.false_ne_true) ih
  | cons_cons _ _ ih => exact .left (fun e => absurd e Bool.false_ne_true) ih

/-- Where a sigil does away with a paragraph its images are lost. -/
theorem gone (xs : List (Bool × Attributes)) : Resolved a true xs [] := by
  induction xs with
  | nil => exact .nil
  | cons x xs ih => exact .lost (fun _ => rfl) ih

/-- A paragraph that a sigil has taken may be left as it is. -/
theorem kept (h : ys.Sublist (xs.map (·.2))) : Resolved a true xs ys := by
  induction xs generalizing ys with
  | nil =>
    obtain rfl := List.sublist_nil.mp h
    exact .nil
  | cons x xs ih =>
    cases h with
    | cons _ h => exact .lost (fun _ => rfl) (ih h)
    | cons_cons _ h => exact .left (fun _ => rfl) (ih h)

theorem frames (h : ∀ as ∈ ys, IsFrame a as) : Resolved a true xs ys := by
  induction ys with
  | nil => exact .gone xs
  | cons as ys ih =>
    exact .frame rfl (h as List.mem_cons_self) (ih fun bs hb => h bs (List.mem_cons_of_mem _ hb))

/-- Every image of the page after the walk is one that the walk has come to, resolved, or one that it does not
come to, left as it was. -/
theorem of_mem (h : Resolved a false xs ys) {as : Attributes} (hm : as ∈ ys) :
    (∃ bs, (true, bs) ∈ xs ∧ as = finalForm a bs) ∨ (false, as) ∈ xs := by
  have later {x : Bool × Attributes} {xs : List (Bool × Attributes)}
      (h : (∃ bs, (true, bs) ∈ xs ∧ as = finalForm a bs) ∨ (false, as) ∈ xs) :
      (∃ bs, (true, bs) ∈ x :: xs ∧ as = finalForm a bs) ∨ (false, as) ∈ x :: xs :=
    h.imp (fun ⟨bs, hb, e⟩ => ⟨bs, List.mem_cons_of_mem _ hb, e⟩) (List.mem_cons_of_mem _)
  induction h with
  | nil => exact absurd hm List.not_mem_nil
  | @resolved bs _ _ _ ih =>
    rcases List.mem_cons.mp hm with rfl | hm
    · exact .inl ⟨bs, List.mem_cons_self, rfl⟩
    · exact later (ih hm)
  | @left x _ _ hx _ ih =>
    rcases List.mem_cons.mp hm with rfl | hm
    · have hfalse : x.1 = false := Bool.eq_false_iff.mpr fun e => absurd (hx e) Bool.false_ne_true
      exact .inr (hfalse ▸ List.mem_cons_self)
    · exact later (ih hm)
  | lost _ _ ih => exact later (ih hm)
  | frame hw _ _ _ => exact absurd hw Bool.false_ne_true

/-- Every image that the walk comes to is there, resolved, in the order of the page. -/
theorem sublist (h : Resolved a false xs ys) :
    (((xs.filter (·.1)).map (·.2)).map (finalForm a)).Sublist ys := by
  induction h with
  | nil => exact .slnil
  | resolved _ ih => exact ih.cons_cons _
  | @left x _ _ hx _ ih =>
    have hfalse : x.1 = false := Bool.eq_false_iff.mpr fun e => absurd (hx e) Bool.false_ne_true
    rw [List.filter_cons_of_neg (by simp [hfalse])]
    exact ih.cons _
  | @lost x _ _ hx _ ih =>
    have hfalse : x.1 = false := Bool.eq_false_iff.mpr fun e => absurd (hx e) Bool.false_ne_true
    rw [List.filter_cons_of_neg (by simp [hfalse])]
    exact ih
  | frame hw _ _ _ => exact absurd hw Bool.false_ne_true

end Resolved
end Lectern.Page
