import Lectern.Proofs.Walk.Run
import Lectern.Proofs.Walk.Tidy

/-!
# A walk over notes, image by image

* `Shows`                a walk that succeeds leaves nothing waiting for a lecture video, and what it has
                         written and its answer are in a relation;
* `notesTaking`          a note that a sigil has taken a paragraph;
* `Done`                 what a walk makes of trees, as far as images go.
-/

namespace Lectern.Page
open Text Html Html.Node Markdown

/-! ## walks and what they write -/

/-- Nothing waits for a lecture video, and what is kept for one holds no images. -/
structure Progress.Calm (p : Progress) : Prop where
  waiting : p.sources.waiting = []
  late : pictures p.sources.late = []

/-- If the walk succeeds, what it has written and its answer are so related. -/
def Shows {α : Type} (m : Walk α) (Q : List Message → α → Prop) : Prop := ∀ ms₀,
  Meets (fun p ms => p.Calm ∧ ms = ms₀) m fun r p ms =>
    ∀ a, r = .ok a → p.Calm ∧ ∃ new, ms = ms₀ ++ new ∧ Q new a

section
variable {α β : Type} {m : Walk α} {f : α → Walk β} {Q Q' : List Message → α → Prop}
  {R : List Message → β → Prop}

theorem Shows.bind (hm : Shows m Q) (hf : ∀ a new, Q new a → Shows (f a) fun new' b => R (new ++ new') b) :
    Shows (m >>= f) R := by
  intro ms₀
  refine (hm ms₀).bind (fun a p ms h => ?_) fun e p ms _ b hb => by cases hb
  obtain ⟨hcalm, new, rfl, hq⟩ := h a rfl
  intro b hb
  obtain ⟨hcalm', new', e, hr⟩ := hf a new hq (ms₀ ++ new) p _ ⟨hcalm, rfl⟩ b hb
  exact ⟨hcalm', new ++ new', by rw [e, List.append_assoc], hr⟩

theorem Shows.weaken (hm : Shows m Q) (h : ∀ new a, Q new a → Q' new a) : Shows m Q' := fun ms₀ =>
  (hm ms₀).weaken (fun _ _ h => h) fun _ _ _ hr a ha =>
    ⟨(hr a ha).1, (hr a ha).2.imp fun new hnew => ⟨hnew.1, h new a hnew.2⟩⟩

/-- A step that writes nothing. -/
theorem Shows.next {P : α → Prop} (hm : Shows m fun new a => new = [] ∧ P a) (hf : ∀ a, P a → Shows (f a) R) :
    Shows (m >>= f) R := by
  refine hm.bind fun a new h => ?_
  obtain ⟨rfl, hp⟩ := h
  exact hf a hp

theorem shows_pure {a : α} (h : Q [] a) : Shows (pure a) Q := fun ms₀ =>
  meets_pure fun _ ms hp b hb => by
    obtain rfl := Except.ok.inj hb
    exact ⟨hp.1, [], by rw [hp.2, List.append_nil], h⟩

theorem Shows.answer {g : α → β} (hm : Shows m Q) (h : ∀ new a, Q new a → R new (g a)) :
    Shows (m >>= fun a => pure (g a)) R :=
  hm.bind fun a new hq => shows_pure (by rw [List.append_nil]; exact h new a hq)

end

/-! ## what becomes of images -/

/-- The note that a sigil acts on an element. -/
def sigilNote (s : Sigil) (tag : Tag) : Message :=
  .note 3 ("Sigil ".toList ++ s.name.toList ++ " on <".toList ++ tag.name ++ ['>'])

/-- The sigil does not go on with what the paragraph holds. -/
def takes (s : Sigil) : Bool :=
  match s with
  | .small | .alert => false
  | _ => true

/-- The message is the note that such a sigil acts on an element. -/
def notesTaking : Message → Bool
  | .note 3 t => Sigil.all.any fun s =>
    takes s && startsWith ("Sigil ".toList ++ s.name.toList ++ " on <".toList) t
  | _ => false

/-- What a walk has made of trees that stand at a spot, as far as images go; `w` if a sigil may have taken a
paragraph. -/
structure Done (a : Appearance) (w : Bool) (s : Spot) (ns : List Node) (new : List Message)
    (ns' : List Node) : Prop where
  rows : NoRows ns → NoRows ns'
  images : (∀ m ∈ new, notesTaking m = true → w = true) →
    Resolved a w (imagesAll s ns) (pictures (pruneAll ns'))

section
variable {a : Appearance} {w : Bool} {s : Spot} {tag tag' : Tag} {ns ns' ms cs cs' : List Node} {n n' : Node}
  {new new' : List Message}

namespace Done

theorem nil : Done a w s [] [] [] := ⟨id, fun _ => .nil⟩

theorem cons (h : Done a w s [n] new [n']) (hs : Done a w s ns new' ns') :
    Done a w s (n :: ns) (new ++ new') (n' :: ns') where
  rows hr := noRows_cons.mpr ((noRows_cons.mp hr).imp h.rows hs.rows)
  images hm := by
    have hn := h.images fun m hmem => hm m (List.mem_append_left _ hmem)
    rw [imagesAll_single, pruneAll_single] at hn
    rw [imagesAll_cons, pruneAll_cons, pictures_append]
    exact hn.append (hs.images fun m hmem => hm m (List.mem_append_right _ hmem))

/-- What an element holds, in its place. -/
theorem outside (hi : isImage tag = false) (h : Done a w (s.inside tag) cs new ns') :
    Done a w s [.element tag cs] new ns' where
  rows hr := h.rows (noRows_element.mp hr).2
  images hm := by
    rw [imagesAll_single, images_element, hi]
    exact h.images hm

/-- Something new around some trees. -/
theorem around (hr : isRow tag = false) (hi : isImage tag = false) (hs : tag.spent = false)
    (h : Done a w s ns new ns') : Done a w s ns new [.element tag ns'] where
  rows hrows := noRows_element.mpr ⟨hr, h.rows hrows⟩
  images hm := by
    rw [pruneAll_single, prune_element hs, pictures_element, hi]
    exact h.images hm

/-- An element with what it holds. -/
theorem element (hn : tag'.name = tag.name) (hs : tag'.spent = false)
    (hi : isImage tag = true → s.isFlow = false ∧ tag'.attributes = tag.attributes)
    (h : Done a w (s.inside tag) cs new cs') : Done a w s [.element tag cs] new [.element tag' cs'] where
  rows hr := by
    obtain ⟨ht, hcs⟩ := noRows_element.mp hr
    exact noRows_element.mpr ⟨by rw [isRow, hn]; exact ht, h.rows hcs⟩
  images hm := by
    have himage : isImage tag' = isImage tag := by rw [isImage, hn, isImage]
    rw [imagesAll_single, images_element, pruneAll_single, prune_element hs, pictures_element, himage]
    refine Resolved.append ?_ (h.images hm)
    split
    · obtain ⟨hflow, hattributes⟩ := hi ‹_›
      rw [hflow, hattributes]
      exact .left (fun e => absurd e Bool.false_ne_true) .nil
    · exact .nil

/-- An image that the walk comes to. -/
theorem image (hi : isImage tag = true) (hs : tag.spent = false) (hr : isRow tag = false) :
    Done a w .flow [.element tag cs] [] [.element (a.finishImage tag) cs] := by
  have hname := finishImage_name a tag
  have hspent : (a.finishImage tag).spent = false := by
    rw [← hs]
    unfold Appearance.finishImage
    dsimp only
    split <;> rfl
  have hinside : Spot.inside tag .flow = .nowhere := by
    have hname : tag.name = "img".toList := of_decide_eq_true hi
    rw [inside_flow, hname]
    rfl
  have himage : isImage (a.finishImage tag) = true := by rw [isImage, hname]; exact hi
  refine ⟨fun hrows => ?_, fun _ => ?_⟩
  · exact noRows_element.mpr ⟨by rw [isRow, hname]; exact hr, (noRows_element.mp hrows).2⟩
  · rw [imagesAll_single, images_element, pruneAll_single, prune_element hspent, pictures_element, himage, hi,
      hinside, imagesAll_nowhere, attributes_finishImage]
    exact .resolved (.of_sublist (pictures_pruneAll cs))

/-- Where a sigil has taken the paragraph. -/
theorem taken (hm : ∃ m ∈ new, notesTaking m = true) (hr : NoRows ns → NoRows ns')
    (h : Resolved a true (imagesAll s ns) (pictures (pruneAll ns'))) : Done a w s ns new ns' := by
  obtain ⟨m, hmem, hnote⟩ := hm
  refine ⟨hr, fun hw => ?_⟩
  obtain rfl := hw m hmem hnote
  exact h

end Done

end
end Lectern.Page
