import Lectern.Page.Walk
import Lectern.Proofs.Html.Elements

/-!
# Trees that differ in figures and links

`Dressed w n n'` says that `n'` is `n` with some of its links marked as leading away and, where `w` allows
it, some of its tables each in one figure.  Nothing else differs: the same elements with the same
attributes and the same text stand in the same order.

* `DressedAll.trans`           links marked twice are marked once;
* `DressedAll.startsWith_eq`   what an element holds begins with the same text;
* `DressedAll.exists_of_mem`   every element comes from one of the same name;
* `DressedAll.pruneAll_eq`     nothing goes at the end of a walk.
-/

namespace Lectern.Page
open Text Html Html.Node

/-- The tag of a link that leads away. -/
def away (tag : Tag) : Tag := (tag.set "target" "_blank").set "rel" "noopener noreferrer"

mutual

inductive Dressed : Bool → Node → Node → Prop where
  | other {w : Bool} {n : Node} (h : n.isElement = false) : Dressed w n n
  | element {w : Bool} {cs cs' : List Node} (tag : Tag) (h : DressedAll w cs cs') :
    Dressed w (.element tag cs) (.element tag cs')
  | link {w : Bool} {tag : Tag} {cs cs' : List Node} (hn : tag.name = "a".toList)
    (he : Appearance.isExternal (tag.get "href") = true) (h : DressedAll w cs cs') :
    Dressed w (.element tag cs) (.element (away tag) cs')
  | table {tag : Tag} {cs cs' : List Node} (hn : tag.name = "table".toList)
    (h : DressedAll false cs cs') :
    Dressed true (.element tag cs) (figure "table" (.element tag cs'))

inductive DressedAll : Bool → List Node → List Node → Prop where
  | nil {w : Bool} : DressedAll w [] []
  | cons {w : Bool} {n n' : Node} {ns ns' : List Node} (h : Dressed w n n') (hs : DressedAll w ns ns') :
    DressedAll w (n :: ns) (n' :: ns')

end

mutual

theorem Dressed.refl (w : Bool) : (n : Node) → Dressed w n n
  | .element tag cs => .element tag (DressedAll.refl w cs)
  | .text _ | .aside _ | .note _ _ => .other rfl

theorem DressedAll.refl (w : Bool) : (ns : List Node) → DressedAll w ns ns
  | [] => .nil
  | n :: ns => .cons (Dressed.refl w n) (DressedAll.refl w ns)

end

/-! ## links marked twice -/

theorem putAttribute_putAttribute (name value : Text) (as : List (Text × Text)) :
    putAttribute name value (putAttribute name value as) = putAttribute name value as := by
  induction as with
  | nil => simp [putAttribute]
  | cons a as ih =>
    obtain ⟨n, v⟩ := a
    rw [putAttribute]
    split
    · simp_all [putAttribute]
    · split
      · simp [putAttribute]
      · simp_all [putAttribute]

/-- A value that is already there stays where it is when a smaller name is put in. -/
theorem putAttribute_comm {name other value value' : Text} (hne : other ≠ name)
    (hle : Text.le name other = false) {as : List (Text × Text)}
    (h : putAttribute name value as = as) :
    putAttribute name value (putAttribute other value' as) = putAttribute other value' as := by
  induction as with
  | nil => exact nomatch h
  | cons a as ih =>
    obtain ⟨n, v⟩ := a
    by_cases hn : n = name
    · subst hn
      have hv : value = v := by simpa [putAttribute] using h
      rw [putAttribute, if_neg (Ne.symm hne)]
      split
      · simp [putAttribute, hne, hle, hv]
      · simp [putAttribute, hv]
    · rw [putAttribute, if_neg hn] at h
      split at h
      · exact absurd (congrArg List.length h) (by simp)
      · rename_i hnle
        have hrest : putAttribute name value as = as := (List.cons.inj h).2
        rw [putAttribute]
        split
        · rename_i heq
          subst heq
          simp [putAttribute, hn, hnle, hrest]
        · split
          · simp [putAttribute, hne, hle, hn, hnle, hrest]
          · simp [putAttribute, hn, hnle, ih hrest]

theorem away_away (tag : Tag) : away (away tag) = away tag := by
  unfold away Tag.set
  congr 1
  dsimp only
  have hne : "rel".toList ≠ "target".toList := by decide
  rw [putAttribute_comm hne (by decide) (putAttribute_putAttribute _ _ _), putAttribute_putAttribute]

mutual

theorem Dressed.trans : {n n' n'' : Node} → Dressed false n n' → Dressed false n' n'' →
    Dressed false n n''
  | .element tag cs, n', n'', h, h' => by
    cases h with
    | other hn => exact h'
    | element _ h =>
      cases h' with
      | other hn => exact .element tag h
      | element _ h' => exact .element tag (DressedAll.trans h h')
      | link hn he h' => exact .link hn he (DressedAll.trans h h')
    | link hn he h =>
      cases h' with
      | other hn' => exact .link hn he h
      | element _ h' => exact .link hn he (DressedAll.trans h h')
      | link _ _ h' => rw [away_away]; exact .link hn he (DressedAll.trans h h')
  | .text _, n', n'', h, h' | .aside _, n', n'', h, h' | .note _ _, n', n'', h, h' => by
    cases h
    exact h'

theorem DressedAll.trans : {ns ns' ns'' : List Node} → DressedAll false ns ns' →
    DressedAll false ns' ns'' → DressedAll false ns ns''
  | [], _, _, h, h' => by cases h; exact h'
  | n :: ns, _, _, h, h' => by
    cases h with
    | cons h hs =>
      cases h' with
      | cons h' hs' => exact .cons (Dressed.trans h h') (DressedAll.trans hs hs')

end

/-! ## how the content begins -/

theorem startsWith_append_congr {r r' : Text} {c : Char}
    (h : ∀ m : Text, c ∉ m → startsWith m r = startsWith m r') (t : Text) {m : Text} (hm : c ∉ m) :
    startsWith m (t ++ r) = startsWith m (t ++ r') := by
  induction t generalizing m with
  | nil => exact h m hm
  | cons d t ih =>
    cases m with
    | nil => rfl
    | cons b m =>
      have hm' : c ∉ m := fun hc => hm (List.mem_cons_of_mem _ hc)
      by_cases hb : b = d
      · simpa [startsWith, stripPrefix?, hb] using ih hm'
      · simp [startsWith, stripPrefix?, hb]

theorem exists_writeIn_element (v : Bool) (tag : Tag) (cs : List Node) :
    ∃ t, (Node.element tag cs).writeIn v = '<' :: t := by
  rw [writeIn]
  split
  · exact ⟨_, rfl⟩
  · exact ⟨_, rfl⟩

theorem startsWith_of_not_mem {m t t' : Text} (hm : '<' ∉ m) :
    startsWith m ('<' :: t) = startsWith m ('<' :: t') := by
  cases m with
  | nil => rfl
  | cons b m =>
    have hb : b ≠ '<' := fun hb => hm (hb ▸ List.mem_cons_self)
    simp [startsWith, stripPrefix?, hb]

/-- What an element holds begins with the same text, as far as it goes without a tag. -/
theorem DressedAll.startsWith_eq {w : Bool} (v : Bool) {ns ns' : List Node} (h : DressedAll w ns ns')
    {m : Text} (hm : '<' ∉ m) :
    startsWith m (writeAllIn v ns) = startsWith m (writeAllIn v ns') := by
  induction ns generalizing ns' m with
  | nil => cases h; rfl
  | cons n ns ih =>
    cases h with
    | cons h hs =>
      have bothOpen {tag tag' : Tag} {cs cs' es es' : List Node} :
          startsWith m ((Node.element tag cs).writeIn v ++ writeAllIn v es)
            = startsWith m ((Node.element tag' cs').writeIn v ++ writeAllIn v es') := by
        obtain ⟨t, ht⟩ := exists_writeIn_element v tag cs
        obtain ⟨t', ht'⟩ := exists_writeIn_element v tag' cs'
        rw [ht, ht']
        exact startsWith_of_not_mem hm
      rw [writeAllIn, writeAllIn]
      cases h with
      | other _ => exact startsWith_append_congr (fun m hm => ih hs hm) _ hm
      | element | link | table => exact bothOpen

/-! ## the elements on both sides -/

mutual

/-- Without figures every element comes from one of the same name. -/
theorem Dressed.exists_of_mem {t' : Tag} {ds' : List Node} : {n n' : Node} → Dressed false n n' →
    .element t' ds' ∈ n'.elements → ∃ t ds, .element t ds ∈ n.elements ∧
      (t'.name = t.name ∧ t'.spent = t.spent) ∧ DressedAll false ds ds'
  | .element tag cs, n', h, hm => by
    cases h with
    | other hn => exact ⟨t', ds', hm, ⟨rfl, rfl⟩, .refl false ds'⟩
    | element _ h =>
      rcases List.mem_cons.mp hm with he | hm
      · obtain ⟨rfl, rfl⟩ := Node.element.inj he
        exact ⟨_, cs, List.mem_cons_self, ⟨rfl, rfl⟩, h⟩
      · obtain ⟨t, ds, ht, hd⟩ := DressedAll.exists_of_mem h hm
        exact ⟨t, ds, List.mem_cons_of_mem _ ht, hd⟩
    | link _ _ h =>
      rcases List.mem_cons.mp hm with he | hm
      · obtain ⟨rfl, rfl⟩ := Node.element.inj he
        exact ⟨tag, cs, List.mem_cons_self, ⟨rfl, rfl⟩, h⟩
      · obtain ⟨t, ds, ht, hd⟩ := DressedAll.exists_of_mem h hm
        exact ⟨t, ds, List.mem_cons_of_mem _ ht, hd⟩
  | .text _, n', h, hm | .aside _, n', h, hm | .note _ _, n', h, hm => by
    cases h
    exact absurd hm List.not_mem_nil

theorem DressedAll.exists_of_mem {t' : Tag} {ds' : List Node} : {ns ns' : List Node} →
    DressedAll false ns ns' → .element t' ds' ∈ elementsAll ns' →
    ∃ t ds, .element t ds ∈ elementsAll ns ∧ (t'.name = t.name ∧ t'.spent = t.spent) ∧ DressedAll false ds ds'
  | [], _, h, hm => by
    cases h
    exact absurd hm List.not_mem_nil
  | n :: ns, _, h, hm => by
    cases h with
    | cons h hs =>
      rcases List.mem_append.mp hm with hm | hm
      · obtain ⟨t, ds, ht, hd⟩ := Dressed.exists_of_mem h hm
        exact ⟨t, ds, List.mem_append_left _ ht, hd⟩
      · obtain ⟨t, ds, ht, hd⟩ := DressedAll.exists_of_mem hs hm
        exact ⟨t, ds, List.mem_append_right _ ht, hd⟩

end

mutual

theorem Dressed.prune_eq {w : Bool} : {n n' : Node} → Dressed w n n' →
    (∀ t ∈ n.tags, t.spent = false) → prune n' = [n']
  | .element tag cs, n', h, hs => by
    have hcs : ∀ t ∈ tagsAll cs, t.spent = false := fun t ht => hs t (List.mem_cons_of_mem _ ht)
    have htag : tag.spent = false := hs tag List.mem_cons_self
    cases h with
    | other hn => exact absurd hn (by simp [isElement, tag?])
    | element _ h => rw [prune, htag, DressedAll.pruneAll_eq h hcs]; rfl
    | link _ _ h =>
      rw [prune, show (away tag).spent = tag.spent from rfl, htag, DressedAll.pruneAll_eq h hcs]
      rfl
    | table _ h =>
      rw [figure, prune, pruneAll, pruneAll, prune, htag, DressedAll.pruneAll_eq h hcs]
      rfl
  | .text _, n', h, _ | .aside _, n', h, _ | .note _ _, n', h, _ => by
    cases h
    rfl

/-- Where nothing has given its content away nothing goes. -/
theorem DressedAll.pruneAll_eq {w : Bool} : {ns ns' : List Node} → DressedAll w ns ns' →
    (∀ t ∈ tagsAll ns, t.spent = false) → pruneAll ns' = ns'
  | [], _, h, _ => by cases h; rfl
  | n :: ns, _, h, hs => by
    rw [tagsAll_cons] at hs
    cases h with
    | cons h hss =>
      rw [pruneAll, Dressed.prune_eq h fun t ht => hs t (List.mem_append_left _ ht),
        DressedAll.pruneAll_eq hss fun t ht => hs t (List.mem_append_right _ ht)]
      rfl

end

end Lectern.Page
