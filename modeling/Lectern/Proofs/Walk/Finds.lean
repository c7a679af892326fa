import Lectern.Proofs.Walk.Comes
import Lectern.Proofs.Walk.Run

/-!
# The sources that a walk finds

Behind a lecture video every element that names a source is marked where it stands.  Before any, the video is put
in place of the first of them.  Where a page holds no lecture video of its own these are two sides of one walk:
what the walk answers before any video is what it answers behind one, with the video put in.

* `sourcesOf`         the sources that the marked elements name;
* `Finds`             a walk with both sides, and what it answers behind a lecture video;
* `Aside`             a step that has nothing to do with sources;
* `Idles`             a walk that changes nothing, such as the search for rows where there are none;
* `Finds.answer`      something around what a walk answers;
* `Finds.idle`        a walk that changes nothing behind one that finds sources.
-/

namespace Lectern.Page
open Text Html Html.Node

/-! ## sources and the elements that name them -/

/-- The address of the source that an element names. -/
def address (c : Context) (e : Node) : Text :=
  c.appearance.settings.videoDir ++ ['/'] ++
    (unescape (strip (e.writeInner.drop Sigil.lecture.mark.length))).toOption.getD []

/-- The sources that are named by the elements which have given their content away. -/
def sourcesOf (c : Context) (ns : List Node) : List Node := (spents ns).map fun e => sourceNode (address c e)

/-- The lecture sigil acts on the element, and the remainder can be read. -/
structure Names (c : Context) (e : Node) : Prop where
  paragraph : ∃ t, e.tag? = some t ∧ isOneOf paragraphNames t = true
  sigil : Sigil.select? c.sigils e.writeInner = some .lecture
  readable : ∃ t, unescape (strip (e.writeInner.drop Sigil.lecture.mark.length)) = .ok t

/-- The address in a note about a source of the lecture video. -/
def noted? : Message → Option Text
  | .note 3 t => stripPrefix? "Lecture source " t
  | _ => none

def noted (ms : List Message) : List Text := ms.filterMap noted?

theorem noted_append (ms ms' : List Message) : noted (ms ++ ms') = noted ms ++ noted ms' := List.filterMap_append

/-- What the walk makes of some trees, if it makes `ns` of them behind a lecture video. -/
def shown (c : Context) (passed : Bool) (ns : List Node) : List Node :=
  if passed then ns else exchanged (lectureVideo ((sourcesOf c ns).take 1)) ns

/-- The sources that are kept for the end of the walk. -/
def keptBack (c : Context) (passed : Bool) (ns : List Node) : List Node :=
  if passed then sourcesOf c ns else (sourcesOf c ns).drop 1

section
variable {c : Context} {passed : Bool} {n : Node} {ns : List Node}

theorem sourcesOf_cons (n : Node) (ns : List Node) : sourcesOf c (n :: ns) = sourcesOf c [n] ++ sourcesOf c ns := by
  rw [sourcesOf, spents_cons, List.map_append]
  rfl

theorem sourcesOf_eq_nil (h : spents ns = []) : sourcesOf c ns = [] := by rw [sourcesOf, h]; rfl

theorem sourcesOf_ne_nil (h : spents ns ≠ []) : sourcesOf c ns ≠ [] := fun e => h (List.map_eq_nil_iff.mp e)

theorem shown_of_nil (h : spents ns = []) : shown c passed ns = ns := by
  rw [shown]
  split
  · rfl
  · exact exchanged_of_nil h _

/-- Behind an element that has named a source the walk goes on behind a lecture video. -/
theorem shown_cons (passed : Bool) (n : Node) (ns : List Node) :
    shown c passed (n :: ns) = shown c passed [n] ++ shown c (passed || !(spents [n]).isEmpty) ns := by
  cases passed with
  | true => rfl
  | false =>
    rw [shown, if_neg Bool.false_ne_true, shown, if_neg Bool.false_ne_true, sourcesOf_cons, Bool.false_or]
    by_cases h : spents [n] = []
    · rw [exchanged_cons_of_nil h, exchanged_of_nil h, sourcesOf_eq_nil h, h]
      rfl
    · obtain ⟨s, ss, hs⟩ := List.exists_cons_of_ne_nil (sourcesOf_ne_nil (c := c) h)
      obtain ⟨e, es, he⟩ := List.exists_cons_of_ne_nil h
      rw [exchanged_cons_of_ne h, hs, he]
      rfl

theorem keptBack_cons (passed : Bool) (n : Node) (ns : List Node) :
    keptBack c passed (n :: ns) = keptBack c passed [n] ++ keptBack c (passed || !(spents [n]).isEmpty) ns := by
  cases passed with
  | true => exact sourcesOf_cons n ns
  | false =>
    rw [keptBack, if_neg Bool.false_ne_true, keptBack, if_neg Bool.false_ne_true, sourcesOf_cons, Bool.false_or]
    by_cases h : spents [n] = []
    · rw [sourcesOf_eq_nil h, h]
      rfl
    · obtain ⟨s, ss, hs⟩ := List.exists_cons_of_ne_nil (sourcesOf_ne_nil (c := c) h)
      obtain ⟨e, es, he⟩ := List.exists_cons_of_ne_nil h
      rw [hs, he]
      rfl

theorem mem_tagsAll_shown {t : Tag} (ht : t ∈ tagsAll (shown c passed ns)) (hr : isRow t = true) :
    t ∈ tagsAll ns := by
  rw [shown] at ht
  split at ht
  · exact ht
  · rcases mem_tagsAll_exchanged ht with ht | ht
    · -- neither the video nor its sources are rows
      rw [lectureVideo, tags_element] at ht
      rcases List.mem_cons.mp ht with rfl | ht
      · exact absurd hr (by decide)
      · obtain ⟨m, hm, htag⟩ := mem_tagsAll.mp ht
        obtain ⟨e, -, rfl⟩ := List.mem_map.mp (List.mem_of_mem_take hm)
        obtain rfl := List.mem_singleton.mp htag
        exact absurd (of_decide_eq_true hr) (by decide : "source".toList ≠ "tr".toList)
    · exact ht

end

/-- A construction around some trees. -/
structure Around (g : List Node → Node) : Prop where
  spents : ∀ ns, spents [g ns] = spents ns
  exchanged : ∀ v ns, exchanged v [g ns] = [g (exchanged v ns)]

theorem around_element {tag : Tag} (hs : tag.spent = false) : Around (Node.element tag) :=
  ⟨spents_element hs, exchanged_element hs⟩

theorem Around.element {g : List Node → Node} (h : Around g) {tag : Tag} (hs : tag.spent = false) :
    Around fun ns => .element tag [g ns] where
  spents ns := (spents_element hs _).trans (h.spents ns)
  exchanged v ns := by rw [exchanged_element hs, h.exchanged]

theorem Around.sourcesOf {g : List Node → Node} (h : Around g) (c : Context) (ns : List Node) :
    sourcesOf c [g ns] = Page.sourcesOf c ns := by
  rw [Page.sourcesOf, h.spents]
  rfl

theorem Around.shown {g : List Node → Node} (h : Around g) (c : Context) (passed : Bool) (ns : List Node) :
    shown c passed [g ns] = [g (Page.shown c passed ns)] := by
  rw [Page.shown, Page.shown, h.sourcesOf]
  split
  · rfl
  · exact h.exchanged _ ns

/-! ## both sides of a walk -/

/-- What the progress gains where the walk makes `ns` of some trees behind a lecture video. -/
structure Gains (c : Context) (p p' : Progress) (ns : List Node) : Prop where
  waiting : p'.sources.waiting = []
  late : p'.sources.late = p.sources.late ++ keptBack c p.sources.passed ns
  spent : p'.spent = p.spent + (keptBack c p.sources.passed ns).length
  passed : p.sources.passed = true → p'.sources.passed = true
  unpassed : p.sources.passed = false → spents ns = [] → p'.sources.passed = false

/-- Wherever the walk starts, with nothing waiting, it ends with this fault or with what is shown of this answer,
and writes the same. -/
def EndsAs {α : Type} (c : Context) (trees : α → List Node) (m : Walk α) (new : List Message) :
    Except WalkFault α → Prop
  | .error e => ∀ p ms, p.sources.waiting = [] → ∃ p', m p ms = ((.error e, p'), ms ++ new)
  | .ok a => ∀ p ms, p.sources.waiting = [] → ∃ a' p', m p ms = ((.ok a', p'), ms ++ new) ∧
      trees a' = shown c p.sources.passed (trees a) ∧ Gains c p p' (trees a)

/-- The walk has both sides, and of what it answers behind a lecture video `Q` holds, with the addresses noted. -/
def Finds {α : Type} (c : Context) (trees : α → List Node) (m : Walk α) (Q : List Text → α → Prop) : Prop :=
  ∃ r new, EndsAs c trees m new r ∧ ∀ a, r = .ok a → Q (noted new) a

/-- A step that has nothing to do with sources, and answers the same wherever it starts. -/
def Aside {α : Type} (m : Walk α) (Q : α → Prop) : Prop :=
  ∃ r new, (∀ p ms, ∃ p', m p ms = ((r, p'), ms ++ new) ∧ p'.sources = p.sources ∧ p'.spent = p.spent) ∧
    noted new = [] ∧ ∀ a, r = .ok a → Q a

section
variable {α β : Type} {c : Context} {m : Walk α} {f : α → Walk β} {a : α} {e : WalkFault} {p p' : Progress}
  {ms ms' : List Message}

theorem bind_of_walk_ok (h : m p ms = ((.ok a, p'), ms')) : (m >>= f) p ms = f a p' ms' := by
  change ExceptT.bindCont f (m p ms).1.1 (m p ms).1.2 (m p ms).2 = _
  rw [h]
  rfl

theorem bind_of_walk_error (h : m p ms = ((.error e, p'), ms')) : (m >>= f) p ms = ((.error e, p'), ms') := by
  change ExceptT.bindCont f (m p ms).1.1 (m p ms).1.2 (m p ms).2 = _
  rw [h]
  rfl

/-! ### steps aside -/

variable {P : α → Prop}

theorem aside_pure (h : P a) : Aside (pure a) P :=
  ⟨.ok a, [], fun p ms => ⟨p, by rw [List.append_nil]; rfl, rfl, rfl⟩, rfl, fun b hb => Except.ok.inj hb ▸ h⟩

theorem aside_throw (e : WalkFault) : Aside (throw e) P :=
  ⟨.error e, [], fun p ms => ⟨p, by rw [List.append_nil]; rfl, rfl, rfl⟩, rfl, fun b hb => by cases hb⟩

theorem aside_take (t : Tag) : Aside (take t) fun _ => True :=
  ⟨.ok (), [], fun p ms => ⟨{ p with taken := t :: p.taken }, by rw [List.append_nil]; rfl, rfl, rfl⟩, rfl,
    fun _ _ => trivial⟩

theorem aside_tell {w : Message} (h : noted? w = none) : Aside (tell w) fun _ => True :=
  ⟨.ok (), [w], fun p _ => ⟨p, rfl, rfl, rfl⟩, List.filterMap_cons_none h, fun _ _ => trivial⟩

theorem aside_lift {r : Except Rejection α} (h : ∀ a, r = .ok a → P a) : Aside (lift r) P := by
  cases r with
  | ok a => exact aside_pure (h a rfl)
  | error e => exact aside_throw _

theorem aside_readRemainder (remainder : Text) :
    Aside (readRemainder remainder) fun t => unescape (strip remainder) = .ok t := by
  unfold readRemainder
  split
  · exact aside_pure ‹_›
  · exact aside_throw _

theorem aside_readFields (s : Sigil) (remainder : Text) : Aside (readFields s remainder) fun _ => True := by
  unfold readFields
  split
  · exact aside_pure trivial
  · exact aside_throw _

theorem aside_frameNames (c : Context) (folder : Path) : Aside (frameNames c folder) fun _ => True := by
  unfold frameNames
  split
  · exact aside_throw _
  · exact aside_pure trivial

/-! ### walks -/

variable {trees : α → List Node} {trees' : β → List Node} {R R' : List Text → α → Prop} {S : List Text → β → Prop}

theorem Finds.weaken (hm : Finds c trees m R) (h : ∀ as a, R as a → R' as a) : Finds c trees m R' := by
  obtain ⟨r, new, hends, hr⟩ := hm
  exact ⟨r, new, hends, fun a ha => h _ a (hr a ha)⟩

/-- A step aside is a walk if its answer is one. -/
theorem Aside.finds (hm : Aside m P) (h : ∀ a, P a → spents (trees a) = [] ∧ R [] a) : Finds c trees m R := by
  obtain ⟨r, new, hrun, hnoted, hp⟩ := hm
  refine ⟨r, new, ?_, fun a ha => hnoted.symm ▸ (h a (hp a ha)).2⟩
  cases r with
  | error e =>
    intro p ms _
    obtain ⟨p', hm, -⟩ := hrun p ms
    exact ⟨p', hm⟩
  | ok a =>
    intro p ms hwaiting
    obtain ⟨p', hm, hsources, hspent⟩ := hrun p ms
    obtain ⟨hnone, -⟩ := h a (hp a rfl)
    have hkept : keptBack c p.sources.passed (trees a) = [] := by
      rw [keptBack, sourcesOf_eq_nil hnone]
      exact ite_self _
    refine ⟨a, p', hm, (shown_of_nil hnone).symm, ⟨?_, ?_, ?_, ?_, ?_⟩⟩
    · rw [hsources, hwaiting]
    · rw [hsources, hkept, List.append_nil]
    · rw [hspent, hkept]
      rfl
    · exact fun hp => hsources.symm ▸ hp
    · exact fun hp _ => hsources.symm ▸ hp

/-- A walk that goes on from a step aside. -/
theorem Aside.next (hm : Aside m P) (hf : ∀ a, P a → Finds c trees' (f a) S) : Finds c trees' (m >>= f) S := by
  obtain ⟨r, new, hrun, hnoted, hp⟩ := hm
  cases r with
  | error e =>
    refine ⟨.error e, new, fun p ms _ => ?_, fun b hb => by cases hb⟩
    obtain ⟨p', h, -⟩ := hrun p ms
    exact ⟨p', bind_of_walk_error h⟩
  | ok a =>
    obtain ⟨r, new', hends, hs⟩ := hf a (hp a rfl)
    refine ⟨r, new ++ new', ?_, fun b hb => by rw [noted_append, hnoted]; exact hs b hb⟩
    cases r with
    | error e =>
      intro p ms hwaiting
      obtain ⟨p₁, h, hsources, -⟩ := hrun p ms
      obtain ⟨p₂, h'⟩ := hends p₁ (ms ++ new) (hsources ▸ hwaiting)
      exact ⟨p₂, by rw [bind_of_walk_ok h, h', List.append_assoc]⟩
    | ok b =>
      intro p ms hwaiting
      obtain ⟨p₁, h, hsources, hspent⟩ := hrun p ms
      obtain ⟨b', p₂, h', hb, hgains⟩ := hends p₁ (ms ++ new) (hsources ▸ hwaiting)
      refine ⟨b', p₂, by rw [bind_of_walk_ok h, h', List.append_assoc], hsources ▸ hb, ?_⟩
      obtain ⟨hwaiting', hlate, hspent', hpassed, hunpassed⟩ := hgains
      rw [hsources] at hlate hpassed hunpassed hspent'
      exact ⟨hwaiting', hlate, hspent ▸ hspent', hpassed, hunpassed⟩

end

/-! ### walks that change nothing -/

/-- What happens to the progress where nothing changes: lecture videos are passed. -/
structure Rests (p p' : Progress) (ns : List Node) : Prop where
  waiting : p'.sources.waiting = []
  late : p'.sources.late = p.sources.late
  spent : p'.spent = p.spent
  passed : p.sources.passed = true → p'.sources.passed = true
  unpassed : p'.sources.passed = true → p.sources.passed = true ∨ ns.any holdsLecture = true

/-- The walk answers this and changes nothing, but for the videos in these trees which it passes. -/
def Idles {α : Type} (m : Walk α) (a : α) (ns : List Node) : Prop :=
  ∀ p ms, p.sources.waiting = [] → ∃ p', m p ms = ((.ok a, p'), ms) ∧ Rests p p' ns

section
variable {α β : Type} {m : Walk α} {f : α → Walk β} {a : α} {b : β} {n : Node} {ns : List Node}

theorem idles_pure (a : α) (ns : List Node) : Idles (pure a) a ns := fun p _ hwaiting =>
  ⟨p, rfl, hwaiting, rfl, rfl, id, .inl⟩

theorem Idles.bind (hm : Idles m a ns) (hf : Idles (f a) b ns) : Idles (m >>= f) b ns := fun p ms hwaiting => by
  obtain ⟨p₁, h, h₁⟩ := hm p ms hwaiting
  obtain ⟨p₂, h', h₂⟩ := hf p₁ ms h₁.waiting
  exact ⟨p₂, (bind_of_walk_ok h).trans h', h₂.waiting, h₂.late.trans h₁.late, h₂.spent.trans h₁.spent,
    fun hp => h₂.passed (h₁.passed hp), fun hp => (h₂.unpassed hp).elim h₁.unpassed .inr⟩

theorem Idles.mono {ms : List Node} (hm : Idles m a ms)
    (hs : ms.any holdsLecture = true → ns.any holdsLecture = true) : Idles m a ns := fun p ws hwaiting => by
  obtain ⟨p', h, hrests⟩ := hm p ws hwaiting
  exact ⟨p', h, hrests.waiting, hrests.late, hrests.spent, hrests.passed, fun hp => (hrests.unpassed hp).imp_right hs⟩

theorem deliver_of_waiting {p : Progress} (h : p.sources.waiting = []) (n : Node) (ms : List Message) :
    deliver n p ms = ((.ok n, p), ms) := by
  have hd : p.sources.deliver n = (n, p.sources) := by
    rw [Sources.deliver, h]
    rfl
  have hrun : deliver n p ms = ((.ok (p.sources.deliver n).1,
    { p with sources := (p.sources.deliver n).2 }), ms) := rfl
  rw [hrun, hd]

theorem idles_deliver (n : Node) (ns : List Node) : Idles (deliver n) n ns := fun p ms hwaiting =>
  ⟨p, deliver_of_waiting hwaiting n ms, hwaiting, rfl, rfl, id, .inl⟩

theorem idles_pass (h : n ∈ ns) : Idles (pass n) () ns := fun p _ hwaiting =>
  ⟨{ p with sources := p.sources.pass n }, rfl, hwaiting, rfl, rfl, fun hp => Bool.or_eq_true_iff.mpr (.inl hp),
    fun hp => (Bool.or_eq_true_iff.mp hp).imp_right fun hn => List.any_eq_true.mpr ⟨n, h, hn⟩⟩

theorem idles_visitAll {v : Bool → Node → Walk Node} {ns : List Node}
    (hv : ∀ ahead, ∀ n ∈ ns, Idles (v ahead n) n [n]) (ahead : Bool) : Idles (visitAll v ahead ns) ns ns := by
  induction ns with
  | nil => exact idles_pure [] []
  | cons n ns ih =>
    have hn : Idles (v (ahead || ns.any holdsLecture) n) n (n :: ns) := (hv _ n List.mem_cons_self).mono fun h => by
      rw [List.any_cons, List.any_nil, Bool.or_false] at h
      rw [List.any_cons, h, Bool.true_or]
    have hns : Idles (visitAll v ahead ns) ns (n :: ns) :=
      (ih fun ahead n hn => hv ahead n (List.mem_cons_of_mem _ hn)).mono fun h => by
        rw [List.any_cons, h, Bool.or_true]
    rw [visitAll]
    exact (idles_deliver n _).bind (hn.bind ((idles_pass List.mem_cons_self).bind (hns.bind (idles_pure _ _))))

/-- There is nothing to do in a table without rows of its own. -/
theorem idles_rows (c : Context) (fuel g : Nat) (ahead : Bool) {n : Node}
    (h : ∀ t ∈ n.tags, isRow t = true → t.generation ≠ g) : Idles (visit c fuel (.rows g) ahead n) n [n] := by
  induction fuel generalizing ahead n with
  | zero => exact idles_pure n [n]
  | succ fuel ih =>
    cases n with
    | element tag cs =>
      have hrow : (tag.name = "tr".toList && tag.generation = g) = false :=
        Bool.eq_false_iff.mpr fun e => by
          obtain ⟨hn, hg⟩ := Bool.and_eq_true_iff.mp e
          exact h tag List.mem_cons_self hn (of_decide_eq_true hg)
      have hbelow : Idles (visitAll (visit c fuel (.rows g)) ahead cs) cs cs := idles_visitAll
        (fun ahead n hn => ih ahead fun t ht => h t (List.mem_cons_of_mem _ (mem_tagsAll.mpr ⟨n, hn, ht⟩))) ahead
      rw [visit]
      dsimp only
      rw [hrow]
      refine (idles_pure cs _).bind ((hbelow.mono fun hany => ?_).bind (idles_pure _ _))
      rw [List.any_cons, List.any_nil, Bool.or_false]
      obtain ⟨n, hn, hholds⟩ := List.any_eq_true.mp hany
      exact holdsLecture_of_mem hn hholds
    | _ => exact idles_pure _ _

end

/-! ### walks one after the other -/

section
variable {c : Context} {p p' p'' : Progress} {ns : List Node} {R : List Text → List Node → Prop}
  {S : List Text → Node → Prop}

theorem Gains.around {g : List Node → Node} (hg : Around g) (h : Gains c p p' ns) : Gains c p p' [g ns] where
  waiting := h.waiting
  late := by rw [h.late, keptBack, keptBack, hg.sourcesOf]
  spent := by rw [h.spent, keptBack, keptBack, hg.sourcesOf]
  passed := h.passed
  unpassed hp hs := h.unpassed hp (hg.spents ns ▸ hs)

/-- Behind the walk there are no lecture videos that have not been passed. -/
theorem Gains.rests (h : Gains c p p' ns) (hr : Rests p' p'' (shown c p.sources.passed ns)) (hl : NoLecture ns) :
    Gains c p p'' ns where
  waiting := hr.waiting
  late := hr.late.trans h.late
  spent := hr.spent.trans h.spent
  passed hp := hr.passed (h.passed hp)
  unpassed hp hs := Bool.eq_false_iff.mpr fun he => by
    rcases hr.unpassed he with hp' | hany
    · exact absurd hp' (by simp [h.unpassed hp hs])
    · rw [shown_of_nil hs, hl.any_holdsLecture] at hany
      exact absurd hany Bool.false_ne_true

theorem Finds.answer {m : Walk (List Node)} {g : List Node → Node} (hm : Finds c id m R) (hg : Around g)
    (h : ∀ as ns, R as ns → S as (g ns)) : Finds c (fun n => [n]) (m >>= fun ns => pure (g ns)) S := by
  obtain ⟨r, new, hends, hr⟩ := hm
  cases r with
  | error e =>
    refine ⟨.error e, new, fun p ms hwaiting => ?_, fun b hb => by cases hb⟩
    obtain ⟨p', hm⟩ := hends p ms hwaiting
    exact ⟨p', bind_of_walk_error hm⟩
  | ok ns =>
    refine ⟨.ok (g ns), new, fun p ms hwaiting => ?_, fun b hb => Except.ok.inj hb ▸ h _ _ (hr ns rfl)⟩
    obtain ⟨ns', p', hm, hshown, hgains⟩ := hends p ms hwaiting
    obtain rfl : ns' = shown c p.sources.passed ns := hshown
    exact ⟨g _, p', bind_of_walk_ok hm, (hg.shown c p.sources.passed ns).symm, hgains.around hg⟩

/-- A walk that changes nothing behind one that finds sources. -/
theorem Finds.idle {m : Walk (List Node)} {w : List Node → Walk (List Node)} (hm : Finds c id m R)
    (hl : ∀ as ns, R as ns → NoLecture ns)
    (hw : ∀ as ns passed, R as ns →
      Idles (w (shown c passed ns)) (shown c passed ns) (shown c passed ns)) : Finds c id (m >>= w) R := by
  obtain ⟨r, new, hends, hr⟩ := hm
  refine ⟨r, new, ?_, hr⟩
  cases r with
  | error e =>
    intro p ms hwaiting
    obtain ⟨p', hm⟩ := hends p ms hwaiting
    exact ⟨p', bind_of_walk_error hm⟩
  | ok ns =>
    intro p ms hwaiting
    obtain ⟨ns', p', hm, hshown, hgains⟩ := hends p ms hwaiting
    obtain rfl : ns' = shown c p.sources.passed ns := hshown
    obtain ⟨p'', hrun, hrests⟩ := hw _ ns p.sources.passed (hr ns rfl) p' (ms ++ new) hgains.waiting
    exact ⟨_, p'', (bind_of_walk_ok hm).trans hrun, rfl, hgains.rests hrests (hl _ ns (hr ns rfl))⟩

end
end Lectern.Page
