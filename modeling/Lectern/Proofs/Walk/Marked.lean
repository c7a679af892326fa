import Lectern.Proofs.Walk.Finds

/-!
# What a walk marks

* `Marked`            what a walk makes of clear trees behind a lecture video: every element that it has marked names
                      a source, and these are the sources that it has noted;
* `finds_cons`        a node of a list, and what comes behind it;
* `finds_visit`       what a visit finds.
-/

namespace Lectern.Page
open Text Html Html.Node

/-- What a walk makes of clear trees behind a lecture video, and the addresses it has noted. -/
structure Marked (c : Context) (g : Nat) (ns : List Node) (as : List Text) (ns' : List Node) : Prop
    extends Kept g ns ns' where
  names : ∀ e ∈ spents ns', Names c e
  noted : as = (spents ns').map (address c)

section
variable {c : Context} {g g' : Nat} {as as' : List Text} {tag : Tag} {cs ms ns ns' ns'' : List Node} {n n' : Node}

namespace Marked

theorem of_quiet (h : Quiet g ns ns') : Marked c g ns [] ns' where
  toKept := h.toKept
  names e he := absurd (h.spents ▸ he) List.not_mem_nil
  noted := by rw [h.spents]; rfl

theorem of_kept (h : Marked c g' ms as ns') (hs : spents ns'' = spents ns') (hk : Kept g ns ns'') :
    Marked c g ns as ns'' where
  toKept := hk
  names := hs ▸ h.names
  noted := hs ▸ h.noted

theorem cons (h : Marked c g [n] as [n']) (hs : Marked c g ns as' ns') :
    Marked c g (n :: ns) (as ++ as') (n' :: ns') where
  toKept := h.toKept.cons hs.toKept
  names e he := by
    rw [spents_cons, List.mem_append] at he
    exact he.elim (h.names e) (hs.names e)
  noted := by rw [spents_cons, List.map_append, h.noted, hs.noted]

end Marked

/-! ## the nodes of a list -/

/-- A node that has been left behind, with a lecture video in it or not. -/
theorem passed_pass {p p' : Progress} {m : Node} (hl : NoLecture [n']) (hm : [m] = shown c p.sources.passed [n'])
    (hg : Gains c p p' [n']) :
    (p'.sources.pass m).passed = (p.sources.passed || !(spents [n']).isEmpty) := by
  show (p'.sources.passed || holdsLecture m) = _
  cases hp : p.sources.passed with
  | true => rw [hg.passed hp, Bool.true_or, Bool.true_or]
  | false =>
    rw [hp] at hm
    by_cases hs : spents [n'] = []
    · obtain rfl := List.singleton_inj.mp (hm.trans (shown_of_nil hs))
      rw [hg.unpassed hp hs, hl.holdsLecture_eq_false, hs]
      rfl
    · have hholds : holdsLecture m = true := by
        have hany := @any_holdsLecture_exchanged [n'] ((sourcesOf c [n']).take 1) hs
        rw [shown, if_neg Bool.false_ne_true] at hm
        rwa [← hm, List.any_cons, List.any_nil, Bool.or_false] at hany
      have hsome : (spents [n']).isEmpty = false := by simpa using hs
      rw [hholds, hsome, Bool.or_true]
      rfl

theorem Gains.cons {p p' p'' : Progress} {m : Node} (h : Gains c p p' [n'])
    (hs : Gains c { p' with sources := p'.sources.pass m } p'' ns')
    (hpassed : (p'.sources.pass m).passed = (p.sources.passed || !(spents [n']).isEmpty)) :
    Gains c p p'' (n' :: ns') where
  waiting := hs.waiting
  late := by
    rw [hs.late, keptBack_cons, ← List.append_assoc, ← h.late, ← hpassed]
    rfl
  spent := by
    rw [hs.spent, keptBack_cons, List.length_append, ← Nat.add_assoc, ← h.spent, ← hpassed]
  passed hp := hs.passed (by rw [hpassed, hp]; rfl)
  unpassed hp hnone := by
    rw [spents_cons, List.append_eq_nil_iff] at hnone
    exact hs.unpassed (by rw [hpassed, hp, hnone.1]; rfl) hnone.2

/-- A node of a list, and what comes behind it. -/
theorem finds_cons {v : Node → Walk Node} {w : Walk (List Node)}
    (hv : Finds c (fun n => [n]) (v n) fun as n' => Marked c g [n] as [n']) (hw : Finds c id w (Marked c g ns)) :
    Finds c id (do
      let n ← v (← deliver n)
      pass n
      return n :: (← w)) (Marked c g (n :: ns)) := by
  obtain ⟨r, new, hends, hr⟩ := hv
  cases r with
  | error e =>
    refine ⟨.error e, new, fun p ms hwaiting => ?_, fun b hb => by cases hb⟩
    obtain ⟨p', hrun⟩ := hends p ms hwaiting
    exact ⟨p', (bind_of_walk_ok (deliver_of_waiting hwaiting n ms)).trans (bind_of_walk_error hrun)⟩
  | ok n' =>
    have hn := hr n' rfl
    have hstart (p : Progress) (ms : List Message) (hwaiting : p.sources.waiting = []) :
        ∃ m p', [m] = shown c p.sources.passed [n'] ∧ Gains c p p' [n'] ∧
          (do
            let n ← v (← deliver n)
            pass n
            return n :: (← w) : Walk (List Node)) p ms
            = (w >>= fun ns => pure (m :: ns)) { p' with sources := p'.sources.pass m } (ms ++ new) := by
      obtain ⟨m, p', hrun, hm, hgains⟩ := hends p ms hwaiting
      refine ⟨m, p', hm, hgains, ?_⟩
      exact (bind_of_walk_ok (deliver_of_waiting hwaiting n ms)).trans ((bind_of_walk_ok hrun).trans
        (bind_of_walk_ok (m := pass m) rfl))
    obtain ⟨r, new', hends', hr'⟩ := hw
    cases r with
    | error e =>
      refine ⟨.error e, new ++ new', fun p ms hwaiting => ?_, fun b hb => by cases hb⟩
      obtain ⟨m, p', -, hgains, hrun⟩ := hstart p ms hwaiting
      obtain ⟨p'', hrun'⟩ := hends' { p' with sources := p'.sources.pass m } (ms ++ new) hgains.waiting
      exact ⟨p'', by rw [hrun, bind_of_walk_error hrun', List.append_assoc]⟩
    | ok ns' =>
      refine ⟨.ok (n' :: ns'), new ++ new', fun p ms hwaiting => ?_, fun b hb => ?_⟩
      · obtain ⟨m, p', hm, hgains, hrun⟩ := hstart p ms hwaiting
        obtain ⟨ms', p'', hrun', hms, hgains'⟩ := hends' { p' with sources := p'.sources.pass m } (ms ++ new)
          hgains.waiting
        have hpassed := passed_pass hn.lectures hm hgains
        refine ⟨m :: ms', p'', by rw [hrun, bind_of_walk_ok hrun', List.append_assoc]; rfl, ?_,
          hgains.cons hgains' hpassed⟩
        obtain rfl : ms' = shown c (p'.sources.pass m).passed ns' := hms
        show [m] ++ shown c (p'.sources.pass m).passed ns' = shown c p.sources.passed (n' :: ns')
        rw [shown_cons, hm, hpassed]
      · obtain rfl := Except.ok.inj hb
        rw [noted_append]
        exact hn.cons (hr' ns' rfl)

theorem finds_visitAll {v : Bool → Node → Walk Node}
    (hv : ∀ n ∈ ns, Clear g [n] → Finds c (fun n => [n]) (v false n) fun as n' => Marked c g [n] as [n'])
    (hc : Clear g ns) : Finds c id (visitAll v false ns) (Marked c g ns) := by
  induction ns with
  | nil =>
    refine (aside_pure (P := (· = [])) rfl).finds fun ns hns => ?_
    subst hns
    exact ⟨rfl, .of_quiet (.refl hc)⟩
  | cons n ns ih =>
    rw [visitAll, Bool.false_or, hc.tail.noLecture.any_holdsLecture]
    exact finds_cons (hv n List.mem_cons_self hc.head) (ih (fun n hn => hv n (List.mem_cons_of_mem _ hn)) hc.tail)

end

/-! ## the lecture sigil -/

section
variable {c : Context} {g : Nat} {tag : Tag} {cs ns : List Node} {n : Node}

theorem noted_source (t : Text) : noted [.note 3 ("Lecture source ".toList ++ t)] = [t] := by
  rw [noted, List.filterMap_cons_some (b := t)]
  · rfl
  · exact stripPrefix?_eq_some_iff.mpr rfl

/-- A step that exchanges the sources on their way. -/
theorem exchange_run (f : Sources → Node × Sources × Bool) (p : Progress) (ms : List Message) :
    (do
      let p ← get
      let (n, sources, given) := f p.sources
      set { p with sources, spent := if given then p.spent + 1 else p.spent }
      return n : Walk Node) p ms
      = ((.ok (f p.sources).1, { p with
          sources := (f p.sources).2.1
          spent := if (f p.sources).2.2 then p.spent + 1 else p.spent }), ms) := rfl

/-- The element gives its source away, or makes room for the lecture video. -/
theorem finds_attachSource (hc : Clear g [.element tag cs]) (hp : isOneOf paragraphNames tag = true)
    (hs : Sigil.select? c.sigils (Node.element tag cs).writeInner = some .lecture) :
    Finds c (fun n => [n])
      (attachSource c false tag cs ((Node.element tag cs).writeInner.drop Sigil.lecture.mark.length))
      fun as n' => Marked c g [.element tag cs] as [n'] := by
  obtain ⟨hg, -, hl⟩ := hc.self
  have hspents : spents [.element { tag with spent := true } cs] = [.element { tag with spent := true } cs] := by
    rw [spents_of_spent rfl, hc.children.spents_eq_nil]
  have hkept : Kept g [.element tag cs] [.element { tag with spent := true } cs] :=
    .element rfl hg hl (.refl hc.children)
  unfold attachSource
  refine (aside_readRemainder _).next fun t ht => ?_
  have haddress : address c (.element { tag with spent := true } cs) = c.appearance.settings.videoDir ++ ['/'] ++ t := by
    rw [address]
    show _ ++ (unescape (strip ((Node.element tag cs).writeInner.drop _))).toOption.getD [] = _
    rw [ht]
    rfl
  have hsources : sourcesOf c [.element { tag with spent := true } cs]
      = [sourceNode (c.appearance.settings.videoDir ++ ['/'] ++ t)] := by
    rw [sourcesOf, hspents, List.map_singleton, haddress]
  have hattach := @attach_eq (sourceNode (c.appearance.settings.videoDir ++ ['/'] ++ t)) _
    (noLecture_element.mpr ⟨hl, hc.children.noLecture⟩ : NoLecture [.element { tag with spent := true } cs]).holdsLecture_eq_false
  refine ⟨.ok (.element { tag with spent := true } cs),
    [.note 3 ("Lecture source ".toList ++ (c.appearance.settings.videoDir ++ ['/'] ++ t))], fun p ms hwaiting => ?_,
    fun n hn => ?_⟩
  · refine ⟨_, _, exchange_run (fun s => s.attach _ false _) p _, ?_⟩
    rw [hattach]
    cases hpassed : p.sources.passed with
    | true =>
      refine ⟨rfl, hwaiting, ?_, ?_, fun _ => rfl, fun e => by cases hpassed.symm.trans e⟩
      · rw [keptBack, if_pos hpassed, hsources]
        rfl
      · rw [keptBack, if_pos hpassed, hsources]
        rfl
    | false =>
      refine ⟨?_, hwaiting, ?_, ?_, fun e => by (cases hpassed.symm.trans e), fun _ _ => hpassed⟩
      · rw [shown, if_neg Bool.false_ne_true, exchanged_of_spent rfl, hsources]
        rfl
      · rw [keptBack, hpassed, hsources]
        exact (List.append_nil _).symm
      · rw [keptBack, hpassed, hsources]
        rfl
  · obtain rfl := Except.ok.inj hn
    refine ⟨hkept, ?_, ?_⟩
    · rw [hspents]
      rintro e he
      obtain rfl := List.mem_singleton.mp he
      exact ⟨⟨_, rfl, hp⟩, hs, ⟨t, ht⟩⟩
    · rw [noted_source, hspents, List.map_singleton, haddress]


/-! ## the other sigils -/

/-- An element that is no row and no lecture video, and has not given its content away. -/
def Tag.IsBare (t : Tag) : Prop := isRow t = false ∧ isLecture t = false ∧ t.spent = false

/-- What is made of an element without rows, lecture videos and elements that are spent. -/
theorem marked_bare (h : ∀ t ∈ tagsAll [n], Tag.IsBare t) : spents [n] = [] ∧ Marked c g ns [] [n] := by
  have hspents : spents [n] = [] := spents_eq_nil.mpr fun t ht => (h t ht).2.2
  exact ⟨hspents, .of_quiet ⟨.bare fun t ht => ⟨(h t ht).1, (h t ht).2.1⟩, hspents⟩⟩

theorem isBare_of_name {t : Tag} (hs : t.spent = false) (hr : t.name ≠ "tr".toList) (hv : t.name ≠ "video".toList) :
    Tag.IsBare t := ⟨decide_eq_false hr, isLecture_of_name hv, hs⟩

theorem isBare_made {name : Text} (hr : name ≠ "tr".toList) (hv : name ≠ "video".toList)
    (as : List (Text × Text)) : Tag.IsBare (.made name as) := isBare_of_name rfl hr hv

theorem ne_of_paragraph (hp : isOneOf paragraphNames tag = true) : tag.name ≠ "tr".toList ∧ tag.name ≠ "video".toList := by
  obtain ⟨name, hname, e⟩ := isOneOf_iff.mp hp
  rw [← e]
  exact (by decide : ∀ name ∈ paragraphNames, name.toList ≠ "tr".toList ∧ name.toList ≠ "video".toList) name hname

theorem finishImage_made (a : Appearance) (t : Tag) :
    (a.finishImage t).generation = t.generation ∧ (a.finishImage t).spent = t.spent := by
  unfold Appearance.finishImage
  dsimp only
  split <;> exact ⟨rfl, rfl⟩

theorem isBare_frames {a : Appearance} {folder : Text} {frames : List (Text × Nat)} {t : Tag}
    (ht : t ∈ tagsAll [.element (.made "div" [("class", "animation")])
      (frames.map fun (name, i) => frameNode a folder (i + 1) name)]) : Tag.IsBare t := by
  rw [tagsAll_single, tags_element] at ht
  rcases List.mem_cons.mp ht with rfl | ht
  · exact isBare_made (by decide) (by decide) _
  · obtain ⟨m, hm, htag⟩ := mem_tagsAll.mp ht
    obtain ⟨⟨name, i⟩, -, rfl⟩ := List.mem_map.mp hm
    obtain rfl := List.mem_singleton.mp htag
    refine isBare_of_name (finishImage_made a _).2 ?_ ?_ <;> rw [finishImage_name]
    · exact (by decide : "img".toList ≠ "tr".toList)
    · exact (by decide : "img".toList ≠ "video".toList)

theorem finds_animate (hc : Clear g [.element tag cs]) (remainder : Text) :
    Finds c (fun n => [n]) (animate c tag cs remainder) fun as n' => Marked c g [.element tag cs] as [n'] := by
  have hself : spents [.element tag cs] = [] ∧ Marked c g [.element tag cs] [] [.element tag cs] :=
    ⟨hc.spents_eq_nil, .of_quiet (.refl hc)⟩
  unfold animate
  refine (aside_readRemainder remainder).next fun folder _ => ?_
  split
  · exact (aside_pure (P := (· = .element tag cs)) rfl).finds fun n hn => hn ▸ hself
  · refine (aside_frameNames c _).next fun names _ => ?_
    split
    · exact (aside_tell rfl).next fun _ _ => (aside_pure (P := (· = .element tag cs)) rfl).finds fun n hn => hn ▸ hself
    · refine (aside_pure (P := (· = _)) rfl).finds fun n hn => marked_bare fun t ht => ?_
      exact isBare_frames (hn ▸ ht)

/-- A video with a source is not the lecture video of its page. -/
theorem isLecture_videoTag (source : Text) (poster : List (Text × Text))
    (hp : poster = [] ∨ ∃ p, poster = [(("poster" : Text), p)]) :
    isLecture (.made "video" (("src", source) :: ("controls", []) :: poster)) = false := by
  rcases hp with rfl | ⟨p, rfl⟩ <;> rfl

theorem finds_sigil (hc : Clear g [.element tag cs]) (hp : isOneOf paragraphNames tag = true) {s : Sigil}
    {walk : List Node → Walk (List Node)}
    (hwalk : ∀ g ns, Clear g ns → Finds c id (walk ns) (Marked c g ns))
    (hs : Sigil.select? c.sigils (Node.element tag cs).writeInner = some s) :
    Finds c (fun n => [n]) (actOn c walk false tag cs ((Node.element tag cs).writeInner.drop s.mark.length) s)
      fun as n' => Marked c g [.element tag cs] as [n'] := by
  obtain ⟨hg, hspent, hl⟩ := hc.self
  have hstart := startsWith_of_select? hs
  have hne := ne_of_paragraph hp
  have again {k : List Node → Node} (hk : Around k)
      (hkept : ∀ ds ns', Kept (g + 1) ds ns' → Kept g [.element tag cs] [k ns']) :
      Finds c (fun n => [n])
        (do
          let inner ← walk (← lift (Appearance.reread tag ((Node.element tag cs).writeInner.drop s.mark.length)))
          return k inner)
        fun as n' => Marked c g [.element tag cs] as [n'] := by
    refine (aside_lift (P := fun ds => Clear (g + 1) ds) fun ds hd => ?_).next fun ds hds => ?_
    · exact hc.of_reread hd (Comes.self.again self_mem_elementsAll hp hstart hd)
    · exact (hwalk (g + 1) ds hds).answer hk fun as ns' h => h.of_kept (hk.spents ns') (hkept ds ns' h.toKept)
  cases s with
  | small =>
    exact again ((around_element rfl).element hspent) fun ds ns' h =>
      .element rfl hg hl (h.later.around rfl rfl)
  | alert =>
    exact again (around_element hspent) fun ds ns' h =>
      .element rfl hg (isLecture_of_name (show tag.name ≠ _ from hne.2)) h.later
  | lecture => exact finds_attachSource hc hp hs
  | animation => exact finds_animate hc _
  | anchor =>
    refine (aside_readRemainder _).next fun name _ => (aside_pure (P := (· = _)) rfl).finds fun n hn => ?_
    refine marked_bare fun t ht => ?_
    subst hn
    obtain rfl := List.mem_singleton.mp ht
    exact isBare_made (by decide) (by decide) _
  | video =>
    refine (aside_readFields .video _).next fun fields _ => (aside_pure (P := (· = _)) rfl).finds fun n hn => ?_
    refine marked_bare fun t ht => ?_
    subst hn
    rcases List.mem_cons.mp ht with rfl | ht
    · exact isBare_made (by decide) (by decide) _
    · obtain rfl := List.mem_singleton.mp ht
      refine ⟨rfl, isLecture_videoTag _ _ ?_, rfl⟩
      split
      · exact .inr ⟨_, rfl⟩
      · exact .inl rfl
  | embed =>
    refine (aside_readFields .embed _).next fun fields _ => (aside_pure (P := (· = _)) rfl).finds fun n hn => ?_
    refine marked_bare fun t ht => ?_
    subst hn
    obtain rfl := List.mem_singleton.mp ht
    exact isBare_of_name (show tag.spent = false from hspent) (show tag.name ≠ _ from hne.1) (show tag.name ≠ _ from hne.2)

/-! ## paragraphs -/

theorem noted?_sigil (s : Sigil) (tag : Tag) : noted? (sigilNote s tag) = none := rfl

/-- A paragraph in its final form. -/
theorem finds_finishParagraph (hc : Clear g [.element tag cs]) (hp : isOneOf paragraphNames tag = true)
    {walk : List Node → Walk (List Node)} (hwalk : ∀ g ns, Clear g ns → Finds c id (walk ns) (Marked c g ns)) :
    Finds c (fun n => [n]) (finishParagraph c walk false tag cs) fun as n' => Marked c g [.element tag cs] as [n'] := by
  obtain ⟨hg, hspent, hl⟩ := hc.self
  have again {ds : List Node} (hgoes : Finds c id (walk ds) (Marked c g cs)) :
      Finds c (fun n => [n]) (walk ds >>= fun inner => pure (Node.element tag inner))
        fun as n' => Marked c g [.element tag cs] as [n'] :=
    hgoes.answer (around_element hspent) fun as ns' h =>
      h.of_kept (spents_element hspent ns') (.element rfl hg hl h.toKept)
  unfold finishParagraph
  refine (aside_take tag).next fun _ _ => ?_
  dsimp only
  cases hsel : Sigil.select? c.sigils (Node.element tag cs).writeInner with
  | some s => exact (aside_tell (noted?_sigil s tag)).next fun _ _ => finds_sigil hc hp hwalk hsel
  | none =>
    cases hlone : loneImage? cs with
    | some r =>
      obtain ⟨image, ds⟩ := r
      have hname := (loneImage?_eq_some hlone).2
      have hmem := mem_elementsAll_of_loneImage? hlone
      have himage := hc.children.inside hmem
      obtain ⟨hgeneration, hsp⟩ := finishImage_made c.appearance image
      have hquiet : Quiet g [.element image ds] [.element (c.appearance.finishImage image) ds] :=
        .element (finishImage_name _ _) (hgeneration.trans himage.self.1) (hsp.trans himage.self.2.1)
          (isLecture_of_name (by rw [finishImage_name, hname]; decide)) (.refl himage.children)
      have hrows (h : NoRows [.element tag cs]) : NoRows [.element image ds] := fun t ht =>
        (noRows_element.mp h).2 t (tagsAll_mono (fun _ => elementsAll_subset hmem) ht)
      have hfigure := @spents_element (.made "figure" [("class", "img")]) rfl
        [.element (c.appearance.finishImage image) ds]
      refine (aside_take image).next fun _ _ => (aside_pure (P := (· = _)) rfl).finds fun n hn => ?_
      subst hn
      exact ⟨hfigure.trans hquiet.spents, .of_quiet ⟨(hquiet.toKept.of_part hrows).around rfl rfl,
        hfigure.trans hquiet.spents⟩⟩
    | none =>
      cases hu : Sigil.unescape? c.sigils (Node.element tag cs).writeInner with
      | none => exact again (hwalk g cs hc.children)
      | some t =>
        obtain ⟨s, hs, rfl⟩ := exists_of_unescape? hu
        have hread : Aside (lift (Appearance.reread tag ((Node.element tag cs).writeInner.drop s.mark.length)))
            fun ds => Clear (g + 1) ds :=
          aside_lift fun ds hd => hc.of_reread hd (Comes.self.again self_mem_elementsAll hp hs hd)
        exact hread.next fun ds hds => again ((hwalk (g + 1) ds hds).weaken fun as ns' h =>
          h.of_kept rfl h.toKept.later)

/-! ## visits -/

/-- A visit that clear trees of a generation may get. -/
def Visit.Serves (g : Nat) (n : Node) : Visit → Prop
  | .flow => True
  | .paragraph => ∀ t, n.tag? = some t → isOneOf paragraphNames t = true
  | .paragraphIf names => ∀ name ∈ names, name ∈ paragraphNames
  | .rows generation => generation = g

theorem finds_same (hc : Clear g [n]) :
    Finds c (fun n => [n]) (pure n) fun as n' => Marked c g [n] as [n'] := by
  refine (aside_pure (P := (· = n)) rfl).finds fun m hm => ?_
  subst hm
  exact ⟨hc.spents_eq_nil, .of_quiet (.refl hc)⟩

/-- The walk finds the sources of clear trees, and behind a lecture video it marks the elements that name them. -/
theorem finds_visit (c : Context) (fuel : Nat) (how : Visit) (hc : Clear g [n]) (hf : how.Serves g n) :
    Finds c (fun n => [n]) (visit c fuel how false n) fun as n' => Marked c g [n] as [n'] := by
  induction fuel generalizing how g n with
  | zero => exact finds_same hc
  | succ fuel ih =>
    cases n with
    | element tag cs =>
      obtain ⟨hg, hspent, hl⟩ := hc.self
      have below (how : Visit) {g : Nat} {ds : List Node} (hd : Clear g ds) (hf : ∀ n, how.Serves g n) :
          Finds c id (visitAll (visit c fuel how) false ds) (Marked c g ds) :=
        finds_visitAll (fun n _ hn => ih how hn (hf n)) hd
      have inside {m : Walk (List Node)} (hm : Finds c id m (Marked c g cs)) :
          Finds c (fun n => [n]) (m >>= fun cs' => pure (.element tag cs'))
            fun as n' => Marked c g [.element tag cs] as [n'] :=
        hm.answer (around_element hspent) fun as cs' h =>
          h.of_kept (spents_element hspent cs') (.element rfl hg hl h.toKept)
      cases how with
      | paragraph => exact finds_finishParagraph hc (hf tag rfl) fun g ns hn => below .flow hn fun _ => trivial
      | paragraphIf names =>
        rw [visit]
        split
        · refine ih .paragraph hc fun t e => ?_
          obtain rfl := Option.some.inj e
          exact isOneOf_mono hf ‹_›
        · exact finds_same hc
      | rows k =>
        obtain rfl : k = g := hf
        rw [visit]
        dsimp only
        cases hrow : isRow tag with
        | true =>
          have hname : tag.name = "tr".toList := of_decide_eq_true hrow
          have hrows : NoRows cs := hc.rows tag cs self_mem_elementsAll hname
          have hcells : ∀ name ∈ cellNames, name ∈ paragraphNames := by decide
          rw [if_pos (Bool.and_eq_true_iff.mpr ⟨decide_eq_true hname, decide_eq_true hg⟩), ← bind_assoc]
          -- no row is left to be looked for behind the cells
          refine inside ((below (.paragraphIf cellNames) hc.children fun _ => hcells).idle (fun as ns h => h.lectures)
            fun as ns passed h => idles_visitAll (fun ahead n hn => idles_rows c fuel k ahead fun t ht hr => ?_) _)
          have hmem := mem_tagsAll_shown (mem_tagsAll.mpr ⟨n, hn, ht⟩) hr
          exact (Nat.ne_of_lt ((h.rows t hmem hr).2 hrows)).symm
        | false =>
          have hname : tag.name ≠ "tr".toList := of_decide_eq_false hrow
          rw [if_neg fun e => hname (of_decide_eq_true (Bool.and_eq_true_iff.mp e).1), pure_bind]
          exact inside (below (.rows k) hc.children fun _ => rfl)
      | flow =>
        have made {n' : Node} (h : Quiet g [.element tag cs] [n']) :
            Finds c (fun n => [n]) (pure n') fun as n' => Marked c g [.element tag cs] as [n'] := by
          refine (aside_pure (P := (· = n')) rfl).finds fun m hm => ?_
          subst hm
          exact ⟨h.spents, .of_quiet h⟩
        rw [visit]
        dsimp only
        cases hpart : Part.ofName tag.name with
        | paragraph =>
          refine ih .paragraph hc fun t e => ?_
          obtain rfl := Option.some.inj e
          exact isOneOf_mono (by decide) (isOneOf_of_part hpart (by decide))
        | table =>
          have hname := name_of_isOneOf (isOneOf_of_part hpart (by decide))
          obtain ⟨hgeneration, hsp⟩ := tag_markTable tag cs
          refine (aside_take tag).next fun _ _ => ?_
          refine (below (.rows _) (hc.table hname) fun _ => hgeneration.trans hg).answer
            ((around_element (hsp.trans hspent)).element rfl) fun as cs' h => ?_
          have hrows : NoRows cs → NoRows (markTable tag cs).2 := fun hn t ht => hn t (mem_tagsAll_markTable ht)
          have htable : isLecture (markTable tag cs).1 = false :=
            isLecture_of_name (by rw [name_markTable, hname]; decide)
          exact h.of_kept (((around_element (hsp.trans hspent)).element rfl).spents cs')
            (.around rfl rfl (.element (name_markTable tag cs) (hgeneration.trans hg) htable (h.toKept.of_part hrows)))
        | list =>
          have hitems : ∀ name ∈ ["li"], name ∈ paragraphNames := by decide
          exact inside (below (.paragraphIf ["li"]) hc.children fun _ => hitems)
        | wrapper => exact inside (below .flow hc.children fun _ => trivial)
        | preformatted =>
          have hname := name_of_isOneOf (isOneOf_of_part hpart (by decide))
          refine (aside_lift (P := fun r : Node × Option Tag => Quiet g [.element tag cs] [r.1]) fun r hr =>
            quiet_finishPre hc hname (hr : _ = Except.ok (r.1, r.2))).next fun r hr => ?_
          obtain ⟨n', named⟩ := r
          have hnamed : Aside (named.forM take) fun _ => True := by
            cases named with
            | none => exact aside_pure trivial
            | some t => exact aside_take t
          exact hnamed.next fun _ _ => made hr
        | code =>
          have hname := name_of_isOneOf (isOneOf_of_part hpart (by decide))
          refine (aside_take tag).next fun _ _ => ?_
          refine (aside_lift (P := fun n' => Quiet g [.element tag cs] [n']) fun n' hn =>
            quiet_finishCode hc hname hn).finds fun n' hn => ⟨hn.spents, .of_quiet hn⟩
        | link =>
          have hname := name_of_isOneOf (isOneOf_of_part hpart (by decide))
          have hlink : (Appearance.finishLink tag).name = tag.name ∧
              (Appearance.finishLink tag).generation = tag.generation ∧
              (Appearance.finishLink tag).spent = tag.spent := by
            unfold Appearance.finishLink
            split <;> exact ⟨rfl, rfl, rfl⟩
          refine made (.element hlink.1 (hlink.2.1.trans hg) (hlink.2.2.trans hspent) (isLecture_of_name ?_)
            (.refl hc.children))
          rw [hlink.1, hname]
          decide
        | image =>
          have hname := name_of_isOneOf (isOneOf_of_part hpart (by decide))
          obtain ⟨hgeneration, hsp⟩ := finishImage_made c.appearance tag
          refine (aside_take tag).next fun _ _ => made (.element (finishImage_name _ _) (hgeneration.trans hg)
            (hsp.trans hspent) (isLecture_of_name ?_) (.refl hc.children))
          rw [finishImage_name, hname]
          decide
        | other => exact made (.refl hc)
    | _ => cases how <;> exact finds_same hc

end
end Lectern.Page
