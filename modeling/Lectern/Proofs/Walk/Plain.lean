import Lectern.Proofs.Walk.Dressed
import Lectern.Proofs.Walk.Run
import Lectern.Proofs.Walk.Shape

/-!
# Plain content

Where a page holds no images and no code, no sigils, no marked tables and no tables in tables, a walk
does nothing but put tables into figures and mark links that lead away.

* `Plain`         such content;
* `Still`         a walk that says nothing and hands nothing on;
* `still_visit`   a visit of plain content is still, and leaves it as it is but for figures and links;
* `finish_plain`  the same of the whole walk.
-/

namespace Lectern.Page
open Text Html Html.Node

/-! ## plain content -/

/-- The elements that are treated as paragraphs. -/
def paragraphNames : List String := ["p", "li", "th", "td"]

structure PlainElement (tag : Tag) (cs : List Node) : Prop where
  kind : isOneOf ["img", "code", "pre"] tag = false
  paragraph : isOneOf paragraphNames tag → ∀ s : Sigil,
    startsWith s.mark (Node.element tag cs).writeInner = false
  /-- The first heading cell of a table has no mark. -/
  heading : tag.name = "table".toList → ∀ cell, firstHeadingCell? cs = some cell →
    cell.writeInner ≠ ['x']
  /-- There is no table in a table. -/
  inner : tag.name = "table".toList → ∀ t ds, .element t ds ∈ elementsAll cs →
    t.name ≠ "table".toList
  /-- As in every page that has been read. -/
  spent : tag.spent = false

def Plain (ns : List Node) : Prop := ∀ t cs, .element t cs ∈ elementsAll ns → PlainElement t cs

def NoTables (ns : List Node) : Prop :=
  ∀ t cs, .element t cs ∈ elementsAll ns → t.name ≠ "table".toList

section
variable {tag : Tag} {cs cs' ns : List Node} {n : Node}

theorem Plain.of_mem (h : Plain ns) (hn : n ∈ ns) : Plain [n] := fun t cs he =>
  h t cs (mem_elementsAll_of_mem hn he)

theorem Plain.inside (h : Plain [.element tag cs]) : Plain cs :=
  fun t ds he => h t ds (mem_elementsAll_inside he)

theorem Plain.self (h : Plain [.element tag cs]) : PlainElement tag cs := h tag cs self_mem_elementsAll

theorem NoTables.of_mem (h : NoTables ns) (hn : n ∈ ns) : NoTables [n] := fun t cs he =>
  h t cs (mem_elementsAll_of_mem hn he)

theorem NoTables.inside (h : NoTables [.element tag cs]) : NoTables cs :=
  fun t ds he => h t ds (mem_elementsAll_inside he)

theorem not_mem_mark (s : Sigil) : '<' ∉ s.mark := by cases s <;> decide

/-- Links that are marked leave content plain. -/
theorem DressedAll.plain (h : DressedAll false cs cs') (hp : Plain cs) (hn : NoTables cs) :
    Plain cs' ∧ NoTables cs' := by
  have hno : NoTables cs' := by
    intro t' ds' he
    obtain ⟨t, ds, ht, ⟨hname, -⟩, -⟩ := h.exists_of_mem he
    exact hname ▸ hn t ds ht
  refine ⟨fun t' ds' he => ?_, hno⟩
  have hname := hno t' ds' he
  obtain ⟨t, ds, ht, ⟨hsame, hspent⟩, hd⟩ := h.exists_of_mem he
  obtain ⟨hk, hpar, -, -, hs⟩ := hp t ds ht
  refine ⟨?_, fun hone s => ?_, fun e => absurd e hname, fun e => absurd e hname, hspent.trans hs⟩
  · rw [isOneOf, hsame]
    exact hk
  · rw [isOneOf, hsame] at hone
    have hi := hpar hone s
    rw [writeInner, isVerbatim] at hi ⊢
    rw [hsame, ← hd.startsWith_eq _ (not_mem_mark s)]
    exact hi

end

/-! ## walks that do nothing besides -/

/-- No source is on its way, and nothing has given its content away. -/
structure Progress.Idle (p : Progress) : Prop where
  waiting : p.sources.waiting = []
  late : p.sources.late = []
  spent : p.spent = 0

/-- The walk succeeds with an answer of which `Q` holds, says nothing and hands nothing on. -/
def Still {α : Type} (m : Walk α) (Q : α → Prop) : Prop := ∀ ms,
  Meets (fun p ms' => p.Idle ∧ ms' = ms) m (fun r p ms' => (p.Idle ∧ ms' = ms) ∧ ∃ a, r = .ok a ∧ Q a)

section
variable {α β : Type} {m : Walk α} {f : α → Walk β} {Q : α → Prop} {R : β → Prop}

theorem Still.bind (hm : Still m Q) (hf : ∀ a, Q a → Still (f a) R) : Still (m >>= f) R := by
  intro ms
  refine (hm ms).bind (fun a p ms' h => ?_) fun e p ms' h => ?_
  · obtain ⟨hp, b, hb, hq⟩ := h
    obtain rfl := Except.ok.inj hb
    exact hf a hq ms p ms' hp
  · obtain ⟨-, b, hb, -⟩ := h
    exact nomatch hb

theorem still_pure {a : α} (h : Q a) : Still (pure a) Q := fun _ =>
  meets_pure fun _ _ hp => ⟨hp, a, rfl, h⟩

theorem Still.answer {g : α → β} (hm : Still m Q) (hg : ∀ a, Q a → R (g a)) :
    Still (m >>= fun a => pure (g a)) R := hm.bind fun a h => still_pure (hg a h)

theorem still_take (t : Tag) : Still (take t) fun _ => True := fun _ =>
  meets_take fun _ _ hp => ⟨⟨⟨hp.1.waiting, hp.1.late, hp.1.spent⟩, hp.2⟩, (), rfl, trivial⟩

theorem still_pass (n : Node) : Still (pass n) fun _ => True := fun _ =>
  meets_modify fun _ _ hp => ⟨⟨⟨hp.1.waiting, hp.1.late, hp.1.spent⟩, hp.2⟩, (), rfl, trivial⟩

theorem still_deliver (n : Node) : Still (deliver n) (· = n) := by
  intro ms p ms' hp
  have hd : p.sources.deliver n = (n, p.sources) := by
    rw [Sources.deliver, hp.1.waiting]
    rfl
  have hrun : deliver n p ms' = ((.ok (p.sources.deliver n).1,
    { p with sources := (p.sources.deliver n).2 }), ms') := rfl
  rw [hrun, hd]
  exact ⟨hp, n, rfl, rfl⟩

end

theorem still_visitAll {v : Bool → Node → Walk Node} {w : Bool} (ahead : Bool) {ns : List Node}
    (hv : ∀ ahead, ∀ n ∈ ns, Still (v ahead n) (Dressed w n)) :
    Still (visitAll v ahead ns) (DressedAll w ns) := by
  induction ns with
  | nil => exact still_pure .nil
  | cons n ns ih =>
    rw [visitAll]
    refine (still_deliver n).bind fun n' hn => ?_
    subst hn
    refine (hv _ n' List.mem_cons_self).bind fun m hm => (still_pass m).bind fun _ _ => ?_
    exact (ih fun ahead n hn => hv ahead n (List.mem_cons_of_mem _ hn)).answer fun ns' hs => .cons hm hs

/-! ## paragraphs and tables -/

section
variable {tag : Tag} {cs : List Node}

theorem select?_eq_none {table : List Sigil} {inner : Text}
    (h : ∀ s : Sigil, startsWith s.mark inner = false) : Sigil.select? table inner = none := by
  refine List.find?_eq_none.mpr fun s _ => ?_
  rw [Sigil.fires, h s, Bool.false_and]
  decide

theorem unescape?_eq_none {table : List Sigil} {inner : Text}
    (h : ∀ s : Sigil, startsWith s.mark inner = false) : Sigil.unescape? table inner = none := by
  rw [Sigil.unescape?, Option.map_eq_none_iff]
  refine List.find?_eq_none.mpr fun s _ hs => ?_
  obtain ⟨r, hr⟩ := startsWith_iff.mp hs
  have hmark : startsWith s.mark inner = true :=
    startsWith_iff.mpr ⟨s.mark ++ r, by rw [hr, Sigil.doubled, List.append_assoc]⟩
  rw [h s] at hmark
  exact nomatch hmark

theorem loneImage?_eq_none (h : Plain cs) : loneImage? cs = none := by
  cases hl : loneImage? cs with
  | none => rfl
  | some r =>
    obtain ⟨image, ds⟩ := r
    have hk := (h image ds (mem_elementsAll_of_loneImage? hl)).kind
    rw [isOneOf, (loneImage?_eq_some hl).2] at hk
    exact absurd hk (by decide)

theorem still_finishParagraph {c : Context} {walk : List Node → Walk (List Node)} {w : Bool}
    (ahead : Bool) (hp : Plain [.element tag cs]) (hn : isOneOf paragraphNames tag)
    (hw : Still (walk cs) (DressedAll w cs)) :
    Still (finishParagraph c walk ahead tag cs) (Dressed w (.element tag cs)) := by
  have hmarks := hp.self.paragraph hn
  unfold finishParagraph
  refine (still_take tag).bind fun _ _ => ?_
  dsimp only
  rw [select?_eq_none hmarks, loneImage?_eq_none hp.inside, unescape?_eq_none hmarks]
  exact hw.answer fun cs' h => .element tag h

theorem markTable_eq_self (hn : tag.name = "table".toList) (hp : Plain [.element tag cs]) :
    markTable tag cs = (tag, cs) := by
  cases h : firstHeadingCell? cs with
  | none => exact markTable_of_none h
  | some cell =>
    obtain ⟨t, ds, rfl, hmem, hcell⟩ := exists_of_firstHeadingCell? h
    have hx := hp.self.heading hn _ h
    have hsmall : (Node.element t ds).writeInner ≠ ['^', 'x'] := by
      intro e
      have hpar : isOneOf paragraphNames t := isOneOf_mono (by decide) hcell
      have hs := (hp t ds (mem_elementsAll_inside hmem)).paragraph hpar .small
      rw [e] at hs
      exact absurd hs (by decide)
    have hread : readMark (.element t ds) = (.element t ds, none) := by
      simp [readMark, hx, hsmall]
    rw [markTable_of_some h, hread, withHeadingCell_self h]

end

/-! ## visits -/

/-- A visit that plain content may get; `w` says whether tables are put into figures. -/
def Visit.Suits (w : Bool) (n : Node) : Visit → Prop
  | .flow => True
  | .paragraph => ∀ t, n.tag? = some t → isOneOf paragraphNames t
  | .paragraphIf names => ∀ name ∈ names, name ∈ paragraphNames
  | .rows _ => w = false

theorem still_visit (c : Context) (fuel : Nat) (how : Visit) {w : Bool} (ahead : Bool) {n : Node}
    (hp : Plain [n]) (ht : w = false → NoTables [n]) (hs : how.Suits w n) :
    Still (visit c fuel how ahead n) (Dressed w n) := by
  induction fuel generalizing how w ahead n with
  | zero => exact still_pure (.refl w n)
  | succ fuel ih =>
    cases n with
    | element tag cs =>
      have below (how : Visit) {w : Bool} {ds : List Node} (hd : Plain ds) (ht : w = false → NoTables ds)
          (hs : ∀ n, how.Suits w n) :
          Still (visitAll (visit c fuel how) ahead ds) (DressedAll w ds) :=
        still_visitAll ahead fun ahead n hn =>
          ih how ahead (hd.of_mem hn) (fun e => (ht e).of_mem hn) (hs n)
      have hcs := hp.inside
      have hnot : w = false → NoTables cs := fun e => (ht e).inside
      cases how with
      | paragraph =>
        exact still_finishParagraph ahead hp (hs tag rfl) (below .flow hcs hnot fun _ => trivial)
      | paragraphIf names =>
        rw [visit]
        split
        · refine ih .paragraph ahead hp ht fun t e => ?_
          obtain rfl := Option.some.inj e
          exact isOneOf_mono hs ‹_›
        · exact still_pure (.refl w _)
      | rows g =>
        obtain rfl : w = false := hs
        have goesOn (ds : List Node) (hd : DressedAll false cs ds) :
            Still (visitAll (visit c fuel (.rows g)) ahead ds >>= fun es => pure (.element tag es))
              (Dressed false (.element tag cs)) := by
          obtain ⟨hds, hno⟩ := hd.plain hcs (hnot rfl)
          exact (below (.rows g) hds (fun _ => hno) fun _ => rfl).answer fun es he =>
            .element tag (hd.trans he)
        rw [visit]
        dsimp only
        split
        · have hcells : ∀ name ∈ cellNames, name ∈ paragraphNames := by decide
          exact (below (.paragraphIf cellNames) hcs hnot fun _ => hcells).bind goesOn
        · exact goesOn cs (.refl false cs)
      | flow =>
        have hkind := hp.self.kind
        rw [visit]
        dsimp only
        cases hpart : Part.ofName tag.name with
        | paragraph =>
          refine ih .paragraph ahead hp ht fun t e => ?_
          obtain rfl := Option.some.inj e
          exact isOneOf_mono (by decide) (isOneOf_of_part hpart nofun)
        | table =>
          have hname := name_of_isOneOf (isOneOf_of_part hpart nofun)
          cases w with
          | false => exact absurd hname (ht rfl tag cs self_mem_elementsAll)
          | true =>
            refine (still_take tag).bind fun _ _ => ?_
            rw [markTable_eq_self hname hp]
            exact (below (.rows tag.generation) hcs (fun _ => hp.self.inner hname) fun _ => rfl).answer
              fun cs' h => .table hname h
        | list =>
          have hitems : ∀ name ∈ ["li"], name ∈ paragraphNames := by decide
          exact (below (.paragraphIf ["li"]) hcs hnot fun _ => hitems).answer fun cs' h => .element tag h
        | wrapper =>
          exact (below .flow hcs hnot fun _ => trivial).answer fun cs' h => .element tag h
        | preformatted | code | image =>
          rw [isOneOf_mono (by decide) (isOneOf_of_part hpart nofun)] at hkind
          exact nomatch hkind
        | link =>
          have hname := name_of_isOneOf (isOneOf_of_part hpart nofun)
          dsimp only
          unfold Appearance.finishLink
          split
          · exact still_pure (.link hname ‹_› (.refl w cs))
          · exact still_pure (.refl w _)
        | other => exact still_pure (.refl w _)
    | _ => exact still_pure (.refl w _)

/-- The walk over a page with plain content succeeds and says nothing; it leaves the page as it is but for
tables that are put into figures and links that lead away and are marked so. -/
theorem finish_plain (c : Context) (tag : Tag) (cs behind : List Node) (hp : Plain cs) :
    ∃ cs', DressedAll true cs cs' ∧
      (finish c (.element tag cs) behind).outcome = (.ok (.element tag cs'), []) := by
  have hwalk : Still (walkBelow c (.element tag cs) behind) (DressedAll true cs) :=
    still_visitAll _ fun ahead n hn => still_visit c _ .flow ahead (hp.of_mem hn) nofun trivial
  obtain ⟨⟨hidle, hms⟩, cs', hcs, hd⟩ := hwalk [] {} [] ⟨⟨rfl, rfl, rfl⟩, rfl⟩
  have hspent : ∀ t ∈ tagsAll cs, t.spent = false := by
    intro t ht
    obtain ⟨e, he, htag⟩ := List.mem_filterMap.mp ht
    cases e with
    | element t' ds =>
      obtain rfl := Option.some.inj htag
      exact (hp t' ds he).spent
    | _ => exact nomatch htag
  refine ⟨cs', hd, ?_⟩
  generalize hr : walkBelow c (.element tag cs) behind {} [] = r at hidle hms hcs
  obtain ⟨⟨result, p⟩, ms⟩ := r
  obtain ⟨hw, hl, hs⟩ := hidle
  dsimp only at hw hl hs hms hcs
  subst hcs hms
  have hsettle : p.sources.settle (.element tag cs') = .element tag cs' := by
    rw [Sources.settle, hl]
    rfl
  rw [outcome_finish hr, hsettle, hs]
  show (Except.ok (Node.element tag (pruneAll cs')), []) = _
  rw [hd.pruneAll_eq hspent]

/-- A link in a table. -/
theorem finish_plain_link_in_table :
    let link : Node := .element (.of "a" [("href", "https://x")]) [.text "y".toList]
    let cs : List Node := [.element (.of "table" []) [.element (.of "tr" []) [.element (.of "td" []) [link]]]]
    Plain cs ∧ ∃ cs', DressedAll true cs cs' ∧
      (finish .bare (.element (.of "body" []) cs) []).outcome
        = (.ok (.element (.of "body" []) cs'), []) := by
  intro link cs
  have hp : Plain cs := by
    intro t ds he
    simp only [cs, link, elementsAll, elements, List.append_nil, List.mem_cons, List.not_mem_nil,
      or_false, element.injEq] at he
    rcases he with ⟨rfl, rfl⟩ | ⟨rfl, rfl⟩ | ⟨rfl, rfl⟩ | ⟨rfl, rfl⟩
    · refine ⟨by decide, fun h => absurd h (by decide), fun _ cell h => ?_, fun _ t ds he => ?_, rfl⟩
      · exact absurd h.symm (Option.some_ne_none cell)
      · simp only [elementsAll, elements, List.append_nil, List.mem_cons, List.not_mem_nil,
          or_false, element.injEq] at he
        rcases he with ⟨rfl, -⟩ | ⟨rfl, -⟩ | ⟨rfl, -⟩ <;> decide
    all_goals
      exact ⟨by decide, fun _ s => by cases s <;> decide, fun h => absurd h (by decide),
        fun h => absurd h (by decide), rfl⟩
  exact ⟨hp, finish_plain .bare (.of "body" []) cs [] hp⟩

end Lectern.Page
