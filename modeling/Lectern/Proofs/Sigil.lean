import Lectern.Proofs.Walk.Run
import Mathlib.Logic.ExistsUnique

/-!
# How markup begins

No two marks begin with the same character.  So markup begins with one mark at most, and the order of
a table of sigils makes no difference to what the table is asked for.

* `Sigil.Beginning`          a mark that acts, a mark that is escaped, or no mark;
* `Beginning.holds_iff`      markup begins in one of these ways;
* `Beginning.Holds.answers`  which says all that a table is asked for;
* `loneImage?_of_mark`       a paragraph that begins with a mark does not hold an image alone;
* `dispatch_of_beginning`    the three cases, and what becomes of a paragraph with an escaped mark.
-/

namespace Lectern
open Text

namespace Sigil

section
variable {s t : Sigil} {inner : Text}

theorem eq_of_head?_mark (h : s.mark.head? = t.mark.head?) : s = t := by
  cases s <;> cases t <;> first | rfl | exact absurd h (by decide)

/-- Markup begins with one mark at most. -/
theorem eq_of_startsWith (hs : startsWith s.mark inner = true) (ht : startsWith t.mark inner = true) :
    s = t := by
  have hhead : ∀ u : Sigil, startsWith u.mark inner = true → inner.head? = u.mark.head? := by
    intro u hu
    obtain ⟨rest, rfl⟩ := startsWith_iff.mp hu
    cases u <;> rfl
  apply eq_of_head?_mark
  rw [← hhead s hs, ← hhead t ht]

theorem startsWith_mark_of_doubled (h : startsWith s.doubled inner = true) :
    startsWith s.mark inner = true := by
  obtain ⟨rest, rfl⟩ := startsWith_iff.mp h
  exact startsWith_iff.mpr ⟨s.mark ++ rest, List.append_assoc ..⟩

theorem fires_iff : s.fires inner = true ↔
    startsWith s.mark inner = true ∧ startsWith s.doubled inner = false := by
  simp [fires]

theorem drop_mark_append (s : Sigil) (t : Text) : (s.mark ++ t).drop s.mark.length = t :=
  List.drop_left

/-- One more mark before a mark makes an escape. -/
theorem startsWith_doubled_append (h : startsWith s.mark inner = true) :
    startsWith s.doubled (s.mark ++ inner) = true := by
  obtain ⟨rest, rfl⟩ := startsWith_iff.mp h
  exact startsWith_iff.mpr ⟨rest, (List.append_assoc ..).symm⟩

end

/-- Markup begins with a mark that acts, with one that is escaped, or with none. -/
inductive Beginning where
  | acts (s : Sigil)
  | escaped (s : Sigil)
  | plain

namespace Beginning

/-- So the markup begins, as the sigils of a table see it. -/
def Holds (table : List Sigil) (inner : Text) : Beginning → Prop
  | acts s => s ∈ table ∧ s.fires inner = true
  | escaped s => s ∈ table ∧ startsWith s.doubled inner = true
  | plain => ∀ s ∈ table, startsWith s.mark inner = false

/-- The sigil that acts. -/
def sigil? : Beginning → Option Sigil
  | acts s => some s
  | escaped _ | plain => none

/-- The markup with one of two marks taken off. -/
def collapsed? (inner : Text) : Beginning → Option Text
  | escaped s => some (inner.drop s.mark.length)
  | acts _ | plain => none

/-- How the markup does begin. -/
def of (table : List Sigil) (inner : Text) : Beginning :=
  match table.find? fun s => startsWith s.mark inner with
  | some s => if startsWith s.doubled inner then escaped s else acts s
  | none => plain

section
variable {table order : List Sigil} {inner : Text} {b : Beginning} {s : Sigil}

/-- What is asked of a table can hold of no sigil but the one that the markup begins with. -/
theorem find?_eq_some {p : Sigil → Bool} (hs : s ∈ table) (hp : p s = true)
    (hmark : ∀ t, p t = true → startsWith t.mark inner = true) : table.find? p = some s := by
  cases hf : table.find? p with
  | none => exact absurd hp (List.find?_eq_none.mp hf s hs)
  | some t => rw [eq_of_startsWith (hmark t (List.find?_some hf)) (hmark s hp)]

/-- Markup begins in one way and no other. -/
theorem holds_iff : b.Holds table inner ↔ b = of table inner := by
  constructor
  · intro h
    unfold of
    cases b with
    | acts s =>
      obtain ⟨hs, hf⟩ := h
      obtain ⟨hmark, hsingle⟩ := fires_iff.mp hf
      rw [find?_eq_some hs hmark fun _ ht => ht]
      simp [hsingle]
    | escaped s =>
      obtain ⟨hs, hd⟩ := h
      rw [find?_eq_some hs (startsWith_mark_of_doubled hd) fun _ ht => ht]
      simp [hd]
    | plain =>
      have hnone : table.find? (fun s => startsWith s.mark inner) = none := by
        rw [List.find?_eq_none]
        intro s hs
        simp [h s hs]
      rw [hnone]
  · rintro rfl
    unfold of
    split
    · rename_i s hf
      have hs := List.mem_of_find?_eq_some hf
      have hmark := List.find?_some hf
      split
      · exact ⟨hs, ‹_›⟩
      · exact ⟨hs, fires_iff.mpr ⟨hmark, Bool.eq_false_iff.mpr ‹_›⟩⟩
    · rename_i hf
      intro s hs
      exact Bool.eq_false_iff.mpr (List.find?_eq_none.mp hf s hs)

theorem Holds.perm (hperm : order.Perm table) (h : b.Holds table inner) : b.Holds order inner := by
  cases b with
  | acts s => exact ⟨hperm.mem_iff.mpr h.1, h.2⟩
  | escaped s => exact ⟨hperm.mem_iff.mpr h.1, h.2⟩
  | plain => exact fun s hs => h s (hperm.mem_iff.mp hs)

/-- All that a table is asked for is how the markup begins. -/
theorem Holds.answers (h : b.Holds table inner) :
    select? table inner = b.sigil? ∧ unescape? table inner = b.collapsed? inner := by
  cases b with
  | acts s =>
    obtain ⟨hs, hf⟩ := h
    obtain ⟨hmark, hsingle⟩ := fires_iff.mp hf
    constructor
    · exact find?_eq_some hs hf fun t ht => (fires_iff.mp ht).1
    · show (table.find? _).map _ = none
      rw [Option.map_eq_none_iff, List.find?_eq_none]
      intro t _ hd
      obtain rfl := eq_of_startsWith (startsWith_mark_of_doubled hd) hmark
      exact absurd hd (by simp [hsingle])
  | escaped s =>
    obtain ⟨hs, hd⟩ := h
    constructor
    · show table.find? _ = none
      rw [List.find?_eq_none]
      intro t _ hf
      obtain ⟨hmark, hsingle⟩ := fires_iff.mp hf
      obtain rfl := eq_of_startsWith hmark (startsWith_mark_of_doubled hd)
      exact absurd hd (by simp [hsingle])
    · rw [unescape?, find?_eq_some hs hd fun t ht => startsWith_mark_of_doubled ht]
      rfl
  | plain =>
    constructor
    · show table.find? _ = none
      rw [List.find?_eq_none]
      intro s hs hf
      exact absurd (fires_iff.mp hf).1 (by simp [h s hs])
    · show (table.find? _).map _ = none
      rw [Option.map_eq_none_iff, List.find?_eq_none]
      intro s hs hd
      exact absurd (startsWith_mark_of_doubled hd) (by simp [h s hs])

end
end Beginning
end Sigil

namespace Page
open Html Html.Node Sigil

section
variable {c : Context} {tag : Tag} {cs : List Node} {s : Sigil}

/-- What is written without a tag and without a blank in front holds more than blanks. -/
theorem isAllBlank_content {verbatim : Bool} {ch : Char} {rest : Text} (htag : ch ≠ '<')
    (hblank : isBlank ch = false) (h : writeAllIn verbatim cs = ch :: rest) :
    isAllBlank (cs.flatMap Node.content) = false := by
  have hescape : ∀ {d : Char} {u : Text}, escapeChar d ++ u = ch :: rest → isBlank d = false := by
    intro d u hd
    unfold escapeChar at hd
    split at hd <;> first | rfl | exact (List.cons.inj hd).1 ▸ hblank
  have htext : ∀ {t u : Text}, (if verbatim then t else escape t) ++ u = ch :: rest →
      t = [] ∨ isAllBlank t = false := by
    intro t u ht
    cases t with
    | nil => exact .inl rfl
    | cons d t =>
      have hd : isBlank d = false := by
        cases verbatim with
        | true => exact (List.cons.inj ht).1 ▸ hblank
        | false => exact hescape (u := escape t ++ u) (by simpa [escape] using ht)
      exact .inr (by simp [isAllBlank, hd])
  induction cs with
  | nil => exact nomatch h
  | cons n ns ih =>
    rw [writeAllIn] at h
    have hcontent : ∀ t : Text, n.content = t → n.writeIn verbatim = (if verbatim then t else escape t) →
        isAllBlank ((n :: ns).flatMap Node.content) = false := by
      intro t hn hw
      rw [hw] at h
      rw [List.flatMap_cons, hn, isAllBlank, List.all_append]
      rcases htext h with rfl | ht
      · have hskip : writeAllIn verbatim ns = ch :: rest := by cases verbatim <;> exact h
        exact ih hskip
      · rw [show t.all isBlank = false from ht, Bool.false_and]
    cases n with
    | element tag ds =>
      rw [writeIn] at h
      split at h <;> exact absurd (List.cons.inj h).1.symm htag
    | text t => exact hcontent t rfl (by rw [writeIn])
    | aside t => exact hcontent t rfl (by rw [writeIn])
    | note kind t =>
      rw [writeIn] at h
      cases kind <;> exact absurd (List.cons.inj h).1.symm htag

/-- A paragraph that begins with a mark does not hold an image alone. -/
theorem loneImage?_of_mark (h : startsWith s.mark (Node.element tag cs).writeInner = true) :
    loneImage? cs = none := by
  obtain ⟨rest, hrest⟩ := startsWith_iff.mp h
  obtain ⟨ch, more, hmark, htag, hblank⟩ :
      ∃ ch more, s.mark = ch :: more ∧ ch ≠ '<' ∧ isBlank ch = false := by
    cases s <;> exact ⟨_, _, rfl, by decide, by decide⟩
  rw [hmark] at hrest
  have hfull := isAllBlank_content htag hblank hrest
  unfold loneImage?
  split
  · rw [hfull, Bool.and_false]
    rfl
  · rfl

/-- A paragraph with an escaped mark keeps its tag, and the walk goes on with what it holds read anew
without one of the marks. -/
theorem visit_escaped (fuel : Nat) (ahead : Bool)
    (h : (Beginning.escaped s).Holds c.sigils (Node.element tag cs).writeInner) :
    visit c (fuel + 1) .paragraph ahead (.element tag cs) = (do
      take tag
      let inner ← lift (Appearance.reread tag ((Node.element tag cs).writeInner.drop s.mark.length))
      return .element tag (← visitAll (visit c fuel .flow) ahead inner)) := by
  obtain ⟨hselect, hcollapse⟩ := h.answers
  have hlone := loneImage?_of_mark (startsWith_mark_of_doubled h.2)
  rw [visit]
  dsimp only [finishParagraph]
  rw [hselect, hlone, hcollapse]
  rfl

end

/-- Markup begins in one of three ways, whatever sigils a table holds and in whatever order: a sigil
acts, a mark is escaped, or there is none.  A paragraph with an escaped mark is neither acted on nor
made a figure.  One more mark before a mark is undone. -/
theorem dispatch_of_beginning (table : List Sigil) (inner : Text) :
    (∃! b : Beginning, b.Holds table inner) ∧
    (∀ b : Beginning, b.Holds table inner → ∀ order : List Sigil, order.Perm table →
      select? order inner = b.sigil? ∧ unescape? order inner = b.collapsed? inner) ∧
    (∀ s, (Beginning.escaped s).Holds table inner → ∀ (c : Context) (tag : Tag) (cs : List Node),
      c.sigils = table → (Node.element tag cs).writeInner = inner → ∀ (fuel : Nat) (ahead : Bool),
        visit c (fuel + 1) .paragraph ahead (.element tag cs) = (do
          take tag
          let read ← lift (Appearance.reread tag (inner.drop s.mark.length))
          return .element tag (← visitAll (visit c fuel .flow) ahead read))) ∧
    (∀ s ∈ table, startsWith s.mark inner = true →
      select? table (s.mark ++ inner) = none ∧ unescape? table (s.mark ++ inner) = some inner) := by
  refine ⟨?_, ?_, ?_, ?_⟩
  · refine ⟨Beginning.of table inner, Beginning.holds_iff.mpr rfl, ?_⟩
    intro b hb
    exact Beginning.holds_iff.mp hb
  · intro b hb order hperm
    exact (hb.perm hperm).answers
  · intro s hs c tag cs htable hinner fuel ahead
    subst htable hinner
    exact visit_escaped fuel ahead hs
  · intro s hs hmark
    have hescaped : (Beginning.escaped s).Holds table (s.mark ++ inner) :=
      ⟨hs, startsWith_doubled_append hmark⟩
    obtain ⟨hselect, hcollapse⟩ := hescaped.answers
    refine ⟨hselect, ?_⟩
    rw [hcollapse, Beginning.collapsed?, drop_mark_append]

/-- An ampersand written twice, and one written three times. -/
theorem dispatch_of_beginning_embed :
    (Beginning.escaped .embed).Holds [.embed, .small] "&amp;&amp;x".toList ∧
    select? [.small, .embed] "&amp;&amp;x".toList = none ∧
    unescape? [.small, .embed] "&amp;&amp;x".toList = some "&amp;x".toList ∧
    visit { Context.bare with sigils := [.embed, .small] } 2 .paragraph false
        (.element (.of "p" []) [.text "&&x".toList]) = (do
      take (.of "p" [])
      let read ← lift (Appearance.reread (.of "p" []) "&amp;x".toList)
      return .element (.of "p" []) (← visitAll
        (visit { Context.bare with sigils := [.embed, .small] } 1 .flow) false read)) ∧
    unescape? [.embed, .small] "&amp;&amp;&amp;x".toList = some "&amp;&amp;x".toList := by
  have hspec := dispatch_of_beginning [.embed, .small] "&amp;&amp;x".toList
  have hb : (Beginning.escaped .embed).Holds [.embed, .small] "&amp;&amp;x".toList :=
    ⟨by decide, by decide⟩
  obtain ⟨hselect, hcollapse⟩ := hspec.2.1 _ hb [.small, .embed] (List.Perm.swap _ _ _)
  refine ⟨hb, hselect, hcollapse, ?_, ?_⟩
  · exact hspec.2.2.1 .embed hb _ _ _ rfl (by decide) 1 false
  · exact (hspec.2.2.2 .embed (by decide) (by decide)).2

end Page
end Lectern
