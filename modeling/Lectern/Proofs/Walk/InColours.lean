import Lectern.Proofs.Walk.Agree
import Lectern.Proofs.Walk.Colours
import Lectern.Proofs.Walk.Images

/-!
# The walk with colours for code beside the walk without

* `agree_finishParagraph`   a paragraph;
* `FlowAgrees`, `RowsAgree`   the two kinds of visits, up to a depth;
* `agrees`                  they hold at every depth;
* `colours_only_in_code`    the whole walk.
-/

namespace Lectern.Page
open Text Html Html.Node Markdown

/-- With colours for code or without, and the same otherwise. -/
def Context.inColours (c : Context) (on : Bool) : Context := { c with appearance := c.appearance.inColours on }

/-- One node beside the other. -/
def BesideNode (inTable : Bool) (n₁ n₀ : Node) : Prop := Beside inTable [n₁] [n₀]

section
variable {inTable : Bool} {c : Context} {tag tag' : Tag} {cs cs₁ cs₀ ns : List Node} {n n₁ n₀ : Node} {remainder : Text}
  {walk₁ walk₀ : List Node → Walk (List Node)} {m : Walk Node}

theorem addSourcesAll?_single (sources : List Node) (n : Node) :
    addSourcesAll? sources [n] = (addSources? sources n).map fun n' => [n'] := by
  cases h : addSources? sources n with
  | none => rw [addSourcesAll?_cons_of_none h, addSourcesAll?, mapFirstAll?_nil]; rfl
  | some n' => rw [addSourcesAll?_cons_of_some h]; rfl

theorem receptive_besideNode : Receptive (BesideNode inTable) := fun n₁ n₀ sources h hs => by
  have := Beside.given h hs
  rw [addSourcesAll?_single, addSourcesAll?_single] at this
  obtain ⟨h₁, h₀⟩ | ⟨ms₁, ms₀, h₁, h₀, hms⟩ := this
  · exact .inl ⟨Option.map_eq_none_iff.mp h₁, Option.map_eq_none_iff.mp h₀⟩
  · obtain ⟨m₁, e₁, rfl⟩ := Option.map_eq_some_iff.mp h₁
    obtain ⟨m₀, e₀, rfl⟩ := Option.map_eq_some_iff.mp h₀
    exact .inr ⟨m₁, m₀, e₁, e₀, hms⟩

/-- One node visited twice, of which a property holds that sources leave. -/
theorem receptive_same {Q : List Node → Prop}
    (hQ : ∀ n sources ns, Q [n] → AreSources sources → addSourcesAll? sources [n] = some ns → Q ns) :
    Receptive fun n₁ n₀ => n₁ = n₀ ∧ Q [n₁] := fun n₁ n₀ sources h hs => by
  obtain ⟨rfl, hn⟩ := h
  cases hg : addSources? sources n₁ with
  | none => exact .inl ⟨rfl, rfl⟩
  | some n => exact .inr ⟨n, n, rfl, rfl, rfl, hQ n₁ sources [n] hn hs (addSourcesAll?_cons_of_some hg [])⟩

theorem forall₂_same {Q : List Node → Prop} (h : ∀ n ∈ ns, Q [n]) :
    List.Forall₂ (fun n₁ n₀ => n₁ = n₀ ∧ Q [n₁]) ns ns := by
  induction ns with
  | nil => exact .nil
  | cons n ns ih => exact .cons ⟨rfl, h n List.mem_cons_self⟩ (ih fun m hm => h m (List.mem_cons_of_mem _ hm))

theorem Orderly.of_mem (h : Orderly inTable ns) (hn : n ∈ ns) : Orderly inTable [n] :=
  h.part fun _ he => mem_elementsAll_of_mem hn he

theorem NoLecture.of_mem (h : NoLecture ns) (hn : n ∈ ns) : NoLecture [n] := fun t ht =>
  h t (mem_tagsAll_of_mem hn ht)

theorem NoRows.of_mem (h : NoRows ns) (hn : n ∈ ns) : NoRows [n] := fun t ht => h t (mem_tagsAll_of_mem hn ht)

/-- A visit that does not look for rows, and takes for a paragraph what is one. -/
def Visit.InFlow (n : Node) : Visit → Prop
  | .flow => True
  | .paragraph => ∀ t, n.tag? = some t → isOneOf paragraphNames t = true
  | .paragraphIf names => ∀ name ∈ names, name ∈ paragraphNames
  | .rows _ => False

/-- Visits of the same node, up to a depth. -/
def FlowAgrees (c : Context) (fuel : Nat) : Prop :=
  ∀ inTable how ahead n, Visit.InFlow n how → Orderly inTable [n] →
    Agree (visit (c.inColours true) fuel how ahead n) (visit (c.inColours false) fuel how ahead n)
      (BesideNode inTable)

/-- Visits for the rows of a table of nodes that stand beside each other, up to a depth. -/
def RowsAgree (c : Context) (fuel : Nat) : Prop := ∀ g ahead n₁ n₀, BesideNode true n₁ n₀ →
  Agree (visit (c.inColours true) fuel (.rows g) ahead n₁) (visit (c.inColours false) fuel (.rows g) ahead n₀)
    (BesideNode false)

variable {fuel : Nat} {g : Nat}

theorem FlowAgrees.all (hf : FlowAgrees c fuel) {how : Visit} (hhow : ∀ n, how.InFlow n) (ahead : Bool)
    (h : Orderly inTable ns) :
    Agree (visitAll (visit (c.inColours true) fuel how) ahead ns) (visitAll (visit (c.inColours false) fuel how) ahead ns)
      (Beside inTable) := by
  refine (agree_visitAll (I := fun n₁ n₀ => n₁ = n₀ ∧ Orderly inTable [n₁])
    (receptive_same fun n sources ns hn hs hg => hn.given hs hg) (fun _ _ h => h.1 ▸ rfl)
    (fun _ _ h => Beside.holdsLecture h) (fun ahead n₁ n₀ hn => ?_) ahead
    (forall₂_same fun n hn => h.of_mem hn)).weaken fun _ _ => .of_forall₂
  obtain ⟨rfl, hn⟩ := hn
  exact hf inTable how ahead n₁ (hhow n₁) hn

theorem RowsAgree.all (hr : RowsAgree c fuel) (ahead : Bool) (h : Beside true cs₁ cs₀) :
    Agree (visitAll (visit (c.inColours true) fuel (.rows g)) ahead cs₁)
      (visitAll (visit (c.inColours false) fuel (.rows g)) ahead cs₀) (Beside false) :=
  (agree_visitAll receptive_besideNode (fun _ _ h => Beside.holdsLecture h) (fun _ _ h => Beside.holdsLecture h)
    (fun ahead n₁ n₀ hn => hr g ahead n₁ n₀ hn) ahead h.forall₂).weaken fun _ _ => .of_forall₂

/-! ## nodes without rows -/

end
end Lectern.Page
