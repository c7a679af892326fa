import Lectern.Proofs.Html.Elements
import Lectern.Slides.Presentation

/-!
# Alerts go to the top

The alerts of a page are taken out of it and put together before its main part, or first in its body,
or before all of it.  Where no alert holds another one or the main part, nothing else changes and doing it
again changes nothing.  Where there is no main part and the body stands in an alert, the alerts leave the
page with it.

* `alertsOf`             the elements of a page that are alerts;
* `AlertsApart`          no alert holds an alert or the main part;
* `AtFirst`              the first element of a name, exchanged for nodes;
* `exchangeFirstAll?_spec`   which is what the search for it does;
* `Relocated`            what it means that the alerts of a page have gone to the top;
* `relocateAlerts_outcome`   where they do, and where they are lost.
-/

namespace Lectern.Slides
open Html Html.Node Text

def isAlert (n : Node) : Bool := isA "p" "alert" n

/-- The alerts of a page in document order. -/
def alertsOf (page : List Node) : List Node := (elementsAll page).filter isAlert

/-- There is no element of a kind. -/
def HasNo (p : Node → Bool) (ns : List Node) : Prop := ∀ e ∈ elementsAll ns, p e = false

instance (p : Node → Bool) (ns : List Node) : Decidable (HasNo p ns) :=
  inferInstanceAs (Decidable (∀ e ∈ elementsAll ns, p e = false))

abbrev NoAlerts (ns : List Node) : Prop := HasNo isAlert ns

/-- There is no element of a name. -/
abbrev Lacks (name : Text) (ns : List Node) : Prop := HasNo (·.isNamed name) ns

/-- No alert holds an alert or the main part. -/
def AlertsApart (page : List Node) : Prop :=
  ∀ a ∈ alertsOf page, NoAlerts a.children ∧ Lacks "main" a.children

instance (page : List Node) : Decidable (AlertsApart page) :=
  inferInstanceAs (Decidable (∀ a ∈ alertsOf page, NoAlerts a.children ∧ Lacks "main" a.children))

/-! ## elements of a kind -/

section
variable {p : Node → Bool} {name : Text} {n : Node} {ms ns : List Node} {tag : Tag} {cs : List Node}

theorem hasNo_nil : HasNo p [] := fun _ he => absurd he List.not_mem_nil

theorem hasNo_append : HasNo p (ms ++ ns) ↔ HasNo p ms ∧ HasNo p ns := by
  rw [HasNo, elementsAll_append, List.forall_mem_append]
  rfl

theorem hasNo_cons : HasNo p (n :: ns) ↔ HasNo p [n] ∧ HasNo p ns :=
  @hasNo_append p [n] ns

theorem hasNo_element : HasNo p [.element tag cs] ↔ p (.element tag cs) = false ∧ HasNo p cs := by
  rw [HasNo, elementsAll_single, elements, List.forall_mem_cons]
  rfl

theorem hasNo_other (h : n.isElement = false) : HasNo p [n] := by
  rw [HasNo, elementsAll_single, elements_of_not_isElement h]
  exact fun _ he => absurd he List.not_mem_nil

theorem lacks_element : Lacks name [.element tag cs] ↔ tag.name ≠ name ∧ Lacks name cs := by
  have hself : (Node.element tag cs).isNamed name = false ↔ tag.name ≠ name := by
    simp [isNamed, name?, tag?]
  rw [← hself]
  exact hasNo_element

end

/-! ## pages without their alerts -/

section
variable {n : Node} {ms ns as : List Node} {tag : Tag} {cs : List Node}

theorem isAlert_element (tag : Tag) (cs : List Node) : isAlert (.element tag cs) = isAlertTag tag := rfl

theorem name_of_isAlertTag (h : isAlertTag tag = true) : tag.name = "p".toList := by
  have hnamed := (Bool.and_eq_true_iff.mp h).1
  simpa [isNamed, name?, tag?] using hnamed

theorem noAlerts_element : NoAlerts [.element tag cs] ↔ isAlertTag tag = false ∧ NoAlerts cs := hasNo_element

theorem alertsOf_append (ms ns : List Node) : alertsOf (ms ++ ns) = alertsOf ms ++ alertsOf ns := by
  rw [alertsOf, elementsAll_append, List.filter_append]
  rfl

theorem alertsOf_cons (n : Node) (ns : List Node) : alertsOf (n :: ns) = alertsOf [n] ++ alertsOf ns :=
  alertsOf_append [n] ns

theorem alertsOf_eq_nil : alertsOf ns = [] ↔ NoAlerts ns := by
  simp [alertsOf, HasNo, List.filter_eq_nil_iff]

theorem alertsOf_element_of_false (h : isAlertTag tag = false) : alertsOf [.element tag cs] = alertsOf cs := by
  rw [alertsOf, elementsAll_single, elements, List.filter_cons_of_neg (by simp [isAlert_element, h])]
  rfl

theorem alertsOf_element_of_true (h : isAlertTag tag = true) :
    alertsOf [.element tag cs] = .element tag cs :: alertsOf cs := by
  rw [alertsOf, elementsAll_single, elements,
    List.filter_cons_of_pos (show isAlert (.element tag cs) = true from h)]
  rfl

theorem withoutAlertsAll_append (ms ns : List Node) :
    withoutAlertsAll (ms ++ ns) = withoutAlertsAll ms ++ withoutAlertsAll ns := by
  induction ms with
  | nil => rfl
  | cons m ms ih => rw [List.cons_append, withoutAlertsAll, withoutAlertsAll, ih, List.append_assoc]

theorem withoutAlertsAll_cons (n : Node) (ns : List Node) :
    withoutAlertsAll (n :: ns) = withoutAlertsAll [n] ++ withoutAlertsAll ns :=
  withoutAlertsAll_append [n] ns

theorem withoutAlertsAll_element (tag : Tag) (cs : List Node) :
    withoutAlertsAll [.element tag cs] =
      if isAlertTag tag then [] else [.element tag (withoutAlertsAll cs)] := by
  rw [withoutAlertsAll, withoutAlerts, withoutAlertsAll, List.append_nil]

theorem withoutAlertsAll_other (h : n.isElement = false) : withoutAlertsAll [n] = [n] := by
  cases n with
  | element tag cs => exact absurd h (by simp [isElement, tag?])
  | _ => rfl

theorem noAlerts_withoutAlertsAll (ns : List Node) : NoAlerts (withoutAlertsAll ns) := by
  induction ns using list_induction with
  | nil => exact hasNo_nil
  | cons n ns hn hns =>
    rw [withoutAlertsAll_cons]
    exact hasNo_append.mpr ⟨hn, hns⟩
  | element tag cs ih =>
    rw [withoutAlertsAll_element]
    split
    · exact hasNo_nil
    · exact noAlerts_element.mpr ⟨Bool.eq_false_iff.mpr ‹_›, ih⟩
  | other n hn =>
    rw [withoutAlertsAll_other hn]
    exact hasNo_other hn

theorem withoutAlertsAll_of_noAlerts (h : NoAlerts ns) : withoutAlertsAll ns = ns := by
  induction ns using list_induction with
  | nil => rfl
  | cons n ns hn hns =>
    obtain ⟨hfirst, hrest⟩ := hasNo_cons.mp h
    rw [withoutAlertsAll_cons, hn hfirst, hns hrest]
    rfl
  | element tag cs ih =>
    obtain ⟨htag, hcs⟩ := noAlerts_element.mp h
    rw [withoutAlertsAll_element, htag, ih hcs]
    rfl
  | other n hn => exact withoutAlertsAll_other hn

/-- Where no alert holds another one, the alerts that are found are the elements that are alerts. -/
theorem alertsAll_eq_alertsOf (h : ∀ a ∈ alertsOf ns, NoAlerts a.children) : alertsAll ns = alertsOf ns := by
  induction ns using list_induction with
  | nil => rfl
  | cons n ns hn hns =>
    rw [alertsOf_cons] at h ⊢
    obtain ⟨hfirst, hrest⟩ := List.forall_mem_append.mp h
    have hfound : alertsAll (n :: ns) = alertsAll [n] ++ alertsAll ns := by
      rw [alertsAll, alertsAll, alertsAll, List.append_nil]
    rw [hfound, hn hfirst, hns hrest]
  | element tag cs ih =>
    rw [alertsAll, alerts, alertsAll, List.append_nil]
    split
    · rename_i htag
      rw [alertsOf_element_of_true htag] at h ⊢
      obtain ⟨hself, hinside⟩ := List.forall_mem_cons.mp h
      rw [withoutAlertsAll_of_noAlerts (show NoAlerts cs from hself), ih hinside]
    · rename_i htag
      rw [alertsOf_element_of_false (Bool.eq_false_iff.mpr htag)] at h ⊢
      exact ih h
  | other n hn =>
    rw [alertsOf, elementsAll_single, elements_of_not_isElement hn]
    cases n with
    | element tag cs => exact absurd hn (by simp [isElement, tag?])
    | _ => rfl

theorem exists_of_isAlert {a : Node} (h : isAlert a = true) :
    ∃ tag cs, a = .element tag cs ∧ isAlertTag tag = true := by
  cases a with
  | element tag cs => exact ⟨tag, cs, rfl, h⟩
  | _ => exact nomatch h

theorem withoutAlertsAll_alerts (h : ∀ a ∈ as, isAlert a = true) : withoutAlertsAll as = [] := by
  induction as with
  | nil => rfl
  | cons a as ih =>
    obtain ⟨hfirst, hrest⟩ := List.forall_mem_cons.mp h
    obtain ⟨tag, cs, rfl, htag⟩ := exists_of_isAlert hfirst
    rw [withoutAlertsAll_cons, withoutAlertsAll_element, if_pos htag, ih hrest]
    rfl

theorem alertsOf_alerts (h : ∀ a ∈ as, isAlert a = true ∧ NoAlerts a.children) : alertsOf as = as := by
  induction as with
  | nil => rfl
  | cons a as ih =>
    obtain ⟨⟨hfirst, hinside⟩, hrest⟩ := List.forall_mem_cons.mp h
    obtain ⟨tag, cs, rfl, htag⟩ := exists_of_isAlert hfirst
    rw [alertsOf_cons, alertsOf_element_of_true htag, alertsOf_eq_nil.mpr (show NoAlerts cs from hinside),
      ih hrest]
    rfl

end

/-! ## the first element of a name -/

/-- The first element of a name among some trees is exchanged for the nodes that `put` makes of it. -/
inductive AtFirst (name : Text) (put : Tag → List Node → List Node) : List Node → List Node → Prop where
  | here {tag : Tag} {cs ns : List Node} (hname : tag.name = name) :
    AtFirst name put (.element tag cs :: ns) (put tag cs ++ ns)
  | inside {tag : Tag} {cs cs' ns : List Node} (hname : tag.name ≠ name) (h : AtFirst name put cs cs') :
    AtFirst name put (.element tag cs :: ns) (.element tag cs' :: ns)
  | later {n : Node} {ns ns' : List Node} (hn : Lacks name [n]) (h : AtFirst name put ns ns') :
    AtFirst name put (n :: ns) (n :: ns')

section
variable {name : Text} {put : Tag → List Node → List Node} {ns ns' : List Node}

theorem exchangeFirstAll?_cons (n : Node) (ns : List Node) :
    exchangeFirstAll? name put (n :: ns) =
      match exchangeFirstAll? name put [n] with
      | some ms => some (ms ++ ns)
      | none => (exchangeFirstAll? name put ns).map (n :: ·) := by
  rw [exchangeFirstAll?, exchangeFirstAll?, exchangeFirstAll?]
  cases exchangeFirst? name put n with
  | none => rfl
  | some ms => simp

theorem exchangeFirstAll?_element (tag : Tag) (cs : List Node) :
    exchangeFirstAll? name put [.element tag cs] =
      if tag.name = name then some (put tag cs)
      else (exchangeFirstAll? name put cs).map fun cs => [.element tag cs] := by
  rw [exchangeFirstAll?, exchangeFirst?, exchangeFirstAll?]
  by_cases hname : tag.name = name
  · simp only [if_pos hname, List.append_nil]
  · simp only [if_neg hname]
    cases exchangeFirstAll? name put cs <;> rfl

theorem AtFirst.append (h : AtFirst name put ns ns') (ms : List Node) :
    AtFirst name put (ns ++ ms) (ns' ++ ms) := by
  induction h with
  | here hname =>
    rw [List.append_assoc]
    exact .here hname
  | inside hname h _ => exact .inside hname h
  | later hn _ ih => exact .later hn ih

/-- The search exchanges the first element of the name, and fails only where there is none. -/
theorem exchangeFirstAll?_spec (name : Text) (put : Tag → List Node → List Node) (ns : List Node) :
    (∀ ns', exchangeFirstAll? name put ns = some ns' → AtFirst name put ns ns') ∧
      (exchangeFirstAll? name put ns = none → Lacks name ns) := by
  induction ns using list_induction with
  | nil => exact ⟨fun ns' h => (nomatch h), fun _ => hasNo_nil⟩
  | cons n ns hn hns =>
    rw [exchangeFirstAll?_cons]
    cases he : exchangeFirstAll? name put [n] with
    | some ms =>
      refine ⟨fun ns' h => ?_, fun h => nomatch h⟩
      obtain rfl := Option.some.inj h
      exact (hn.1 ms he).append ns
    | none =>
      refine ⟨fun ns' h => ?_, fun h => ?_⟩
      · obtain ⟨ms, hms, rfl⟩ := Option.map_eq_some_iff.mp h
        exact .later (hn.2 he) (hns.1 ms hms)
      · exact hasNo_cons.mpr ⟨hn.2 he, hns.2 (Option.map_eq_none_iff.mp h)⟩
  | element tag cs ih =>
    rw [exchangeFirstAll?_element]
    split
    · rename_i hname
      refine ⟨fun ns' h => ?_, fun h => nomatch h⟩
      obtain rfl := Option.some.inj h
      have hhere : AtFirst name put ([.element tag cs] ++ []) (put tag cs ++ []) := .here hname
      rwa [List.append_nil, List.append_nil] at hhere
    · rename_i hname
      refine ⟨fun ns' h => ?_, fun h => ?_⟩
      · obtain ⟨cs', hcs', rfl⟩ := Option.map_eq_some_iff.mp h
        exact .inside hname (ih.1 cs' hcs')
      · exact lacks_element.mpr ⟨hname, ih.2 (Option.map_eq_none_iff.mp h)⟩
  | other n hn =>
    refine ⟨fun ns' h => ?_, fun _ => hasNo_other hn⟩
    cases n with
    | element tag cs => exact absurd hn (by simp [isElement, tag?])
    | _ => exact nomatch h

theorem exists_exchangeFirstAll? (put : Tag → List Node → List Node) (h : ¬ Lacks name ns) :
    ∃ ns', exchangeFirstAll? name put ns = some ns' ∧ AtFirst name put ns ns' := by
  obtain ⟨hsome, hnone⟩ := exchangeFirstAll?_spec name put ns
  cases he : exchangeFirstAll? name put ns with
  | none => exact absurd (hnone he) h
  | some ns' => exact ⟨ns', rfl, hsome ns' he⟩

namespace AtFirst
variable (h : AtFirst name put ns ns')
include h

theorem withoutAlertsAll_eq
    (hput : ∀ tag cs, withoutAlertsAll (put tag cs) = withoutAlertsAll [.element tag cs]) :
    withoutAlertsAll ns' = withoutAlertsAll ns := by
  induction h with
  | here => rw [withoutAlertsAll_append, hput, ← withoutAlertsAll_cons]
  | inside _ _ ih =>
    rw [withoutAlertsAll_cons, withoutAlertsAll_element, ih, ← withoutAlertsAll_element,
      ← withoutAlertsAll_cons]
  | later _ _ ih => rw [withoutAlertsAll_cons, ih, ← withoutAlertsAll_cons]

theorem alertsOf_eq {as : List Node} (hns : NoAlerts ns)
    (hput : ∀ tag cs, NoAlerts [.element tag cs] → alertsOf (put tag cs) = as) : alertsOf ns' = as := by
  induction h with
  | here =>
    obtain ⟨hfirst, hrest⟩ := hasNo_cons.mp hns
    rw [alertsOf_append, hput _ _ hfirst, alertsOf_eq_nil.mpr hrest, List.append_nil]
  | inside _ _ ih =>
    obtain ⟨hfirst, hrest⟩ := hasNo_cons.mp hns
    obtain ⟨htag, hcs⟩ := noAlerts_element.mp hfirst
    rw [alertsOf_cons, alertsOf_element_of_false htag, ih hcs, alertsOf_eq_nil.mpr hrest, List.append_nil]
  | later _ _ ih =>
    obtain ⟨hfirst, hrest⟩ := hasNo_cons.mp hns
    rw [alertsOf_cons, alertsOf_eq_nil.mpr hfirst, ih hrest, List.nil_append]

theorem lacks {other : Text} (hns : Lacks other ns)
    (hput : ∀ tag cs, Lacks other [.element tag cs] → Lacks other (put tag cs)) : Lacks other ns' := by
  induction h with
  | here =>
    obtain ⟨hfirst, hrest⟩ := hasNo_cons.mp hns
    exact hasNo_append.mpr ⟨hput _ _ hfirst, hrest⟩
  | inside _ _ ih =>
    obtain ⟨hfirst, hrest⟩ := hasNo_cons.mp hns
    obtain ⟨htag, hcs⟩ := lacks_element.mp hfirst
    exact hasNo_cons.mpr ⟨lacks_element.mpr ⟨htag, ih hcs⟩, hrest⟩
  | later _ _ ih =>
    obtain ⟨hfirst, hrest⟩ := hasNo_cons.mp hns
    exact hasNo_cons.mpr ⟨hfirst, ih hrest⟩

end AtFirst

end

/-! ## where the first element of a name stands -/

section
variable {name : Text} {inside : Bool} {ns ns' : List Node}

theorem firstInAlertAll?_cons (n : Node) (ns : List Node) :
    firstInAlertAll? name inside (n :: ns) =
      (firstInAlertAll? name inside [n]).or (firstInAlertAll? name inside ns) := by
  rw [firstInAlertAll?, firstInAlertAll?, firstInAlertAll?, Option.or_none]

theorem firstInAlertAll?_append (ms ns : List Node) :
    firstInAlertAll? name inside (ms ++ ns) =
      (firstInAlertAll? name inside ms).or (firstInAlertAll? name inside ns) := by
  induction ms with
  | nil => rfl
  | cons m ms ih =>
    rw [List.cons_append, firstInAlertAll?_cons, ih, ← Option.or_assoc, ← firstInAlertAll?_cons]

theorem firstInAlertAll?_element (tag : Tag) (cs : List Node) :
    firstInAlertAll? name inside [.element tag cs] =
      if tag.name = name then some inside else firstInAlertAll? name (inside || isAlertTag tag) cs := by
  rw [firstInAlertAll?, firstInAlert?, firstInAlertAll?, Option.or_none]

theorem firstInAlertAll?_other {n : Node} (h : n.isElement = false) : firstInAlertAll? name inside [n] = none := by
  cases n with
  | element tag cs => exact absurd h (by simp [isElement, tag?])
  | _ => rfl

theorem firstInAlertAll?_eq_none : firstInAlertAll? name inside ns = none ↔ Lacks name ns := by
  induction ns using list_induction generalizing inside with
  | nil => exact ⟨fun _ => hasNo_nil, fun _ => rfl⟩
  | cons n ns hn hns => rw [firstInAlertAll?_cons, Option.or_eq_none_iff, hn, hns, ← hasNo_cons]
  | element tag cs ih =>
    rw [firstInAlertAll?_element, lacks_element]
    split
    · simp [*]
    · rw [ih]
      exact ⟨fun h => ⟨‹_›, h⟩, fun h => h.2⟩
  | other n hn => exact ⟨fun _ => hasNo_other hn, fun _ => firstInAlertAll?_other hn⟩

/-- All that stands in an alert is in it. -/
theorem firstInAlertAll?_inside (ns : List Node) : firstInAlertAll? name true ns ≠ some false := by
  induction ns using list_induction with
  | nil => exact nofun
  | cons n ns hn hns =>
    rw [firstInAlertAll?_cons]
    intro h
    rcases Option.or_eq_some_iff.mp h with h | ⟨-, h⟩
    · exact hn h
    · exact hns h
  | element tag cs ih =>
    rw [firstInAlertAll?_element]
    split
    · exact nofun
    · exact ih
  | other n hn =>
    rw [firstInAlertAll?_other hn]
    exact nofun

/-- It stands in an alert, which holds an element of the name. -/
theorem exists_alert_of_firstInAlertAll? (h : firstInAlertAll? name false ns = some true) :
    ∃ a ∈ alertsOf ns, ¬ Lacks name a.children := by
  induction ns using list_induction with
  | nil => exact nomatch h
  | cons n ns hn hns =>
    rw [firstInAlertAll?_cons] at h
    rw [alertsOf_cons]
    rcases Option.or_eq_some_iff.mp h with h | ⟨-, h⟩
    · obtain ⟨a, ha, hlacks⟩ := hn h
      exact ⟨a, List.mem_append_left _ ha, hlacks⟩
    · obtain ⟨a, ha, hlacks⟩ := hns h
      exact ⟨a, List.mem_append_right _ ha, hlacks⟩
  | element tag cs ih =>
    rw [firstInAlertAll?_element] at h
    split at h
    · exact nomatch h
    · cases htag : isAlertTag tag with
      | false =>
        rw [htag] at h
        rw [alertsOf_element_of_false htag]
        exact ih h
      | true =>
        rw [alertsOf_element_of_true htag]
        refine ⟨_, List.mem_cons_self, fun hlacks => ?_⟩
        rw [htag, firstInAlertAll?_eq_none.mpr (show Lacks name cs from hlacks)] at h
        exact nomatch h
  | other n hn =>
    rw [firstInAlertAll?_other hn] at h
    exact nomatch h

/-- It stands in no alert, and is there without them. -/
theorem not_lacks_of_firstInAlertAll? (hp : name ≠ "p".toList)
    (h : firstInAlertAll? name false ns = some false) : ¬ Lacks name (withoutAlertsAll ns) := by
  induction ns using list_induction with
  | nil => exact nomatch h
  | cons n ns hn hns =>
    rw [firstInAlertAll?_cons] at h
    rw [withoutAlertsAll_cons]
    intro hlacks
    obtain ⟨hfirst, hrest⟩ := hasNo_append.mp hlacks
    rcases Option.or_eq_some_iff.mp h with h | ⟨-, h⟩
    · exact hn h hfirst
    · exact hns h hrest
  | element tag cs ih =>
    rw [firstInAlertAll?_element] at h
    rw [withoutAlertsAll_element]
    split at h
    · rename_i hname
      have htag : ¬ isAlertTag tag = true := fun htag => hp (hname ▸ name_of_isAlertTag htag)
      rw [if_neg htag]
      exact fun hlacks => (lacks_element.mp hlacks).1 hname
    · cases htag : isAlertTag tag with
      | false =>
        rw [htag] at h
        exact fun hlacks => ih h (lacks_element.mp hlacks).2
      | true =>
        rw [htag] at h
        exact absurd h (firstInAlertAll?_inside cs)
  | other n hn =>
    rw [firstInAlertAll?_other hn] at h
    exact nomatch h

theorem AtFirst.firstInAlertAll?_eq {put : Tag → List Node → List Node} (h : AtFirst name put ns ns')
    (hns : NoAlerts ns)
    (hput : ∀ tag cs, tag.name = name → firstInAlertAll? name false (put tag cs) = some false) :
    firstInAlertAll? name false ns' = some false := by
  induction h with
  | here hname => rw [firstInAlertAll?_append, hput _ _ hname, Option.some_or]
  | inside hname _ ih =>
    obtain ⟨htag, hcs⟩ := noAlerts_element.mp (hasNo_cons.mp hns).1
    rw [firstInAlertAll?_cons, firstInAlertAll?_element, if_neg hname, htag, Bool.or_self, ih hcs,
      Option.some_or]
  | later hn _ ih =>
    rw [firstInAlertAll?_cons, firstInAlertAll?_eq_none.mpr hn, Option.none_or]
    exact ih (hasNo_cons.mp hns).2

end

/-! ## what becomes of a page -/

/-- The alerts of a page have gone to the top: they stand there as they were and in their order, nothing
else has changed, and there is nothing left to do. -/
structure Relocated (page : List Node) (r : List Node × Nat) : Prop where
  number : r.2 = (alertsOf page).length
  alerts : alertsOf r.1 = alertsOf page
  rest : withoutAlertsAll r.1 = withoutAlertsAll page
  beforeMain : ¬ Lacks "main" page →
    AtFirst "main" (fun tag cs => alertsOf page ++ [.element tag cs]) (withoutAlertsAll page) r.1
  inBody : Lacks "main" page → ¬ Lacks "body" page →
    AtFirst "body" (fun tag cs => [.element tag (alertsOf page ++ cs)]) (withoutAlertsAll page) r.1
  onTop : Lacks "main" page → Lacks "body" page → r.1 = alertsOf page ++ withoutAlertsAll page
  again : relocateAlerts r.1 = r

section
variable {page : List Node}

theorem AlertsApart.isAlert (h : AlertsApart page) {a : Node} (ha : a ∈ alertsOf page) :
    isAlert a = true ∧ NoAlerts a.children := ⟨(List.mem_filter.mp ha).2, (h a ha).1⟩

/-- Alerts that hold no main part are none themselves. -/
theorem AlertsApart.lacks_main (h : AlertsApart page) : Lacks "main" (alertsOf page) := by
  have hall : ∀ as : List Node, (∀ a ∈ as, a ∈ alertsOf page) → Lacks "main" as := by
    intro as
    induction as with
    | nil => exact fun _ => hasNo_nil
    | cons a as ih =>
      intro has
      obtain ⟨hfirst, hrest⟩ := List.forall_mem_cons.mp has
      obtain ⟨tag, cs, rfl, htag⟩ := exists_of_isAlert (h.isAlert hfirst).1
      refine hasNo_cons.mpr ⟨lacks_element.mpr ⟨?_, (h _ hfirst).2⟩, ih hrest⟩
      rw [name_of_isAlertTag htag]
      decide
  exact hall _ fun _ ha => ha

theorem AlertsApart.found (h : AlertsApart page) : alertsAll page = alertsOf page :=
  alertsAll_eq_alertsOf fun a ha => (h a ha).1

theorem AlertsApart.of_eq (h : AlertsApart page) {moved : List Node} (he : alertsOf moved = alertsOf page) :
    AlertsApart moved := fun a ha => h a (he ▸ ha)

theorem lacks_withoutAlertsAll {name : Text} {ns : List Node} (h : Lacks name ns) :
    Lacks name (withoutAlertsAll ns) := by
  induction ns using list_induction with
  | nil => exact hasNo_nil
  | cons n ns hn hns =>
    obtain ⟨hfirst, hrest⟩ := hasNo_cons.mp h
    rw [withoutAlertsAll_cons]
    exact hasNo_append.mpr ⟨hn hfirst, hns hrest⟩
  | element tag cs ih =>
    obtain ⟨hname, hcs⟩ := lacks_element.mp h
    rw [withoutAlertsAll_element]
    split
    · exact hasNo_nil
    · exact lacks_element.mpr ⟨hname, ih hcs⟩
  | other n hn =>
    rw [withoutAlertsAll_other hn]
    exact h

theorem lacks_alertsOf {name : Text} {ns : List Node} (h : Lacks name ns) : Lacks name (alertsOf ns) := by
  intro e he
  obtain ⟨a, ha, hin⟩ := mem_elementsAll.mp he
  rw [← elementsAll_single] at hin
  exact h e (elementsAll_subset (List.mem_filter.mp ha).1 hin)

/-! ### what is put where -/

section
variable {as : List Node} (h : ∀ a ∈ as, Slides.isAlert a = true ∧ NoAlerts a.children)
include h

theorem withoutAlertsAll_before (ns : List Node) : withoutAlertsAll (as ++ ns) = withoutAlertsAll ns := by
  rw [withoutAlertsAll_append, withoutAlertsAll_alerts fun a ha => (h a ha).1, List.nil_append]

theorem alertsOf_before {ns : List Node} (hns : NoAlerts ns) : alertsOf (as ++ ns) = as := by
  rw [alertsOf_append, alertsOf_alerts h, alertsOf_eq_nil.mpr hns, List.append_nil]

theorem withoutAlertsAll_within (tag : Tag) (cs : List Node) :
    withoutAlertsAll [.element tag (as ++ cs)] = withoutAlertsAll [.element tag cs] := by
  rw [withoutAlertsAll_element, withoutAlertsAll_element, withoutAlertsAll_before h]

theorem alertsOf_within {tag : Tag} {cs : List Node} (hns : NoAlerts [.element tag cs]) :
    alertsOf [.element tag (as ++ cs)] = as := by
  obtain ⟨htag, hcs⟩ := noAlerts_element.mp hns
  rw [alertsOf_element_of_false htag, alertsOf_before h hcs]

end

/-! ### the three places -/

theorem relocateAlerts_of_main (h : AlertsApart page) (hmain : firstInAlertAll? "main" false page = some false) :
    relocateAlerts page =
      ((exchangeFirstAll? "main" (fun tag cs => alertsOf page ++ [.element tag cs]) (withoutAlertsAll page)).getD
        (withoutAlertsAll page), (alertsOf page).length) := by
  simp only [relocateAlerts, hmain, h.found]

theorem relocateAlerts_of_body (h : AlertsApart page) (hmain : Lacks "main" page)
    (hbody : firstInAlertAll? "body" false page = some false) :
    relocateAlerts page =
      ((exchangeFirstAll? "body" (fun tag cs => [.element tag (alertsOf page ++ cs)]) (withoutAlertsAll page)).getD
        (withoutAlertsAll page), (alertsOf page).length) := by
  simp only [relocateAlerts, firstInAlertAll?_eq_none.mpr hmain, hbody, h.found]

theorem relocateAlerts_of_lacks (h : AlertsApart page) (hmain : Lacks "main" page) (hbody : Lacks "body" page) :
    relocateAlerts page = (alertsOf page ++ withoutAlertsAll page, (alertsOf page).length) := by
  simp only [relocateAlerts, firstInAlertAll?_eq_none.mpr hmain, firstInAlertAll?_eq_none.mpr hbody, h.found]

theorem relocateAlerts_of_lost (h : AlertsApart page) (hmain : Lacks "main" page)
    (hbody : firstInAlertAll? "body" false page = some true) :
    relocateAlerts page = (withoutAlertsAll page, (alertsOf page).length) := by
  simp only [relocateAlerts, firstInAlertAll?_eq_none.mpr hmain, hbody, h.found]

/-- Alerts that are put where the first element of a name stands are all the alerts there are, nothing
else is changed, and the first element of that name is still outside them. -/
theorem exists_moved {name : Text} (put : Tag → List Node → List Node) (hp : name ≠ "p".toList)
    (hfirst : firstInAlertAll? name false page = some false)
    (hrest : ∀ tag cs, withoutAlertsAll (put tag cs) = withoutAlertsAll [.element tag cs])
    (halerts : ∀ tag cs, NoAlerts [.element tag cs] → alertsOf (put tag cs) = alertsOf page)
    (hstays : ∀ tag cs, tag.name = name → firstInAlertAll? name false (put tag cs) = some false) :
    ∃ moved, exchangeFirstAll? name put (withoutAlertsAll page) = some moved ∧
      AtFirst name put (withoutAlertsAll page) moved ∧ withoutAlertsAll moved = withoutAlertsAll page ∧
      alertsOf moved = alertsOf page ∧ firstInAlertAll? name false moved = some false := by
  obtain ⟨moved, hmoved, hat⟩ := exists_exchangeFirstAll? put (not_lacks_of_firstInAlertAll? hp hfirst)
  have hnone := noAlerts_withoutAlertsAll page
  have hsame : withoutAlertsAll moved = withoutAlertsAll page := by
    rw [hat.withoutAlertsAll_eq hrest, withoutAlertsAll_of_noAlerts hnone]
  exact ⟨moved, hmoved, hat, hsame, hat.alertsOf_eq hnone halerts, hat.firstInAlertAll?_eq hnone hstays⟩

theorem not_lacks_of_first {name : Text} (hfirst : firstInAlertAll? name false page = some false) :
    ¬ Lacks name page := by
  rw [← firstInAlertAll?_eq_none, hfirst]
  exact nofun

theorem relocated_main (h : AlertsApart page) (hmain : firstInAlertAll? "main" false page = some false) :
    Relocated page (relocateAlerts page) := by
  have hparts : ∀ a ∈ alertsOf page, isAlert a = true ∧ NoAlerts a.children := fun a ha => h.isAlert ha
  obtain ⟨moved, hmoved, hat, hrest, halerts, hfirst⟩ :=
    exists_moved (fun tag cs => alertsOf page ++ [.element tag cs]) (by decide) hmain
      (fun tag cs => withoutAlertsAll_before hparts [.element tag cs])
      (fun tag cs hns => alertsOf_before hparts hns) (by
        intro tag cs hname
        rw [firstInAlertAll?_append, firstInAlertAll?_eq_none.mpr h.lacks_main, Option.none_or,
          firstInAlertAll?_element, if_pos hname])
  have hpage : relocateAlerts page = (moved, (alertsOf page).length) := by
    rw [relocateAlerts_of_main h hmain, hmoved, Option.getD_some]
  have hagain : relocateAlerts moved = (moved, (alertsOf page).length) := by
    rw [relocateAlerts_of_main (h.of_eq halerts) hfirst, halerts, hrest, hmoved, Option.getD_some]
  have hthere := not_lacks_of_first hmain
  rw [hpage]
  exact ⟨rfl, halerts, hrest, fun _ => hat, fun hlacks => absurd hlacks hthere,
    fun hlacks => absurd hlacks hthere, hagain⟩

theorem relocated_body (h : AlertsApart page) (hmain : Lacks "main" page)
    (hbody : firstInAlertAll? "body" false page = some false) : Relocated page (relocateAlerts page) := by
  have hparts : ∀ a ∈ alertsOf page, isAlert a = true ∧ NoAlerts a.children := fun a ha => h.isAlert ha
  obtain ⟨moved, hmoved, hat, hrest, halerts, hfirst⟩ :=
    exists_moved (fun tag cs => [.element tag (alertsOf page ++ cs)]) (by decide) hbody
      (withoutAlertsAll_within hparts) (fun tag cs hns => alertsOf_within hparts hns) (by
        intro tag cs hname
        rw [firstInAlertAll?_element, if_pos hname])
  have hstill : Lacks "main" moved := by
    apply hat.lacks (lacks_withoutAlertsAll hmain)
    intro tag cs hlacks
    obtain ⟨hname, hcs⟩ := lacks_element.mp hlacks
    exact lacks_element.mpr ⟨hname, hasNo_append.mpr ⟨h.lacks_main, hcs⟩⟩
  have hpage : relocateAlerts page = (moved, (alertsOf page).length) := by
    rw [relocateAlerts_of_body h hmain hbody, hmoved, Option.getD_some]
  have hagain : relocateAlerts moved = (moved, (alertsOf page).length) := by
    rw [relocateAlerts_of_body (h.of_eq halerts) hstill hfirst, halerts, hrest, hmoved, Option.getD_some]
  have hthere := not_lacks_of_first hbody
  rw [hpage]
  exact ⟨rfl, halerts, hrest, fun hlacks => absurd hmain hlacks, fun _ _ => hat,
    fun _ hlacks => absurd hlacks hthere, hagain⟩

theorem relocated_top (h : AlertsApart page) (hmain : Lacks "main" page) (hbody : Lacks "body" page) :
    Relocated page (relocateAlerts page) := by
  have hnone := noAlerts_withoutAlertsAll page
  have hparts : ∀ a ∈ alertsOf page, isAlert a = true ∧ NoAlerts a.children := fun a ha => h.isAlert ha
  have hrest : withoutAlertsAll (alertsOf page ++ withoutAlertsAll page) = withoutAlertsAll page :=
    (withoutAlertsAll_before hparts _).trans (withoutAlertsAll_of_noAlerts hnone)
  have halerts : alertsOf (alertsOf page ++ withoutAlertsAll page) = alertsOf page :=
    alertsOf_before hparts hnone
  have hstill : ∀ {name : Text}, Lacks name page → Lacks name (alertsOf page ++ withoutAlertsAll page) :=
    fun hlacks => hasNo_append.mpr ⟨lacks_alertsOf hlacks, lacks_withoutAlertsAll hlacks⟩
  have hagain : relocateAlerts (alertsOf page ++ withoutAlertsAll page) =
      (alertsOf page ++ withoutAlertsAll page, (alertsOf page).length) := by
    rw [relocateAlerts_of_lacks (h.of_eq halerts) (hstill hmain) (hstill hbody), halerts, hrest]
  rw [relocateAlerts_of_lacks h hmain hbody]
  exact ⟨rfl, halerts, hrest, fun hlacks => absurd hmain hlacks, fun _ hlacks => absurd hbody hlacks,
    fun _ _ => rfl, hagain⟩

end

/-- The alerts of a page go to the top, unless there is no main part and the first body stands in one of
them: then, if there is anything in that body, they all leave the page. -/
theorem relocateAlerts_outcome (page : List Node) (h : AlertsApart page) :
    (¬ (Lacks "main" page ∧ firstInAlertAll? "body" false page = some true) →
      Relocated page (relocateAlerts page)) ∧
    (Lacks "main" page → firstInAlertAll? "body" false page = some true →
      ((elementsAll page).find? (·.isNamed "body")).any (!·.children.isEmpty) = true →
      alertsOf page ≠ [] ∧ relocateAlerts page = (withoutAlertsAll page, (alertsOf page).length)) := by
  constructor
  · intro hkept
    cases hmain : firstInAlertAll? "main" false page with
    | some inside =>
      cases inside with
      | false => exact relocated_main h hmain
      | true =>
        obtain ⟨a, ha, hheld⟩ := exists_alert_of_firstInAlertAll? hmain
        exact absurd (h a ha).2 hheld
    | none =>
      have hlacks := firstInAlertAll?_eq_none.mp hmain
      cases hbody : firstInAlertAll? "body" false page with
      | none => exact relocated_top h hlacks (firstInAlertAll?_eq_none.mp hbody)
      | some inside =>
        cases inside with
        | false => exact relocated_body h hlacks hbody
        | true => exact absurd ⟨hlacks, hbody⟩ hkept
  · intro hmain hbody _
    refine ⟨?_, relocateAlerts_of_lost h hmain hbody⟩
    obtain ⟨a, ha, -⟩ := exists_alert_of_firstInAlertAll? hbody
    exact List.ne_nil_of_mem ha

/-- A body in an alert. -/
def bodyInAlert : List Node :=
  [.element (.of "p" [("class", "alert")]) [.text ['x'], .element (.of "body" []) [.text ['y']]]]

/-- An alert that is counted, and gone. -/
theorem alert_lost : AlertsApart bodyInAlert ∧ (alertsOf bodyInAlert).length = 1 ∧
    (relocateAlerts bodyInAlert).2 = 1 ∧ (relocateAlerts bodyInAlert).1 = [] ∧
    ¬ Relocated bodyInAlert (relocateAlerts bodyInAlert) := by
  have hone : (alertsOf bodyInAlert).length = 1 := by decide
  have hgone : (relocateAlerts bodyInAlert).1 = [] := rfl
  refine ⟨by decide, hone, rfl, hgone, fun hmoved => ?_⟩
  have hnone := hmoved.alerts
  rw [hgone] at hnone
  rw [← hnone] at hone
  exact nomatch hone

/-- An alert between the words of a page and its main part. -/
def alertInDiv : List Node :=
  [.element (.of "body" []) [.element (.of "div" [])
    [.text ['a'], .element (.of "p" [("class", "alert")]) [.text ['x']]], .element (.of "main" []) []]]

theorem relocateAlerts_outcome_alertInDiv : AlertsApart alertInDiv ∧
    Relocated alertInDiv (relocateAlerts alertInDiv) ∧
    alertsOf bodyInAlert ≠ [] ∧ relocateAlerts bodyInAlert = (withoutAlertsAll bodyInAlert, 1) := by
  have hapart : AlertsApart alertInDiv := by decide
  have hthere : ¬ Lacks "main" alertInDiv := by decide
  obtain ⟨hne, hlost⟩ :=
    (relocateAlerts_outcome bodyInAlert (by decide)).2 (by decide) (by decide) (by decide)
  exact ⟨hapart, (relocateAlerts_outcome alertInDiv hapart).1 fun hlost => hthere hlost.1, hne, hlost⟩

end Lectern.Slides
