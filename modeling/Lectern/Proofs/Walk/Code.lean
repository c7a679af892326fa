import Lectern.Proofs.Highlight.Written
import Lectern.Proofs.Html.Serial
import Lectern.Proofs.Journal
import Lectern.Proofs.Walk.Shape

/-!
# What becomes of code and of preformatted text

Code keeps what it holds, or gets spans and text in place of it, and nothing of its tag changes but its class.

* `Tinted`                                       what code may come to hold;
* `finishCode_eq_ok`, `finishBlockCode_eq_ok`    code on its own, and in preformatted text;
* `finishFirstCode_eq_ok`, `finishPre_eq_ok`     preformatted text: its first code exchanged, or a strip of times
                                                 read again.
-/

namespace Lectern.Page
open Text Html Html.Node

/-- What code holds: what it would hold without colours, or spans and text that have been read from markup. -/
def Tinted (tag : Tag) (plain children : List Node) : Prop :=
  children = plain ∨
    ∀ t ∈ tagsAll children, t.name = "span".toList ∧ t.generation = tag.generation + 1 ∧ t.spent = false

namespace Appearance
variable {a : Appearance} {tag : Tag} {cs plain children : List Node} {n : Node} {named : Option Tag}
  {language code : Text}

theorem codeChildren_eq_ok (h : a.codeChildren tag language code plain = .ok children) :
    Tinted tag plain children := by
  unfold codeChildren at h
  split at h
  · rename_i l _
    obtain ⟨ns, hread, hgrown, -⟩ := Highlight.grown_coloured l code (tag.generation + 1)
    obtain rfl := Except.ok.inj (hread.symm.trans h)
    refine .inr fun t ht => ?_
    obtain ⟨⟨_, hname, -⟩, -⟩ := hgrown.isOf ht
    exact ⟨hname, of_mem_tagsAll_parse h ht⟩
  · exact .inl (Except.ok.inj h).symm

/-- Without a language code gets the class of a terminal, else that of the language. -/
theorem finishCode_eq_ok (h : a.finishCode tag cs = .ok n) :
    ∃ value code children, n = .element (tag.set "class" value) children ∧ Tinted tag [.text code] children := by
  unfold finishCode at h
  split at h
  · exact ⟨_, _, _, (Except.ok.inj h).symm, .inl rfl⟩
  · rename_i language code _
    obtain ⟨children, hc, h⟩ := except_bind_eq_ok.mp h
    exact ⟨_, code, children, (Except.ok.inj h).symm, codeChildren_eq_ok hc⟩

theorem finishBlockCode_eq_ok (h : a.finishBlockCode tag cs = .ok (n, named)) :
    (named = some tag ∧ a.finishCode tag cs = .ok n) ∨
      (named = none ∧ ∃ children, n = .element tag children ∧ Tinted tag cs children) := by
  unfold finishBlockCode at h
  split at h
  · obtain ⟨m, hc, h⟩ := except_bind_eq_ok.mp h
    obtain ⟨rfl, rfl⟩ := Prod.mk.inj (Except.ok.inj h)
    exact .inl ⟨rfl, hc⟩
  · split at h
    · obtain ⟨rfl, rfl⟩ := Prod.mk.inj (Except.ok.inj h)
      exact .inr ⟨rfl, cs, rfl, .inl rfl⟩
    · obtain ⟨children, hc, h⟩ := except_bind_eq_ok.mp h
      obtain ⟨rfl, rfl⟩ := Prod.mk.inj (Except.ok.inj h)
      exact .inr ⟨rfl, children, rfl, codeChildren_eq_ok hc⟩

/-- What the walk finds in preformatted text is code. -/
theorem name_of_firstCode {t : Tag} {ds : List Node}
    (h : firstAll? (·.name = "code".toList) cs = some (.element t ds)) : t.name = "code".toList := by
  simpa [tag?] using List.find?_some h

theorem finishFirstCode_eq_ok (h : a.finishFirstCode tag cs = .ok (n, named)) :
    (n = .element tag cs ∧ named = none) ∨
      ∃ t ds code cs', firstAll? (·.name = "code".toList) cs = some (.element t ds) ∧
        a.finishBlockCode t ds = .ok (code, named) ∧
        mapFirstAll? (·.name = "code".toList) (fun _ _ => code) cs = some cs' ∧ n = .element tag cs' := by
  unfold finishFirstCode at h
  split at h
  · rename_i t ds hf
    rw [find?_eq_firstAll?] at hf
    obtain ⟨⟨code, _⟩, hb, h⟩ := except_bind_eq_ok.mp h
    obtain ⟨rfl, rfl⟩ := Prod.mk.inj (Except.ok.inj h)
    -- the code that was found is there to be exchanged
    have hsome : (mapFirstAll? (·.name = "code".toList) (fun _ _ => code) cs).isSome = true := by
      rw [mapFirstAll?_isSome, show firstAll? _ cs = _ from hf]
      rfl
    obtain ⟨cs', hcs⟩ := Option.isSome_iff_exists.mp hsome
    exact .inr ⟨t, ds, code, cs', hf, hb, hcs, by rw [hcs]; rfl⟩
  · obtain ⟨rfl, rfl⟩ := Prod.mk.inj (Except.ok.inj h)
    exact .inl ⟨rfl, rfl⟩

theorem finishPre_eq_ok (h : a.finishPre tag cs = .ok (n, named)) :
    (n = .element tag cs ∧ named = none) ∨
      (∃ inner es ds, elementsAll cs = inner :: es ∧
        reread tag (['\n'] ++ strip inner.writeInner ++ ['\n']) = .ok ds ∧ n = .element tag ds ∧ named = none) ∨
      a.finishFirstCode tag cs = .ok (n, named) := by
  unfold finishPre at h
  split at h
  · split at h
    · obtain ⟨rfl, rfl⟩ := Prod.mk.inj (Except.ok.inj h)
      exact .inl ⟨rfl, rfl⟩
    · rename_i inner es hes
      obtain ⟨ds, hr, h⟩ := except_bind_eq_ok.mp h
      obtain ⟨rfl, rfl⟩ := Prod.mk.inj (Except.ok.inj h)
      exact .inr (.inl ⟨inner, es, ds, hes, hr, rfl, rfl⟩)
  · exact .inr (.inr h)

end Appearance
end Lectern.Page
