import Lectern.Markdown.Render
import Lectern.Proofs.Html.Reading

/-!
# Values of attributes read back

A value is written with its ampersands, angle brackets and quotes as references, and reading the
references gives the value back.

* `Spells`              a text that stands for another one wherever it is read;
* `spells_escape`, `spells_escapeMarkup`   the two ways to write a value;
* `writesAttribute_quoted`, `writesAttribute_attr`   whole attributes.
-/

namespace Lectern.Html
open Text

/-- The references in `w` read give `v`, whatever follows. -/
def Spells (w v : Text) : Prop :=
  ∀ rest, Entity.unescapeAux 0 (w ++ rest) = (Entity.unescapeAux 0 rest).map (v ++ ·)

theorem Spells.unescape {w v : Text} (h : Spells w v) : unescape w = .ok v := by
  have := h []
  rw [List.append_nil] at this
  rw [Text.unescape, this]
  exact congrArg Except.ok (List.append_nil v)

theorem spells_nil : Spells [] [] := fun rest => by
  rw [List.nil_append]
  cases Entity.unescapeAux 0 rest <;> rfl

theorem Spells.append {w w' v v' : Text} (h : Spells w v) (h' : Spells w' v') :
    Spells (w ++ w') (v ++ v') := fun rest => by
  rw [List.append_assoc, h, h']
  cases Entity.unescapeAux 0 rest with
  | error e => rfl
  | ok t => exact congrArg Except.ok (List.append_assoc v v' t).symm

theorem Spells.flatMap {f : Char → Text} (h : ∀ c, Spells (f c) [c]) (v : Text) : Spells (v.flatMap f) v := by
  induction v with
  | nil => exact spells_nil
  | cons c v ih => exact (h c).append ih

theorem spells_char {c : Char} (hc : c ≠ '&') : Spells [c] [c] := fun rest => by
  rw [List.cons_append, List.nil_append, Entity.unescapeAux, if_neg hc]
  rfl

theorem spells_reference (name : Text) {c : Char}
    (hn : ∀ rest, Entity.reference? (name ++ ';' :: rest) = some (name ++ [';']))
    (hr : Entity.resolve (name ++ [';']) = .ok [c]) : Spells ('&' :: name ++ [';']) [c] := fun rest => by
  have skip : ∀ (skipped t : Text), Entity.unescapeAux skipped.length (skipped ++ t) = Entity.unescapeAux 0 t := by
    intro skipped t
    induction skipped with
    | nil => rfl
    | cons d ds ih => rw [List.cons_append, List.length_cons, Entity.unescapeAux, ih]
  have ht : '&' :: name ++ [';'] ++ rest = '&' :: (name ++ ';' :: rest) := by simp
  have hs := skip (name ++ [';']) rest
  rw [List.append_assoc, List.cons_append, List.nil_append] at hs
  rw [ht, Entity.unescapeAux, if_pos rfl, hn]
  dsimp only
  rw [hr, hs]
  cases Entity.unescapeAux 0 rest <;> rfl

theorem spells_amp : Spells "&amp;".toList ['&'] := spells_reference "amp" (fun _ => rfl) rfl

theorem spells_lt : Spells "&lt;".toList ['<'] := spells_reference "lt" (fun _ => rfl) rfl

theorem spells_gt : Spells "&gt;".toList ['>'] := spells_reference "gt" (fun _ => rfl) rfl

theorem spells_quot : Spells "&quot;".toList ['"'] := spells_reference "quot" (fun _ => rfl) rfl

theorem spells_escapeChar (c : Char) : Spells (escapeChar c) [c] := by
  unfold escapeChar
  split
  · exact spells_amp
  · exact spells_lt
  · exact spells_gt
  · exact spells_char ‹_›

theorem spells_escape (v : Text) : Spells (escape v) v := Spells.flatMap spells_escapeChar v

/-! ## quotes -/

theorem replaceAll_sign (c : Char) (new t : Text) :
    replaceAll [c] new t = t.flatMap fun d => if d = c then new else [d] := by
  rw [replaceAll, if_neg (List.cons_ne_nil c [])]
  induction t with
  | nil => rfl
  | cons d t ih =>
    by_cases hd : d = c
    · subst hd
      have hs : startsWith [d] (d :: t) = true := by simp [startsWith, stripPrefix?]
      rw [replaceAux, if_pos hs, List.flatMap_cons, if_pos rfl]
      exact congrArg (new ++ ·) ih
    · have hs : startsWith [c] (d :: t) = false := by simp [startsWith, stripPrefix?, Ne.symm hd]
      rw [replaceAux, hs, List.flatMap_cons, if_neg hd]
      exact congrArg (d :: ·) ih

/-- A sign as it stands between double quotes. -/
def quotableChar (c : Char) : Text := if c = '"' then "&quot;" else escapeChar c

theorem replaceAll_escape (v : Text) :
    replaceAll ['"'] "&quot;" (escape v) = v.flatMap quotableChar := by
  rw [replaceAll_sign, escape, List.flatMap_assoc]
  refine congrArg (v.flatMap ·) (funext fun c => ?_)
  unfold quotableChar escapeChar
  split <;> first | rfl | (split <;> simp_all)

theorem spells_quotableChar (c : Char) : Spells (quotableChar c) [c] := by
  unfold quotableChar
  split
  · subst c
    exact spells_quot
  · exact spells_escapeChar c

theorem quote_not_mem_quotable (v : Text) : '"' ∉ v.flatMap quotableChar := by
  intro h
  obtain ⟨c, -, hc⟩ := List.mem_flatMap.mp h
  unfold quotableChar at hc
  split at hc
  · exact absurd hc (by decide)
  · rename_i hquote
    unfold escapeChar at hc
    split at hc <;> first
      | exact absurd hc (by decide)
      | exact hquote (List.mem_singleton.mp hc).symm

theorem writesAttribute_quotedValue {a : Text × Text} (hn : IsAttributeName a.1) :
    WritesAttribute a (' ' :: a.1 ++ '=' :: quotedValue a.2) := by
  have quoted (q : Char) (w : Text) (hq : q = '"' ∨ q = '\'') (hw : q ∉ w) (hs : Spells w a.2) :
      WritesAttribute a (' ' :: a.1 ++ '=' :: ([q] ++ w ++ [q])) := by
    have := WritesAttribute.quoted q w hq hw hs.unescape hn
    rwa [List.append_assoc] at this
  unfold quotedValue
  dsimp only
  split
  · split
    · rw [replaceAll_escape]
      exact quoted '"' _ (.inl rfl) (quote_not_mem_quotable _) (Spells.flatMap spells_quotableChar _)
    · rename_i h
      exact quoted '\'' _ (.inr rfl) (by simpa using h) (spells_escape _)
  · rename_i h
    exact quoted '"' _ (.inl rfl) (by simpa using h) (spells_escape _)

end Lectern.Html

namespace Lectern.Markdown
open Text Html

theorem escapeChar_eq (c : Char) : escapeChar c = quotableChar c := by
  by_cases hsign : c = '&' ∨ c = '<' ∨ c = '>' ∨ c = '"'
  · rcases hsign with rfl | rfl | rfl | rfl <;> rfl
  · obtain ⟨hamp, hlt, hgt, hquot⟩ : c ≠ '&' ∧ c ≠ '<' ∧ c ≠ '>' ∧ c ≠ '"' := by simpa using hsign
    rw [escapeChar, if_neg hamp, if_neg hlt, if_neg hgt, if_neg hquot, quotableChar, if_neg hquot]
    unfold Html.escapeChar
    split <;> first | contradiction | rfl

theorem escapeMarkup_eq (t : Text) : escapeMarkup t = t.flatMap quotableChar := by
  rw [escapeMarkup, funext escapeChar_eq]

theorem writesAttribute_attr {name : String} (hn : IsAttributeName name.toList) (value : Text) :
    WritesAttribute (name.toList, value) (attr name value) := by
  have := WritesAttribute.quoted (a := (name.toList, value)) '"' (escapeMarkup value) (.inl rfl)
    (escapeMarkup_eq value ▸ quote_not_mem_quotable value)
    (escapeMarkup_eq value ▸ (Spells.flatMap spells_quotableChar value).unescape) hn
  simpa [attr] using this

theorem reads_quotableChar (c : Char) : Reads (quotableChar c) [.text [c]] := by
  unfold quotableChar
  split
  · subst c
    exact reads_quot
  · exact reads_escapeChar c

theorem reads_escapeMarkup {t : Text} (ht : t ≠ []) : Reads (escapeMarkup t) [.text t] :=
  escapeMarkup_eq t ▸ Reads.of_signs (fun c _ => reads_quotableChar c) ht

end Lectern.Markdown
