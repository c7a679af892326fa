import Lectern.Html.Tree
import Lectern.Proofs.Words

/-!
# Attributes that are read again

The attributes of an element stand in the order of their names, each name once, and of a list of words
only the words are kept.  So the attributes of an element that has been read come out the same when they
are written and read again.

* `Tag.kept`        the attributes that an element of a name gets when it is read;
* `Tag.kept_kept`   they are what it gets when it is read again.
-/

namespace Lectern
open Text

namespace Text

theorem le_trans {s t u : Text} (h : le s t = true) (h' : le t u = true) : le s u = true := by
  induction s generalizing t u with
  | nil => rfl
  | cons a s ih =>
    cases t with
    | nil => exact absurd h Bool.false_ne_true
    | cons b t =>
      cases u with
      | nil => exact absurd h' Bool.false_ne_true
      | cons c u =>
        rw [le] at h h' ⊢
        by_cases hab : a = b
        · subst hab
          rw [if_pos rfl] at h
          by_cases hac : a = c
          · rw [if_pos hac] at h' ⊢
            exact ih h h'
          · rw [if_neg hac] at h' ⊢
            exact h'
        · rw [if_neg hab] at h
          by_cases hbc : b = c
          · subst hbc
            rw [if_neg hab]
            exact h
          · rw [if_neg hbc] at h'
            have hlt : a.val < c.val := UInt32.lt_trans (of_decide_eq_true h) (of_decide_eq_true h')
            have hac : a ≠ c := fun e => UInt32.lt_irrefl _ (e ▸ hlt)
            rw [if_neg hac]
            exact decide_eq_true hlt

theorem le_antisymm {s t : Text} (h : le s t = true) (h' : le t s = true) : s = t := by
  induction s generalizing t with
  | nil =>
    cases t with
    | nil => rfl
    | cons b t => exact absurd h' Bool.false_ne_true
  | cons a s ih =>
    cases t with
    | nil => exact absurd h Bool.false_ne_true
    | cons b t =>
      rw [le] at h h'
      by_cases hab : a = b
      · subst hab
        rw [if_pos rfl] at h h'
        rw [ih h h']
      · rw [if_neg hab] at h
        rw [if_neg (Ne.symm hab)] at h'
        exact absurd (of_decide_eq_true h') (UInt32.lt_asymm (of_decide_eq_true h))

theorem le_total (s t : Text) : le s t = true ∨ le t s = true := by
  induction s generalizing t with
  | nil => exact .inl rfl
  | cons a s ih =>
    cases t with
    | nil => exact .inr rfl
    | cons b t =>
      rw [le, le]
      by_cases hab : a = b
      · subst hab
        rw [if_pos rfl, if_pos rfl]
        exact ih t
      · rw [if_neg hab, if_neg (Ne.symm hab)]
        have hne : a.val ≠ b.val := fun e => hab (Char.ext e)
        rcases UInt32.lt_or_lt_of_ne hne with h | h
        · exact .inl (decide_eq_true h)
        · exact .inr (decide_eq_true h)

end Text

namespace Html

/-! ## order -/

/-- The names stand in order, each once. -/
def InOrder (as : List (Text × Text)) : Prop :=
  as.Pairwise fun a b => a.1 ≠ b.1 ∧ le a.1 b.1 = true

theorem mem_putAttribute {name value : Text} {as : List (Text × Text)} {a : Text × Text}
    (h : a ∈ putAttribute name value as) : a = (name, value) ∨ a ∈ as := by
  induction as with
  | nil => exact .inl (List.mem_singleton.mp h)
  | cons b as ih =>
    rw [putAttribute] at h
    split at h
    · rename_i hn
      subst hn
      rcases List.mem_cons.mp h with rfl | h
      · exact .inl rfl
      · exact .inr (List.mem_cons_of_mem _ h)
    · split at h
      · exact List.mem_cons.mp h
      · rcases List.mem_cons.mp h with rfl | h
        · exact .inr List.mem_cons_self
        · exact (ih h).imp_right (List.mem_cons_of_mem _)

theorem inOrder_putAttribute {as : List (Text × Text)} (h : InOrder as) (name value : Text) :
    InOrder (putAttribute name value as) := by
  induction as with
  | nil => exact List.pairwise_singleton _ _
  | cons b as ih =>
    obtain ⟨hb, has⟩ := List.pairwise_cons.mp h
    rw [putAttribute]
    split
    · exact List.pairwise_cons.mpr ⟨hb, has⟩
    · rename_i hne
      split
      · rename_i hle
        refine List.pairwise_cons.mpr ⟨fun a ha => ?_, h⟩
        rcases List.mem_cons.mp ha with rfl | ha
        · exact ⟨Ne.symm hne, hle⟩
        · have hlt := hb a ha
          refine ⟨fun e => ?_, le_trans hle hlt.2⟩
          subst e
          exact hlt.1 (le_antisymm hlt.2 hle)
      · rename_i hle
        refine List.pairwise_cons.mpr ⟨fun a ha => ?_, ih has⟩
        rcases mem_putAttribute ha with rfl | ha
        · exact ⟨hne, (le_total _ _).resolve_right hle⟩
        · exact hb a ha

theorem inOrder_foldl {as : List (Text × Text)} (bs : List (Text × Text)) (h : InOrder as) :
    InOrder (bs.foldl (fun as a => putAttribute a.1 a.2 as) as) := by
  induction bs generalizing as with
  | nil => exact h
  | cons b bs ih => exact ih (inOrder_putAttribute h b.1 b.2)

/-- An attribute behind all that are there. -/
theorem putAttribute_last {as : List (Text × Text)} {b : Text × Text}
    (h : ∀ a ∈ as, a.1 ≠ b.1 ∧ le a.1 b.1 = true) : putAttribute b.1 b.2 as = as ++ [b] := by
  induction as with
  | nil => rfl
  | cons a as ih =>
    obtain ⟨hne, hle⟩ := h a List.mem_cons_self
    have hnle : ¬ le b.1 a.1 = true := fun e => hne (le_antisymm hle e)
    rw [putAttribute, if_neg hne, if_neg hnle, ih fun c hc => h c (List.mem_cons_of_mem _ hc)]
    rfl

theorem foldl_putAttribute {as bs : List (Text × Text)} (h : InOrder (as ++ bs)) :
    bs.foldl (fun as a => putAttribute a.1 a.2 as) as = as ++ bs := by
  induction bs generalizing as with
  | nil => exact (List.append_nil as).symm
  | cons b bs ih =>
    have hb := putAttribute_last fun a ha =>
      (List.pairwise_append.mp h).2.2 a ha b List.mem_cons_self
    rw [List.foldl_cons, hb, ih (by simpa using h), List.append_assoc]
    rfl

/-! ## what is kept -/

theorem keptAttribute_fst (element : Text) (a : Text × Text) : (keptAttribute element a).1 = a.1 := by
  unfold keptAttribute
  split <;> rfl

theorem keptAttribute_keptAttribute (element : Text) (a : Text × Text) :
    keptAttribute element (keptAttribute element a) = keptAttribute element a := by
  by_cases h : holdsWords element a.1 = true
  · have hkept : keptAttribute element a = (a.1, join [' '] (words a.2)) := by rw [keptAttribute, if_pos h]
    rw [hkept, keptAttribute, if_pos h, words_join fun w hw => isWord_of_mem_words hw]
  · have hkept : keptAttribute element a = a := by rw [keptAttribute, if_neg h]
    rw [hkept, hkept]

/-- The attributes that an element of a name gets when it is read. -/
def Tag.kept (name : Text) (as : List (Text × Text)) : List (Text × Text) :=
  (as.map (keptAttribute name)).foldl (fun as a => putAttribute a.1 a.2 as) []

theorem Tag.inOrder_kept (name : Text) (as : List (Text × Text)) : InOrder (Tag.kept name as) :=
  inOrder_foldl _ .nil

theorem mem_foldl_putAttribute {as bs : List (Text × Text)} {a : Text × Text}
    (h : a ∈ bs.foldl (fun as a => putAttribute a.1 a.2 as) as) : a ∈ as ∨ a ∈ bs := by
  induction bs generalizing as with
  | nil => exact .inl h
  | cons b bs ih =>
    rcases ih h with h | h
    · rcases mem_putAttribute h with rfl | h
      · exact .inr List.mem_cons_self
      · exact .inl h
    · exact .inr (List.mem_cons_of_mem _ h)

/-- What is kept comes from what was written. -/
theorem Tag.mem_kept {name : Text} {as : List (Text × Text)} {a : Text × Text} (h : a ∈ Tag.kept name as) :
    ∃ b ∈ as, keptAttribute name b = a :=
  List.mem_map.mp ((mem_foldl_putAttribute h).resolve_left List.not_mem_nil)

theorem Tag.kept_kept (name : Text) (as : List (Text × Text)) :
    Tag.kept name (Tag.kept name as) = Tag.kept name as := by
  have hfix : ∀ a ∈ Tag.kept name as, keptAttribute name a = id a := fun a ha => by
    obtain ⟨b, -, rfl⟩ := Tag.mem_kept ha
    exact keptAttribute_keptAttribute name b
  have hmap : (Tag.kept name as).map (keptAttribute name) = Tag.kept name as :=
    (List.map_congr_left hfix).trans (List.map_id _)
  calc Tag.kept name (Tag.kept name as)
      = ((Tag.kept name as).map (keptAttribute name)).foldl (fun as a => putAttribute a.1 a.2 as) [] := rfl
    _ = (Tag.kept name as).foldl (fun as a => putAttribute a.1 a.2 as) [] := by rw [hmap]
    _ = Tag.kept name as := foldl_putAttribute (Tag.inOrder_kept name as)

end Html
end Lectern
