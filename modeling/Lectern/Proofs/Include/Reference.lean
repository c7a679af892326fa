import Lectern.Include
import Mathlib.Data.List.TakeWhile

/-!
# What counts as a reference

`cut` finds references while it walks; here they are said without a walk.

* `FirstReference t before path rest`   `t` is `before`, the path in its braces and `rest`; no
                 reference starts earlier, and none that starts there has a shorter path;
* `NoReference t`   no place of `t` has one;
* `Refers t path`   the path is one of those found by looking for the first reference again and
                 again behind the one before.

Every text has either none or exactly one first reference, and what stands behind it is shorter:
this is the recursion of everything that goes through the references of a text
(`reference_induction`).  `cut_of_none` and `cut_of_first` are the two equations of `cut` along it.
-/

namespace Lectern.Include
open Text

/-- A path in its braces. -/
def written (path : Text) : Text := ['\x7b', '\x7b'] ++ path ++ ['\x7d', '\x7d']

/-- What may stand between the braces: one character or more, all on one line. -/
def IsPath (path : Text) : Prop := path ≠ [] ∧ '\n' ∉ path

structure FirstReference (t before path rest : Text) : Prop where
  eq : t = before ++ written path ++ rest
  isPath : IsPath path
  leftmost : ∀ b p r, t = b ++ written p ++ r → IsPath p → before.length ≤ b.length
  shortest : ∀ p r, t = before ++ written p ++ r → IsPath p → path.length ≤ p.length

def NoReference (t : Text) : Prop := ∀ b p r, t = b ++ written p ++ r → ¬ IsPath p

/-- The paths of the references of a text, none of which overlaps the one before. -/
inductive Refers : Text → Text → Prop where
  | first {t before path rest : Text} (h : FirstReference t before path rest) : Refers t path
  | later {t before path rest p : Text} (h : FirstReference t before path rest)
      (more : Refers rest p) : Refers t p

theorem length_written (path : Text) : (written path).length = path.length + 4 := by
  simp only [written, List.length_append, List.length_cons, List.length_nil]
  omega

section
variable {t before path rest : Text}

theorem FirstReference.length_lt (h : FirstReference t before path rest) :
    rest.length < t.length := by
  have := congrArg List.length h.eq
  simp only [List.length_append, length_written] at this
  omega

theorem FirstReference.not_noReference (h : FirstReference t before path rest) :
    ¬ NoReference t :=
  fun hn => hn _ _ _ h.eq h.isPath

/-- A text has one first reference. -/
theorem FirstReference.unique {before' path' rest' : Text}
    (h : FirstReference t before path rest) (h' : FirstReference t before' path' rest') :
    before = before' ∧ path = path' ∧ rest = rest' := by
  have hb : before.length = before'.length :=
    Nat.le_antisymm (h.leftmost _ _ _ h'.eq h'.isPath) (h'.leftmost _ _ _ h.eq h.isPath)
  have heq : before ++ (written path ++ rest) = before' ++ (written path' ++ rest') := by
    rw [← List.append_assoc, ← List.append_assoc, ← h.eq, ← h'.eq]
  obtain ⟨rfl, hafter⟩ := List.append_inj heq hb
  have hp : path.length = path'.length :=
    Nat.le_antisymm (h.shortest _ _ h'.eq h'.isPath) (h'.shortest _ _ h.eq h.isPath)
  obtain ⟨hw, rfl⟩ := List.append_inj hafter (by rw [length_written, length_written, hp])
  exact ⟨rfl, (List.append_inj (List.append_inj' hw rfl).1 rfl).2, rfl⟩

end

/-! ## the reference at a place -/

/-- The rest of the line, where it goes on past a pair of closing braces. -/
theorem takeWhile_closing {s r : Text} (hs : '\n' ∉ s) :
    (s ++ ['\x7d', '\x7d'] ++ r).takeWhile (· ≠ '\n') =
      s ++ ['\x7d', '\x7d'] ++ r.takeWhile (· ≠ '\n') := by
  refine List.takeWhile_append_of_pos fun d hd => decide_eq_true ?_
  rintro rfl
  rcases List.mem_append.mp hd with hd | hd
  · exact hs hd
  · revert hd
    decide

/-- The first closing braces of a line are those with the fewest characters before them. -/
theorem closing_eq_some {u : Text} {i : Nat}
    (h : indexOf? ['\x7d', '\x7d'] (u.takeWhile (· ≠ '\n')) = some i) :
    u = u.take i ++ ['\x7d', '\x7d'] ++ u.drop (i + 2) ∧ '\n' ∉ u.take i ∧ (u.take i).length = i ∧
      ∀ s r, u = s ++ ['\x7d', '\x7d'] ++ r → '\n' ∉ s → i ≤ s.length := by
  obtain ⟨⟨s, r, hline, rfl⟩, hmin⟩ := indexOf?_eq_some h
  have hu : u = s ++ (['\x7d', '\x7d'] ++ (r ++ u.dropWhile (· ≠ '\n'))) := by
    rw [← List.append_assoc s, ← List.append_assoc (s ++ _), ← hline,
      List.takeWhile_append_dropWhile]
  have hs : u.take s.length = s := by rw [hu, List.take_left]
  have hr : u.drop (s.length + 2) = r ++ u.dropWhile (· ≠ '\n') := by
    conv => lhs; rw [hu]
    rw [← List.drop_drop, List.drop_left]
    rfl
  refine ⟨?_, ?_, by rw [hs], fun s' r' hu' hs' => hmin s' _ (hu' ▸ takeWhile_closing hs')⟩
  · rw [hs, hr, List.append_assoc]
    exact hu
  · rw [hs]
    intro hmem
    have hmem : '\n' ∈ u.takeWhile (· ≠ '\n') := by
      rw [hline, List.append_assoc]
      exact List.mem_append_left _ hmem
    exact absurd (List.mem_takeWhile_imp hmem) (by decide)

theorem closing_eq_none {u : Text}
    (h : indexOf? ['\x7d', '\x7d'] (u.takeWhile (· ≠ '\n')) = none) (s r : Text)
    (hu : u = s ++ ['\x7d', '\x7d'] ++ r) : '\n' ∈ s := by
  by_cases hs : '\n' ∈ s
  · exact hs
  · exact absurd (hu ▸ takeWhile_closing hs) (indexOf?_eq_none h s _)

/-- What `reference?` finds is a reference, and the shortest one there. -/
theorem reference?_eq_some {t path rest : Text} (h : reference? t = some (path, rest)) :
    FirstReference t [] path rest := by
  unfold reference? at h
  split at h
  · rename_i c u hs
    split at h
    · exact nomatch h
    · rename_i hc
      obtain ⟨i, hi, heq⟩ := Option.map_eq_some_iff.mp h
      obtain ⟨rfl, rfl⟩ := Prod.mk.inj heq
      obtain ⟨hu, hline, hlen, hmin⟩ := closing_eq_some hi
      refine ⟨?_, ⟨List.cons_ne_nil _ _, ?_⟩, fun _ _ _ _ _ => Nat.zero_le _, ?_⟩
      · rw [stripPrefix?_eq_some_iff.mp hs]
        conv => lhs; rw [hu]
        simp only [written, List.append_assoc, List.cons_append, List.nil_append]
      · exact fun hm => (List.mem_cons.mp hm).elim (fun e => hc e.symm) hline
      · rintro p r ht ⟨hp, hnl⟩
        cases p with
        | nil => exact absurd rfl hp
        | cons d p =>
          rw [stripPrefix?_eq_some_iff.mp hs] at ht
          have hu' : u = p ++ ['\x7d', '\x7d'] ++ r := by
            simpa [written] using (List.cons.inj (List.append_cancel_left ht)).2
          rw [List.length_cons, List.length_cons, hlen]
          exact Nat.succ_le_succ (hmin p r hu' fun hm => hnl (List.mem_cons_of_mem d hm))
  · exact nomatch h

/-- Where `reference?` finds nothing, no reference starts. -/
theorem reference?_eq_none {t : Text} (h : reference? t = none) (p r : Text)
    (ht : t = written p ++ r) : ¬ IsPath p := by
  rintro ⟨hp, hnl⟩
  cases p with
  | nil => exact hp rfl
  | cons d p =>
    have hs : stripPrefix? ['\x7b', '\x7b'] t = some (d :: (p ++ ['\x7d', '\x7d'] ++ r)) := by
      rw [stripPrefix?_eq_some_iff, ht]
      simp only [written, List.append_assoc, List.cons_append, List.nil_append]
    unfold reference? at h
    rw [hs] at h
    dsimp only at h
    split at h
    · rename_i hd
      exact hnl (hd ▸ List.mem_cons_self)
    · exact hnl (List.mem_cons_of_mem d
        (closing_eq_none (Option.map_eq_none_iff.mp h) p r rfl))

/-! ## the first reference -/

section
variable {c : Char} {t before path rest : Text}

theorem FirstReference.cons (hc : reference? (c :: t) = none)
    (h : FirstReference t before path rest) : FirstReference (c :: t) (c :: before) path rest := by
  refine ⟨by rw [h.eq]; rfl, h.isPath, ?_, ?_⟩
  · intro b p r ht hp
    cases b with
    | nil => exact absurd hp (reference?_eq_none hc p r ht)
    | cons d b => exact Nat.succ_le_succ (h.leftmost b p r (List.cons.inj ht).2 hp)
  · intro p r ht hp
    exact h.shortest p r (List.cons.inj ht).2 hp

theorem NoReference.cons (hc : reference? (c :: t) = none) (h : NoReference t) :
    NoReference (c :: t) := by
  intro b p r ht hp
  cases b with
  | nil => exact reference?_eq_none hc p r ht hp
  | cons d b => exact h b p r (List.cons.inj ht).2 hp

theorem noReference_nil : NoReference [] := by
  intro b p r ht
  have := congrArg List.length ht
  simp only [List.length_append, length_written, List.length_nil] at this
  omega

end

theorem noReference_or_first (t : Text) :
    NoReference t ∨ ∃ before path rest, FirstReference t before path rest := by
  induction t with
  | nil => exact .inl noReference_nil
  | cons c t ih =>
    cases hc : reference? (c :: t) with
    | some found => exact .inr ⟨[], found.1, found.2, reference?_eq_some hc⟩
    | none =>
      rcases ih with h | ⟨before, path, rest, h⟩
      · exact .inl (h.cons hc)
      · exact .inr ⟨c :: before, path, rest, h.cons hc⟩

/-- A text is its first reference and what stands around it, or has none. -/
theorem reference_induction {P : Text → Prop} (none : ∀ t, NoReference t → P t)
    (first : ∀ t before path rest, FirstReference t before path rest → P rest → P t) (t : Text) :
    P t := by
  rcases noReference_or_first t with h | ⟨before, path, rest, h⟩
  · exact none t h
  · exact first t before path rest h (reference_induction none first rest)
termination_by t.length
decreasing_by exact h.length_lt

/-! ## cutting -/

/-- The bound only has to be long enough. -/
theorem cut_of_le {n m : Nat} {t : Text} (hn : t.length ≤ n) (hm : t.length ≤ m) :
    cut n t = cut m t := by
  induction n generalizing m t with
  | zero =>
    obtain rfl := List.length_eq_zero_iff.mp (Nat.le_zero.mp hn)
    cases m <;> rfl
  | succ n ih =>
    cases t with
    | nil => cases m <;> rfl
    | cons c t =>
      cases m with
      | zero => exact absurd hm (Nat.not_succ_le_zero _)
      | succ m =>
        simp only [cut]
        split
        · rename_i path rest hc
          have hlt := (reference?_eq_some hc).length_lt
          rw [ih (m := m) (by omega) (by omega)]
        · rw [ih (m := m) (Nat.le_of_succ_le_succ hn) (Nat.le_of_succ_le_succ hm)]

theorem cut_of_reference {c : Char} {t path rest : Text}
    (h : reference? (c :: t) = some (path, rest)) :
    cut (c :: t).length (c :: t) =
      ([], (path, (cut rest.length rest).1) :: (cut rest.length rest).2) := by
  have hlt := (reference?_eq_some h).length_lt
  rw [List.length_cons] at hlt ⊢
  simp only [cut, h]
  rw [cut_of_le (m := rest.length) (by omega) (Nat.le_refl _)]

theorem cut_cons {c : Char} {t : Text} (h : reference? (c :: t) = none) :
    cut (c :: t).length (c :: t) = (c :: (cut t.length t).1, (cut t.length t).2) := by
  simp only [List.length_cons, cut, h]

theorem cut_of_none {t : Text} (h : NoReference t) : cut t.length t = (t, []) := by
  induction t with
  | nil => rfl
  | cons c t ih =>
    cases hc : reference? (c :: t) with
    | some found => exact absurd h (reference?_eq_some hc).not_noReference
    | none =>
      rw [cut_cons hc, ih fun b p r ht => h (c :: b) p r (by rw [ht]; rfl)]

theorem cut_of_first {t before path rest : Text} (h : FirstReference t before path rest) :
    cut t.length t = (before, (path, (cut rest.length rest).1) :: (cut rest.length rest).2) := by
  induction t generalizing before with
  | nil => exact absurd noReference_nil h.not_noReference
  | cons c t ih =>
    cases hc : reference? (c :: t) with
    | some found =>
      obtain ⟨rfl, rfl, rfl⟩ := h.unique (reference?_eq_some hc)
      exact cut_of_reference hc
    | none =>
      -- The first reference does not start here, so it is one of the rest.
      have hrest : ¬ NoReference t := fun hn => h.not_noReference (hn.cons hc)
      obtain ⟨b, p, r, ht⟩ := (noReference_or_first t).resolve_left hrest
      obtain ⟨rfl, rfl, rfl⟩ := h.unique (ht.cons hc)
      rw [cut_cons hc, ih ht]

/-- The references that `cut` finds are the references. -/
theorem refers_iff (t path : Text) : Refers t path ↔ path ∈ (cut t.length t).2.map Prod.fst := by
  induction t using reference_induction with
  | none t h =>
    rw [cut_of_none h]
    refine ⟨fun hr => ?_, fun hm => absurd hm List.not_mem_nil⟩
    cases hr with
    | first hf => exact absurd h hf.not_noReference
    | later hf _ => exact absurd h hf.not_noReference
  | first t before p rest h ih =>
    rw [cut_of_first h, List.map_cons, List.mem_cons, ← ih]
    constructor
    · intro hr
      cases hr with
      | first hf => exact .inl (h.unique hf).2.1.symm
      | later hf more =>
        obtain ⟨-, -, rfl⟩ := h.unique hf
        exact .inr more
    · rintro (rfl | more)
      · exact .first h
      · exact .later h more

end Lectern.Include
