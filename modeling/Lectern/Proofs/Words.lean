import Lectern.Text.Blank

/-!
# Words

What the words of a text are, and that words put together are read as the same words again.  The parts of a text
between the occurrences of a sign are the texts without the sign that it is put together from.

* `IsWord.words_append`   a word before a blank, and the words behind it;
* `words_join`            words with a blank between neighbours;
* `mem_of_mem_words`, `not_mem_join`   the characters of words, and of texts put together;
* `SameWords`             texts of the same words, whatever is put around them;
* `splitOn_join`, `join_splitOn`, `not_mem_of_mem_splitOn`   parts between a sign.
-/

namespace Lectern.Text

/-! ## words between blanks -/

/-- Some characters and no blank among them. -/
structure IsWord (w : Text) : Prop where
  nonempty : w ≠ []
  unbroken : ∀ c ∈ w, isBlank c = false

theorem wordsAux_append {parts : Char → Bool} {w : Text} (h : ∀ c ∈ w, parts c = false) (acc t : Text) :
    wordsAux parts acc (w ++ t) = wordsAux parts (w.reverse ++ acc) t := by
  induction w generalizing acc with
  | nil => rfl
  | cons c w ih =>
    rw [List.cons_append, wordsAux, h c List.mem_cons_self]
    have := ih (fun d hd => h d (List.mem_cons_of_mem _ hd)) (c :: acc)
    simpa using this

theorem IsWord.words_append {w : Text} (h : IsWord w) {b : Char} (hb : isBlank b = true) (t : Text) :
    words (w ++ b :: t) = w :: words t := by
  have hne : w.reverse.isEmpty = false := by simpa using h.nonempty
  rw [words, wordsAux_append h.unbroken, wordsAux, if_pos hb, List.append_nil, hne, List.reverse_reverse]
  rfl

theorem IsWord.words_eq {w : Text} (h : IsWord w) : words w = [w] := by
  have hne : w.reverse.isEmpty = false := by simpa using h.nonempty
  have := wordsAux_append h.unbroken [] []
  rw [List.append_nil] at this
  rw [words, this, wordsAux, List.append_nil, hne, List.reverse_reverse]
  rfl

theorem isWord_of_mem_wordsAux {acc t w : Text} (hacc : ∀ c ∈ acc, isBlank c = false)
    (h : w ∈ wordsAux isBlank acc t) : IsWord w := by
  have begun {acc : Text} (hacc : ∀ c ∈ acc, isBlank c = false) {l : List Text} (hl : w ∈ l → IsWord w)
      (hw : w ∈ if acc.isEmpty then l else acc.reverse :: l) : IsWord w := by
    split at hw
    · exact hl hw
    · rename_i hne
      rcases List.mem_cons.mp hw with rfl | hw
      · exact ⟨by simpa using hne, fun c hc => hacc c (List.mem_reverse.mp hc)⟩
      · exact hl hw
  induction t generalizing acc with
  | nil => exact begun hacc (fun hw => absurd hw List.not_mem_nil) h
  | cons c t ih =>
    rw [wordsAux] at h
    split at h
    · exact begun hacc (ih fun _ hc => absurd hc List.not_mem_nil) h
    · refine ih (fun d hd => ?_) h
      rcases List.mem_cons.mp hd with rfl | hd
      · exact Bool.eq_false_iff.mpr ‹_›
      · exact hacc d hd

theorem isWord_of_mem_words {t w : Text} (h : w ∈ words t) : IsWord w :=
  isWord_of_mem_wordsAux (fun _ hc => absurd hc List.not_mem_nil) h

theorem words_join {ws : List Text} (h : ∀ w ∈ ws, IsWord w) : words (join [' '] ws) = ws := by
  induction ws with
  | nil => rfl
  | cons w ws ih =>
    have hw := h w List.mem_cons_self
    have hws := ih fun v hv => h v (List.mem_cons_of_mem _ hv)
    cases ws with
    | nil => exact hw.words_eq
    | cons v ws =>
      rw [join, List.append_assoc, List.singleton_append, hw.words_append rfl, hws]

theorem mem_of_mem_wordsAux {parts : Char → Bool} {acc t w : Text} (h : w ∈ wordsAux parts acc t) {c : Char}
    (hc : c ∈ w) : c ∈ acc ∨ c ∈ t := by
  have begun {acc t : Text} {l : List Text} (hl : w ∈ l → c ∈ t)
      (hw : w ∈ if acc.isEmpty then l else acc.reverse :: l) : c ∈ acc ∨ c ∈ t := by
    split at hw
    · exact .inr (hl hw)
    · rcases List.mem_cons.mp hw with rfl | hw
      · exact .inl (List.mem_reverse.mp hc)
      · exact .inr (hl hw)
  induction t generalizing acc with
  | nil => exact begun (fun hw => absurd hw List.not_mem_nil) h
  | cons d t ih =>
    rw [wordsAux] at h
    split at h
    · refine begun (fun hw => ?_) h
      exact List.mem_cons_of_mem d ((ih hw).resolve_left List.not_mem_nil)
    · rcases ih h with hacc | ht
      · rcases List.mem_cons.mp hacc with rfl | hacc
        · exact .inr List.mem_cons_self
        · exact .inl hacc
      · exact .inr (List.mem_cons_of_mem d ht)

/-- Words hold no characters but those of their text. -/
theorem mem_of_mem_words {t w : Text} (h : w ∈ words t) {c : Char} (hc : c ∈ w) : c ∈ t :=
  (mem_of_mem_wordsAux h hc).resolve_left List.not_mem_nil

theorem not_mem_join {sep : Text} {ws : List Text} {c : Char} (hsep : c ∉ sep) (h : ∀ w ∈ ws, c ∉ w) :
    c ∉ join sep ws := by
  induction ws with
  | nil => exact List.not_mem_nil
  | cons w ws ih =>
    have hw := h w List.mem_cons_self
    have hws := ih fun v hv => h v (List.mem_cons_of_mem _ hv)
    cases ws with
    | nil => exact hw
    | cons v ws =>
      intro hc
      rcases List.mem_append.mp hc with hc | hc
      · exact (List.mem_append.mp hc).elim hw hsep
      · exact hws hc

/-! ## words, however they are spaced -/

theorem wordsAux_append_blank {acc s : Text} {b : Char} (hb : isBlank b = true) (t : Text) :
    wordsAux isBlank acc (s ++ b :: t) = wordsAux isBlank acc s ++ words t := by
  induction s generalizing acc with
  | nil =>
    have hcut : wordsAux isBlank acc (b :: t) = if acc.isEmpty then words t else acc.reverse :: words t := if_pos hb
    rw [List.nil_append, hcut, wordsAux]
    split <;> rfl
  | cons c s ih =>
    rw [List.cons_append, wordsAux, wordsAux]
    split
    · split
      · exact ih
      · rw [ih, List.cons_append]
    · exact ih

/-- A blank parts the words before it from those behind it. -/
theorem words_append_blank {b : Char} (hb : isBlank b = true) (s t : Text) :
    words (s ++ b :: t) = words s ++ words t := wordsAux_append_blank hb t

theorem words_append_blanks {u : Text} (hu : isAllBlank u = true) (hne : u ≠ []) (s t : Text) :
    words (s ++ u ++ t) = words s ++ words t := by
  induction u generalizing s with
  | nil => exact absurd rfl hne
  | cons b u ih =>
    obtain ⟨hb, hu⟩ := Bool.and_eq_true_iff.mp hu
    rw [List.append_assoc, List.cons_append, words_append_blank hb]
    cases u with
    | nil => rfl
    | cons d u =>
      have h := ih hu (List.cons_ne_nil d u) []
      rw [List.nil_append] at h
      rw [h]
      rfl

/-- The texts are of the same words, also where more text is put around both. -/
def SameWords (s t : Text) : Prop := ∀ a b, words (a ++ s ++ b) = words (a ++ t ++ b)

namespace SameWords
variable {s t u v : Text}

theorem refl (s : Text) : SameWords s s := fun _ _ => rfl

theorem symm (h : SameWords s t) : SameWords t s := fun a b => (h a b).symm

theorem trans (h : SameWords s t) (h' : SameWords t u) : SameWords s u := fun a b => (h a b).trans (h' a b)

theorem append (h : SameWords s t) (h' : SameWords u v) : SameWords (s ++ u) (t ++ v) := fun a b => by
  have h₁ := h a (u ++ b)
  have h₂ := h' (a ++ t) b
  simp only [List.append_assoc] at h₁ h₂ ⊢
  rw [h₁, h₂]

/-- It does not matter how many blanks part two words. -/
theorem blanks (hs : isAllBlank s = true) (ht : isAllBlank t = true) (hs' : s ≠ []) (ht' : t ≠ []) :
    SameWords s t := fun a b => by
  rw [words_append_blanks hs hs', words_append_blanks ht ht']

theorem words_eq (h : SameWords s t) : words s = words t := by
  have := h [] []
  rwa [List.nil_append, List.append_nil, List.nil_append, List.append_nil] at this

end SameWords

theorem join_eq_intercalate (sep : Text) (ws : List Text) : join sep ws = sep.intercalate ws := by
  induction ws with
  | nil => rfl
  | cons w ws ih =>
    cases ws with
    | nil => rw [join, List.intercalate_singleton]
    | cons v ws => rw [join, ih, List.intercalate_cons_cons]

theorem startsWith_sign (c d : Char) (t : Text) : startsWith [c] (d :: t) = (d == c) := by
  by_cases h : c = d
  · simp [startsWith, stripPrefix?, h]
  · simp [startsWith, stripPrefix?, h, Ne.symm h]

theorem splitOnAux_sign (c : Char) (acc t : Text) :
    splitOnAux [c] 0 acc t = (List.splitOn c t).modifyHead (acc.reverse ++ ·) := by
  induction t generalizing acc with
  | nil => rw [splitOnAux, List.splitOn_nil, List.modifyHead_cons, List.append_nil]
  | cons d t ih =>
    rw [splitOnAux, startsWith_sign, List.splitOn_cons_eq_if_modifyHead]
    split
    · have hrest : splitOnAux [c] ([c].length - 1) [] t = List.splitOn c t := by
        rw [List.length_singleton, Nat.sub_self, ih]
        cases List.splitOn c t <;> rfl
      rw [hrest, List.modifyHead_cons, List.append_nil]
    · rw [ih, List.modifyHead_modifyHead]
      congr 1
      funext s
      rw [List.reverse_cons, List.append_assoc]
      rfl

/-- The parts between the occurrences of a sign. -/
theorem splitOn_sign (c : Char) (t : Text) : splitOn [c] t = List.splitOn c t := by
  rw [splitOn, if_neg (List.cons_ne_nil c []), splitOnAux_sign]
  cases List.splitOn c t <;> rfl

theorem splitOn_ne_nil (c : Char) (t : Text) : splitOn [c] t ≠ [] := by
  rw [splitOn_sign]
  exact List.splitOn_ne_nil c t

theorem splitOn_join {c : Char} {ws : List Text} (hne : ws ≠ []) (h : ∀ w ∈ ws, c ∉ w) :
    splitOn [c] (join [c] ws) = ws := by
  rw [splitOn_sign, join_eq_intercalate, List.splitOn_intercalate c h hne]

theorem splitOn_of_not_mem {c : Char} {t : Text} (h : c ∉ t) : splitOn [c] t = [t] :=
  splitOn_join (List.cons_ne_nil t []) fun _ hw => List.mem_singleton.mp hw ▸ h

theorem join_splitOn (c : Char) (t : Text) : join [c] (splitOn [c] t) = t := by
  rw [splitOn_sign, join_eq_intercalate, List.intercalate_splitOn]

theorem not_mem_of_mem_splitOn {c : Char} {t w : Text} (h : w ∈ splitOn [c] t) : c ∉ w := by
  rw [splitOn_sign] at h
  induction t generalizing w with
  | nil =>
    rw [List.splitOn_nil, List.mem_singleton] at h
    rw [h]
    exact List.not_mem_nil
  | cons d t ih =>
    rw [List.splitOn_cons_eq_if_modifyHead] at h
    split at h
    · rcases List.mem_cons.mp h with rfl | h
      · exact List.not_mem_nil
      · exact ih h
    · rename_i hd
      obtain ⟨v, vs, hvs⟩ := List.exists_cons_of_ne_nil (List.splitOn_ne_nil c t)
      rw [hvs, List.modifyHead_cons] at h
      rw [hvs] at ih
      rcases List.mem_cons.mp h with rfl | h
      · rw [List.mem_cons, not_or]
        exact ⟨fun e => hd (beq_iff_eq.mpr e.symm), ih List.mem_cons_self⟩
      · exact ih (List.mem_cons_of_mem v h)

end Lectern.Text
