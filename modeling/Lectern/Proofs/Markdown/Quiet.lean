import Lectern.Proofs.Markdown.Paged
import Lectern.Proofs.Markdown.Spaced
import Mathlib.Data.List.TakeWhile

/-!
# Lines of plain words

A line may hold nothing but words and the numbers of a file of times.  Where its words stand no block begins but a
paragraph, or code where they are indented far.

* `isPlainLine`   such a line;
* `indentation`   the spaces that it begins with;
* `Opens`         the beginning of such words, from which no rule reads a block of its own.
-/

namespace Lectern.Markdown
open Text

/-! ## plain words -/

/-- A point, or a sign before a number. -/
def isSign (c : Char) : Bool := c = '.' || c = '-' || c = '+'

/-- Each sign stands before a letter or a digit. -/
def signsLead : Text → Bool
  | [] => true
  | c :: t => (!isSign c || t.head?.any isLetterOrDigit) && signsLead t

/-- A line of letters, digits and spaces, and of signs before a letter or a digit.  The numbers of JSON, and `null`,
are the words of such lines. -/
def isPlainLine (l : Text) : Bool := l.all isQuiet && signsLead l

theorem signsLead_of_append {s t : Text} (h : signsLead (s ++ t) = true) : signsLead t = true := by
  induction s with
  | nil => exact h
  | cons c s ih => exact ih (Bool.and_eq_true_iff.mp h).2

theorem head_of_sign {c : Char} {t : Text} (h : signsLead (c :: t) = true) (hc : isSign c = true) :
    ∃ d r, t = d :: r ∧ isLetterOrDigit d = true := by
  have hhead := (Bool.and_eq_true_iff.mp h).1
  rw [hc, Bool.not_true, Bool.false_or] at hhead
  cases t with
  | nil => exact Bool.noConfusion hhead
  | cons d r => exact ⟨d, r, rfl, hhead⟩

theorem occurs_within {p s t r : Text} (h : occurs p (s ++ t ++ r) = false) : occurs p t = false := by
  cases ht : indexOf? p t with
  | none => rw [occurs, ht]; rfl
  | some i =>
    obtain ⟨⟨u, v, rfl, -⟩, -⟩ := indexOf?_eq_some ht
    have hnone : indexOf? p (s ++ (u ++ p ++ v) ++ r) = none :=
      Option.isNone_iff_eq_none.mp (Option.isSome_eq_false_iff.mp h)
    exact absurd (by simp) (indexOf?_eq_none hnone (s ++ u) (v ++ r))

theorem hasRare_within {s t r : Text} (h : hasRare (s ++ t ++ r) = false) : hasRare t = false :=
  List.any_eq_false.mpr fun p hp ht =>
    Bool.noConfusion ((occurs_within (Bool.eq_false_iff.mpr (List.any_eq_false.mp h p hp))).symm.trans ht)

/-- Nothing is set in another way where no two signs stand side by side. -/
theorem hasRare_eq_false {t : Text} (hq : ∀ c ∈ t, isQuiet c = true ∨ c = '\n') (hs : signsLead t = true) :
    hasRare t = false := by
  have hnone {c : Char} (hc : isQuiet c = false) (hb : c ≠ '\n') : c ∉ t := fun hm =>
    (hq c hm).elim (fun h => Bool.noConfusion (h.symm.trans hc)) hb
  have hpair {c d : Char} (hc : isSign c = true) (hd : isLetterOrDigit d = false) : occurs [c, d] t = false := by
    cases h : indexOf? [c, d] t with
    | none => rw [occurs, h]; rfl
    | some i =>
      obtain ⟨⟨s, r, rfl, -⟩, -⟩ := indexOf?_eq_some h
      rw [List.append_assoc] at hs
      obtain ⟨e, r', he, hword⟩ := head_of_sign (signsLead_of_append hs) hc
      obtain ⟨rfl, -⟩ := List.cons.inj he
      exact Bool.noConfusion (hword.symm.trans hd)
  have hall : ∀ p ∈ ["+-", "..", "????", "!!!!", ",,", "--"], occurs p.toList t = false := by
    simp only [List.forall_mem_cons, List.not_mem_nil, false_imp_iff, implies_true, and_true]
    exact ⟨hpair (by decide) (by decide), hpair (by decide) (by decide),
      occurs_eq_false (c := '?') (by decide) (hnone (by decide) (by decide)),
      occurs_eq_false (c := '!') (by decide) (hnone (by decide) (by decide)),
      occurs_eq_false (c := ',') (by decide) (hnone (by decide) (by decide)), hpair (by decide) (by decide)⟩
  exact List.any_eq_false.mpr fun p hp => Bool.eq_false_iff.mp (hall p hp)

theorem exists_trim (t : Text) : ∃ u v, t = u ++ trim t ++ v ∧ ∀ c ∈ u ++ v, isSpacing c = true := by
  refine ⟨t.takeWhile isSpacing, ((t.dropWhile isSpacing).reverse.takeWhile isSpacing).reverse, ?_, fun c hc => ?_⟩
  · rw [trim, List.append_assoc, ← List.reverse_append, List.takeWhile_append_dropWhile, List.reverse_reverse,
      List.takeWhile_append_dropWhile]
  · rw [List.mem_append, List.mem_reverse] at hc
    exact hc.elim (List.all_eq_true.mp List.all_takeWhile c) (List.all_eq_true.mp List.all_takeWhile c)

theorem trim_within (t : Text) : trim t <:+: t := by
  obtain ⟨u, v, h, -⟩ := exists_trim t
  exact ⟨u, v, h.symm⟩

/-! ## the line of plain words -/

section
variable {l : Text} (h : isPlainLine l = true)
include h

theorem isQuiet_of_isPlainLine {c : Char} (hc : c ∈ l) : isQuiet c = true :=
  List.all_eq_true.mp (Bool.and_eq_true_iff.mp h).1 c hc

end

/-! ## where plain words stand, no block begins -/

/-- What follows the indentation of a plain line that is not blank. -/
structure Opens (c : Char) (r : Text) : Prop where
  quiet : ∀ d ∈ c :: r, isQuiet d = true
  leads : signsLead (c :: r) = true
  inked : c ≠ ' '

namespace Opens
variable {c : Char} {r : Text} (h : Opens c r)
include h

theorem not_mem {d : Char} (hd : isQuiet d = false) : d ∉ c :: r := fun hm =>
  Bool.noConfusion ((h.quiet d hm).symm.trans hd)

theorem ne {d : Char} (hd : isQuiet d = false) : c ≠ d := fun e => h.not_mem hd (e ▸ List.mem_cons_self)

/-- A letter or a digit, or a sign before one. -/
theorem cases_head : isLetterOrDigit c = true ∨ ∃ d r', r = d :: r' ∧ isLetterOrDigit d = true := by
  by_cases hc : isSign c = true
  · exact .inr (head_of_sign h.leads hc)
  · have hq := h.quiet c List.mem_cons_self
    have hi := h.inked
    simp only [isSign, Bool.or_eq_true, decide_eq_true_eq, not_or] at hc
    simp only [isQuiet, Bool.or_eq_true, decide_eq_true_eq] at hq
    tauto

/-- A sign stands before a word, so that no space follows it. -/
theorem head_of_sign {d : Char} {s t : Text} (ht : c :: r = s ++ d :: t) (hd : isSign d = true) :
    t.head?.all isSpace = false := by
  have hs := h.leads
  rw [ht] at hs
  obtain ⟨e, t', rfl, he⟩ := Markdown.head_of_sign (signsLead_of_append hs) hd
  refine Bool.eq_false_iff.mpr fun hspace => ?_
  simp only [List.head?_cons, Option.all_some, isSpace, Bool.or_eq_true, decide_eq_true_eq] at hspace
  rcases hspace with rfl | rfl
  · exact Bool.noConfusion he
  · exact Bool.noConfusion he

theorem cycleLength_le {marker : Text} (hm : ∀ c ∈ marker, isLetterOrDigit c = false) :
    cycleLength marker [] (c :: r) ≤ 1 := by
  rcases h.cases_head with hc | ⟨d, r', rfl, hd⟩
  · rw [cycleLength_word hm (fun _ h => absurd h List.not_mem_nil) hc]
    exact Nat.zero_le 1
  · exact Markdown.cycleLength_le hm hd

theorem directiveStart? : directiveStart? (c :: r) = none := directiveStart?_eq_none fun _ => h.cycleLength_le

/-- A hyphen stands before a word, which is in no rule and in no underline. -/
theorem exists_of_hyphen (hc : c = '-') : ∃ d r', r = d :: r' ∧ d ≠ '-' ∧ isSpace d = false := by
  obtain ⟨d, r', rfl, hd⟩ := Markdown.head_of_sign h.leads (hc ▸ rfl)
  have hspace := h.head_of_sign (s := []) rfl (hc ▸ rfl)
  refine ⟨d, r', rfl, ?_, hspace⟩
  rintro rfl
  exact Bool.noConfusion hd

theorem isRule : isRule (c :: r) = false := by
  rw [Markdown.isRule, decide_eq_false (h.ne (d := '*') (by decide)), decide_eq_false (h.ne (d := '_') (by decide)),
    Bool.false_or, Bool.or_false]
  by_cases hc : c = '-'
  · obtain ⟨d, r', rfl, hd, hspace⟩ := h.exists_of_hyphen hc
    simp [hc, hd, hspace]
  · rw [decide_eq_false hc]
    rfl

theorem underline? : underline? (c :: r) = none := by
  refine if_neg fun hu => ?_
  obtain ⟨hc, hall⟩ := hu
  obtain rfl := hc.resolve_left (h.ne (by decide))
  obtain ⟨d, r', rfl, hd, hspace⟩ := h.exists_of_hyphen rfl
  simp [hd, hspace] at hall

theorem bullet? : bullet? (c :: r) = none := by
  refine if_neg fun hb => ?_
  obtain ⟨hc, hall⟩ := hb
  have hsign : isSign c = true := by
    rcases hc with hc | rfl | rfl
    · exact absurd hc (h.ne (by decide))
    · rfl
    · rfl
  exact Bool.noConfusion ((h.head_of_sign (s := []) rfl hsign).symm.trans hall)

theorem ordinal? : ordinal? (c :: r) = none := by
  unfold Markdown.ordinal?
  dsimp only
  split
  · rename_i d t hd
    have hsplit := List.take_append_drop ((c :: r).takeWhile Char.isDigit).length (c :: r)
    rw [hd] at hsplit
    refine if_neg fun hb => ?_
    obtain ⟨-, -, hmark, hall⟩ := hb
    rcases hmark with rfl | rfl
    · exact Bool.noConfusion ((h.head_of_sign hsplit.symm rfl).symm.trans hall)
    · exact h.not_mem (d := ')') (by decide) (hsplit ▸ List.mem_append_right _ List.mem_cons_self)
  · rfl

theorem itemMark? : itemMark? (c :: r) = none := by
  rw [Markdown.itemMark?, h.ordinal?, h.bullet?]
  rfl

theorem starts : fenceStart? (c :: r) = none ∧ startsQuote (c :: r) = false ∧ heading? (c :: r) = none ∧
    markupStart? (c :: r) = none ∧ stripPrefix? ['$', '$'] (c :: r) = none ∧ c ≠ '[' := by
  have hne {d : Char} (hd : isQuiet d = false) : c ≠ d := h.ne hd
  refine ⟨?_, ?_, ?_, ?_, ?_, ?_⟩
  · simp [fenceStart?, hne (d := '~') (by decide), hne (d := '`') (by decide)]
  · simp [startsQuote, hne (d := '>') (by decide)]
  · simp [heading?, hne (d := '#') (by decide)]
  · unfold markupStart?
    split
    · rename_i e
      exact absurd (List.cons.inj e).1 (hne (by decide))
    · rfl
  · simp [stripPrefix?, (hne (d := '$') (by decide)).symm]
  · exact hne (by decide)

end Opens

end Lectern.Markdown
