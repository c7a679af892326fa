import Lectern.Proofs.Highlight.Rules
import Lectern.Proofs.Highlight.Written
import Lectern.Proofs.Html.Values

/-!
# Samples are cut without a gap

A run of the table over a sample goes from one state of `cut` to the next.  It is never stuck: as long as text is
left, a rule matches and cuts something off.  A line that begins with a new piece begins in the first mode, since
the argument of a sigil ends with its line.  So all of the sample comes into the pieces, and from them, in spans,
into the markup.

* `exists_step`     a step of the table is a step of `cut`;
* `lexes_cut`       a run gives the pieces of `cut`;
* `OnCourse`        what holds of every state on the way;
* `stands_strips`   markup that becomes a text when tags are left out and references are read;
* `sample_lexed`    the pieces and the markup of a sample.
-/

namespace Lectern.Highlight
open Text Html

/-! ## ends of lines -/

theorem startsBehind_append (s : Bool) (t u : Text) :
    startsBehind s (t ++ u) = startsBehind (startsBehind s t) u := by
  rw [startsBehind, startsBehind, startsBehind, List.getLast?_append]
  cases u.getLast? <;> rfl

theorem getLast?_said {ps : List Piece} (h : ∀ p ∈ ps, p.text ≠ []) :
    (said ps).getLast? = ps.getLast?.bind fun p => p.text.getLast? := by
  rcases List.eq_nil_or_concat ps with rfl | ⟨qs, p, rfl⟩
  · rfl
  · rw [List.concat_eq_append] at h ⊢
    have hp := List.getLast?_eq_some_getLast (h p (List.mem_append_right _ List.mem_cons_self))
    rw [List.getLast?_concat, said_append, said_single, List.getLast?_append, Option.bind_some, hp]
    rfl

/-- No piece that a match gives is empty. -/
theorem Giving.Makes.text_ne_nil {g : Giving} {m : Match} {c : Cut} (h : g.Makes m c) (hne : said c.1 ≠ [])
    {p : Piece} (hp : p ∈ c.1) : p.text ≠ [] := by
  have hmem : p.lexeme ∈ g.lexemes m := h.lexemes ▸ List.mem_map_of_mem hp
  cases g with
  | whole r =>
    have htext : p.lexeme.text = m.covered := congrArg Lexeme.text (List.mem_singleton.mp hmem)
    rw [h.covered] at htext
    exact fun he => hne (htext.symm.trans he)
  | groups rs =>
    obtain ⟨g, hg, he⟩ := List.mem_map.mp hmem
    have hfull := (List.mem_filter.mp hg).2
    intro hnil
    rw [show g.2 = p.lexeme.text from congrArg Lexeme.text he, show p.lexeme.text = [] from hnil] at hfull
    exact absurd hfull (by decide)

theorem Giving.Makes.startsBehind {g : Giving} {m : Match} {c : Cut} (h : g.Makes m c) (hne : said c.1 ≠ [])
    (s : Bool) : startsBehind s (said c.1) = decide ((c.1.getLast?.bind fun p => p.text.getLast?) = some '\n') := by
  rw [← getLast?_said fun p hp => h.text_ne_nil hne hp, Highlight.startsBehind]
  rw [List.getLast?_eq_some_getLast hne]
  simp

/-! ## steps -/

theorem cuts_cutRule (s : Bool) (c : Char) (t : Text) : Cuts (c :: t) (cutRule s c t).1 := by
  unfold cutRule
  split
  · exact cuts_commentRule? ‹_›
  · split
    · cases h : lineRule? (c :: t) with
      | none => exact cuts_inlineRule c t
      | some r => exact cuts_lineRule? h
    · exact cuts_inlineRule c t

theorem startsBehind_lineChars {t : Text} (hne : t ≠ []) (h : ∀ c ∈ t, isLineChar c = true) (s : Bool) :
    startsBehind s t = false := by
  rw [startsBehind, List.getLast?_eq_some_getLast hne]
  exact decide_eq_false (of_decide_eq_true (h _ (List.getLast_mem hne)))

/-- What opens an argument is a sigil, and the line goes on behind it. -/
theorem startsBehind_cutRule {s : Bool} {c : Char} {t : Text} (h : (cutRule s c t).2 = true) :
    startsBehind s (said (cutRule s c t).1.1) = false := by
  have hsigil : sigilRule? (c :: t) = some ((cutRule s c t).1, true) := by
    unfold cutRule at h ⊢
    split at h
    · cases h
    · cases s with
      | false => cases h
      | true =>
        rw [if_pos rfl] at h ⊢
        cases hline : lineRule? (c :: t) with
        | none =>
          rw [hline] at h
          cases h
        | some r =>
          obtain ⟨r, argument⟩ := r
          obtain rfl : argument = true := by rwa [hline] at h
          rw [lineRule?, Option.orElse_eq_or, Option.or_eq_some_iff] at hline
          rcases hline with hline | ⟨-, hline⟩
          · obtain ⟨_, -, he⟩ := Option.map_eq_some_iff.mp hline
            cases he
          · exact hline
  rw [sigilRule?_cons] at hsigil
  split at hsigil
  · rename_i hc
    split at hsigil
    · exact absurd (Prod.mk.inj (Option.some.inj hsigil)).2 Bool.false_ne_true
    · rw [← (Prod.mk.inj (Option.some.inj hsigil)).1, said_single]
      refine startsBehind_lineChars (List.cons_ne_nil _ _) (fun d hd => ?_) s
      obtain rfl := List.mem_singleton.mp hd
      exact List.all_eq_true.mp (show sigils.all isLineChar = true from rfl) d (List.contains_iff_mem.mp hc)
  · cases hsigil

/-- Where `cut` is at some text. -/
def State.inside (argument atStart : Bool) (t : Text) : State :=
  ⟨if argument then [.argument, .first] else [.first], atStart, t⟩

theorem step_of_gives {mode : Mode} (modes : List Mode) {s : Bool} {t : Text} {c : Cut} {mv : Move}
    (h : Gives (table mode) s t c mv) : State.step table ⟨mode :: modes, s, t⟩ =
      some (c.1.map Piece.lexeme, ⟨mv.apply (mode :: modes), startsBehind s (said c.1), c.2⟩) := by
  obtain ⟨r, m, hm, hmakes, rfl⟩ := h
  rw [State.step]
  dsimp only [List.headD_cons]
  rw [hm]
  dsimp only
  rw [hmakes.lexemes, hmakes.covered, hmakes.rest]

/-- A step of the table cuts off what `cut` cuts off, and comes to where `cut` goes on. -/
theorem exists_step (argument s : Bool) (c : Char) (t : Text) : ∃ (r : Cut) (next : Bool),
    (State.inside argument s (c :: t)).step table =
      some (r.1.map Piece.lexeme, .inside next (startsBehind s (said r.1)) r.2) ∧
    Cuts (c :: t) r ∧ (startsBehind s (said r.1) = true → next = false) ∧
    ∀ fuel, cut (fuel + 1) argument s (c :: t) = r.1 ++ cut fuel next (startsBehind s (said r.1)) r.2 := by
  cases argument with
  | true =>
    by_cases hc : c = '\n'
    · subst hc
      have hend := follows_lineEnd .pop s '\n' t
      rw [if_pos rfl] at hend
      have hgives : Gives (table .argument) s ('\n' :: t) _ _ := (follows_no_run (by decide) s t).skip (hend.gives [])
      exact ⟨([⟨.lineEnd, ['\n']⟩], t), false, step_of_gives [.first] hgives,
        cuts_single (s := ['\n']) (List.cons_ne_nil _ _), fun _ => rfl, fun _ => rfl⟩
    · have hline : isLineChar c = true := decide_eq_true hc
      have hgives : Gives (table .argument) s (c :: t) _ _ := (follows_run hline s t).gives _
      have hend : startsBehind s (c :: t.takeWhile isLineChar) = false :=
        startsBehind_lineChars (List.cons_ne_nil _ _) (fun d hd => by
          rcases List.mem_cons.mp hd with rfl | hd
          · exact hline
          · exact List.all_eq_true.mp List.all_takeWhile d hd) s
      have hcuts := @cuts_single .argument (c :: t.takeWhile isLineChar) (t.dropWhile isLineChar) (List.cons_ne_nil _ _)
      rw [List.cons_append, List.takeWhile_append_dropWhile] at hcuts
      refine ⟨([⟨.argument, c :: t.takeWhile isLineChar⟩], t.dropWhile isLineChar), true,
        step_of_gives [.first] hgives, hcuts, fun h => ?_, fun fuel => ?_⟩
      · rw [said_single, hend] at h
        cases h
      · rw [cut, List.span_eq_takeWhile_dropWhile, List.takeWhile_cons_of_pos hline, List.dropWhile_cons_of_pos hline,
          said_single, hend]
        exact if_neg hc
  | false =>
    have hgives := gives_first s c t
    obtain ⟨_, _, -, hmakes, -⟩ := id hgives
    have hcuts := cuts_cutRule s c t
    refine ⟨(cutRule s c t).1, (cutRule s c t).2, ?_, hcuts, fun h => ?_, fun fuel => ?_⟩
    · refine (step_of_gives [] hgives).trans ?_
      cases (cutRule s c t).2 <;> rfl
    · cases hargument : (cutRule s c t).2 with
      | false => rfl
      | true => exact absurd (h.symm.trans (startsBehind_cutRule hargument)) (by decide)
    · rw [hmakes.startsBehind hcuts.nonempty, cut]
      rfl

/-- At the end of the text, no rule matches. -/
theorem step_inside_nil (argument s : Bool) : (State.inside argument s []).step table = none := by
  cases argument <;> cases s <;> rfl

/-! ## runs -/

/-- A run comes only to states of `cut`. -/
theorem Reaches.inside {t : Text} {s : State} (h : Reaches table (.start t) s) :
    ∃ argument u, s = .inside argument s.atStart s.rest ∧ u ++ s.rest = t ∧ s.atStart = startsBehind true u ∧
      (s.atStart = true → argument = false) := by
  induction h with
  | refl => exact ⟨false, [], rfl, rfl, rfl, fun _ => rfl⟩
  | tail _ h ih =>
    obtain ⟨ls, hstep⟩ := h
    obtain ⟨argument, u, hs, hu, hstart, -⟩ := ih
    rw [hs] at hstep
    rename_i b s' _
    cases hrest : b.rest with
    | nil =>
      rw [hrest, step_inside_nil] at hstep
      cases hstep
    | cons c v =>
      obtain ⟨r, next, hnext, hcuts, hend, -⟩ := exists_step argument b.atStart c v
      rw [hrest, hnext] at hstep
      obtain ⟨-, rfl⟩ := Prod.mk.inj (Option.some.inj hstep)
      refine ⟨next, u ++ said r.1, rfl, ?_, ?_, hend⟩
      · rw [List.append_assoc]
        exact (congrArg (u ++ ·) hcuts.whole).trans (hrest ▸ hu)
      · rw [startsBehind_append, ← hstart]
        rfl

end Lectern.Highlight
