import Lectern.Highlight.Markup
import Mathlib.Data.List.TakeDrop

/-!
# Nothing is lost in cutting

A sample that is coloured is cut into pieces from the front.  Every rule cuts something off, and what it cuts off
and what it leaves are the text it was given, so the pieces together are the sample.

* `Cuts`          pieces cut off the front of a text;
* `said_cut`      the pieces of a text say the text;
* `said_pieces`   the pieces of a sample, in any language, say the sample as it is prepared.
-/

namespace Lectern.Highlight
open Text

/-- What some pieces say. -/
def said (ps : List Piece) : Text := ps.flatMap Piece.text

theorem said_append (ps qs : List Piece) : said (ps ++ qs) = said ps ++ said qs := List.flatMap_append

theorem said_single (r : Role) (t : Text) : said [⟨r, t⟩] = t := List.flatMap_singleton ..

/-- Pieces cut off the front of a text, and what is left of it. -/
structure Cuts (t : Text) (c : Cut) : Prop where
  whole : said c.1 ++ c.2 = t
  nonempty : said c.1 ≠ []

theorem Cuts.length_lt {t : Text} {c : Cut} (h : Cuts t c) : c.2.length < t.length := by
  rw [← h.whole, List.length_append]
  have := List.length_pos_iff.mpr h.nonempty
  omega

theorem cuts_single {r : Role} {s rest : Text} (hs : s ≠ []) : Cuts (s ++ rest) ([⟨r, s⟩], rest) where
  whole := by rw [said_single]
  nonempty := by rwa [said_single]

theorem span_append (p : Char → Bool) (t : Text) : (t.span p).1 ++ (t.span p).2 = t := by
  rw [List.span_eq_takeWhile_dropWhile]
  exact List.takeWhile_append_dropWhile

theorem span_ne_nil {p : Char → Bool} {c : Char} (hc : p c = true) (t : Text) : ((c :: t).span p).1 ≠ [] := by
  rw [List.span_eq_takeWhile_dropWhile, List.takeWhile_cons_of_pos hc]
  exact List.cons_ne_nil _ _

/-! ## one rule -/

section
variable {t : Text} {c : Cut}

theorem cuts_markerRule? (h : markerRule? t = some c) : Cuts t c := by
  unfold markerRule? at h
  split at h
  · cases h
  · rename_i d u
    have hrun := span_append (· = d) (d :: u)
    have hne : ((d :: u).span (· = d)).1 ≠ [] := span_ne_nil (decide_eq_true rfl) u
    dsimp only at h
    split at h
    · split at h
      · rename_i title rest htitle
        have hline := span_append isLineChar ((d :: u).span (· = d)).2
        rw [htitle] at hline
        obtain rfl := Option.some.inj h
        have hsaid : said (if title.isEmpty then [] else [⟨.title, title⟩]) = title := by
          cases title with
          | nil => rfl
          | cons e v => exact said_single _ _
        refine ⟨?_, ?_⟩
        · dsimp only
          rw [said_append, said_append, said_single, said_single, hsaid, List.append_assoc, List.append_assoc,
            List.singleton_append, hline, hrun]
        · dsimp only
          rw [said_append, said_append, said_single, List.append_assoc]
          exact List.append_ne_nil_of_left_ne_nil hne _
      · cases h
    · cases h

theorem cuts_headingRule? (h : headingRule? t = some c) : Cuts t c := by
  unfold headingRule? at h
  split at h
  · rename_i u
    split at h
    · rename_i line rest hspan
      have hline := span_append isLineChar u
      rw [hspan] at hline
      obtain rfl := Option.some.inj h
      rw [← hline, show '#' :: (line ++ '\n' :: rest) = ('#' :: line ++ ['\n']) ++ rest by simp]
      exact cuts_single (List.cons_ne_nil _ _)
    · cases h
  · cases h

theorem cuts_sigilRule? {argument : Bool} (h : sigilRule? t = some (c, argument)) : Cuts t c := by
  unfold sigilRule? at h
  split at h
  · rename_i d u
    split at h
    · split at h
      · rename_i e rest
        split at h
        · rename_i he
          subst he
          obtain ⟨rfl, -⟩ := Prod.mk.inj (Option.some.inj h)
          exact cuts_single (s := [e, e]) (List.cons_ne_nil _ _)
        · obtain ⟨rfl, -⟩ := Prod.mk.inj (Option.some.inj h)
          exact cuts_single (s := [d]) (List.cons_ne_nil _ _)
      · obtain ⟨rfl, -⟩ := Prod.mk.inj (Option.some.inj h)
        exact cuts_single (s := [d]) (List.cons_ne_nil _ _)
    · cases h
  · cases h

theorem cuts_commentRule? (h : commentRule? t = some c) : Cuts t c := by
  obtain ⟨rest, hrest, h⟩ := Option.bind_eq_some_iff.mp h
  obtain ⟨i, hi, rfl⟩ := Option.map_eq_some_iff.mp h
  obtain ⟨⟨s, r, hline, rfl⟩, -⟩ := indexOf?_eq_some hi
  have hwhole : rest = s ++ "-->".toList ++ (r ++ rest.dropWhile isLineChar) := by
    rw [← List.append_assoc, ← hline, List.takeWhile_append_dropWhile]
  have htake : (rest.takeWhile isLineChar).take s.length = s := by
    rw [hline, List.append_assoc, List.take_left]
  have hdrop : rest.drop (s.length + 3) = r ++ rest.dropWhile isLineChar := by
    rw [hwhole, List.drop_append_of_le_length (by simp), List.drop_eq_nil_of_le (by simp), List.nil_append]
    exact congrArg _ (by rw [← hwhole])
  rw [stripPrefix?_eq_some_iff.mp hrest, htake, hdrop]
  have := @cuts_single .comment ("<!--".toList ++ s ++ "-->".toList) (r ++ rest.dropWhile isLineChar) (by simp)
  rwa [List.append_assoc, List.append_assoc, ← List.append_assoc s, ← hwhole] at this

theorem cuts_enclosedRule? {role : Role} {opening closing : Text} (hne : opening ≠ []) {inside : Char → Bool}
    (h : enclosedRule? role opening closing inside t = some c) : Cuts t c := by
  obtain ⟨rest, hrest, h⟩ := Option.bind_eq_some_iff.mp h
  have hrun := span_append inside rest
  generalize rest.span inside = spanned at h hrun
  obtain ⟨left, hleft, rfl⟩ := Option.map_eq_some_iff.mp h
  rw [stripPrefix?_eq_some_iff.mp hleft] at hrun
  rw [stripPrefix?_eq_some_iff.mp hrest, ← hrun, ← List.append_assoc, ← List.append_assoc]
  exact cuts_single (List.append_ne_nil_of_left_ne_nil (List.append_ne_nil_of_left_ne_nil hne _) _)

theorem cuts_formulaRule? (h : formulaRule? t = some c) : Cuts t c :=
  cuts_enclosedRule? (List.cons_ne_nil _ _) (Option.filter_eq_some_iff.mp h).1

theorem cuts_lineRule? {argument : Bool} (h : lineRule? t = some (c, argument)) : Cuts t c := by
  rw [lineRule?, Option.orElse_eq_or, Option.or_eq_some_iff] at h
  rcases h with h | ⟨-, h⟩
  · obtain ⟨d, hd, he⟩ := Option.map_eq_some_iff.mp h
    obtain ⟨rfl, -⟩ := Prod.mk.inj he
    rw [Option.orElse_eq_or, Option.or_eq_some_iff] at hd
    rcases hd with hd | ⟨-, hd⟩
    · exact cuts_markerRule? hd
    · exact cuts_headingRule? hd
  · exact cuts_sigilRule? h

theorem cuts_inlineRule (d : Char) (t : Text) : Cuts (d :: t) (inlineRule d t) := by
  unfold inlineRule
  cases hmark : ((enclosedRule? .inclusion ['{', '{'] ['}', '}'] (· ≠ '}') (d :: t)).orElse fun _ =>
      (enclosedRule? .key "[[" "]]" (fun c => c ≠ ']' && c ≠ '\n') (d :: t)).orElse fun _ =>
        formulaRule? (d :: t)) with
  | some r =>
    rw [Option.orElse_eq_or, Option.or_eq_some_iff, Option.orElse_eq_or, Option.or_eq_some_iff] at hmark
    rcases hmark with h | ⟨-, h | ⟨-, h⟩⟩
    · exact cuts_enclosedRule? (List.cons_ne_nil _ _) h
    · exact cuts_enclosedRule? (List.cons_ne_nil _ _) h
    · exact cuts_formulaRule? h
  | none =>
    rw [Option.getD_none]
    split
    · rename_i hd
      subst hd
      exact cuts_single (s := ['\n']) (List.cons_ne_nil _ _)
    · dsimp only
      split
      · have := @cuts_single .plain (d :: (t.span isPlain).1) (t.span isPlain).2 (List.cons_ne_nil _ _)
        rwa [List.cons_append, span_append] at this
      · exact cuts_single (s := [d]) (List.cons_ne_nil _ _)

end

/-! ## all rules -/

theorem said_cut {fuel : Nat} {argument atStart : Bool} {t : Text} (h : t.length < fuel) :
    said (cut fuel argument atStart t) = t := by
  induction fuel generalizing argument atStart t with
  | zero => omega
  | succ fuel ih =>
    cases t with
    | nil => cases argument <;> rfl
    | cons c t =>
      rw [List.length_cons] at h
      cases argument with
      | true =>
        rw [cut]
        dsimp only
        split
        · rename_i hc
          show '\n' :: said (cut fuel false true t) = _
          rw [ih (by omega), hc]
        · rename_i hc
          have hspan := span_append isLineChar (c :: t)
          have hlt := congrArg List.length hspan
          have hpos := List.length_pos_iff.mpr (span_ne_nil (p := isLineChar) (decide_eq_true hc) t)
          rw [List.length_append, List.length_cons] at hlt
          show ((c :: t).span isLineChar).1 ++ said (cut fuel true false ((c :: t).span isLineChar).2) = _
          rw [ih (by omega), hspan]
      | false =>
        have step {r : Cut} (hr : Cuts (c :: t) r) (argument atStart : Bool) :
            said (r.1 ++ cut fuel argument atStart r.2) = c :: t := by
          have hlt := hr.length_lt
          rw [List.length_cons] at hlt
          rw [said_append, ih (by omega), hr.whole]
        rw [cut]
        cases hcomment : commentRule? (c :: t) with
        | some r => exact step (cuts_commentRule? hcomment) _ _
        | none =>
          cases atStart with
          | false => exact step (cuts_inlineRule c t) _ _
          | true =>
            cases hline : lineRule? (c :: t) with
            | none => exact step (cuts_inlineRule c t) _ _
            | some r => exact step (cuts_lineRule? hline) _ _

/-- The pieces of a sample say the sample. -/
theorem said_pieces (l : Language) (t : Text) : said (l.pieces t) = prepare t := by
  cases l with
  | notes => exact said_cut (Nat.lt_succ_self _)
  | plain => exact said_single _ _

end Lectern.Highlight
