import Lectern.Html.Tree
import Mathlib.Data.List.TakeDrop

/-!
# Markup read piece by piece

Reading a piece of markup leaves less of it, so that no text outlasts the bound on the number of its
tokens.

* `scanAux_eq_of_lt`   the bound does not matter.
-/

namespace Lectern.Html
open Text

theorem exists_of_map_eq_ok {ε α β : Type} {f : α → β} {x : Except ε α} {b : β} (h : x.map f = .ok b) :
    ∃ a, x = .ok a ∧ f a = b := by
  cases x with
  | error e => exact nomatch h
  | ok a => exact ⟨a, rfl, Except.ok.inj h⟩

/-! ## what is left is shorter -/

theorem length_span_le {α : Type} (p : α → Bool) (l : List α) : (l.span p).2.length ≤ l.length := by
  rw [List.span_eq_takeWhile_dropWhile]
  exact (List.dropWhile_sublist p).length_le

theorem length_span_add {α : Type} (p : α → Bool) (l : List α) :
    (l.span p).1.length + (l.span p).2.length = l.length := by
  rw [List.span_eq_takeWhile_dropWhile, ← List.length_append, List.takeWhile_append_dropWhile]

theorem length_skipFiller_le (t : Text) : (skipFiller t).length ≤ t.length := by
  fun_induction skipFiller t with
  | case1 => exact Nat.le_refl _
  | case2 c t _ _ ih => exact Nat.le_trans ih (Nat.le_succ _)
  | case3 => exact Nat.le_refl _
  | case4 => exact Nat.le_refl _

theorem length_bareValue_le (t : Text) : (bareValue t).2.length ≤ t.length := length_span_le _ t

theorem length_readValue_le {t v rest : Text} {last : Char} (h : readValue? t = some (v, last, rest)) :
    rest.length ≤ t.length := by
  have hsigns := length_span_add (· = '=') (t.dropWhile isBlank)
  have hblank := (List.dropWhile_sublist isBlank (l := t)).length_le
  unfold readValue? at h
  generalize (t.dropWhile isBlank).span (· = '=') = s at h hsigns
  obtain ⟨signs, r⟩ := s
  have hgap := length_span_add isBlank r
  dsimp only at h hsigns
  generalize r.span isBlank = g at h hgap
  obtain ⟨gap, body⟩ := g
  dsimp only at h hgap
  split at h
  · exact nomatch h
  · split at h
    · rename_i q inner
      have hbare := length_bareValue_le (q :: inner)
      rw [List.length_cons] at hgap
      split at h
      · split at h
        · obtain ⟨-, h⟩ := Prod.mk.inj (Option.some.inj h)
          obtain ⟨-, rfl⟩ := Prod.mk.inj h
          rw [List.length_drop]
          omega
        · split at h
          · rename_i b hb
            have hpos : gap ≠ [] := fun e => by rw [e] at hb; exact nomatch hb
            have := List.length_pos_iff.mpr hpos
            obtain ⟨-, h⟩ := Prod.mk.inj (Option.some.inj h)
            obtain ⟨-, rfl⟩ := Prod.mk.inj h
            simp only [List.length_cons]
            omega
          · split at h
            · exact nomatch h
            · obtain ⟨-, h⟩ := Prod.mk.inj (Option.some.inj h)
              obtain ⟨-, rfl⟩ := Prod.mk.inj h
              rw [List.length_cons] at hbare
              omega
      · obtain ⟨-, h⟩ := Prod.mk.inj (Option.some.inj h)
        obtain ⟨-, rfl⟩ := Prod.mk.inj h
        rw [List.length_cons] at hbare
        omega
    · obtain ⟨-, h⟩ := Prod.mk.inj (Option.some.inj h)
      obtain ⟨-, rfl⟩ := Prod.mk.inj h
      exact Nat.zero_le _

theorem length_readAttributes_le (fuel : Nat) (before : Char) (t : Text) :
    (readAttributes fuel before t).2.length ≤ t.length := by
  induction fuel generalizing before t with
  | zero => exact Nat.le_refl _
  | succ fuel ih =>
    cases t with
    | nil => exact Nat.le_refl _
    | cons c t =>
      rw [readAttributes]
      split
      · exact Nat.le_refl _
      · have hname := length_span_le isAttributeNameChar t
        generalize t.span isAttributeNameChar = s at hname
        obtain ⟨tail, rest⟩ := s
        dsimp only at hname ⊢
        have hvalue : ((readValue? rest).getD ([], ((c :: tail).getLast?).getD c, rest)).2.2.length
            ≤ rest.length := by
          cases hv : readValue? rest with
          | none => exact Nat.le_refl _
          | some r => exact length_readValue_le hv
        generalize (readValue? rest).getD ([], ((c :: tail).getLast?).getD c, rest) = r at hvalue
        obtain ⟨value, last, rest'⟩ := r
        dsimp only at hvalue ⊢
        have hskip := length_skipFiller_le rest'
        have hmore := ih (if (skipFiller rest').length < rest'.length then ' ' else last)
          (skipFiller rest')
        rw [List.length_cons]
        omega

/-- What a tag, or what is none, leaves. -/
def TagReading.Leaves (n : Nat) : TagReading → Prop
  | .tag _ rest | .stray rest => rest.length ≤ n
  | .unfinished => True

theorem leaves_readTag {t : Text} {r : TagReading} (h : readTag t = .ok r) : r.Leaves t.length := by
  have hname := length_span_le isTagNameChar t
  unfold readTag at h
  generalize t.span isTagNameChar = s at h hname
  obtain ⟨name, after⟩ := s
  dsimp only at h hname
  have hfill := length_span_le (fun c => isBlank c || c = '/') after
  generalize (after.span fun c => isBlank c || c = '/') = s at h hfill
  obtain ⟨filler, body⟩ := s
  dsimp only at h hfill
  split at h
  · obtain rfl := Except.ok.inj h
    rw [List.length_cons] at hfill
    show _ ≤ _
    omega
  · have hattr := length_readAttributes_le (body.length + 1)
      ((filler.getLast?.or name.getLast?).getD ' ') body
    generalize readAttributes (body.length + 1) ((filler.getLast?.or name.getLast?).getD ' ') body = s
      at h hattr
    obtain ⟨written, rest⟩ := s
    dsimp only at h hattr
    have finish {reading : List (Text × Text) → TagReading}
        (h : Except.map reading (written.mapM fun (a : Text × Text) => (unescape a.2).map (a.1, ·)) = .ok r)
        (hr : ∀ as, (reading as).Leaves t.length) : r.Leaves t.length := by
      obtain ⟨as, -, rfl⟩ := exists_of_map_eq_ok h
      exact hr as
    split at h
    · refine finish h fun as => ?_
      rw [List.length_cons] at hattr
      show _ ≤ _
      omega
    · refine finish h fun as => ?_
      rw [List.length_cons, List.length_cons] at hattr
      show _ ≤ _
      omega
    · obtain rfl := Except.ok.inj h
      trivial
    · split at h
      · obtain rfl := Except.ok.inj h
        trivial
      · refine finish h fun as => ?_
        show _ ≤ _
        omega

theorem length_cutAt_le {c : Char} {t inside rest : Text} (h : cutAt? c t = some (inside, rest)) :
    rest.length ≤ t.length := by
  obtain ⟨i, -, hi⟩ := Option.map_eq_some_iff.mp h
  obtain ⟨-, rfl⟩ := Prod.mk.inj hi
  rw [List.length_drop]
  exact Nat.sub_le _ _

theorem length_readClosing_le {t rest : Text} {ts : List Token} (h : readClosing? t = some (ts, rest)) :
    rest.length ≤ t.length := by
  obtain ⟨⟨inside, rest'⟩, hc, hr⟩ := Option.map_eq_some_iff.mp h
  have hl := length_cutAt_le hc
  have : rest' = rest := by
    dsimp only at hr
    repeat' split at hr
    all_goals exact (Prod.mk.inj hr).2
  exact this ▸ hl

theorem length_stripPrefix_le {p t r : Text} (h : stripPrefix? p t = some r) : r.length ≤ t.length := by
  rw [stripPrefix?_eq_some_iff.mp h, List.length_append]
  exact Nat.le_add_left _ _

theorem length_passMarks_le {others : List Char} {r rest : Text}
    (h : others.foldlM (fun r m => match r.dropWhile isBlank with
      | d :: r => if d = m then some r else none
      | [] => none) r = some rest) : rest.length ≤ r.length := by
  induction others generalizing r with
  | nil =>
    obtain rfl := Option.some.inj h
    exact Nat.le_refl _
  | cons m others ih =>
    rw [List.foldlM_cons] at h
    obtain ⟨r', hr', h⟩ := Option.bind_eq_some_iff.mp h
    have hdrop := (List.dropWhile_sublist isBlank (l := r)).length_le
    refine Nat.le_trans (ih h) ?_
    split at hr'
    · rename_i hd
      rw [hd, List.length_cons] at hdrop
      split at hr'
      · obtain rfl := Option.some.inj hr'
        omega
      · exact nomatch hr'
    · exact nomatch hr'

theorem length_cutAtMarks_le {first : Text} {others : List Char} {t inside rest : Text}
    (h : cutAtMarks? first others t = some (inside, rest)) : rest.length ≤ t.length := by
  induction t generalizing inside with
  | nil => exact nomatch h
  | cons c t ih =>
    rw [cutAtMarks?] at h
    dsimp only at h
    split at h
    · rename_i hr
      obtain ⟨-, rfl⟩ := Prod.mk.inj (Option.some.inj h)
      obtain ⟨r', hr', hr⟩ := Option.bind_eq_some_iff.mp hr
      exact Nat.le_trans (length_passMarks_le hr) (length_stripPrefix_le hr')
    · obtain ⟨⟨a, b⟩, hab, h⟩ := Option.map_eq_some_iff.mp h
      obtain ⟨-, rfl⟩ := Prod.mk.inj h
      exact Nat.le_trans (ih hab) (Nat.le_succ _)

theorem length_dropSemicolon_le (t : Text) : (dropSemicolon t).length ≤ t.length := by
  unfold dropSemicolon
  split
  · exact Nat.le_succ _
  · exact Nat.le_refl _

theorem length_readNumber_le {value : Text → Except TooManyDigits Nat} {digits t text rest : Text}
    (h : readNumber value digits t = .ok (.means text rest)) : rest.length ≤ t.length := by
  unfold readNumber at h
  split at h
  · split at h
    · exact nomatch h
    · obtain ⟨n, -, h⟩ := exists_of_map_eq_ok h
      obtain ⟨-, rfl⟩ := Reference.means.inj h
      exact length_dropSemicolon_le _
  · exact nomatch h

theorem length_readName_le {t text rest : Text} (h : readName t = .means text rest) :
    rest.length ≤ t.length := by
  have hspan := length_span_add (fun c => isLetterOrDigit c || c = '-' || c = '.') t
  unfold readName at h
  generalize (t.span fun c => isLetterOrDigit c || c = '-' || c = '.') = s at h hspan
  obtain ⟨run, after⟩ := s
  dsimp only at h hspan
  split at h
  · obtain ⟨-, rfl⟩ := Reference.means.inj h
    exact Nat.le_trans (length_dropSemicolon_le _) (by omega)
  · split at h
    · exact nomatch h
    · obtain ⟨-, rfl⟩ := Reference.means.inj h
      refine Nat.le_trans (length_dropSemicolon_le _) ?_
      rw [List.length_drop]
      omega

theorem length_readReference_le {t text rest : Text} (h : readReference t = .ok (.means text rest)) :
    rest.length ≤ t.length := by
  unfold readReference at h
  split at h
  · rename_i t
    have hspan := length_span_le (fun c => (hexDigit? c).isSome) t
    exact Nat.le_trans (length_readNumber_le h) (Nat.le_trans hspan (by simp only [List.length_cons]; omega))
  · rename_i t
    have hspan := length_span_le (fun c => (hexDigit? c).isSome) t
    exact Nat.le_trans (length_readNumber_le h) (Nat.le_trans hspan (by simp only [List.length_cons]; omega))
  · rename_i t _ _
    have hspan := length_span_le Char.isDigit t
    exact Nat.le_trans (length_readNumber_le h) (Nat.le_trans hspan (Nat.le_succ _))
  · rename_i c t _
    split at h
    · exact length_readName_le (Except.ok.inj h)
    · exact nomatch h
  · exact nomatch h

theorem length_verbatim_le {name t inside rest : Text} (h : verbatim? name t = some (inside, rest)) :
    rest.length ≤ t.length := by
  induction t generalizing inside with
  | nil => exact nomatch h
  | cons c t ih =>
    rw [verbatim?] at h
    dsimp only at h
    split at h
    · rename_i rest' hr
      obtain ⟨-, rfl⟩ := Prod.mk.inj (Option.some.inj h)
      obtain ⟨r, hp, hr⟩ := Option.bind_eq_some_iff.mp hr
      have hprefix := length_stripPrefix_le hp
      have hblank := (List.dropWhile_sublist isBlank (l := r)).length_le
      have hword := length_span_le isLetter (r.dropWhile isBlank)
      have hgap := (List.dropWhile_sublist isBlank (l := ((r.dropWhile isBlank).span isLetter).2)).length_le
      split at hr
      · rename_i he
        rw [he, List.length_cons] at hgap
        split at hr
        · obtain rfl := Option.some.inj hr
          omega
        · exact nomatch hr
      · exact nomatch hr
    · obtain ⟨⟨a, b⟩, hab, h⟩ := Option.map_eq_some_iff.mp h
      obtain ⟨-, rfl⟩ := Prod.mk.inj h
      exact Nat.le_trans (ih hab) (Nat.le_succ _)

theorem length_readSection_le {t rest : Text} {ts : List Token}
    (h : readSection t = .ok (some (ts, rest))) : rest.length ≤ t.length := by
  have pieces {first : Text} {others : List Char} {g : Text × Text → List Token × Text}
      (h : (cutAtMarks? first others t).map g = some (ts, rest)) (hg : ∀ p, (g p).2 = p.2) :
      rest.length ≤ t.length := by
    obtain ⟨⟨inside, rest'⟩, hc, hr⟩ := Option.map_eq_some_iff.mp h
    have hsame : rest = rest' := by simpa [hr] using hg (inside, rest')
    exact hsame ▸ length_cutAtMarks_le hc
  unfold readSection at h
  split at h
  · exact nomatch h
  · split at h
    · exact nomatch h
    · dsimp only at h
      split at h
      · exact nomatch h
      · split at h
        · exact pieces (Except.ok.inj h) fun _ => rfl
        · split at h
          · exact pieces (Except.ok.inj h) fun _ => rfl
          · exact nomatch h

theorem length_readDeclaration_le {t rest : Text} {ts : List Token}
    (h : readDeclaration t = .ok (some (ts, rest))) : rest.length ≤ t.length := by
  unfold readDeclaration at h
  split at h
  · obtain ⟨⟨inside, rest'⟩, hc, hr⟩ := Option.map_eq_some_iff.mp (Except.ok.inj h)
    obtain ⟨-, rfl⟩ := Prod.mk.inj hr
    exact Nat.le_trans (length_cutAtMarks_le hc) (by simp only [List.length_cons]; omega)
  · exact Nat.le_trans (length_readSection_le h) (Nat.le_succ _)
  · obtain ⟨⟨inside, rest'⟩, hc, hr⟩ := Option.map_eq_some_iff.mp (Except.ok.inj h)
    have hl := length_cutAt_le hc
    dsimp only at hr
    split at hr
    all_goals
      obtain ⟨-, rfl⟩ := Prod.mk.inj hr
      exact hl

theorem length_readMarkup_le {t rest : Text} {ts : List Token}
    (h : readMarkup t = .ok (some (ts, rest))) : rest.length ≤ t.length := by
  unfold readMarkup at h
  split at h
  · exact nomatch h
  · exact Nat.le_trans (length_readClosing_le (Except.ok.inj h)) (Nat.le_succ _)
  · exact Nat.le_trans (length_readDeclaration_le h) (Nat.le_succ _)
  · obtain ⟨⟨inside, rest'⟩, hc, hr⟩ := Option.map_eq_some_iff.mp (Except.ok.inj h)
    obtain ⟨-, rfl⟩ := Prod.mk.inj hr
    exact Nat.le_trans (length_cutAt_le hc) (Nat.le_succ _)
  · rename_i c t _ _ _
    split at h
    · cases hr : readTag (c :: t) with
      | error e => rw [hr] at h; exact nomatch h
      | ok r =>
        have hl := leaves_readTag hr
        rw [hr] at h
        cases r with
        | unfinished => exact nomatch h
        | stray rest' =>
          obtain ⟨-, rfl⟩ := Prod.mk.inj (Option.some.inj (Except.ok.inj h))
          exact hl
        | tag token rest' =>
          have hl : rest'.length ≤ (c :: t).length := hl
          have plain (h : (Except.ok (some ([token], rest')) : Except Rejection _) = .ok (some (ts, rest))) :
              rest.length ≤ (c :: t).length := by
            obtain ⟨-, rfl⟩ := Prod.mk.inj (Option.some.inj (Except.ok.inj h))
            exact hl
          cases token with
          | text _ => exact plain h
          | closing _ => exact plain h
          | note _ _ => exact plain h
          | opening name as closed =>
            cases closed with
            | true => exact plain h
            | false =>
              change (if isVerbatimName name then _ else _) = _ at h
              split at h
              · split at h
                · rename_i hv
                  obtain ⟨-, rfl⟩ := Prod.mk.inj (Option.some.inj (Except.ok.inj h))
                  exact Nat.le_trans (length_verbatim_le hv) hl
                · obtain ⟨-, rfl⟩ := Prod.mk.inj (Option.some.inj (Except.ok.inj h))
                  exact Nat.zero_le _
              · exact plain h
    · obtain ⟨-, rfl⟩ := Prod.mk.inj (Option.some.inj (Except.ok.inj h))
      exact Nat.le_refl _

theorem length_unfinishedPart_lt (c : Char) (t : Text) :
    (unfinishedPart (c :: t)).2.length < (c :: t).length := by
  unfold unfinishedPart
  dsimp only
  split
  · rw [List.length_cons, List.length_drop]
    omega
  · split
    · rw [List.length_cons, List.length_drop]
      omega
    · exact Nat.lt_succ_self _

/-- The bound on the number of tokens does not matter. -/
theorem scanAux_eq_of_lt {fuel fuel' : Nat} {ending : Bool} {t : Text} (h : t.length < fuel)
    (h' : t.length < fuel') : scanAux fuel ending t = scanAux fuel' ending t := by
  induction fuel generalizing fuel' ending t with
  | zero => exact absurd h (Nat.not_lt_zero _)
  | succ fuel ih =>
    cases fuel' with
    | zero => exact absurd h' (Nat.not_lt_zero _)
    | succ fuel' =>
      cases t with
      | nil => rw [scanAux, scanAux] <;> exact nofun
      | cons c t =>
        rw [List.length_cons] at h h'
        have next {rest : Text} (hr : rest.length ≤ t.length) (e : Bool) :
            scanAux fuel e rest = scanAux fuel' e rest := ih (by omega) (by omega)
        rw [scanAux, scanAux]
        split
        · cases hm : readMarkup t with
          | error e => rfl
          | ok r =>
            cases r with
            | none =>
              have hl := length_unfinishedPart_lt c t
              rw [List.length_cons] at hl
              have hn := next (Nat.le_of_lt_succ hl) true
              show (do return Token.text _ :: (← scanAux fuel true (unfinishedPart (c :: t)).2)) = _
              rw [hn]
              rfl
            | some p =>
              show (do return p.1 ++ (← scanAux fuel ending p.2)) = _
              rw [next (length_readMarkup_le hm)]
              rfl
        · split
          · cases hr : readReference t with
            | error e => rfl
            | ok r =>
              cases r with
              | means text rest =>
                show (do return Token.text _ :: (← scanAux fuel ending rest)) = _
                rw [next (length_readReference_le hr)]
                rfl
              | strayNumber =>
                have hd : (t.drop 1).length ≤ t.length := by rw [List.length_drop]; exact Nat.sub_le _ _
                show (if !t.contains ';' then _ else if ending then _ else
                  do return Token.text _ :: (← scanAux fuel true (t.drop 1))) = _
                rw [next hd]
                rfl
              | unfinished => rfl
              | stray =>
                show (do return Token.text _ :: (← scanAux fuel ending t)) = _
                rw [next (Nat.le_refl _)]
                rfl
          · have hs := length_span_le (fun d => d ≠ '<' && d ≠ '&') t
            dsimp only
            rw [next hs]

end Lectern.Html
