import Lectern.Proofs.Highlight.Pattern
import Lectern.Proofs.Highlight.Whole

/-!
# The rules of the notes' markup

The table of rules by which a sample of notes is cut.  Where the first mode or a sigil's argument is at some text,
the table and `cut` take the same step: the first rule that matches, in the first way in which it does, gives the
pieces that `cut` puts in front, and leaves the rest that it goes on with.

* `table`          the rules, by mode;
* `Gives`          what the first rule that matches cuts off;
* `gives_first`    the first mode cuts as `cutRule` does;
* `exists_step`    a step of the table is a step of `cut`.
-/

namespace Lectern.Highlight
open Text

namespace Rule

/-- A comment that ends on its own line. -/
def comment : Rule where
  pattern := .both (.text "<!--") (.both (.few isLineChar) (.text "-->"))
  giving := .whole .comment

/-- A marker with its title, through the end of the line. -/
def marker : Rule where
  pattern := .both .lineStart (.both (.group (.oneOf (markers.map fun m => .many m.2 none (· = m.1))))
    (.both (.group (.many 0 none isLineChar)) (.group (.text ['\n']))))
  giving := .groups [.marker, .title, .lineEnd]

def heading : Rule where
  pattern := .both .lineStart (.both (.many 1 (some 6) (· = '#'))
    (.both (.many 0 none isLineChar) (.text ['\n'])))
  giving := .whole .heading

/-- A sigil that is written twice stands for itself. -/
def doubled : Rule where
  pattern := .both .lineStart (.oneOf (sigils.map fun c => .text [c, c]))
  giving := .whole .plain

def sigil : Rule where
  pattern := .both .lineStart (.one sigils.contains)
  giving := .whole .sigil
  move := .push .argument

/-- A run of at least so many characters between two marks. -/
def enclosed (role : Role) (opening closing : Text) (least : Nat) (inside : Char → Bool) : Rule where
  pattern := .both (.text opening) (.both (.many least none inside) (.text closing))
  giving := .whole role

def inclusion : Rule := enclosed .inclusion ['{', '{'] ['}', '}'] 0 (· ≠ '}')

def key : Rule := enclosed .key "[[" "]]" 0 fun c => c ≠ ']' && c ≠ '\n'

def formula : Rule := enclosed .formula ['$'] ['$'] 1 fun c => c ≠ '$' && c ≠ '\n'

def plain : Rule where
  pattern := .many 1 none isPlain
  giving := .whole .plain

def lineEnd : Rule where
  pattern := .text ['\n']
  giving := .whole .lineEnd

/-- A character that opens nothing. -/
def other : Rule where
  pattern := .one isLineChar
  giving := .whole .plain

/-- What follows a sigil. -/
def argument : Rule where
  pattern := .many 1 none isLineChar
  giving := .whole .argument

def argumentEnd : Rule where
  pattern := .text ['\n']
  giving := .whole .lineEnd
  move := .pop

end Rule

open Rule in
def table : Mode → List Rule
  | .first =>
    [comment, marker, heading, doubled, sigil, inclusion, key, formula, plain, lineEnd, other]
  | .argument => [argument, argumentEnd]

/-! ## matches and pieces -/

/-- A match gives the pieces that were cut off, and leaves what they leave. -/
structure Giving.Makes (g : Giving) (m : Match) (c : Cut) : Prop where
  lexemes : g.lexemes m = c.1.map Piece.lexeme
  covered : m.covered = said c.1
  rest : m.rest = c.2

/-- The first way of a rule makes what a function cuts off, and there is none where it cuts nothing off. -/
def Rule.Follows (r : Rule) (s : Bool) (t : Text) : Option Cut → Prop
  | some c => ∃ m, (r.pattern.ways s t).head? = some m ∧ r.giving.Makes m c
  | none => (r.pattern.ways s t).head? = none

/-- A rule that gives its match as one piece follows where it leaves the same. -/
theorem Rule.follows_whole {p : Pattern} {role : Role} {mv : Move} {s : Bool} {t : Text} {o : Option Cut}
    (ho : ∀ c, o = some c → Cuts t c ∧ ∃ u, c.1 = [⟨role, u⟩]) (h : p.rest? s t = o.map Prod.snd) :
    Rule.Follows ⟨p, .whole role, mv⟩ s t o := by
  rw [Pattern.rest?] at h
  cases o with
  | none => exact Option.map_eq_none_iff.mp h
  | some c =>
    obtain ⟨m, hm, hrest⟩ := Option.map_eq_some_iff.mp h
    obtain ⟨hcuts, u, hu⟩ := ho c rfl
    have hcovered : m.covered = said c.1 := by
      have hwhole := Pattern.whole_of_mem_ways (List.mem_of_head? hm)
      rw [← hcuts.whole, hrest] at hwhole
      exact List.append_cancel_right hwhole
    refine ⟨m, hm, ?_, hcovered, hrest⟩
    show [(⟨some role, m.covered⟩ : Lexeme)] = _
    rw [hcovered, hu, said_single]
    rfl

/-- The first rule that matches makes these pieces, and moves on like this. -/
def Gives (rs : List Rule) (s : Bool) (t : Text) (c : Cut) (mv : Move) : Prop :=
  ∃ r m, firstMatch? rs s t = some (r, m) ∧ r.giving.Makes m c ∧ r.move = mv

namespace Rule.Follows
variable {r : Rule} {s : Bool} {t : Text} {c : Cut}

theorem gives (h : r.Follows s t (some c)) (rs : List Rule) : Gives (r :: rs) s t c r.move := by
  obtain ⟨m, hm, hmakes⟩ := h
  exact ⟨r, m, by rw [firstMatch?, List.findSome?_cons, hm]; rfl, hmakes, rfl⟩

theorem skip (h : r.Follows s t none) {rs : List Rule} {mv : Move} (hs : Gives rs s t c mv) :
    Gives (r :: rs) s t c mv := by
  obtain ⟨r', m, hm, hmakes⟩ := hs
  refine ⟨r', m, ?_, hmakes⟩
  rw [firstMatch?, List.findSome?_cons, show (r.pattern.ways s t).head? = none from h]
  exact hm

/-- Where a rule follows, the rules behind it count only if nothing has been cut off. -/
theorem getD {o : Option Cut} (h : r.Follows s t o) {mv : Move} (hr : r.move = mv) {rs : List Rule}
    (hs : Gives rs s t c mv) : Gives (r :: rs) s t (o.getD c) mv := by
  cases o with
  | some d => exact hr ▸ h.gives rs
  | none => exact h.skip hs

end Rule.Follows

/-! ## texts that lines are cut into -/

/-- What stands behind the end of the first line. -/
def behindLine? (t : Text) : Option Text := stripPrefix? ['\n'] (t.dropWhile isLineChar)

theorem span_isLineChar (t : Text) : t.span isLineChar = (t.takeWhile isLineChar,
    match behindLine? t with
    | some r => '\n' :: r
    | none => []) := by
  rw [List.span_eq_takeWhile_dropWhile, behindLine?]
  cases hd : t.dropWhile isLineChar with
  | nil => rfl
  | cons c r =>
    have hc : isLineChar c = false := by
      have := List.head_dropWhile_not isLineChar (l := t) (by rw [hd]; exact List.cons_ne_nil _ _)
      simpa [hd] using this
    obtain rfl : c = '\n' := by simpa [isLineChar] using hc
    rfl

/-- Where a line ends is the same from any place in it. -/
theorem behindLine?_drop {p : Char → Bool} (hp : ∀ c, p c = true → isLineChar c = true) {t : Text} {i : Nat}
    (hi : i ≤ (t.takeWhile p).length) : behindLine? (t.drop i) = behindLine? t := by
  have htake : ∀ c ∈ t.take i, isLineChar c = true := fun c hc => by
    have hpre : t.take i <+: t.takeWhile p :=
      List.prefix_of_prefix_length_le (List.take_prefix i t) (List.takeWhile_prefix p) (by
        rw [List.length_take]
        omega)
    exact hp c (List.all_eq_true.mp List.all_takeWhile c (hpre.subset hc))
  have := @List.dropWhile_append_of_pos _ isLineChar _ (t.drop i) htake
  rw [List.take_append_drop] at this
  rw [behindLine?, behindLine?, this]

/-! ## one rule -/

theorem startsWith_takeWhile {p : Char → Bool} {u : Text} (hu : ∀ c ∈ u, p c = true) (t : Text) :
    startsWith u (t.takeWhile p) = startsWith u t := by
  rw [Bool.eq_iff_iff, startsWith_iff, startsWith_iff]
  constructor
  · rintro ⟨r, hr⟩
    refine ⟨r ++ t.dropWhile p, ?_⟩
    rw [← List.append_assoc, ← hr, List.takeWhile_append_dropWhile]
  · rintro ⟨r, rfl⟩
    exact ⟨r.takeWhile p, List.takeWhile_append_of_pos hu⟩

/-- The first place in a run behind which a text of its characters stands. -/
theorem findSome?_stripPrefix? {p : Char → Bool} {d : Char} {w : Text} (hu : ∀ c ∈ d :: w, p c = true)
    (t : Text) : ((List.range ((t.takeWhile p).length + 1)).findSome? fun i => stripPrefix? (d :: w) (t.drop i)) =
      (indexOf? (d :: w) (t.takeWhile p)).map fun i => t.drop (i + (d :: w).length) := by
  induction t with
  | nil => rfl
  | cons c t ih =>
    rw [List.range_succ_eq_map, List.findSome?_cons, List.drop_zero, List.findSome?_map]
    by_cases hc : p c = true
    · rw [List.takeWhile_cons_of_pos hc, List.length_cons, indexOf?]
      have hstart := startsWith_takeWhile hu (c :: t)
      rw [List.takeWhile_cons_of_pos hc] at hstart
      rw [hstart, startsWith]
      cases hs : stripPrefix? (d :: w) (c :: t) with
      | some r =>
        rw [Option.isSome_some, if_pos rfl, Option.map_some, Nat.zero_add, stripPrefix?_eq_some_iff.mp hs,
          List.drop_left]
      | none =>
        rw [Option.isSome_none, if_neg Bool.false_ne_true, Option.map_map]
        refine ih.trans (congrArg (Option.map · _) (funext fun i => ?_))
        rw [Function.comp_apply, Nat.add_right_comm, List.drop_succ_cons]
    · have hd : d ≠ c := fun h => hc (h ▸ hu d List.mem_cons_self)
      rw [List.takeWhile_cons_of_neg hc, stripPrefix?, if_neg hd, indexOf?, if_neg (List.cons_ne_nil _ _)]
      rfl

theorem follows_comment (s : Bool) (t : Text) : Rule.comment.Follows s t (commentRule? t) := by
  refine Rule.follows_whole (fun c hc => ⟨cuts_commentRule? hc, ?_⟩) ?_
  · obtain ⟨rest, -, hc⟩ := Option.bind_eq_some_iff.mp hc
    obtain ⟨i, -, rfl⟩ := Option.map_eq_some_iff.mp hc
    exact ⟨_, rfl⟩
  · rw [Pattern.rest?_text_both, commentRule?, Option.map_bind]
    refine congrArg _ (funext fun r => ?_)
    rw [Pattern.rest?_both, Pattern.ways, List.findSome?_map, Function.comp_apply, Option.map_map]
    refine (congrArg (List.findSome? · _) (funext fun i => ?_)).trans
      (findSome?_stripPrefix? (d := '-') (w := ['-', '>']) (List.all_eq_true.mp rfl) r)
    exact Pattern.rest?_text ..

theorem follows_enclosed {role : Role} {opening : Text} (ho : opening ≠ []) {d : Char} {ds : Text}
    {inside : Char → Bool} (hd : inside d = false) (s : Bool) (t : Text) :
    (Rule.enclosed role opening (d :: ds) 0 inside).Follows s t (enclosedRule? role opening (d :: ds) inside t) := by
  refine Rule.follows_whole (fun c hc => ⟨cuts_enclosedRule? ho hc, ?_⟩) ?_
  · obtain ⟨rest, -, hc⟩ := Option.bind_eq_some_iff.mp hc
    obtain ⟨_, -, rfl⟩ := Option.map_eq_some_iff.mp hc
    exact ⟨_, rfl⟩
  · rw [Pattern.rest?_enclosed hd, enclosedRule?, Option.map_bind]
    refine congrArg _ (funext fun r => ?_)
    rw [if_pos (Nat.zero_le _), Function.comp_apply, List.span_eq_takeWhile_dropWhile, Option.map_map]
    exact Option.map_id'.symm

theorem follows_formula (s : Bool) (t : Text) : Rule.formula.Follows s t (formulaRule? t) := by
  refine Rule.follows_whole (fun c hc => ⟨cuts_formulaRule? hc, ?_⟩) ?_
  · obtain ⟨rest, -, hc⟩ := Option.bind_eq_some_iff.mp (Option.filter_eq_some_iff.mp hc).1
    obtain ⟨_, -, rfl⟩ := Option.map_eq_some_iff.mp hc
    exact ⟨_, rfl⟩
  · rw [Pattern.rest?_enclosed (by decide), formulaRule?, enclosedRule?]
    cases stripPrefix? ['$'] t with
    | none => rfl
    | some r =>
      rw [Option.bind_some, Option.bind_some, List.span_eq_takeWhile_dropWhile]
      dsimp only
      cases stripPrefix? ['$'] (r.dropWhile fun c => c ≠ '$' && c ≠ '\n') with
      | none => exact ite_self _
      | some u =>
        rw [Option.map_some, Option.filter_some]
        by_cases hle : 1 ≤ (r.takeWhile fun c => c ≠ '$' && c ≠ '\n').length
        · rw [if_pos hle, if_pos (by simpa using Nat.lt_of_succ_le hle)]
          rfl
        · rw [if_neg hle, if_neg (by simpa using hle)]
          rfl

/-- A rule for the start of a line does not match elsewhere. -/
theorem Rule.follows_inLine (a : Pattern) (g : Giving) (mv : Move) (t : Text) :
    Rule.Follows ⟨.both .lineStart a, g, mv⟩ false t none := Pattern.head?_lineStart a false t

/-- A rule for the start of a line that gives its match as one piece follows there where it leaves the same. -/
theorem Rule.follows_onLine {a : Pattern} {role : Role} {mv : Move} {t : Text} {o : Option Cut}
    (ho : ∀ c, o = some c → Cuts t c ∧ ∃ u, c.1 = [⟨role, u⟩]) (h : a.rest? true t = o.map Prod.snd) :
    Rule.Follows ⟨.both .lineStart a, .whole role, mv⟩ true t o :=
  Rule.follows_whole ho (by rw [Pattern.rest?_lineStart, if_pos rfl, h])

theorem headingRule?_eq (t : Text) : headingRule? t = if t.head? = some '#' then
    (behindLine? t).map fun r => ([⟨.heading, t.takeWhile isLineChar ++ ['\n']⟩], r) else none := by
  unfold headingRule?
  split
  · rename_i u
    rw [span_isLineChar, List.head?_cons, if_pos rfl, show behindLine? ('#' :: u) = behindLine? u from rfl]
    cases behindLine? u <;> rfl
  · rename_i hne
    cases t with
    | nil => rfl
    | cons c u => exact (if_neg fun h => hne u (by rw [Option.some.inj h])).symm

theorem follows_heading (t : Text) : Rule.heading.Follows true t (headingRule? t) := by
  refine Rule.follows_onLine (fun c hc => ⟨cuts_headingRule? hc, ?_⟩) ?_
  · rw [headingRule?_eq] at hc
    split at hc
    · obtain ⟨r, -, rfl⟩ := Option.map_eq_some_iff.mp hc
      exact ⟨_, rfl⟩
    · cases hc
  · have hline (b : Bool) (u : Text) :
        (Pattern.both (.many 0 none isLineChar) (.text ['\n'])).rest? b u = behindLine? u := by
      rw [Pattern.rest?_both, Pattern.findSome?_many (d := '\n') (w := []) rfl fun m hm =>
        (Pattern.rest?_text ..).trans hm, if_pos (Nat.zero_le _), Pattern.rest?_text]
      rfl
    have hdrop {i : Nat} (hi : i ≤ (t.takeWhile (· = '#')).length) : behindLine? (t.drop i) = behindLine? t :=
      behindLine?_drop (fun c hc => by rw [of_decide_eq_true hc]; rfl) hi
    rw [Pattern.rest?_both, Pattern.ways, List.findSome?_map]
    simp only [Function.comp_def, hline]
    rw [Pattern.findSome?_lengths (n := min (t.takeWhile (· = '#')).length 6) rfl fun i hi hn => by
      rw [← hn]
      exact (hdrop (by omega)).trans (hdrop (Nat.min_le_left ..)).symm]
    have hrun : 1 ≤ min (t.takeWhile (· = '#')).length 6 ↔ t.head? = some '#' := by
      cases t with
      | nil => simp
      | cons c u =>
        rw [List.takeWhile_cons, List.head?_cons, Option.some.injEq]
        by_cases hc : c = '#'
        · have hlen : ((c :: u).takeWhile (· = '#')).length = (u.takeWhile (· = '#')).length + 1 := by simp [hc]
          rw [List.takeWhile_cons] at hlen
          rw [hlen]
          exact iff_of_true (by omega) hc
        · simp [hc]
    rw [Match.first, hdrop (Nat.min_le_left ..), headingRule?_eq, apply_ite (Option.map Prod.snd), Option.map_map]
    exact if_congr hrun Option.map_id'.symm rfl

/-- Where all alternatives come to the same, it counts whether there is one. -/
theorem findSome?_ite {α β : Type} {l : List α} {f : α → Option β} {q : α → Bool} {o : Option β}
    (h : ∀ a ∈ l, f a = if q a then o else none) : l.findSome? f = if l.any q then o else none := by
  induction l with
  | nil => rfl
  | cons a l ih =>
    rw [List.findSome?_cons, ih fun b hb => h b (List.mem_cons_of_mem _ hb), h a List.mem_cons_self, List.any_cons]
    cases q a <;> cases l.any q <;> cases o <;> rfl

theorem findSome?_flatMap {α β γ : Type} (l : List α) (f : α → List β) (g : β → Option γ) :
    (l.flatMap f).findSome? g = l.findSome? fun a => (f a).findSome? g := by
  induction l with
  | nil => rfl
  | cons a l ih =>
    rw [List.flatMap_cons, List.findSome?_append, ih, List.findSome?_cons]
    cases (f a).findSome? g <;> rfl

theorem sigilRule?_cons (c : Char) (t : Text) : sigilRule? (c :: t) = if sigils.contains c then
    some (match stripPrefix? [c] t with
      | some r => (([⟨.plain, [c, c]⟩], r), false)
      | none => (([⟨.sigil, [c]⟩], t), true)) else none := by
  unfold sigilRule?
  refine if_congr Iff.rfl ?_ rfl
  cases t with
  | nil => rfl
  | cons d t =>
    by_cases h : d = c
    · rw [h, show stripPrefix? [c] (c :: t) = some t from stripPrefix?_eq_some_iff.mpr rfl]
      exact if_pos rfl
    · rw [stripPrefix?, if_neg (Ne.symm h)]
      exact if_neg h

theorem follows_doubled (c : Char) (t : Text) : Rule.doubled.Follows true (c :: t)
    ((sigilRule? (c :: t)).bind fun r => if r.2 then none else some r.1) := by
  refine Rule.follows_onLine (fun r hr => ?_) ?_
  · obtain ⟨⟨d, argument⟩, hd, hr⟩ := Option.bind_eq_some_iff.mp hr
    cases argument with
    | true => cases hr
    | false =>
      obtain rfl := Option.some.inj hr
      refine ⟨cuts_sigilRule? hd, ?_⟩
      rw [sigilRule?_cons] at hd
      split at hd
      · split at hd
        · cases hd
          exact ⟨_, rfl⟩
        · cases hd
      · cases hd
  · have htext : ∀ d, ((Pattern.text [d, d]).rest? true (c :: t)) = if d == c then stripPrefix? [c] t else none := by
      intro d
      rw [Pattern.rest?_text, stripPrefix?]
      by_cases h : d = c
      · rw [if_pos h, if_pos (by rw [h]; exact BEq.rfl), h]
      · rw [if_neg h, if_neg (by simpa using h)]
    have hfind : ((Pattern.oneOf (sigils.map fun d => .text [d, d])).rest? true (c :: t)) =
        if sigils.contains c then stripPrefix? [c] t else none := by
      rw [Pattern.rest?, Pattern.ways_oneOf, List.head?_flatMap, List.map_findSome?, List.findSome?_map]
      refine (findSome?_ite fun d _ => htext d).trans ?_
      rw [List.any_beq']
    rw [hfind, sigilRule?_cons]
    cases sigils.contains c with
    | false => rfl
    | true => cases stripPrefix? [c] t <;> rfl

theorem follows_sigil {c : Char} {t : Text} (h : ∀ r, sigilRule? (c :: t) ≠ some (r, false)) :
    Rule.sigil.Follows true (c :: t) ((sigilRule? (c :: t)).map Prod.fst) := by
  have hsigil : (sigilRule? (c :: t)).map Prod.fst =
      if sigils.contains c then some ([⟨.sigil, [c]⟩], t) else none := by
    rw [sigilRule?_cons] at h ⊢
    split
    · rename_i hc
      rw [if_pos hc] at h
      split
      · rename_i r hr
        rw [hr] at h
        exact absurd rfl (h _)
      · rfl
    · rfl
  refine Rule.follows_onLine (fun r hr => ?_) ?_
  · obtain ⟨d, hd, rfl⟩ := Option.map_eq_some_iff.mp hr
    refine ⟨cuts_sigilRule? hd, ?_⟩
    rw [hsigil] at hr
    split at hr
    · exact ⟨_, congrArg Prod.fst (Option.some.inj hr).symm⟩
    · cases hr
  · rw [hsigil, Pattern.rest?, Pattern.ways, List.head?_cons, Option.any_some]
    cases sigils.contains c <;> rfl

/-- The pieces of a marker with its title. -/
def markerPieces (run title : Text) : List Piece :=
  [⟨.marker, run⟩] ++ (if title.isEmpty then [] else [⟨.title, title⟩]) ++ [⟨.lineEnd, ['\n']⟩]

theorem said_markerPieces (run title : Text) : said (markerPieces run title) = run ++ (title ++ ['\n']) := by
  cases title with
  | nil => simp [markerPieces, said]
  | cons d title => simp [markerPieces, said]

/-- The groups of a marker with its title, those that are not empty. -/
theorem lexemes_marker {m : Match} {run title : Text} (hrun : run ≠ []) (hm : m.groups = [run, title, ['\n']]) :
    Rule.marker.giving.lexemes m = (markerPieces run title).map Piece.lexeme := by
  rw [show Rule.marker.giving.lexemes m = _ from Giving.lexemes.eq_2 .., hm]
  obtain ⟨d, run, rfl⟩ := List.exists_cons_of_ne_nil hrun
  cases title <;> rfl

theorem markerRule?_cons (c : Char) (t : Text) : markerRule? (c :: t) =
    if markers.any fun m => m.1 = c && m.2 ≤ ((c :: t).takeWhile (· = c)).length then
      (behindLine? ((c :: t).dropWhile (· = c))).map fun r =>
        (markerPieces ((c :: t).takeWhile (· = c)) (((c :: t).dropWhile (· = c)).takeWhile isLineChar), r)
    else none := by
  rw [markerRule?, List.span_eq_takeWhile_dropWhile]
  refine if_congr Iff.rfl ?_ rfl
  rw [span_isLineChar]
  cases behindLine? ((c :: t).dropWhile (· = c)) <;> rfl

/-- The rest of a line and its end, as groups. -/
theorem head?_titled (s : Bool) (t : Text) :
    ((Pattern.both (.group (.many 0 none isLineChar)) (.group (.text ['\n']))).ways s t).head? =
      (behindLine? t).map fun r =>
        ⟨t.takeWhile isLineChar ++ ['\n'], [t.takeWhile isLineChar, ['\n']], r⟩ := by
  have hend (b : Bool) (u : Text) : ((Pattern.group (.text ['\n'])).ways b u).head? =
      (stripPrefix? ['\n'] u).map fun r => ⟨['\n'], [['\n']], r⟩ := by
    rw [Pattern.ways, Pattern.ways]
    cases stripPrefix? ['\n'] u <;> rfl
  rw [Pattern.head?_both, Pattern.ways, List.findSome?_map, Pattern.findSome?_many (d := '\n') (w := []) rfl]
  · rw [if_pos (Nat.zero_le _), Function.comp_apply, hend, Option.map_map]
    rfl
  · intro m hm
    rw [Function.comp_apply, hend, hm]
    rfl

/-- A run of one character, where what follows hangs on where the line ends. -/
theorem findSome?_sameChar {α : Type} {g : Match → Option α} {d : Char} (hd : isLineChar d = true)
    (hg : ∀ m m', behindLine? m.rest = behindLine? m'.rest → g m = none → g m' = none) {least : Nat}
    (hl : 0 < least) (s : Bool) (c : Char) (t : Text) :
    ((Pattern.many least none (· = d)).ways s (c :: t)).findSome? g =
      if d = c && least ≤ ((c :: t).takeWhile (· = c)).length then
        g { covered := (c :: t).takeWhile (· = c), rest := (c :: t).dropWhile (· = c) }
      else none := by
  rw [Pattern.ways, List.findSome?_map]
  by_cases hc : d = c
  · subst hc
    have hdrop {i : Nat} (hi : i ≤ ((d :: t).takeWhile (· = d)).length) :
        behindLine? ((d :: t).drop i) = behindLine? (d :: t) :=
      behindLine?_drop (fun e he => by rwa [of_decide_eq_true he]) hi
    have hsooner : ∀ i, i < ((d :: t).takeWhile (· = d)).length →
        (g ∘ Match.first (d :: t)) ((d :: t).takeWhile (· = d)).length = none →
          (g ∘ Match.first (d :: t)) i = none :=
      fun i hi => hg _ _ ((hdrop (Nat.le_refl _)).trans (hdrop (Nat.le_of_lt hi)).symm)
    rw [Pattern.findSome?_lengths_none hsooner, Function.comp_apply, Pattern.first_run]
    simp
  · have hrun : ((c :: t).takeWhile (· = d)).length = 0 := by simp [Ne.symm hc]
    rw [hrun, Pattern.findSome?_lengths_none fun i hi _ => absurd hi (Nat.not_lt_zero i), if_neg (by omega)]
    simp [hc]

theorem follows_marker (c : Char) (t : Text) : Rule.marker.Follows true (c :: t) (markerRule? (c :: t)) := by
  have hmarkers : ∀ m ∈ markers, isLineChar m.1 = true ∧ 0 < m.2 := by decide
  have hways : (Rule.marker.pattern.ways true (c :: t)).head? =
      if markers.any fun m => m.1 = c && m.2 ≤ ((c :: t).takeWhile (· = c)).length then
        (behindLine? ((c :: t).dropWhile (· = c))).map fun r =>
          let run := (c :: t).takeWhile (· = c)
          let title := ((c :: t).dropWhile (· = c)).takeWhile isLineChar
          ⟨run ++ (title ++ ['\n']), [run, title, ['\n']], r⟩
      else none := by
    rw [Rule.marker, Pattern.head?_lineStart, if_pos rfl, Pattern.head?_both, Pattern.ways, Pattern.ways_oneOf,
      List.findSome?_map, List.flatMap_map, findSome?_flatMap]
    simp only [Function.comp_def, head?_titled, Option.map_map]
    refine findSome?_ite fun m hm => ?_
    obtain ⟨hline, hpos⟩ := hmarkers m hm
    refine findSome?_sameChar hline (fun m m' h hm => ?_) hpos true c t
    rw [Option.map_eq_none_iff] at hm ⊢
    rw [← h, hm]
  rw [markerRule?_cons]
  split at hways
  · rename_i hany
    rw [if_pos hany]
    cases hr : behindLine? ((c :: t).dropWhile (· = c)) with
    | none =>
      rw [hr] at hways
      exact hways
    | some r =>
      rw [hr] at hways
      exact ⟨_, hways, lexemes_marker (by simp) rfl, (said_markerPieces _ _).symm, rfl⟩
  · rename_i hany
    rw [if_neg hany]
    exact hways

theorem follows_run {p : Char → Bool} {role : Role} {c : Char} (hc : p c = true) (s : Bool) (t : Text) :
    Rule.Follows ⟨.many 1 none p, .whole role, .stay⟩ s (c :: t)
      (some ([⟨role, c :: t.takeWhile p⟩], t.dropWhile p)) := by
  refine Rule.follows_whole (fun r hr => ?_) ?_
  · obtain rfl := Option.some.inj hr
    have hcuts := @cuts_single role (c :: t.takeWhile p) (t.dropWhile p) (List.cons_ne_nil _ _)
    rw [List.cons_append, List.takeWhile_append_dropWhile] at hcuts
    exact ⟨hcuts, _, rfl⟩
  · rw [Pattern.rest?_many, List.takeWhile_cons_of_pos hc, List.length_cons, if_pos (by omega),
      List.dropWhile_cons_of_pos hc]
    rfl

theorem follows_no_run {p : Char → Bool} {role : Role} {c : Char} (hc : p c = false) (s : Bool) (t : Text) :
    Rule.Follows ⟨.many 1 none p, .whole role, .stay⟩ s (c :: t) none := by
  refine Rule.follows_whole (fun r hr => by cases hr) ?_
  rw [Pattern.rest?_many, List.takeWhile_cons_of_neg (by simp [hc]), if_neg (by simp)]
  rfl

theorem follows_lineEnd (mv : Move) (s : Bool) (c : Char) (t : Text) :
    Rule.Follows ⟨.text ['\n'], .whole .lineEnd, mv⟩ s (c :: t)
      (if c = '\n' then some ([⟨.lineEnd, ['\n']⟩], t) else none) := by
  refine Rule.follows_whole (fun r hr => ?_) ?_
  · split at hr
    · rename_i hc
      obtain rfl := Option.some.inj hr
      refine ⟨?_, _, rfl⟩
      rw [hc]
      exact cuts_single (s := ['\n']) (List.cons_ne_nil _ _)
    · cases hr
  · rw [Pattern.rest?_text, stripPrefix?, apply_ite (Option.map Prod.snd)]
    exact if_congr eq_comm rfl rfl

theorem follows_other (s : Bool) {c : Char} (hc : c ≠ '\n') (t : Text) :
    Rule.other.Follows s (c :: t) (some ([⟨.plain, [c]⟩], t)) := by
  refine Rule.follows_whole (fun r hr => ?_) ?_
  · obtain rfl := Option.some.inj hr
    exact ⟨cuts_single (s := [c]) (List.cons_ne_nil _ _), _, rfl⟩
  · have hline : isLineChar c = true := decide_eq_true hc
    rw [Pattern.rest?, Pattern.ways, List.head?_cons, Option.any_some, if_pos hline]
    rfl

/-! ## one step -/

open Rule in
theorem gives_inline (s : Bool) (c : Char) (t : Text) :
    Gives [inclusion, key, formula, plain, lineEnd, other] s (c :: t) (inlineRule c t) .stay := by
  have hinclusion : inclusion.Follows s (c :: t) _ := follows_enclosed (List.cons_ne_nil _ _) (by decide) s (c :: t)
  have hkey : key.Follows s (c :: t) _ := follows_enclosed (by decide) (by decide) s (c :: t)
  rw [inlineRule, Option.orElse_eq_or, Option.orElse_eq_or, Option.getD_or, Option.getD_or]
  refine hinclusion.getD rfl (hkey.getD rfl ((follows_formula s (c :: t)).getD rfl ?_))
  have hend := follows_lineEnd .stay s c t
  split
  · rename_i hc
    subst hc
    exact (follows_no_run (by decide) s t).skip (hend.gives _)
  · rename_i hc
    rw [if_neg hc] at hend
    rw [List.span_eq_takeWhile_dropWhile]
    dsimp only
    split
    · rename_i hplain
      exact (follows_run hplain s t).gives _
    · rename_i hplain
      exact (follows_no_run (by simpa using hplain) s t).skip (hend.skip ((follows_other s hc t).gives _))

/-- What is cut off in the first mode; the flag says that a sigil's argument follows. -/
def cutRule (atStart : Bool) (c : Char) (t : Text) : Cut × Bool :=
  match commentRule? (c :: t) with
  | some r => (r, false)
  | none => if atStart then (lineRule? (c :: t)).getD (inlineRule c t, false) else (inlineRule c t, false)

theorem gives_first (s : Bool) (c : Char) (t : Text) : Gives (table .first) s (c :: t) (cutRule s c t).1
    (if (cutRule s c t).2 then .push .argument else .stay) := by
  have hcomment := follows_comment s (c :: t)
  rw [cutRule]
  cases h₁ : commentRule? (c :: t) with
  | some r => exact (h₁ ▸ hcomment).gives _
  | none =>
    refine (h₁ ▸ hcomment).skip ?_
    cases s with
    | false =>
      refine (Rule.follows_inLine _ _ _ _).skip <| (Rule.follows_inLine _ _ _ _).skip <|
        (Rule.follows_inLine _ _ _ _).skip <| (Rule.follows_inLine _ _ _ _).skip ?_
      exact gives_inline false c t
    | true =>
      have hmarker := follows_marker c t
      have hheading := follows_heading (c :: t)
      have hdoubled := follows_doubled c t
      rw [if_pos rfl, lineRule?, Option.orElse_eq_or, Option.orElse_eq_or]
      cases h₂ : markerRule? (c :: t) with
      | some r => exact (h₂ ▸ hmarker).gives _
      | none =>
        refine (h₂ ▸ hmarker).skip ?_
        cases h₃ : headingRule? (c :: t) with
        | some r => exact (h₃ ▸ hheading).gives _
        | none =>
          refine (h₃ ▸ hheading).skip ?_
          cases h₄ : sigilRule? (c :: t) with
          | none =>
            have hsigil := follows_sigil (c := c) (t := t) fun r hr => by
              cases h₄.symm.trans hr
            rw [h₄] at hdoubled hsigil
            exact hdoubled.skip (hsigil.skip (gives_inline true c t))
          | some r =>
            obtain ⟨r, argument⟩ := r
            rw [h₄] at hdoubled
            cases argument with
            | false => exact hdoubled.gives _
            | true =>
              have hsigil := follows_sigil (c := c) (t := t) fun r hr => by cases h₄.symm.trans hr
              rw [h₄] at hsigil
              exact hdoubled.skip (hsigil.gives _)

end Lectern.Highlight
