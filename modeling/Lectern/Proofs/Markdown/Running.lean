import Lectern.Proofs.Markdown.Inert

/-!
# Names are read as they are written

* `Reading`          a cursor with some of a text behind it and the rest before it;
* `Standing`         a cursor that has read some of a text, all of it plain but for underscores that pair with none;
* `Standing.say`, `Standing.run`   what the rules do there: plain characters, and a run of underscores;
* `parseInline_eq`   running text in which no underscores emphasise is read as one token.
-/

namespace Lectern.Markdown
open Text

/-! ## rules that find nothing -/

/-- None of the rules finds anything. -/
theorem tryRules_append {dry : Bool} {c : Cursor} {rules : List InlineRule} (h : ∀ r ∈ rules, r dry c = (false, c))
    (more : List InlineRule) : tryRules dry (rules ++ more) c = tryRules dry more c := by
  induction rules with
  | nil => rfl
  | cons r rules ih =>
    rw [List.cons_append, tryRules, h r List.mem_cons_self]
    exact ih fun q hq => h q (List.mem_cons_of_mem _ hq)

/-! ## a run of underscores -/

theorem runLength_replicate {src : Array Char} {s r : Text} {n : Nat}
    (hsrc : src = (s ++ (List.replicate n '_' ++ r)).toArray) (hr : r.head? ≠ some '_') (fuel : Nat) (hf : n ≤ fuel) :
    runLength src '_' (s ++ (List.replicate n '_' ++ r)).length fuel s.length = n := by
  induction n generalizing s fuel with
  | zero =>
    cases fuel with
    | zero => rfl
    | succ fuel =>
      rw [runLength, if_neg]
      rintro ⟨-, h⟩
      rw [hsrc, List.getElem?_toArray, List.getElem?_append_right (Nat.le_refl _), Nat.sub_self,
        ← List.head?_eq_getElem?] at h
      exact hr h
  | succ n ih =>
    cases fuel with
    | zero => exact absurd hf (Nat.not_succ_le_zero n)
    | succ fuel =>
      have hmove : s ++ (List.replicate (n + 1) '_' ++ r) = (s ++ ['_']) ++ (List.replicate n '_' ++ r) := by
        rw [List.append_assoc]
        rfl
      rw [hmove] at hsrc ⊢
      have hrest := ih hsrc fuel (Nat.le_of_succ_le_succ hf)
      have hlen : (s ++ ['_']).length = s.length + 1 := List.length_append
      rw [hlen] at hrest
      rw [runLength, if_pos, hrest]
      refine ⟨by simp, ?_⟩
      rw [hsrc, List.getElem?_toArray, List.append_assoc, List.getElem?_append_right (Nat.le_refl _), Nat.sub_self]
      rfl

theorem pending_flush (c : Cursor) : c.flush.pending = [] := by
  unfold Cursor.flush
  split
  · rename_i h
    exact List.isEmpty_iff.mp h
  · rfl

theorem flush_flush (c : Cursor) : c.flush.flush = c.flush :=
  if_pos (List.isEmpty_iff.mpr (pending_flush c))

theorem pushDelimiter_flush (c : Cursor) (t : Text) (m : Char) (n : Nat) (o k : Bool) :
    c.flush.pushDelimiter t m n o k = c.pushDelimiter t m n o k := by
  simp only [Cursor.pushDelimiter, Cursor.push, flush_flush]

/-- The tokens and the delimiters that a run of underscores becomes. -/
theorem foldl_pushDelimiter {c : Cursor} (h : c.pending = []) (r : DelimiterRun) (n : Nat) :
    (List.range n).foldl (fun c _ => c.pushDelimiter ['_'] '_' r.length r.opens r.closes) c =
      { c with
        tokens := c.tokens ++ (List.replicate n (.text ['_'])).toArray
        delimiters := c.delimiters ++ ((List.range n).map fun k => underscore r (c.tokens.size + k)).toArray } := by
  induction n with
  | zero => simp
  | succ n ih =>
    rw [List.range_succ, List.foldl_append, ih, List.foldl_cons, List.foldl_nil]
    have hflush {c : Cursor} (h : c.pending = []) : c.flush = c := if_pos (List.isEmpty_iff.mpr h)
    rw [Cursor.pushDelimiter, Cursor.push, hflush (by exact h)]
    simp [underscore, Array.replicate_succ]

theorem foldl_pushDelimiter_succ (c : Cursor) (r : DelimiterRun) (n : Nat) :
    (List.range (n + 1)).foldl (fun c _ => c.pushDelimiter ['_'] '_' r.length r.opens r.closes) c =
      (List.range (n + 1)).foldl (fun c _ => c.pushDelimiter ['_'] '_' r.length r.opens r.closes) c.flush := by
  rw [List.range_succ_eq_map, List.foldl_cons, List.foldl_cons, pushDelimiter_flush]

theorem strokesFrom_cons {last d : Char} {t : Text} (h : d ≠ '_') :
    strokesFrom last 0 (d :: t) = strokesFrom d 0 t := by
  rw [strokesFrom, if_neg h]
  rfl

theorem strokesFrom_append {s w r : Text} (h : '_' ∉ w) :
    strokesFrom (s.getLastD ' ') 0 (w ++ r) = strokesFrom ((s ++ w).getLastD ' ') 0 r := by
  induction w generalizing s with
  | nil => rw [List.append_nil, List.nil_append]
  | cons d w ih =>
    have hw := @ih (s ++ [d]) fun hm => h (List.mem_cons_of_mem _ hm)
    rw [List.getLastD_concat, List.append_assoc] at hw
    rw [List.cons_append, strokesFrom_cons fun e => h (e ▸ List.mem_cons_self), hw]
    rfl

theorem strokesFrom_replicate (last : Char) (n k : Nat) (r : Text) :
    strokesFrom last n (List.replicate k '_' ++ r) = strokesFrom last (n + k) r := by
  induction k generalizing n with
  | zero => rfl
  | succ k ih =>
    rw [List.replicate_succ, List.cons_append, strokesFrom, if_pos rfl, ih, Nat.succ_add_eq_add_succ]

theorem exists_run (r : Text) : ∃ n r', r = List.replicate n '_' ++ r' ∧ r'.head? ≠ some '_' := by
  induction r with
  | nil => exact ⟨0, [], rfl, by decide⟩
  | cons d r ih =>
    by_cases hd : d = '_'
    · obtain ⟨n, r', rfl, hr⟩ := ih
      exact ⟨n + 1, r', by rw [hd, List.replicate_succ, List.cons_append], hr⟩
    · exact ⟨0, d :: r, rfl, fun e => hd (Option.some.inj e)⟩

/-- The first of the runs that are still to be read. -/
theorem strokesFrom_run {s r : Text} {n : Nat} (h : r.head? ≠ some '_') :
    strokesFrom (s.getLastD ' ') 0 (List.replicate (n + 1) '_' ++ r) =
      stroke (s.getLastD ' ') (n + 1) r.head? ::
        strokesFrom ((s ++ List.replicate (n + 1) '_').getLastD ' ') 0 r := by
  rw [strokesFrom_replicate, Nat.zero_add]
  cases r with
  | nil => rfl
  | cons d r =>
    have hd : d ≠ '_' := fun e => h (congrArg some e)
    rw [strokesFrom, if_neg hd, strokesFrom_cons hd]
    rfl

/-- A cursor that has read `s` of a text; `r` is still to be read. -/
structure Reading (s r : Text) (c : Cursor) : Prop where
  src : c.src = (s ++ r).toArray
  pos : c.pos = s.length
  stop : c.stop = (s ++ r).length
  depth : c.depth = 0
  ended : c.ended = []

/-- No token begins with the character, but for a run of underscores. -/
def isDull (c : Char) : Bool := !"\n$\\`~*[\x7b!<&".toList.contains c

theorem isDull_of_isCalm {c : Char} (h : isCalm c = true) : isDull c = true :=
  forall_calm (p := fun c => isDull c = true) (by decide +kernel) h

namespace Reading
variable {s r : Text} {c : Cursor} {d : Char}

/-- The cursor at the beginning of a text. -/
theorem start (definitions : List Definition) (t : Text) : Reading [] t (Cursor.start definitions t) :=
  ⟨rfl, rfl, List.size_toArray, rfl, rfl⟩

theorem char?_add (h : Reading s r c) (i : Nat) : c.char? (s.length + i) = r[i]? := by
  rw [Cursor.char?, h.src, List.getElem?_toArray, List.getElem?_append_right (Nat.le_add_right _ _),
    Nat.add_sub_cancel_left]

theorem head?_eq (h : Reading s r c) : c.head? = r.head? := by
  rw [Cursor.head?, h.pos, List.head?_eq_getElem?]
  exact h.char?_add 0

theorem beyond_eq (h : Reading s r c) : c.beyond c.pos = r := by
  simp [Cursor.beyond, Cursor.slice, h.src, h.pos]

theorem window_eq (h : Reading s r c) : c.window c.pos = r := by
  simp [Cursor.window, Cursor.slice, h.src, h.pos, h.stop]

theorem positionOf?_eq (h : Reading s r c) (p : Char → Bool) :
    positionOf? p c.src c.pos = (r.findIdx? p).map (· + s.length) := by
  have hrest : c.src.extract c.pos c.src.size = r.toArray := by simp [h.src, h.pos]
  rw [positionOf?, hrest, List.findIdx?_toArray, h.pos]

/-- Moved on, whatever tokens and pending text there are. -/
theorem move {w : Text} {c' : Cursor} (h : Reading s (w ++ r) c) (hsrc : c'.src = c.src) (hstop : c'.stop = c.stop)
    (hdepth : c'.depth = c.depth) (hended : c'.ended = c.ended) :
    Reading (s ++ w) r (c'.moveTo (s.length + w.length)) where
  src := (hsrc.trans h.src).trans (by rw [List.append_assoc])
  pos := List.length_append.symm
  stop := (hstop.trans h.stop).trans (by rw [List.append_assoc])
  depth := hdepth.trans h.depth
  ended := hended.trans h.ended

theorem plainRule_eq (h : Reading s r c) (hd : r.head?.any isTerminator = true) :
    plainRule false c = (false, c) := by
  cases r with
  | nil => exact Bool.noConfusion hd
  | cons d r =>
    have hd : isTerminator d = true := hd
    have hstop : (positionOf? isTerminator c.src c.pos).getD c.stop = c.pos := by
      rw [h.positionOf?_eq, List.findIdx?_cons, hd, h.pos]
      exact Nat.zero_add _
    exact if_pos hstop

/-- Up to the next terminator. -/
theorem plainRule_append {w : Text} (h : Reading s (w ++ r) c) (hw : w ≠ [])
    (hall : ∀ d ∈ w, isTerminator d = false) (hr : r.head?.all isTerminator = true) :
    plainRule false c = (true, (c.say w).moveTo (s.length + w.length)) := by
  have hstop : (positionOf? isTerminator c.src c.pos).getD c.stop = s.length + w.length := by
    have hfind : (w ++ r).findIdx? isTerminator = if r = [] then none else some w.length := by
      rw [List.findIdx?_append, List.findIdx?_eq_none_iff.mpr hall]
      cases r with
      | nil => rfl
      | cons d r => simp [List.findIdx?_cons, show isTerminator d = true from hr]
    rw [h.positionOf?_eq, hfind, h.stop]
    split
    · rename_i he
      simp [he]
    · simp [Nat.add_comm]
  have hne : s.length + w.length ≠ c.pos := by
    have := List.length_pos_iff.mpr hw
    rw [h.pos]
    omega
  have hslice : c.slice c.pos (s.length + w.length) = w := by
    simp [Cursor.slice, h.src, h.pos]
  unfold plainRule
  rw [hstop, if_neg hne, hslice]
  rfl

/-- The rules that come before emphasis, but for plain characters. -/
theorem rules_before (h : Reading s (d :: r) c) (hd : isDull d = true) :
    ∀ rule ∈ [lineBreakRule, formulaRule, escapeRule, spanCodeRule, strikeRule], rule false c = (false, c) := by
  have hne {e : Char} (he : isDull e = false) : c.head? ≠ some e := by
    rw [h.head?_eq, List.head?_cons]
    rintro ⟨⟩
    exact Bool.noConfusion (hd.symm.trans he)
  simp only [List.forall_mem_cons, List.not_mem_nil, false_imp_iff, implies_true, and_true]
  exact ⟨if_pos (hne (by decide)), if_pos (.inl (hne (by decide))), if_pos (.inl (hne (by decide))),
    if_pos (hne (by decide)), if_pos (.inr (hne (by decide)))⟩

/-- The rules that come after emphasis. -/
theorem rules_after (h : Reading s (d :: r) c) (hd : isDull d = true) (walk : Walk) :
    ∀ rule ∈ [keyRule, colourRule walk, linkRule walk, imageRule walk, autolinkRule, tagRule, referenceRule],
      rule false c = (false, c) := by
  have hne {e : Char} (he : isDull e = false) : d ≠ e := fun hde => Bool.noConfusion (hd.symm.trans (hde ▸ he))
  have hhead {e : Char} (he : isDull e = false) : c.head? ≠ some e := by
    rw [h.head?_eq, List.head?_cons]
    exact fun hde => hne he (Option.some.inj hde)
  have hkey : keyAt? c = none := by
    unfold keyAt?
    rw [h.beyond_eq]
    split
    · rename_i heq
      exact absurd (List.cons.inj heq).1 (hne (by decide))
    · rfl
  have hcolour : colourAt? c = none := by
    unfold colourAt? colourName?
    rw [h.window_eq]
    split
    · rfl
    · rename_i heq
      split at heq
      · rename_i hcons
        exact absurd (List.cons.inj hcons).1 (hne (by decide))
      · cases heq
  have hbracket : bracketedAt? c = none := by
    unfold bracketedAt?
    rw [h.window_eq]
    split
    · rename_i heq
      exact absurd (List.cons.inj heq).1 (hne (by decide))
    · rfl
  simp only [List.forall_mem_cons, List.not_mem_nil, false_imp_iff, implies_true, and_true]
  refine ⟨?_, ?_, if_pos (hhead (by decide)), if_pos (.inl (hhead (by decide))), ?_,
    if_pos (.inl (hhead (by decide))), if_pos (.inl (hhead (by decide)))⟩
  · rw [keyRule, hkey]
  · rw [colourRule, hcolour]
  · rw [autolinkRule, hbracket]

theorem emphasisRule_ne (h : Reading s (d :: r) c) (hd : isDull d = true) (hu : d ≠ '_') :
    emphasisRule false c = (false, c) := by
  have hstar : d ≠ '*' := by
    rintro rfl
    exact absurd hd (by decide)
  rw [emphasisRule, h.head?_eq, List.head?_cons]
  exact if_pos (.inr fun he => he.elim hu hstar)

/-- A terminator that is no underscore begins nothing. -/
theorem tryRules_none (h : Reading s (d :: r) c) (hd : isDull d = true) (hu : d ≠ '_')
    (hterm : isTerminator d = true) (walk : Walk) : tryRules false (inlineRules walk) c = (false, c) := by
  have hplain : plainRule false c = (false, c) := h.plainRule_eq hterm
  have hrules : ∀ rule ∈ inlineRules walk, rule false c = (false, c) := by
    have hbefore := h.rules_before hd
    have hafter := h.rules_after hd walk
    simp only [List.forall_mem_cons, List.not_mem_nil, false_imp_iff, implies_true, and_true] at hbefore hafter
    simp only [inlineRules, List.forall_mem_cons, List.not_mem_nil, false_imp_iff, implies_true, and_true]
    exact ⟨hplain, hbefore.1, hbefore.2.1, hbefore.2.2.1, hbefore.2.2.2.1, hbefore.2.2.2.2,
      h.emphasisRule_ne hd hu, hafter⟩
  have := tryRules_append hrules []
  rwa [List.append_nil] at this

/-- Plain characters are read up to the next terminator. -/
theorem exists_plain (h : Reading s (d :: r) c) (hterm : isTerminator d = false) (walk : Walk) :
    ∃ w r', d :: r = w ++ r' ∧ w ≠ [] ∧ (∀ e ∈ w, isTerminator e = false) ∧
      tryRules false (inlineRules walk) c = (true, (c.say w).moveTo (s.length + w.length)) := by
  obtain ⟨w, hw⟩ : ∃ w, (d :: r).takeWhile (fun e => !isTerminator e) = w := ⟨_, rfl⟩
  obtain ⟨r', hr'⟩ : ∃ r', (d :: r).dropWhile (fun e => !isTerminator e) = r' := ⟨_, rfl⟩
  have hsplit : d :: r = w ++ r' := by rw [← hw, ← hr', List.takeWhile_append_dropWhile]
  have hne : w ≠ [] := by
    rw [← hw, List.takeWhile_cons, if_pos (by simp [hterm])]
    exact List.cons_ne_nil _ _
  have hall : ∀ e ∈ w, isTerminator e = false := fun e he => by
    have htake := List.all_takeWhile (p := fun e => !isTerminator e) (l := d :: r)
    have hmem := List.all_eq_true.mp htake e (hw ▸ he)
    rwa [Bool.not_eq_true'] at hmem
  have hrest : r'.head?.all isTerminator = true := by
    have := List.head?_dropWhile_not (fun e => !isTerminator e) (d :: r)
    rw [hr'] at this
    cases hh : r'.head? with
    | none => rfl
    | some e => simpa [hh] using this
  refine ⟨w, r', hsplit, hne, hall, ?_⟩
  rw [hsplit] at h
  rw [inlineRules, tryRules, h.plainRule_append hne hall hrest]

end Reading

/-- A cursor that has read `s`, all of it plain text but for underscores that pair with none; `r` is still to be
read. -/
structure Standing (rs : List DelimiterRun) (s r : Text) (c : Cursor) : Prop extends Reading s r c where
  said : ∃ ts : List Text, c.tokens.toList = ts.map .text ∧ ts.flatten ++ c.pending.reverse = s
  runs : ∀ d ∈ c.delimiters, ∃ r ∈ rs, d = underscore r d.token
  idle : Pairing.Idle c.delimiters

namespace Standing
variable {rs : List DelimiterRun} {s r : Text} {c : Cursor} {d : Char}

/-- Plain characters read. -/
theorem say {w : Text} (h : Standing rs s (w ++ r) c) :
    Standing rs (s ++ w) r ((c.say w).moveTo (s.length + w.length)) := by
  obtain ⟨ts, hts, hs⟩ := h.said
  refine ⟨h.move rfl rfl rfl rfl, ⟨ts, hts, ?_⟩, h.runs, h.idle⟩
  show ts.flatten ++ (w.reverse ++ c.pending).reverse = s ++ w
  rw [List.reverse_append, List.reverse_reverse, ← List.append_assoc, hs]

/-- What the run of underscores at the cursor may do. -/
theorem runAt_eq {n : Nat} (h : Standing rs s (List.replicate n '_' ++ r) c) (hs : s ≠ [])
    (hcalm : ∀ d ∈ s ++ r, isCalm d = true) (hr : r.head? ≠ some '_') :
    runAt c '_' false = stroke (s.getLastD ' ') n r.head? := by
  have hlength : runLength c.src '_' c.stop (c.stop - c.pos) c.pos = n := by
    rw [h.stop, h.pos]
    refine runLength_replicate h.src hr _ ?_
    rw [List.length_append, List.length_append, List.length_replicate]
    omega
  have hpos : c.pos ≠ 0 := by
    rw [h.pos]
    exact Nat.pos_iff_ne_zero.mp (List.length_pos_iff.mpr hs)
  have hlast : (c.char? (c.pos - 1)).getD ' ' = s.getLastD ' ' := by
    rw [Cursor.char?, h.src, h.pos, List.getElem?_toArray,
      List.getElem?_append_left (Nat.sub_lt (List.length_pos_iff.mpr hs) Nat.one_pos), ← List.getLast?_eq_getElem?,
      List.getLastD_eq_getLast?]
  have hnext : (if c.pos + n < c.stop then (c.char? (c.pos + n)).getD ' ' else ' ') = r.headD ' ' := by
    have hchar : c.char? (c.pos + n) = r.head? := by
      rw [h.pos, h.char?_add, List.getElem?_append_right (by simp), List.length_replicate, Nat.sub_self,
        List.head?_eq_getElem?]
    rw [hchar, h.stop, h.pos]
    cases r with
    | nil => simp
    | cons d r => simp
  have hkind {d : Char} (hd : d ∈ s ++ r) : isSpacing d = false := isSpacing_of_isCalm (hcalm d hd)
  have hlastS : isSpacing (s.getLastD ' ') = false := by
    rw [List.getLastD_eq_getLast?, List.getLast?_eq_some_getLast hs]
    exact hkind (List.mem_append_left _ (List.getLast_mem hs))
  unfold runAt
  simp only [hlength, if_neg hpos, hlast, hnext, hlastS]
  cases r with
  | nil =>
    simp [stroke, show isSpacing ' ' = true by decide, show isPunctuation ' ' = false by decide]
  | cons d r =>
    have hd : isSpacing d = false := hkind (List.mem_append_right _ List.mem_cons_self)
    simp only [List.headD_cons, hd, stroke]
    cases hd : isPunctuation d <;> cases hl : isPunctuation (s.getLastD ' ') <;> simp [hd]

theorem flush (h : Standing rs s r c) : Standing rs s r c.flush := by
  obtain ⟨ts, hts, hs⟩ := h.said
  unfold Cursor.flush
  split
  · exact h
  · refine { h with said := ⟨ts ++ [c.pending.reverse], ?_, ?_⟩ }
    · show (c.tokens.push _).toList = _
      rw [Array.toList_push, hts, List.map_append]
      rfl
    · show (ts ++ [c.pending.reverse]).flatten ++ ([] : Text).reverse = s
      rw [List.flatten_append, List.flatten_singleton, List.reverse_nil, List.append_nil, hs]

/-- A run of underscores read that pairs with none of those before. -/
theorem run {n : Nat} (h : Standing rs s (List.replicate (n + 1) '_' ++ r) c) (hs : s ≠ [])
    (hcalm : ∀ d ∈ s ++ r, isCalm d = true) (hr : r.head? ≠ some '_')
    (hnew : ∀ q ∈ rs, emphasises q (stroke (s.getLastD ' ') (n + 1) r.head?) = false) (walk : Walk) :
    ∃ c', tryRules false (inlineRules walk) c = (true, c') ∧
      Standing (rs ++ [stroke (s.getLastD ' ') (n + 1) r.head?]) (s ++ List.replicate (n + 1) '_') r c' := by
  obtain ⟨r₀, hr₀⟩ : ∃ r₀, stroke (s.getLastD ' ') (n + 1) r.head? = r₀ := ⟨_, rfl⟩
  have hlen : r₀.length = n + 1 := hr₀ ▸ rfl
  have hrun : runAt c '_' false = r₀ := hr₀ ▸ h.runAt_eq hs hcalm hr
  rw [hr₀] at hnew ⊢
  have hrule : emphasisRule false c = (true, ((List.range (n + 1)).foldl
      (fun c _ => c.pushDelimiter ['_'] '_' r₀.length r₀.opens r₀.closes) c).moveTo (c.pos + (n + 1))) := by
    rw [emphasisRule, h.head?_eq, List.replicate_succ, List.cons_append, List.head?_cons]
    simp only [show decide ('_' = '*') = false by decide, hrun, hlen]
    rfl
  have htry : tryRules false (inlineRules walk) c = emphasisRule false c := by
    have hfails : ∀ rule ∈ [plainRule, lineBreakRule, formulaRule, escapeRule, spanCodeRule, strikeRule],
        rule false c = (false, c) := by
      rw [List.forall_mem_cons]
      exact ⟨h.plainRule_eq rfl, h.rules_before (d := '_') (by decide)⟩
    refine (tryRules_append hfails _).trans ?_
    rw [tryRules, hrule]
  refine ⟨_, htry.trans hrule, ?_⟩
  rw [foldl_pushDelimiter_succ, foldl_pushDelimiter (pending_flush c)]
  obtain ⟨ts, hts, hsaid⟩ := h.flush.said
  rw [pending_flush, List.reverse_nil, List.append_nil] at hsaid
  have hf := h.flush
  exact
    { src := hf.src.trans (by rw [List.append_assoc])
      pos := by
        rw [List.length_append, List.length_replicate, ← h.pos]
        rfl
      stop := hf.stop.trans (by rw [List.append_assoc])
      depth := hf.depth
      ended := hf.ended
      said := by
        refine ⟨ts ++ List.replicate (n + 1) ['_'], ?_, ?_⟩
        · show (c.flush.tokens ++ (List.replicate (n + 1) (Token.text ['_'])).toArray).toList = _
          rw [Array.toList_append, hts, List.map_append, List.map_replicate]
        · show (ts ++ List.replicate (n + 1) ['_']).flatten ++ c.flush.pending.reverse = _
          rw [pending_flush, List.reverse_nil, List.append_nil, List.flatten_append, hsaid,
            List.flatten_replicate_singleton]
      runs := by
        intro d hd
        rcases Array.mem_append.mp hd with hd | hd
        · obtain ⟨q, hq, he⟩ := hf.runs d hd
          exact ⟨q, List.mem_append_left _ hq, he⟩
        · obtain ⟨k, -, rfl⟩ := List.mem_map.mp (List.mem_toArray.mp hd)
          exact ⟨r₀, List.mem_append_right _ (List.mem_singleton_self r₀), rfl⟩
      idle := hf.idle.append hf.runs hnew c.flush.tokens.size (n + 1) }

/-- The cursor at the beginning of a text. -/
theorem start (definitions : List Definition) (t : Text) : Standing [] [] t (Cursor.start definitions t) where
  toReading := .start definitions t
  said := ⟨[], rfl, rfl⟩
  runs := fun d hd => absurd hd (Array.not_mem_empty d)
  idle := ⟨fun d hd => absurd hd (Array.not_mem_empty d),
    fun _ _ o _ _ ho => absurd (Array.mem_of_getElem? ho) (Array.not_mem_empty o)⟩

/-- The rest of the text is read as plain text. -/
theorem readWindow (walk : Walk) (fuel : Nat) (h : Standing rs s r c) (hf : r.length ≤ fuel)
    (hs : s = [] → r.head? ≠ some '_') (hcalm : ∀ d ∈ s ++ r, isCalm d = true)
    (hrs : (rs ++ strokesFrom (s.getLastD ' ') 0 r).Pairwise fun o c => emphasises o c = false) :
    ∃ qs, Standing qs (s ++ r) [] (Markdown.readWindow walk (s ++ r).length fuel c) ∧
      (Markdown.readWindow walk (s ++ r).length fuel c).pending = [] := by
  induction fuel generalizing rs s r c with
  | zero =>
    obtain rfl := List.length_eq_zero_iff.mp (Nat.le_zero.mp hf)
    rw [List.append_nil]
    exact ⟨rs, h.flush, pending_flush c⟩
  | succ fuel ih =>
    rw [Markdown.readWindow]
    cases r with
    | nil =>
      rw [List.append_nil, if_pos (Nat.le_of_eq h.pos.symm)]
      exact ⟨rs, h.flush, pending_flush c⟩
    | cons d r =>
      have hpos : ¬ c.pos ≥ (s ++ d :: r).length := by
        rw [h.pos, List.length_append, List.length_cons]
        omega
      have hdepth : c.depth < maxSpanDepth := by
        rw [h.depth]
        decide
      have hd : isCalm d = true := hcalm d (List.mem_append_right _ List.mem_cons_self)
      rw [if_neg hpos, if_pos hdepth]
      have hnext {w r' : Text} {qs : List DelimiterRun} {c' : Cursor} (hw : d :: r = w ++ r') (hne : w ≠ [])
          (h' : Standing qs (s ++ w) r' c')
          (hqs : (qs ++ strokesFrom ((s ++ w).getLastD ' ') 0 r').Pairwise fun o c => emphasises o c = false) :
          ∃ qs, Standing qs (s ++ d :: r) [] (Markdown.readWindow walk (s ++ d :: r).length fuel c') ∧
            (Markdown.readWindow walk (s ++ d :: r).length fuel c').pending = [] := by
        have hlen := congrArg List.length hw
        rw [List.length_append] at hlen
        have hpos := List.length_pos_iff.mpr hne
        rw [hw, ← List.append_assoc]
        refine ih h' (by omega) (fun he => absurd (List.append_eq_nil_iff.mp he).2 hne) ?_ hqs
        rwa [List.append_assoc, ← hw]
      by_cases hterm : isTerminator d = true
      · by_cases hu : d = '_'
        · -- the whole run of underscores
          obtain ⟨n, r', hrun, hr'⟩ := exists_run (d :: r)
          cases n with
          | zero =>
            rw [List.replicate_zero, List.nil_append] at hrun
            exact absurd (hrun ▸ congrArg some hu) hr'
          | succ n =>
            have hs' : s ≠ [] := fun e => hs e (congrArg some hu)
            rw [hrun] at h hrs
            rw [strokesFrom_run hr'] at hrs
            have hcalm' : ∀ e ∈ s ++ r', isCalm e = true := fun e he => hcalm e <| by
              rw [hrun]
              exact (List.mem_append.mp he).elim (List.mem_append_left _)
                fun he => List.mem_append_right _ (List.mem_append_right _ he)
            obtain ⟨c', htry, h'⟩ := h.run hs' hcalm' hr'
              (fun q hq => (List.pairwise_append.mp hrs).2.2 q hq _ List.mem_cons_self) walk
            rw [htry]
            refine hnext hrun (by rw [List.replicate_succ]; exact List.cons_ne_nil _ _) h' ?_
            rwa [List.append_assoc, List.singleton_append]
        · -- a sign that begins nothing
          rw [h.tryRules_none (isDull_of_isCalm hd) hu hterm walk]
          dsimp only
          rw [if_neg Bool.false_ne_true, h.head?_eq, h.pos]
          refine hnext (w := [d]) rfl (List.cons_ne_nil _ _) (say (w := [d]) h) ?_
          have hmove := strokesFrom_append (s := s) (w := [d]) (r := r) fun hm => hu (List.mem_singleton.mp hm).symm
          rwa [← hmove]
      · -- plain characters up to the next terminator
        obtain ⟨w, r', hsplit, hne, hall, htry⟩ := h.exists_plain (Bool.eq_false_iff.mpr hterm) walk
        rw [htry]
        rw [hsplit] at h hrs
        refine hnext hsplit hne h.say ?_
        have hunder : isTerminator '_' = true := by decide
        rwa [← strokesFrom_append fun hm => Bool.noConfusion ((hall '_' hm).symm.trans hunder)]

end Standing

/-! ## the tokens of the text -/

/-- What neighbouring texts come to does not change when they are put together. -/
theorem flatMap_joinTexts {f : Token → Text} (hf : ∀ s t, f (.text (s ++ t)) = f (.text s) ++ f (.text t))
    (ts : List Token) : (joinTexts ts).flatMap f = ts.flatMap f := by
  induction ts with
  | nil => rfl
  | cons t ts ih =>
    rw [joinTexts.eq_def]
    dsimp only
    rw [List.flatMap_cons, ← ih]
    split
    · rename_i heq
      rw [heq, List.flatMap_cons, List.flatMap_cons, hf, List.append_assoc]
    · rfl

theorem joinTexts_texts {ts : List Text} (h : ts ≠ []) : joinTexts (ts.map .text) = [.text ts.flatten] := by
  induction ts with
  | nil => exact absurd rfl h
  | cons t ts ih =>
    cases ts with
    | nil => simp [joinTexts]
    | cons u ts =>
      rw [List.map_cons]
      unfold joinTexts
      simp only [ih (List.cons_ne_nil _ _), List.flatten_cons]

/-- Running text that holds nothing but letters, digits and a few signs is read as one token, where no run of
underscores emphasises. -/
theorem parseInline_eq (definitions : List Definition) {t : Text} (hne : t ≠ []) (hhead : t.head? ≠ some '_')
    (hcalm : ∀ d ∈ t, isCalm d = true) (hstrokes : (strokes t).Pairwise fun o c => emphasises o c = false) :
    parseInline definitions t = [.text t] := by
  obtain ⟨n, hn⟩ : ∃ n, (maxSpanDepth + 2) * (t.length + 1) = n + 1 := ⟨_, rfl⟩
  rw [parseInline, hn]
  obtain ⟨qs, h, hpending⟩ := (Standing.start definitions t).readWindow (walk n) t.length (Nat.le_refl _)
    (fun _ => hhead) hcalm hstrokes
  have hwalk : walk (n + 1) .window (Cursor.start definitions t) =
      readWindow (walk n) t.length t.length (Cursor.start definitions t) := by
    have hsize : (Cursor.start definitions t).stop = t.length := List.size_toArray
    rw [walk, hsize]
    rfl
  rw [hwalk]
  rw [List.nil_append] at h hpending
  obtain ⟨c, hc⟩ : ∃ c, readWindow (walk n) t.length t.length (Cursor.start definitions t) = c := ⟨_, rfl⟩
  rw [hc] at h hpending ⊢
  have hpartner : ∀ d ∈ c.delimiters, d.partner = none := fun d hd => by
    obtain ⟨r, -, he⟩ := h.runs d hd
    rw [he]
    rfl
  obtain ⟨ts, hts, hsaid⟩ := h.said
  rw [hpending, List.reverse_nil, List.append_nil] at hsaid
  have htokens : ts ≠ [] := fun e => hne (by rw [← hsaid, e]; rfl)
  rw [Cursor.finish, h.ended]
  simp only [List.map_cons, List.map_nil, List.foldl_cons, List.foldl_nil, pairDelimiters_idle h.idle,
    strikeOut_idle hpartner, emphasise_idle hpartner, hts, joinTexts_texts htokens, hsaid]

end Lectern.Markdown
