import Lectern.Markdown.Inline.Nested

/-!
# A dry run writes nothing

A rule that runs dry, and one that finds nothing, leaves the text and the tokens read so far as they
are.  All that changes is what the cursor remembers of its searches: where tokens end, and where
backquotes stand.

* `Cursor.Searched`        the cursor, but for what it remembers;
* `Silent`                 rules that write nothing when they run dry or find nothing;
* `silent_of_mem`          all rules are such rules;
* `searched_of_tryRules`   where no rule finds anything, the cursor has not moved.
-/

namespace Lectern.Markdown
open Text

/-- The cursor after a search: it may remember more. -/
inductive Cursor.Searched (c : Cursor) : Cursor → Prop where
  | intro (known backquotes : List (Nat × Nat)) (seen : Bool) :
      Searched c { c with known, backquotes, backquotesSeen := seen }

namespace Cursor.Searched
variable {c c' c'' : Cursor}

theorem refl (c : Cursor) : c.Searched c := ⟨c.known, c.backquotes, c.backquotesSeen⟩

theorem trans (h : c.Searched c') (h' : c'.Searched c'') : c.Searched c'' := by
  obtain ⟨k, b, s⟩ := h
  obtain ⟨k', b', s'⟩ := h'
  exact ⟨k', b', s'⟩

theorem moveTo (h : c.Searched c') (i : Nat) : (c.moveTo i).Searched (c'.moveTo i) := by
  obtain ⟨k, b, s⟩ := h
  exact ⟨k, b, s⟩

end Cursor.Searched

/-- The cursor after a search that may have moved it. -/
def Cursor.Passed (c c' : Cursor) : Prop := ∃ i, (c.moveTo i).Searched c'

namespace Cursor.Passed
variable {c c' c'' : Cursor}

theorem of_searched (h : c.Searched c') : c.Passed c' := ⟨c.pos, h⟩

theorem moved (c : Cursor) (i : Nat) : c.Passed (c.moveTo i) := ⟨i, .refl _⟩

theorem trans (h : c.Passed c') (h' : c'.Passed c'') : c.Passed c'' := by
  obtain ⟨i, hi⟩ := h
  obtain ⟨j, hj⟩ := h'
  exact ⟨j, (hi.moveTo j).trans hj⟩

/-- A search that comes back to where it started. -/
theorem back (h : c.Passed c') : c.Searched (c'.moveTo c.pos) := by
  obtain ⟨i, hi⟩ := h
  exact hi.moveTo c.pos

end Cursor.Passed

/-- The rule writes nothing when it runs dry, and nothing when it finds nothing; then it does not move either. -/
structure Silent (rule : InlineRule) : Prop where
  dry : ∀ c : Cursor, c.Passed (rule true c).2
  failed : ∀ dry (c : Cursor), (rule dry c).1 = false → c.Searched (rule dry c).2

/-- The walk from token to token writes nothing. -/
def SilentWalk (walk : Walk) : Prop := ∀ c : Cursor, c.Passed (walk .token c)

/-! ## rules that read no other token -/

/-- What a rule does at a cursor: it finds nothing, or it moves behind a token which, unless it runs dry, it
writes. -/
def Writes (rule : InlineRule) (c : Cursor) : Prop :=
  (∃ c', c.Searched c' ∧ ∀ dry, rule dry c = (false, c')) ∨
    ∃ c' written i, c.Searched c' ∧ ∀ dry, rule dry c = (true, (if dry then c' else written).moveTo i)

theorem silent_of_writes {rule : InlineRule} (h : ∀ c, Writes rule c) : Silent rule where
  dry := fun c => by
    obtain ⟨c', hc, hrule⟩ | ⟨c', written, i, hc, hrule⟩ := h c
    · rw [hrule]
      exact .of_searched hc
    · rw [hrule]
      exact ⟨i, hc.moveTo i⟩
  failed := fun dry c hfalse => by
    obtain ⟨c', hc, hrule⟩ | ⟨c', written, i, hc, hrule⟩ := h c
    · rw [hrule]
      exact hc
    · rw [hrule] at hfalse
      cases hfalse

theorem writes_none {rule : InlineRule} {c : Cursor} (h : ∀ dry, rule dry c = (false, c)) : Writes rule c :=
  .inl ⟨c, .refl c, h⟩

theorem writes_token {rule : InlineRule} {c : Cursor} (written : Cursor) (i : Nat)
    (h : ∀ dry, rule dry c = (true, (if dry then c else written).moveTo i)) : Writes rule c :=
  .inr ⟨c, written, i, .refl c, h⟩

/-- A link or an image, for which a target has been looked for. -/
theorem writes_target {rule : InlineRule} {c c' : Cursor} (hc : c.Searched c') (target? : Option Target)
    (written : Target → Cursor)
    (h : ∀ dry, rule dry c = match target? with
      | none => (false, c')
      | some t => (true, (if dry then c' else written t).moveTo t.next)) : Writes rule c := by
  cases target? with
  | none => exact .inl ⟨c', hc, h⟩
  | some t => exact .inr ⟨c', written t, t.next, hc, h⟩

theorem silent_plainRule : Silent plainRule := silent_of_writes fun c => by
  by_cases h : (positionOf? isTerminator c.src c.pos).getD c.stop = c.pos
  · exact writes_none fun dry => if_pos h
  · exact writes_token _ _ fun dry => if_neg h

theorem silent_lineBreakRule : Silent lineBreakRule := silent_of_writes fun c => by
  by_cases h : c.head? ≠ some '\n'
  · exact writes_none fun dry => if_pos h
  · refine writes_token (sayBreak false c) (afterBreak c c.pos) fun dry => ?_
    rw [lineBreakRule, if_neg h]
    cases dry <;> rfl

theorem silent_formulaRule : Silent formulaRule := silent_of_writes fun c => by
  unfold Writes formulaRule
  dsimp only
  split
  · exact writes_none fun _ => rfl
  · split
    · exact writes_none fun _ => rfl
    · split
      · exact writes_none fun _ => rfl
      · exact .inr ⟨c, _, _, .refl c, fun _ => rfl⟩

theorem silent_escapeRule : Silent escapeRule := silent_of_writes fun c => by
  unfold Writes escapeRule
  split
  · exact writes_none fun _ => rfl
  · split
    · exact writes_none fun _ => rfl
    · exact .inr ⟨c, _, _, .refl c, fun _ => rfl⟩
    · exact .inr ⟨c, _, _, .refl c, fun _ => rfl⟩

theorem silent_spanCodeRule : Silent spanCodeRule := silent_of_writes fun c => by
  unfold Writes spanCodeRule
  dsimp only
  split
  · exact writes_none fun _ => rfl
  · split
    · exact .inr ⟨c, _, _, .refl c, fun _ => rfl⟩
    · split
      · exact .inr ⟨{ c with backquotes := _ }, _, _, ⟨_, _, _⟩, fun _ => rfl⟩
      · exact .inr ⟨{ c with backquotes := _, backquotesSeen := true }, _, _, ⟨_, _, _⟩, fun _ => rfl⟩

theorem silent_keyRule : Silent keyRule := silent_of_writes fun c => by
  unfold Writes keyRule
  split
  · exact writes_none fun _ => rfl
  · exact .inr ⟨c, _, _, .refl c, fun _ => rfl⟩

theorem silent_colourRule (walk : Walk) : Silent (colourRule walk) := silent_of_writes fun c => by
  unfold Writes colourRule
  split
  · exact writes_none fun _ => rfl
  · rename_i name start stop _
    refine .inr ⟨c, { (walk .window ({ c with pos := start, stop }.openSpan (.colour name))).closeSpan (.colour name)
      with stop := c.stop }, stop + 1, .refl c, fun dry => ?_⟩
    cases dry <;> rfl

theorem silent_autolinkRule : Silent autolinkRule := silent_of_writes fun c => by
  unfold Writes autolinkRule
  dsimp only
  split
  · exact writes_none fun _ => rfl
  · split
    · exact writes_none fun _ => rfl
    · split
      · exact writes_none fun _ => rfl
      · exact .inr ⟨c, _, _, .refl c, fun _ => rfl⟩

theorem silent_tagRule : Silent tagRule := silent_of_writes fun c => by
  unfold Writes tagRule
  dsimp only
  split
  · exact writes_none fun _ => rfl
  · split
    · exact writes_none fun _ => rfl
    · exact .inr ⟨c, _, _, .refl c, fun _ => rfl⟩

theorem silent_referenceRule : Silent referenceRule := silent_of_writes fun c => by
  unfold Writes referenceRule
  split
  · exact writes_none fun _ => rfl
  · split
    · exact writes_none fun _ => rfl
    · exact .inr ⟨c, _, _, .refl c, fun _ => rfl⟩

/-- Runs of delimiters are not looked for in a dry run. -/
theorem silent_of_not_dry {rule : InlineRule} (hdry : ∀ c, rule true c = (false, c))
    (hfailed : ∀ c, (rule false c).1 = false → (rule false c).2 = c) : Silent rule where
  dry := fun c => by
    rw [hdry]
    exact .of_searched (.refl c)
  failed := fun dry c h => by
    cases dry with
    | true =>
      rw [hdry]
      exact .refl c
    | false =>
      rw [hfailed c h]
      exact .refl c

theorem silent_strikeRule : Silent strikeRule := by
  refine silent_of_not_dry (fun c => if_pos (.inl rfl)) fun c h => ?_
  unfold strikeRule at h ⊢
  dsimp only at h ⊢
  split
  · rfl
  · rename_i hhead
    rw [if_neg hhead] at h
    split
    · rfl
    · rename_i hrun
      rw [if_neg hrun] at h
      cases h

theorem silent_emphasisRule : Silent emphasisRule := by
  refine silent_of_not_dry (fun c => ?_) fun c h => ?_
  · unfold emphasisRule
    split
    · exact if_pos (.inl rfl)
    · rfl
  · unfold emphasisRule at h ⊢
    split
    · rename_i m hm
      rw [hm] at h
      dsimp only at h ⊢
      split
      · rfl
      · rename_i hmark
        rw [if_neg hmark] at h
        cases h
    · rfl

/-! ## links and images -/

section
variable {walk : Walk} (hwalk : SilentWalk walk)

include hwalk

theorem passed_labelEndFrom (flat : Bool) (fuel level : Nat) (c : Cursor) :
    c.Passed (labelEndFrom walk flat fuel level c).2 := by
  induction fuel generalizing level c with
  | zero => exact .of_searched (.refl c)
  | succ fuel ih =>
    rw [labelEndFrom]
    have hnext (level : Nat) := (hwalk c).trans (ih level (walk .token c))
    split
    · exact .of_searched (.refl c)
    · dsimp only
      generalize (if c.head? = some ']' then level - 1 else level) = level
      split
      · exact .of_searched (.refl c)
      · split
        · split
          · exact hnext _
          · split
            · exact hwalk c
            · exact hnext _
        · exact hnext _

theorem searched_labelEnd? (flat : Bool) (c : Cursor) (start : Nat) : c.Searched (labelEnd? walk flat c start).2 :=
  ((Cursor.Passed.moved c (start + 1)).trans (passed_labelEndFrom hwalk flat _ 1 _)).back

theorem searched_referred? (c : Cursor) (label : Text) (after i : Nat) :
    c.Searched (referred? walk c label after i).2 := by
  unfold referred?
  split
  · exact .refl c
  · dsimp only
    split
    · have h := searched_labelEnd? hwalk false c i
      split
      · rename_i heq
        rw [heq] at h
        exact h
      · rename_i heq
        rw [heq] at h
        exact h
    · exact .refl c

/-- What a link leads to whose label ends at `stop`. -/
def linkTarget (walk : Walk) (c : Cursor) (stop : Nat) : Option Target × Cursor :=
  if stop + 1 < c.stop ∧ c.char? (stop + 1) = some '(' then
    match inlined c (stop + 1) with
    | .unfinished => (none, c)
    | .target t => (some t, c)
    | .misfit next => referred? walk c (c.slice (c.pos + 1) stop) (stop + 1) next
  else referred? walk c (c.slice (c.pos + 1) stop) (stop + 1) (stop + 1)

/-- The cursor with the label of a link written. -/
def linkWritten (walk : Walk) (stop : Nat) (c : Cursor) (t : Target) : Cursor :=
  let s := Span.link t.address t.title false
  { (walk .window ({ c with pos := c.pos + 1, stop }.openSpan s)).closeSpan s with stop := c.stop }

theorem searched_linkTarget (c : Cursor) (stop : Nat) : c.Searched (linkTarget walk c stop).2 := by
  unfold linkTarget
  split
  · split
    · exact .refl c
    · exact .refl c
    · exact searched_referred? hwalk c _ _ _
  · exact searched_referred? hwalk c _ _ _

theorem silent_linkRule : Silent (linkRule walk) := silent_of_writes fun c => by
  by_cases hhead : c.head? ≠ some '['
  · exact writes_none fun _ => if_pos hhead
  · have hlabel := searched_labelEnd? hwalk true c c.pos
    generalize hfind : labelEnd? walk true c c.pos = found at hlabel
    obtain ⟨stop?, c'⟩ := found
    cases stop? with
    | none =>
      refine .inl ⟨c', hlabel, fun dry => ?_⟩
      rw [linkRule, if_neg hhead, hfind]
    | some stop =>
      refine writes_target (hlabel.trans (searched_linkTarget hwalk c' stop)) (linkTarget walk c' stop).1
        (linkWritten walk stop (linkTarget walk c' stop).2) fun dry => ?_
      rewrite [linkRule, if_neg hhead, hfind]
      cases dry <;> rfl

/-- What an image shows whose description ends at `stop`. -/
def imageTarget (walk : Walk) (c : Cursor) (stop : Nat) : Option Target × Cursor :=
  if stop + 1 < c.stop ∧ c.char? (stop + 1) = some '(' then
    match inlined c (stop + 1) with
    | .target t => (some t, c)
    | _ => (none, c)
  else referred? walk c (c.slice (c.pos + 2) stop) (stop + 1) (stop + 1)

/-- The cursor with an image written. -/
def imageWritten (walk : Walk) (c : Cursor) (description : Text) (t : Target) : Cursor :=
  let inside := (walk .window (Cursor.start c.definitions description)).finish
  c.push (.image t.address t.title description (Token.spoken true inside) (Token.spoken false inside))

theorem searched_imageTarget (c : Cursor) (stop : Nat) : c.Searched (imageTarget walk c stop).2 := by
  unfold imageTarget
  split
  · split <;> exact .refl c
  · exact searched_referred? hwalk c _ _ _

theorem silent_imageRule : Silent (imageRule walk) := silent_of_writes fun c => by
  by_cases hhead : c.head? ≠ some '!' ∨ (c.pos + 1 < c.stop ∧ c.char? (c.pos + 1) ≠ some '[')
  · exact writes_none fun _ => if_pos hhead
  · have hlabel := searched_labelEnd? hwalk false c (c.pos + 1)
    generalize hfind : labelEnd? walk false c (c.pos + 1) = found at hlabel
    obtain ⟨stop?, c'⟩ := found
    cases stop? with
    | none =>
      refine .inl ⟨c', hlabel, fun dry => ?_⟩
      rw [imageRule, if_neg hhead, hfind]
    | some stop =>
      refine writes_target (hlabel.trans (searched_imageTarget hwalk c' stop)) (imageTarget walk c' stop).1
        (imageWritten walk (imageTarget walk c' stop).2 (c'.slice (c'.pos + 2) stop)) fun dry => ?_
      rewrite [imageRule, if_neg hhead, hfind]
      cases dry <;> rfl

/-- All rules write nothing in a dry run. -/
theorem silent_of_mem : ∀ rule ∈ inlineRules walk, Silent rule := by
  simp only [inlineRules, List.forall_mem_cons, List.not_mem_nil, false_imp_iff, implies_true, and_true]
  exact ⟨silent_plainRule, silent_lineBreakRule, silent_formulaRule, silent_escapeRule, silent_spanCodeRule,
    silent_strikeRule, silent_emphasisRule, silent_keyRule, silent_colourRule walk, silent_linkRule hwalk,
    silent_imageRule hwalk, silent_autolinkRule, silent_tagRule, silent_referenceRule⟩

end

/-! ## all rules together -/

theorem passed_tryRules {rules : List InlineRule} (h : ∀ rule ∈ rules, Silent rule) (c : Cursor) :
    c.Passed (tryRules true rules c).2 := by
  induction rules generalizing c with
  | nil => exact .of_searched (.refl c)
  | cons rule rules ih =>
    have hrule := (h rule List.mem_cons_self).dry c
    rw [tryRules]
    split
    · rename_i heq
      rw [heq] at hrule
      exact hrule
    · rename_i heq
      rw [heq] at hrule
      exact hrule.trans (ih (fun q hq => h q (List.mem_cons_of_mem _ hq)) _)

theorem searched_of_tryRules {rules : List InlineRule} (h : ∀ rule ∈ rules, Silent rule) {dry : Bool} {c : Cursor}
    (hfalse : (tryRules dry rules c).1 = false) : c.Searched (tryRules dry rules c).2 := by
  induction rules generalizing c with
  | nil => exact .refl c
  | cons rule rules ih =>
    have hrule := (h rule List.mem_cons_self).failed dry c
    rw [tryRules] at hfalse ⊢
    split
    · rename_i heq
      rw [heq] at hfalse
      cases hfalse
    · rename_i heq
      rw [heq] at hrule hfalse
      exact (hrule rfl).trans (ih (fun q hq => h q (List.mem_cons_of_mem _ hq)) hfalse)

theorem silentWalk_walk (n : Nat) : SilentWalk (walk n) := by
  induction n with
  | zero => exact fun c => .moved c c.stop
  | succ n ih =>
    intro c
    show c.Passed (skipToken (walk n) c)
    unfold skipToken
    split
    · exact .moved c _
    · dsimp only
      split
      · obtain ⟨i, hi⟩ := passed_tryRules (silent_of_mem ih) { c with depth := c.depth + 1 }
        generalize tryRules true (inlineRules (walk n)) { c with depth := c.depth + 1 } = found at hi
        obtain ⟨read, c'⟩ := found
        dsimp only at hi ⊢
        cases hi with
        | intro known backquotes seen => exact ⟨_, ⟨_, backquotes, seen⟩⟩
      · exact ⟨c.stop + 1, ⟨(c.pos, c.stop + 1) :: c.known, c.backquotes, c.backquotesSeen⟩⟩

/-- Where no rule finds anything, the cursor has not moved and nothing has been written. -/
theorem searched_of_none {n : Nat} {dry : Bool} {c : Cursor}
    (h : (tryRules dry (inlineRules (walk n)) c).1 = false) :
    c.Searched (tryRules dry (inlineRules (walk n)) c).2 :=
  searched_of_tryRules (silent_of_mem (silentWalk_walk n)) h

end Lectern.Markdown
