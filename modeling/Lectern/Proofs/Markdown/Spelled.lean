import Lectern.Proofs.Markdown.Window

/-!
# Text read once

Running text in which nothing begins but plain text, keys and coloured text is spelled by its
tokens: every character belongs to one of them, and they come in order.  This is so just where no
token reaches beyond the window it is read in.  Coloured text never does.  Plain text and keys look
for their ends in the whole text, so inside coloured text they may find them behind it; then the
characters in between are read a second time.

* `Asks`                 the states in which the walk over a text asks the rules for a token;
* `spelling_parseInline` what the tokens of a text spell;
* `Signless`             texts in which nothing else begins, `plain_of_asks`;
* `windows_kept`         which tokens keep to their window, and which texts are spelled by their tokens;
* `key_beyond_colour`    a key that ends behind the coloured text it begins in.
-/

namespace Lectern.Markdown
open Text

/-! ## the whole text -/

theorem spelling_joinTexts (ts : List Token) : (joinTexts ts).flatMap Token.spelling = ts.flatMap Token.spelling :=
  flatMap_joinTexts (fun _ _ => rfl) ts

theorem foldl_empty {f : Array Token → Array Delimiter → Array Token} (hf : ∀ ts, f ts #[] = ts)
    {scopes : List (Array Delimiter)} (h : ∀ ds ∈ scopes, ds = #[]) (ts : Array Token) :
    scopes.foldl f ts = ts := by
  induction scopes generalizing ts with
  | nil => rfl
  | cons ds scopes ih =>
    rw [List.foldl_cons, h ds List.mem_cons_self, hf]
    exact ih (fun es hes => h es (List.mem_cons_of_mem _ hes)) ts

/-- Where no delimiter has come up, pairing changes nothing. -/
theorem spelling_finish {c : Cursor} (h : c.Bare) :
    c.finish.flatMap Token.spelling = c.tokens.toList.flatMap Token.spelling := by
  have hscopes : ∀ ds ∈ (c.delimiters :: c.ended).map pairDelimiters, ds = #[] := by
    intro ds hds
    obtain ⟨es, hes, rfl⟩ := List.mem_map.mp hds
    obtain rfl : es = #[] := (List.mem_cons.mp hes).elim (fun e => e ▸ h.here) (h.ended es)
    rfl
  rw [Cursor.finish, spelling_joinTexts, foldl_empty (fun _ => rfl) hscopes, foldl_empty (fun _ => rfl) hscopes]

theorem pending_readWindow (walk : Walk) (stop fuel : Nat) (c : Cursor) :
    (readWindow walk stop fuel c).pending = [] := by
  induction fuel generalizing c with
  | zero => exact pending_flush c
  | succ fuel ih =>
    by_cases h : c.pos < stop
    · rw [readWindow_succ walk h]
      exact ih _
    · rw [readWindow_of_le walk (Nat.not_lt.mp h)]
      exact pending_flush c

/-- How deep the rules may nest below the first one. -/
def nestingBound (t : Text) : Nat := (maxSpanDepth + 2) * (t.length + 1) - 1

/-- The walk over the text `t` asks the rules for a token at `c`, below which rules may nest `n` deep. -/
def Asks (definitions : List Definition) (t : Text) : Nat → Cursor → Prop :=
  AsksFrom (nestingBound t, Cursor.start definitions t)

theorem maxSpanDepth_le_nestingBound (t : Text) : maxSpanDepth ≤ nestingBound t := by
  have hle := Nat.mul_le_mul_left (maxSpanDepth + 2) (Nat.le_add_left 1 t.length)
  rw [nestingBound]
  omega

theorem nestingBound_succ (t : Text) : (maxSpanDepth + 2) * (t.length + 1) = nestingBound t + 1 := by
  have hle := Nat.mul_le_mul_left (maxSpanDepth + 2) (Nat.le_add_left 1 t.length)
  rw [nestingBound]
  omega

section
variable (definitions : List Definition) (t : Text)

theorem sits_start : Sits (nestingBound t) (Cursor.start definitions t) where
  bound := Nat.le_refl _
  deep := maxSpanDepth_le_nestingBound t

theorem bare_start : (Cursor.start definitions t).Bare :=
  ⟨rfl, fun _ h => absurd h List.not_mem_nil, fun _ h => absurd h List.not_mem_nil⟩

theorem slice_start : (Cursor.start definitions t).slice 0 (Cursor.start definitions t).stop = t := by
  rw [Cursor.slice_eq, Nat.sub_zero, List.drop_zero]
  exact List.take_of_length_le (by simp [Cursor.start])

/-- The walk over the whole text, and what its tokens spell. -/
theorem exists_windowRead (h : ∀ n c, Asks definitions t n c → c.Plain n) :
    ∃ c, WindowRead (nestingBound t) (Cursor.start definitions t) c ∧
      (parseInline definitions t).flatMap Token.spelling = c.spelled := by
  have hread := reads_window (nestingBound t) (sits_start definitions t) h
  refine ⟨_, hread, ?_⟩
  rw [parseInline, nestingBound_succ, spelling_finish (hread.keeps.bare (bare_start definitions t)), Cursor.spelled]
  have hpending : (walk (nestingBound t + 1) .window (Cursor.start definitions t)).pending = [] :=
    pending_readWindow _ _ _ _
  rw [hpending, List.reverse_nil, List.append_nil]

end

/-- Every character of a text belongs to one token, just where none reaches beyond its window. -/
theorem spelling_parseInline {definitions : List Definition} {t : Text}
    (h : ∀ n c, Asks definitions t n c → c.Plain n) :
    (parseInline definitions t).flatMap Token.spelling = t ↔ ∀ n c, Asks definitions t n c → c.Contained := by
  obtain ⟨c, hread, hspelling⟩ := exists_windowRead definitions t h
  rw [hspelling]
  constructor
  · intro ht n d hd
    refine Classical.byContradiction fun hnot => ?_
    have hlonger := hread.longer n d hd hnot
    have hstop : (Cursor.start definitions t).stop = t.length := List.size_toArray
    have hpos : (Cursor.start definitions t).pos = 0 := rfl
    rw [ht, hstop, hpos] at hlonger
    omega
  · intro hall
    have hexact := hread.exact (Nat.zero_le _) hall
    rw [hexact]
    exact slice_start definitions t


/-! ## texts without other signs -/

/-- The signs with which line breaks, formulas, escapes, code, runs of delimiters, images, markup and references
begin. -/
def isOtherSign (d : Char) : Bool := "\n$\\`~*_!<&".toList.contains d

/-- Nothing begins in the text but plain text, keys and coloured text: no such sign stands in it, and no label
before a parenthesis. -/
structure Signless (t : Text) : Prop where
  signs : ∀ d ∈ t, isOtherSign d = false
  labels : occurs [']', '('] t = false

instance (t : Text) : Decidable (Signless t) :=
  decidable_of_iff ((t.all fun d => !isOtherSign d) = true ∧ occurs [']', '('] t = false)
    ⟨fun ⟨h, h'⟩ => ⟨by simpa using h, h'⟩, fun h => ⟨by simpa using h.signs, h.labels⟩⟩

/-- The cursor stands in the text `t`, for which no reference is defined. -/
structure Cursor.Over (t : Text) (c : Cursor) : Prop where
  src : c.src = t.toArray
  definitions : c.definitions = []

namespace Cursor.Over
variable {t : Text} {c c' : Cursor}

theorem of_keeps (hc : c.Over t) (h : Keeps c c') : c'.Over t :=
  ⟨h.src.trans hc.src, h.definitions.trans hc.definitions⟩

theorem of_searched (hc : c.Over t) (h : c.Searched c') : c'.Over t := hc.of_keeps (.of_searched h)

theorem within (hc : c.Over t) (name : Text) (start stop : Nat) : (c.within name start stop).Over t where
  src := (within_src c name start stop).trans hc.src
  definitions := (Keeps.push { c with pos := start, stop } (.opening (.colour name))).definitions.trans hc.definitions

theorem char?_eq (hc : c.Over t) (i : Nat) : c.char? i = t[i]? := by
  rw [Cursor.char?, hc.src, List.getElem?_toArray]

theorem head?_ne (hc : c.Over t) (ht : Signless t) {d : Char} (hd : isOtherSign d = true) : c.head? ≠ some d := by
  intro h
  rw [Cursor.head?, hc.char?_eq] at h
  exact absurd (ht.signs d (List.mem_of_getElem? h)) (by rw [hd]; decide)

/-- Behind a closing bracket no parenthesis opens. -/
theorem char?_succ_ne (hc : c.Over t) (ht : Signless t) {k : Nat} (h : c.char? k = some ']') :
    c.char? (k + 1) ≠ some '(' := by
  intro hnext
  rw [hc.char?_eq] at h hnext
  obtain ⟨hk, hbracket⟩ := List.getElem?_eq_some_iff.mp h
  obtain ⟨hk', hparen⟩ := List.getElem?_eq_some_iff.mp hnext
  have hsplit : t = t.take k ++ [']', '('] ++ t.drop (k + 2) := by
    rw [List.append_assoc]
    conv => lhs; rw [← List.take_append_drop k t, List.drop_eq_getElem_cons hk, List.drop_eq_getElem_cons hk',
      hbracket, hparen]
    rfl
  cases hindex : indexOf? [']', '('] t with
  | none => exact indexOf?_eq_none hindex _ _ hsplit
  | some i =>
    have := ht.labels
    rw [occurs, hindex] at this
    cases this

end Cursor.Over

theorem char?_of_passed {c c' : Cursor} (h : c.Passed c') : c'.char? = c.char? := by
  obtain ⟨i, k, b, s⟩ := h
  rfl

/-- A label ends with a closing bracket. -/
theorem char?_labelEndFrom {walk : Walk} (hwalk : SilentWalk walk) (flat : Bool) {fuel level : Nat}
    (hlevel : level ≠ 0) {c : Cursor} {k : Nat} (h : (labelEndFrom walk flat fuel level c).1 = some k) :
    c.char? k = some ']' := by
  induction fuel generalizing level c with
  | zero => cases h
  | succ fuel ih =>
    have hnext {level : Nat} (hlevel : level ≠ 0)
        (h : (labelEndFrom walk flat fuel level (walk .token c)).1 = some k) : c.char? k = some ']' := by
      rw [← char?_of_passed (hwalk c)]
      exact ih hlevel h
    rw [labelEndFrom] at h
    split at h
    · cases h
    · dsimp only at h
      obtain ⟨l, hl⟩ : ∃ l, (if c.head? = some ']' then level - 1 else level) = l := ⟨_, rfl⟩
      rw [hl] at h
      split at h
      · rename_i hzero
        cases h
        refine Classical.byContradiction fun hne => hlevel ?_
        rw [← hzero, ← hl]
        exact (if_neg hne).symm
      · rename_i hnonzero
        split at h
        · split at h
          · exact hnext (Nat.succ_ne_zero _) h
          · split at h
            · cases h
            · exact hnext hnonzero h
        · exact hnext hnonzero h

theorem char?_labelEnd? {walk : Walk} (hwalk : SilentWalk walk) {flat : Bool} {c c' : Cursor} {start k : Nat}
    (h : labelEnd? walk flat c start = (some k, c')) : c.char? k = some ']' :=
  char?_labelEndFrom hwalk flat Nat.one_ne_zero (c := c.moveTo (start + 1)) (congrArg Prod.fst h)

/-! A rule for plain text, keys or coloured text that finds nothing leaves the cursor as it is. -/

theorem plainRule_failed {c : Cursor} (h : (plainRule false c).1 = false) : plainRule false c = (false, c) := by
  unfold plainRule at h ⊢
  dsimp only at h ⊢
  split
  · rfl
  · rename_i hne
    rw [if_neg hne] at h
    cases h

theorem keyRule_failed {c : Cursor} (h : (keyRule false c).1 = false) : keyRule false c = (false, c) := by
  unfold keyRule at h ⊢
  split
  · rfl
  · rename_i heq
    rw [heq] at h
    cases h

theorem colourRule_failed {walk : Walk} {c : Cursor} (h : (colourRule walk false c).1 = false) :
    colourRule walk false c = (false, c) := by
  unfold colourRule at h ⊢
  split
  · rfl
  · rename_i heq
    rw [heq] at h
    cases h

/-- Where no rule finds anything after whatever search, they find nothing together. -/
theorem tryRules_failed {rules : List InlineRule} {dry : Bool} {c : Cursor}
    (h : ∀ rule ∈ rules, Silent rule ∧ ∀ c', c.Searched c' → (rule dry c').1 = false) :
    (tryRules dry rules c).1 = false := by
  induction rules generalizing c with
  | nil => rfl
  | cons rule rules ih =>
    obtain ⟨⟨hsilent, hfalse⟩, hrules⟩ := List.forall_mem_cons.mp h
    have hrule := hfalse c (.refl c)
    have hsearched := hsilent.failed dry c hrule
    rw [tryRules]
    split
    · rename_i heq
      rw [heq] at hrule
      cases hrule
    · rename_i heq
      rw [heq] at hsearched
      exact ih fun q hq => ⟨(hrules q hq).1, fun c' hc' => (hrules q hq).2 c' (hsearched.trans hc')⟩

section
variable {t : Text} {c : Cursor} (ht : Signless t) (hc : c.Over t)

include ht hc

/-- A label without a target is no link. -/
theorem linkRule_over {walk : Walk} (hwalk : SilentWalk walk) : (linkRule walk false c).1 = false := by
  unfold linkRule
  split
  · rfl
  · have hsearched := searched_labelEnd? hwalk true c c.pos
    split
    · rfl
    · rename_i stop c' hfind
      rw [hfind] at hsearched
      have hover := hc.of_searched hsearched
      have hbracket : c'.char? stop = some ']' := by
        rw [← char?_labelEnd? hwalk hfind, char?_of_passed (.of_searched hsearched)]
      have hnone (label : Text) (after i : Nat) : referred? walk c' label after i = (none, c') := by
        rw [referred?, hover.definitions]
        rfl
      dsimp only
      rw [if_neg fun h => hover.char?_succ_ne ht hbracket h.2, hnone]

theorem bracketedAt?_over (hpos : c.pos < c.stop) : bracketedAt? c = none := by
  unfold bracketedAt?
  split
  · rename_i heq
    have hhead := Cursor.head?_window hpos
    rw [heq] at hhead
    exact absurd hhead.symm (hc.head?_ne ht (by decide))
  · rfl

/-- The rules before those for links. -/
theorem firstRules_over (n : Nat)
    (hthree : ∀ rule ∈ [plainRule, keyRule, colourRule (walk n)], (rule false c).1 = false) :
    ∀ rule ∈ [plainRule, lineBreakRule, formulaRule, escapeRule, spanCodeRule, strikeRule, emphasisRule, keyRule,
      colourRule (walk n)], rule false c = (false, c) := by
  have hne {d : Char} (hd : isOtherSign d = true) : c.head? ≠ some d := hc.head?_ne ht hd
  have hemphasis : emphasisRule false c = (false, c) := by
    unfold emphasisRule
    split
    · rename_i m hm
      refine if_pos (.inr ?_)
      rintro (rfl | rfl)
      · exact hne (by decide) hm
      · exact hne (by decide) hm
    · rfl
  simp only [List.forall_mem_cons, List.not_mem_nil, false_imp_iff, implies_true, and_true] at hthree ⊢
  obtain ⟨hplain, hkey, hcolour⟩ := hthree
  exact ⟨plainRule_failed hplain, if_pos (hne (by decide)), if_pos (.inl (hne (by decide))),
    if_pos (.inl (hne (by decide))), if_pos (hne (by decide)), if_pos (.inr (hne (by decide))), hemphasis,
    keyRule_failed hkey, colourRule_failed hcolour⟩

/-- The rules for links, and those behind them. -/
theorem lastRules_over (hpos : c.pos < c.stop) (n : Nat) :
    ∀ rule ∈ [linkRule (walk n), imageRule (walk n), autolinkRule, tagRule, referenceRule],
      (rule false c).1 = false := by
  have hne {d : Char} (hd : isOtherSign d = true) : c.head? ≠ some d := hc.head?_ne ht hd
  have hnone {p : Bool × Cursor} (h : p = (false, c)) : p.1 = false := congrArg Prod.fst h
  simp only [List.forall_mem_cons, List.not_mem_nil, false_imp_iff, implies_true, and_true]
  refine ⟨linkRule_over ht hc (silentWalk_walk n), hnone (if_pos (.inl (hne (by decide)))), ?_,
    hnone (if_pos (.inl (hne (by decide)))), hnone (if_pos (.inl (hne (by decide))))⟩
  rw [autolinkRule, bracketedAt?_over ht hc hpos]

end

/-- In a text without other signs no rule finds anything but those for plain text, keys and coloured text. -/
theorem plain_over {t : Text} {c : Cursor} (ht : Signless t) (hc : c.Over t) (hpos : c.pos < c.stop) (n : Nat) :
    c.Plain n := by
  intro hthree
  have hrules : inlineRules (walk n) = [plainRule, lineBreakRule, formulaRule, escapeRule, spanCodeRule, strikeRule,
      emphasisRule, keyRule, colourRule (walk n)] ++ [linkRule (walk n), imageRule (walk n), autolinkRule, tagRule,
      referenceRule] := rfl
  have hsilent : ∀ rule ∈ inlineRules (walk n), Silent rule := silent_of_mem (silentWalk_walk n)
  rw [hrules] at hsilent ⊢
  rw [tryRules_append (firstRules_over ht hc n hthree)]
  refine tryRules_failed fun rule hrule => ⟨hsilent rule (List.mem_append_right _ hrule), fun c' hc' => ?_⟩
  have hpos' : c'.pos < c'.stop := by
    obtain ⟨_, _, _⟩ := hc'
    exact hpos
  exact lastRules_over ht (hc.of_searched hc') hpos' n rule hrule

/-- The walk stays in the text, as long as no token leads out of it. -/
theorem over_of_leads {t : Text} {n : Nat}
    (hkeeps : ∀ k, k ≤ n → ∀ c : Cursor, c.Over t → Sits k c → c.pos < c.stop → Keeps c (c.advance (walk k)))
    {c : Cursor} (hc : c.Over t) (hsits : Sits n c) {s : Nat × Cursor} (h : Relation.ReflTransGen Leads (n, c) s) :
    s.1 ≤ n ∧ s.2.Over t ∧ Sits s.1 s.2 := by
  induction h with
  | refl => exact ⟨Nat.le_refl n, hc, hsits⟩
  | tail _ hlast ih =>
    obtain ⟨hle, hover, hsits⟩ := ih
    cases hlast with
    | next hpos =>
      have hk := hkeeps _ hle _ hover hsits hpos
      exact ⟨hle, hover.of_keeps hk, hsits.of_keeps hk⟩
    | inside hpos hdepth hat => exact ⟨Nat.le_of_succ_le hle, hover.within _ _ _, sits_within hsits hat⟩

/-- No token leads out of a text without other signs: by induction on how deep rules may nest, as the windows inside
are read with one rule less. -/
theorem keeps_advance_over {t : Text} (ht : Signless t) (n : Nat) :
    ∀ c : Cursor, c.Over t → Sits n c → c.pos < c.stop → Keeps c (c.advance (walk n)) := by
  induction n using Nat.strongRecOn with
  | ind n ih =>
    intro c hc hsits hpos
    refine (tokenRead_advance hsits hpos (fun _ => plain_over ht hc hpos n) ?_).keeps
    rintro k name start stop rfl hdepth hat
    have hinner := sits_within hsits hat
    refine reads_window k hinner fun m d hd => ?_
    obtain ⟨-, hover, -⟩ := over_of_leads (fun j hj => ih j (Nat.lt_succ_of_le hj)) (hc.within name start stop)
      hinner hd.leads
    exact plain_over ht hover hd.pos m

/-- Nothing but plain text, keys and coloured text begins in a text without other signs. -/
theorem plain_of_asks {t : Text} (ht : Signless t) {n : Nat} {c : Cursor} (h : Asks [] t n c) : c.Plain n := by
  obtain ⟨-, hover, -⟩ := over_of_leads (fun k _ => keeps_advance_over ht k) ⟨rfl, rfl⟩ (sits_start [] t) h.leads
  exact plain_over ht hover h.pos n

/-! ## windows -/

/-- A key ends inside its window just where closing brackets stand there. -/
theorem le_stop_of_keyAt? {c : Cursor} {name : Text} {next : Nat} (h : keyAt? c = some (name, next)) :
    next ≤ c.stop ↔ ∃ s r, c.window (c.pos + 2) = s ++ [']', ']'] ++ r := by
  obtain ⟨r, hr, hnext, hfirst⟩ := keyAt?_eq_some h
  have hbehind : c.src.toList.drop (c.pos + 2) = name ++ ']' :: ']' :: r := by
    rw [← List.drop_drop, ← Cursor.beyond_eq, hr]
    rfl
  rw [Cursor.window, Cursor.slice_eq, hbehind]
  constructor
  · intro hle
    obtain ⟨k, hk⟩ : ∃ k, c.stop - (c.pos + 2) = (name ++ [']', ']']).length + k := by
      refine Nat.exists_eq_add_of_le ?_
      simp only [List.length_append, List.length_cons, List.length_nil]
      omega
    refine ⟨name, r.take k, ?_⟩
    rw [hk, show name ++ ']' :: ']' :: r = (name ++ [']', ']']) ++ r by simp, List.take_length_add_append]
  · rintro ⟨s, r', hwindow⟩
    have hsplit : name ++ ']' :: ']' :: r =
        s ++ [']', ']'] ++ (r' ++ (name ++ ']' :: ']' :: r).drop (c.stop - (c.pos + 2))) := by
      rw [← List.append_assoc, ← hwindow, List.take_append_drop]
    have hlen := congrArg List.length hwindow
    have := hfirst _ _ hsplit
    simp only [List.length_take, List.length_append, List.length_cons, List.length_nil] at hlen
    omega

/-- Coloured text stays inside its window, whatever is read in it.  A key is read up to the first closing brackets of
the text; it stays inside just where the window holds closing brackets.  A text in which nothing else begins is
spelled by its tokens just where every key, and all plain text, stays inside its window. -/
theorem windows_kept (walk : Walk) (dry : Bool) (c : Cursor) (definitions : List Definition) (t : Text) :
    ((colourRule walk dry c).1 = true → (colourRule walk dry c).2.pos ≤ c.stop) ∧
      ((keyRule false c).1 = true →
        (keyRule false c).2.spelled = c.spelled ++ c.slice c.pos (keyRule false c).2.pos ∧
          ((keyRule false c).2.pos ≤ c.stop ↔ ∃ s r, c.window (c.pos + 2) = s ++ [']', ']'] ++ r)) ∧
      ((∀ n d, Asks definitions t n d → d.Plain n) →
        ((parseInline definitions t).flatMap Token.spelling = t ↔ ∀ n d, Asks definitions t n d → d.Contained)) := by
  refine ⟨fun h => ?_, fun h => ?_, fun h => spelling_parseInline h⟩
  · unfold colourRule at h ⊢
    split
    · rename_i hnone
      rw [hnone] at h
      cases h
    · rename_i name start stop hat
      have hlt : stop < c.stop := (slices_of_colourAt? hat).2.2.1
      cases dry <;> exact hlt
  · unfold keyRule at h ⊢
    split
    · rename_i hnone
      rw [hnone] at h
      cases h
    · rename_i name next hat
      exact ⟨spelled_of_keyAt? hat, le_stop_of_keyAt? hat⟩

/-- A key and parentheses in coloured text, each inside its window. -/
theorem windows_kept_nested :
    let t := "a \x7bred\x7d([[Esc]] (x)) b".toList
    let c := (Cursor.start [] t).moveTo 2
    let d := { Cursor.start [] t with pos := 8, stop := 19 }
    (colourRule (walk 3) false c).2.pos ≤ c.stop ∧ (keyRule false d).2.pos ≤ d.stop ∧
      (parseInline [] t).flatMap Token.spelling = t ∧ ∀ n c, Asks [] t n c → c.Contained := by
  intro t c d
  have ht : Signless t := by decide
  have hplain : ∀ n c, Asks [] t n c → c.Plain n := fun _ _ h => plain_of_asks ht h
  have hcolour : (colourRule (walk 3) false c).1 = true := by decide +kernel
  have hkey : (keyRule false d).1 = true := by decide +kernel
  have hwindow : d.window (d.pos + 2) = "Esc".toList ++ [']', ']'] ++ " (x)".toList := by decide +kernel
  have hspelled : (parseInline [] t).flatMap Token.spelling = t := by decide +kernel
  exact ⟨(windows_kept (walk 3) false c [] t).1 hcolour,
    ((windows_kept (walk 3) false d [] t).2.1 hkey).2.mpr ⟨_, _, hwindow⟩, hspelled,
    ((windows_kept (walk 3) false c [] t).2.2 hplain).mp hspelled⟩

/-- A key that begins in coloured text and ends behind it: what stands in between is read twice. -/
theorem key_beyond_colour :
    let t := "\x7bred\x7d([[a) b]]".toList
    let c := { Cursor.start [] t with pos := 6, stop := 10 }
    Signless t ∧ ((keyRule false c).1 = true ∧ (keyRule false c).2.pos = 14) ∧
      (parseInline [] t).flatMap Token.spelling = "\x7bred\x7d([[a) b]]) b]]".toList :=
  ⟨by decide, by decide, by decide +kernel⟩

end Lectern.Markdown
