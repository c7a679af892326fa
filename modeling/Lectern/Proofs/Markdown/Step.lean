import Lectern.Proofs.Markdown.Colour
import Lectern.Proofs.Markdown.Dry
import Lectern.Proofs.Markdown.Running

/-!
# One token of running text

What the walk makes of the cursor with one token, where nothing begins but plain text, keys and
coloured text.

* `Token.spelling`    the characters a token was read from;
* `Cursor.Plain`      nothing but plain text, a key or coloured text begins here;
* `Cursor.Contained`  neither plain text nor a key reaches beyond the window from here;
* `Step`              what one token may do, one case for each kind;
* `step_advance`      the walk does one of these.
-/

namespace Lectern.Markdown
open Text

/-! ## what tokens spell -/

/-- The characters that a token was read from, for text, keys and coloured text. -/
def Token.spelling : Token → Text
  | .text t => t
  | .opening .key => ['[', '[']
  | .closing .key => [']', ']']
  | .opening (.colour name) => '\x7b' :: name ++ ['\x7d', '(']
  | .closing (.colour _) => [')']
  | _ => []

namespace Cursor
variable {c : Cursor}

/-- The characters that the tokens written so far were read from. -/
def spelled (c : Cursor) : Text := c.tokens.toList.flatMap Token.spelling ++ c.pending.reverse

theorem spelled_moveTo (c : Cursor) (i : Nat) : (c.moveTo i).spelled = c.spelled := rfl

theorem spelled_flush (c : Cursor) : c.flush.spelled = c.spelled := by
  unfold flush
  split
  · rfl
  · simp [spelled, Token.spelling]

theorem spelled_push (c : Cursor) (t : Token) : (c.push t).spelled = c.spelled ++ t.spelling := by
  rw [← spelled_flush c]
  simp [spelled, push, pending_flush]

theorem spelled_say (c : Cursor) (t : Text) : (c.say t).spelled = c.spelled ++ t := by
  simp [spelled, say]

theorem spelled_openSpan (c : Cursor) (s : Span) : (c.openSpan s).spelled = c.spelled ++ (Token.opening s).spelling :=
  spelled_push c _

theorem spelled_closeSpan (c : Cursor) (s : Span) :
    (c.closeSpan s).spelled = c.spelled ++ (Token.closing s).spelling := spelled_push c _

/-! ## pieces of the source -/

theorem slice_eq (c : Cursor) (i j : Nat) : c.slice i j = (c.src.toList.drop i).take (j - i) := by
  simp [slice]

theorem beyond_eq (c : Cursor) (i : Nat) : c.beyond i = c.src.toList.drop i := by
  rw [beyond, slice_eq]
  exact List.take_of_length_le (by simp)

theorem length_slice {i j : Nat} (h : j ≤ c.src.size) : (c.slice i j).length = j - i := by
  rw [slice_eq, List.length_take, List.length_drop, Array.length_toList]
  omega

theorem slice_append {i j k : Nat} (hij : i ≤ j) (hjk : j ≤ k) : c.slice i j ++ c.slice j k = c.slice i k := by
  simp only [slice_eq]
  have hdrop : c.src.toList.drop j = (c.src.toList.drop i).drop (j - i) := by
    rw [List.drop_drop, Nat.add_sub_cancel' hij]
  rw [hdrop, ← List.take_add, show j - i + (k - j) = k - i by omega]

theorem head?_beyond (c : Cursor) : (c.beyond c.pos).head? = c.head? := by
  rw [beyond_eq, List.head?_drop, head?, char?, Array.getElem?_toList]

theorem head?_window (h : c.pos < c.stop) : (c.window c.pos).head? = c.head? := by
  rw [window, slice_eq, List.head?_take, if_neg (Nat.sub_ne_zero_of_lt h), ← beyond_eq, head?_beyond]

end Cursor

/-! ## one token -/

/-- What stands at the cursor where a key begins: its name reaches up to the first closing brackets. -/
theorem keyAt?_eq_some {c : Cursor} {name : Text} {next : Nat} (h : keyAt? c = some (name, next)) :
    ∃ r, c.beyond c.pos = '[' :: '[' :: (name ++ ']' :: ']' :: r) ∧ next = c.pos + name.length + 4 ∧
      ∀ s r', name ++ ']' :: ']' :: r = s ++ [']', ']'] ++ r' → name.length ≤ s.length := by
  unfold keyAt? at h
  split at h
  · rename_i r hr
    split at h
    · rename_i n hn
      obtain ⟨⟨s, r', rfl, rfl⟩, hfirst⟩ := indexOf?_eq_some hn
      dsimp only at h
      rw [List.append_assoc, List.take_left] at h
      split at h
      · cases h
      · cases h
        refine ⟨r', by rw [hr, List.append_assoc]; rfl, rfl, fun u v huv => hfirst u v ?_⟩
        rw [List.append_assoc]
        exact huv
    · cases h
  · cases h

/-- The walk takes one token, or one character that begins none. -/
def Cursor.advance (walk : Walk) (c : Cursor) : Cursor :=
  let (read, next) := if c.depth < maxSpanDepth then tryRules false (inlineRules walk) c else (false, c)
  if read then next else (next.say next.head?.toList).moveTo (next.pos + 1)

theorem advance_of_read {walk : Walk} {c next : Cursor} (hdepth : c.depth < maxSpanDepth)
    (h : tryRules false (inlineRules walk) c = (true, next)) : c.advance walk = next := by
  rw [Cursor.advance, if_pos hdepth, h]
  rfl

theorem advance_of_none {walk : Walk} {c next : Cursor} (hdepth : c.depth < maxSpanDepth)
    (h : tryRules false (inlineRules walk) c = (false, next)) :
    c.advance walk = (next.say next.head?.toList).moveTo (next.pos + 1) := by
  rw [Cursor.advance, if_pos hdepth, h]
  rfl

theorem advance_of_deep (walk : Walk) {c : Cursor} (h : ¬ c.depth < maxSpanDepth) :
    c.advance walk = (c.say c.head?.toList).moveTo (c.pos + 1) := by
  rw [Cursor.advance, if_neg h]
  rfl

theorem readWindow_succ (walk : Walk) {stop fuel : Nat} {c : Cursor} (h : c.pos < stop) :
    readWindow walk stop (fuel + 1) c = readWindow walk stop fuel (c.advance walk) := by
  rw [readWindow, if_neg (Nat.not_le.mpr h)]
  by_cases hdepth : c.depth < maxSpanDepth
  · rw [if_pos hdepth]
    obtain ⟨⟨read, next⟩, htry⟩ : ∃ p, tryRules false (inlineRules walk) c = p := ⟨_, rfl⟩
    cases read with
    | true =>
      rw [advance_of_read hdepth htry, htry]
      rfl
    | false =>
      rw [advance_of_none hdepth htry, htry]
      rfl
  · rw [if_neg hdepth, advance_of_deep walk hdepth]
    rfl

theorem readWindow_of_le (walk : Walk) {stop : Nat} {c : Cursor} (h : stop ≤ c.pos) (fuel : Nat) :
    readWindow walk stop fuel c = c.flush := by
  cases fuel with
  | zero => rfl
  | succ fuel => rw [readWindow, if_pos h]

/-- Nothing begins at the cursor but plain text, a key or coloured text: where these three find nothing, no rule
does. -/
def Cursor.Plain (n : Nat) (c : Cursor) : Prop :=
  (∀ rule ∈ [plainRule, keyRule, colourRule (walk n)], (rule false c).1 = false) →
    (tryRules false (inlineRules (walk n)) c).1 = false

/-- Neither plain text nor a key reaches beyond the window from the cursor: the next sign at which plain text may
end, and the end of a key, stand inside. -/
def Cursor.Contained (c : Cursor) : Prop :=
  (∀ k, positionOf? isTerminator c.src c.pos = some k → k ≤ c.stop) ∧
    ∀ name next, keyAt? c = some (name, next) → next ≤ c.stop

/-- The cursor at the start of coloured text. -/
def Cursor.within (c : Cursor) (name : Text) (start stop : Nat) : Cursor :=
  { c with pos := start, stop }.openSpan (.colour name)

/-- What becomes of the cursor with one token, or one character that begins none. -/
inductive Step (n : Nat) (c : Cursor) : Cursor → Prop where
  | plain {k : Nat} (hdepth : c.depth < maxSpanDepth) (hk : (positionOf? isTerminator c.src c.pos).getD c.stop = k)
      (hne : k ≠ c.pos) : Step n c ((c.say (c.slice c.pos k)).moveTo k)
  | key {name : Text} {next : Nat} (hdepth : c.depth < maxSpanDepth)
      (hplain : positionOf? isTerminator c.src c.pos = some c.pos) (hat : keyAt? c = some (name, next)) :
      Step n c ((((c.openSpan .key).push (.text name)).closeSpan .key).moveTo next)
  | colour {name : Text} {start stop : Nat} (hdepth : c.depth < maxSpanDepth) (hcontained : c.Contained)
      (hat : colourAt? c = some (name, start, stop)) :
      Step n c { (walk n .window (c.within name start stop)).closeSpan (.colour name) with
        pos := stop + 1, stop := c.stop }
  | single {c' : Cursor} (hcontained : c.depth < maxSpanDepth → c.Contained)
      (hnot : colourAt? c = none ∨ maxSpanDepth ≤ c.depth) (hsearched : c.Searched c') :
      Step n c ((c'.say c'.head?.toList).moveTo (c'.pos + 1))

/-- The rules before those for keys begin with signs of their own. -/
theorem rules_at_bracket {c : Cursor} {d : Char} (hhead : c.head? = some d) (hd : d = '[' ∨ d = '\x7b') :
    ∀ rule ∈ [lineBreakRule, formulaRule, escapeRule, spanCodeRule, strikeRule, emphasisRule],
      rule false c = (false, c) := by
  have hne {e : Char} (he : e ≠ '[' ∧ e ≠ '\x7b') : c.head? ≠ some e := by
    rw [hhead]
    rintro ⟨⟩
    exact hd.elim he.1 he.2
  simp only [List.forall_mem_cons, List.not_mem_nil, false_imp_iff, implies_true, and_true]
  refine ⟨if_pos (hne (by decide)), if_pos (.inl (hne (by decide))), if_pos (.inl (hne (by decide))),
    if_pos (hne (by decide)), if_pos (.inr (hne (by decide))), ?_⟩
  rw [emphasisRule, hhead]
  refine if_pos (.inr ?_)
  rcases hd with rfl | rfl <;> decide

theorem head?_of_keyAt? {c : Cursor} {name : Text} {next : Nat} (h : keyAt? c = some (name, next)) :
    c.head? = some '[' := by
  obtain ⟨r, hr, -⟩ := keyAt?_eq_some h
  rw [← Cursor.head?_beyond, hr]
  rfl

theorem head?_of_colourAt? {c : Cursor} (hpos : c.pos < c.stop) {name : Text} {start stop : Nat}
    (h : colourAt? c = some (name, start, stop)) : c.head? = some '\x7b' := by
  obtain ⟨content, rest, hcoloured, -⟩ := colourAt?_eq_some_iff.mp h
  rw [← Cursor.head?_window hpos, hcoloured.eq]
  rfl

theorem keyAt?_of_head? {c : Cursor} {d : Char} (h : c.head? = some d) (hd : d ≠ '[') : keyAt? c = none := by
  cases hat : keyAt? c with
  | none => rfl
  | some found =>
    obtain ⟨name, next⟩ := found
    exact absurd (Option.some.inj (h.symm.trans (head?_of_keyAt? hat))) hd

section
variable {n : Nat} {c : Cursor} (hterm : positionOf? isTerminator c.src c.pos = some c.pos)

include hterm

theorem plainRule_at_terminator : plainRule false c = (false, c) := if_pos (by rw [hterm]; rfl)

/-- At a bracket the rules for keys come first. -/
theorem tryRules_at_bracket (walk : Walk) {d : Char} (hhead : c.head? = some d) (hd : d = '[' ∨ d = '\x7b') :
    tryRules false (inlineRules walk) c =
      tryRules false [keyRule, colourRule walk, linkRule walk, imageRule walk, autolinkRule, tagRule,
        referenceRule] c := by
  rw [inlineRules, tryRules, plainRule_at_terminator hterm]
  exact tryRules_append (rules_at_bracket hhead hd) _

theorem tryRules_key (walk : Walk) {name : Text} {next : Nat} (h : keyAt? c = some (name, next)) :
    tryRules false (inlineRules walk) c =
      (true, (((c.openSpan .key).push (.text name)).closeSpan .key).moveTo next) := by
  have hkey : keyRule false c = (true, (((c.openSpan .key).push (.text name)).closeSpan .key).moveTo next) := by
    rw [keyRule, h]
    rfl
  rw [tryRules_at_bracket hterm walk (head?_of_keyAt? h) (.inl rfl), tryRules, hkey]

theorem tryRules_colour (walk : Walk) (hpos : c.pos < c.stop) {name : Text} {start stop : Nat}
    (h : colourAt? c = some (name, start, stop)) :
    tryRules false (inlineRules walk) c =
      (true, { (walk .window (c.within name start stop)).closeSpan (.colour name) with
        pos := stop + 1, stop := c.stop }) := by
  have hhead := head?_of_colourAt? hpos h
  have hkey : keyRule false c = (false, c) := by rw [keyRule, keyAt?_of_head? hhead (by decide)]
  have hcolour : colourRule walk false c =
      (true, { (walk .window (c.within name start stop)).closeSpan (.colour name) with
        pos := stop + 1, stop := c.stop }) := by
    rw [colourRule, h]
    rfl
  rw [tryRules_at_bracket hterm walk hhead (.inr rfl), tryRules, hkey]
  show tryRules false (colourRule walk :: _) c = _
  rw [tryRules, hcolour]

theorem contained_of_no_key (hpos : c.pos < c.stop) (h : keyAt? c = none) : c.Contained where
  left := fun k hk => by
    rw [hterm] at hk
    exact Option.some.inj hk ▸ Nat.le_of_lt hpos
  right := fun _ _ hat => nomatch h.symm.trans hat

/-- A step at a sign that ends plain text. -/
theorem step_at_terminator (hpos : c.pos < c.stop) (hdepth : c.depth < maxSpanDepth) (hplain : c.Plain n) :
    Step n c (c.advance (walk n)) := by
  cases hkey : keyAt? c with
  | some found =>
    rw [advance_of_read hdepth (tryRules_key hterm (walk n) hkey)]
    exact .key hdepth hterm hkey
  | none =>
    have hcontained : c.Contained := contained_of_no_key hterm hpos hkey
    cases hcolour : colourAt? c with
    | some found =>
      rw [advance_of_read hdepth (tryRules_colour hterm (walk n) hpos hcolour)]
      exact .colour hdepth hcontained hcolour
    | none =>
      have hnone : (tryRules false (inlineRules (walk n)) c).1 = false := hplain <| by
        simp only [List.forall_mem_cons, List.not_mem_nil, false_imp_iff, implies_true, and_true]
        refine ⟨by rw [plainRule_at_terminator hterm], by rw [keyRule, hkey], by rw [colourRule, hcolour]⟩
      rw [advance_of_none hdepth (Prod.ext hnone rfl)]
      exact .single (fun _ => hcontained) (.inl hcolour) (searched_of_none hnone)

end

/-- One step of the walk, where nothing begins but plain text, keys and coloured text. -/
theorem step_advance {n : Nat} {c : Cursor} (hpos : c.pos < c.stop)
    (hplain : c.depth < maxSpanDepth → c.Plain n) : Step n c (c.advance (walk n)) := by
  by_cases hdepth : c.depth < maxSpanDepth
  · by_cases hk : (positionOf? isTerminator c.src c.pos).getD c.stop = c.pos
    · have hterm : positionOf? isTerminator c.src c.pos = some c.pos := by
        cases h : positionOf? isTerminator c.src c.pos with
        | none =>
          rw [h] at hk
          exact absurd hk (Nat.ne_of_gt hpos)
        | some k =>
          rw [h] at hk
          exact congrArg some hk
      exact step_at_terminator hterm hpos hdepth (hplain hdepth)
    · have hread : plainRule false c =
          (true, (c.say (c.slice c.pos ((positionOf? isTerminator c.src c.pos).getD c.stop))).moveTo
            ((positionOf? isTerminator c.src c.pos).getD c.stop)) := if_neg hk
      rw [advance_of_read hdepth (by rw [inlineRules, tryRules, hread])]
      exact .plain hdepth rfl hk
  · rw [advance_of_deep (walk n) hdepth]
    exact .single (fun h => absurd h hdepth) (.inr (Nat.not_lt.mp hdepth)) (.refl c)

end Lectern.Markdown
