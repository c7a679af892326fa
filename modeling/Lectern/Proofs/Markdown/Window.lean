import Lectern.Proofs.Markdown.Step
import Mathlib.Logic.Relation

/-!
# What a window spells

A window in which nothing begins but plain text, keys and coloured text is read token by token.  Its
tokens spell what it holds as long as none reaches beyond the window it is read in.  One that does
is read twice in part: by itself, and again behind the window.

* `Leads`          from one state of the walk to the next, and into coloured text;
* `AsksFrom`       the states in which the walk asks the rules for a token;
* `TokenRead`      what one token spells, and whether it reaches beyond the window;
* `WindowRead`     what a whole window spells;
* `reads_window`   windows are read so.
-/

namespace Lectern.Markdown
open Text

/-! ## what a token leaves as it is -/

/-- No delimiter waits for a partner. -/
structure Cursor.Bare (c : Cursor) : Prop where
  here : c.delimiters = #[]
  outer : ∀ ds ∈ c.outer, ds = #[]
  ended : ∀ ds ∈ c.ended, ds = #[]

/-- The text, the window and the depth are what they were, and no delimiter has come up. -/
structure Keeps (c c' : Cursor) : Prop where
  src : c'.src = c.src
  definitions : c'.definitions = c.definitions
  stop : c'.stop = c.stop
  depth : c'.depth = c.depth
  bare : c.Bare → c'.Bare

namespace Keeps
variable {c c' c'' : Cursor}

theorem refl (c : Cursor) : Keeps c c := ⟨rfl, rfl, rfl, rfl, id⟩

theorem trans (h : Keeps c c') (h' : Keeps c' c'') : Keeps c c'' :=
  ⟨h'.src.trans h.src, h'.definitions.trans h.definitions, h'.stop.trans h.stop, h'.depth.trans h.depth,
    h'.bare ∘ h.bare⟩

theorem say (c : Cursor) (t : Text) : Keeps c (c.say t) :=
  ⟨rfl, rfl, rfl, rfl, fun h => ⟨h.here, h.outer, h.ended⟩⟩

theorem moveTo (c : Cursor) (i : Nat) : Keeps c (c.moveTo i) :=
  ⟨rfl, rfl, rfl, rfl, fun h => ⟨h.here, h.outer, h.ended⟩⟩

theorem flush (c : Cursor) : Keeps c c.flush := by
  unfold Cursor.flush
  split
  · exact refl c
  · exact ⟨rfl, rfl, rfl, rfl, fun h => ⟨h.here, h.outer, h.ended⟩⟩

theorem push (c : Cursor) (t : Token) : Keeps c (c.push t) :=
  (flush c).trans ⟨rfl, rfl, rfl, rfl, fun h => ⟨h.here, h.outer, h.ended⟩⟩

theorem of_searched (h : c.Searched c') : Keeps c c' := by
  obtain ⟨k, b, s⟩ := h
  exact ⟨rfl, rfl, rfl, rfl, fun h => ⟨h.here, h.outer, h.ended⟩⟩

/-- A span that was opened and is closed again. -/
theorem span {s : Span} (h : Keeps (c.openSpan s) c') : Keeps c (c'.closeSpan s) := by
  have hpush := push c (.opening s)
  have hpush' := push c' (.closing s)
  refine ⟨(hpush'.src.trans h.src).trans hpush.src,
    (hpush'.definitions.trans h.definitions).trans hpush.definitions,
    (hpush'.stop.trans h.stop).trans hpush.stop, ?_, fun hbare => ?_⟩
  · show (c'.push (.closing s)).depth - 1 = c.depth
    rw [hpush'.depth, h.depth]
    show (c.push (.opening s)).depth + 1 - 1 = c.depth
    rw [hpush.depth, Nat.add_sub_cancel]
  · have hopened := hpush.bare hbare
    have hopen : (c.openSpan s).Bare := by
      refine ⟨rfl, fun ds hds => ?_, hopened.ended⟩
      rcases List.mem_cons.mp hds with rfl | hds
      · exact hopened.here
      · exact hopened.outer ds hds
    have hread := hpush'.bare (h.bare hopen)
    refine ⟨?_, fun ds hds => hread.outer ds (List.mem_of_mem_tail hds), fun ds hds => ?_⟩
    · show (c'.push (.closing s)).outer.headD #[] = #[]
      cases hout : (c'.push (.closing s)).outer with
      | nil => rfl
      | cons ds l => exact hread.outer ds (hout ▸ List.mem_cons_self)
    · rcases List.mem_cons.mp hds with rfl | hds
      · exact hread.here
      · exact hread.ended ds hds

/-- A window inside the window, and the way back out of it. -/
theorem window {i j k : Nat} (h : Keeps { c with pos := i, stop := j } c') :
    Keeps c { c' with pos := k, stop := c.stop } where
  src := h.src
  definitions := h.definitions
  stop := rfl
  depth := h.depth
  bare := fun hbare =>
    have h' := h.bare ⟨hbare.here, hbare.outer, hbare.ended⟩
    ⟨h'.here, h'.outer, h'.ended⟩

end Keeps

/-! ## what the walk asks -/

/-- From one state of the walk to the next.  A state is the cursor in a window with the number of rules that may
still nest; `inside` leads to the start of coloured text. -/
inductive Leads : Nat × Cursor → Nat × Cursor → Prop where
  | next {n : Nat} {c : Cursor} (hpos : c.pos < c.stop) : Leads (n, c) (n, c.advance (walk n))
  | inside {n : Nat} {c : Cursor} {name : Text} {start stop : Nat} (hpos : c.pos < c.stop)
      (hdepth : c.depth < maxSpanDepth) (hat : colourAt? c = some (name, start, stop)) :
      Leads (n + 1, c) (n, c.within name start stop)

/-- From the state `s` the walk comes to ask the rules for a token at `c`. -/
structure AsksFrom (s : Nat × Cursor) (n : Nat) (c : Cursor) : Prop where
  leads : Relation.ReflTransGen Leads s (n, c)
  pos : c.pos < c.stop
  depth : c.depth < maxSpanDepth

theorem AsksFrom.head {s s' : Nat × Cursor} {n : Nat} {c : Cursor} (h : Leads s s') (h' : AsksFrom s' n c) :
    AsksFrom s n c := ⟨h'.leads.head h, h'.pos, h'.depth⟩

/-- A state that asks is the first one, or it comes behind the next one or inside. -/
theorem AsksFrom.cases {n m : Nat} {c d : Cursor} (h : AsksFrom (n, c) m d) :
    (m = n ∧ d = c) ∨ (c.pos < c.stop ∧ AsksFrom (n, c.advance (walk n)) m d) ∨
      ∃ k name start stop, n = k + 1 ∧ c.pos < c.stop ∧ c.depth < maxSpanDepth ∧
        colourAt? c = some (name, start, stop) ∧ AsksFrom (k, c.within name start stop) m d := by
  rcases Relation.ReflTransGen.cases_head h.leads with heq | ⟨s, hs, hrest⟩
  · cases heq
    exact .inl ⟨rfl, rfl⟩
  · cases hs with
    | next hpos => exact .inr (.inl ⟨hpos, hrest, h.pos, h.depth⟩)
    | inside hpos hdepth hat => exact .inr (.inr ⟨_, _, _, _, rfl, hpos, hdepth, hat, hrest, h.pos, h.depth⟩)

/-! ## what one token spells -/

theorem positionOf?_eq_some {p : Char → Bool} {src : Array Char} {i k : Nat} (h : positionOf? p src i = some k) :
    i ≤ k ∧ k < src.size := by
  obtain ⟨j, hj, rfl⟩ := Option.map_eq_some_iff.mp h
  have hlt := (Array.findIdx?_eq_some_iff_getElem.mp hj).1
  rw [Array.size_extract] at hlt
  omega

theorem positionOf?_of_head? {c : Cursor} {d : Char} (h : c.head? = some d) (hd : isTerminator d = true) :
    positionOf? isTerminator c.src c.pos = some c.pos := by
  obtain ⟨r, hr⟩ := List.head?_eq_some_iff.mp ((Cursor.head?_beyond c).trans h)
  have hrest : c.src.extract c.pos c.src.size = (d :: r).toArray := by
    rw [← hr]
    rfl
  rw [positionOf?, hrest, List.findIdx?_toArray, List.findIdx?_cons, if_pos hd]
  exact congrArg some (Nat.zero_add _)

/-- A state of the walk: the window ends with the text at the latest, and rules may nest as deep as they do. -/
structure Sits (n : Nat) (c : Cursor) : Prop where
  bound : c.stop ≤ c.src.size
  deep : maxSpanDepth ≤ n + c.depth

theorem Sits.of_keeps {n : Nat} {c c' : Cursor} (hc : Sits n c) (h : Keeps c c') : Sits n c' where
  bound := by
    rw [h.stop, h.src]
    exact hc.bound
  deep := by
    rw [h.depth]
    exact hc.deep

/-- What a window that has been read spells.  It is never less than the window holds; it is just that where every
token asked for was contained, and more where one was not. -/
structure WindowRead (n : Nat) (c c' : Cursor) : Prop where
  keeps : Keeps c c'
  grows : c.spelled.length + (c.stop - c.pos) ≤ c'.spelled.length
  exact : c.pos ≤ c.stop → (∀ m d, AsksFrom (n, c) m d → d.Contained) →
    c'.spelled = c.spelled ++ c.slice c.pos c.stop
  longer : ∀ m d, AsksFrom (n, c) m d → ¬ d.Contained → c.spelled.length + (c.stop - c.pos) < c'.spelled.length

/-- What one token spells, in the same way; it reaches beyond the window just where it is not contained. -/
structure TokenRead (n : Nat) (c next : Cursor) : Prop where
  keeps : Keeps c next
  forward : c.pos < next.pos
  grows : c.spelled.length + (next.pos - c.pos) ≤ next.spelled.length
  exact : (∀ m d, AsksFrom (n, c) m d → d.Contained) →
    next.pos ≤ c.stop ∧ next.spelled = c.spelled ++ c.slice c.pos next.pos
  beyond : c.depth < maxSpanDepth → ¬ c.Contained → c.stop < next.pos
  inside : ∀ k name start stop m d, n = k + 1 → c.depth < maxSpanDepth →
    colourAt? c = some (name, start, stop) → AsksFrom (k, c.within name start stop) m d → ¬ d.Contained →
    c.spelled.length + (next.pos - c.pos) < next.spelled.length

section
variable {n : Nat} {c : Cursor}

/-- A token without tokens inside that spells what stands between its ends. -/
theorem tokenRead_of_spelled {next : Cursor} (hkeeps : Keeps c next) (hforward : c.pos < next.pos)
    (hsize : next.pos ≤ c.src.size) (hspelled : next.spelled = c.spelled ++ c.slice c.pos next.pos)
    (hcontained : (c.depth < maxSpanDepth → c.Contained) → next.pos ≤ c.stop)
    (hbeyond : c.depth < maxSpanDepth → ¬ c.Contained → c.stop < next.pos) (hpos : c.pos < c.stop)
    (hleaf : c.depth < maxSpanDepth → colourAt? c = none) : TokenRead n c next where
  keeps := hkeeps
  forward := hforward
  grows := by
    rewrite [hspelled, List.length_append, Cursor.length_slice hsize]
    exact Nat.le_refl _
  exact := fun h => ⟨hcontained fun hdepth => h n c ⟨.refl, hpos, hdepth⟩, hspelled⟩
  beyond := hbeyond
  inside := fun _ _ _ _ _ _ _ hdepth hat _ _ => nomatch (hleaf hdepth).symm.trans hat

theorem colourAt?_of_head? (hpos : c.pos < c.stop) {d : Char} (h : c.head? = some d) (hd : d ≠ '\x7b') :
    colourAt? c = none := by
  cases hat : colourAt? c with
  | none => rfl
  | some found => exact absurd (Option.some.inj (h.symm.trans (head?_of_colourAt? hpos hat))) hd

theorem tokenRead_plain (hc : Sits n c) (hpos : c.pos < c.stop) {k : Nat}
    (hk : (positionOf? isTerminator c.src c.pos).getD c.stop = k) (hne : k ≠ c.pos)
    (hdepth : c.depth < maxSpanDepth) :
    TokenRead n c ((c.say (c.slice c.pos k)).moveTo k) := by
  have hends : c.pos ≤ k ∧ k ≤ c.src.size := by
    cases h : positionOf? isTerminator c.src c.pos with
    | none =>
      rw [h] at hk
      exact hk ▸ ⟨Nat.le_of_lt hpos, hc.bound⟩
    | some j =>
      rw [h] at hk
      obtain rfl : j = k := hk
      have := positionOf?_eq_some h
      omega
  have hlead {d : Char} (hhead : c.head? = some d) : isTerminator d = false := by
    refine Bool.eq_false_iff.mpr fun hd => hne ?_
    rw [← hk, positionOf?_of_head? hhead hd]
    rfl
  refine tokenRead_of_spelled ((Keeps.say c _).trans (.moveTo _ k)) (by show c.pos < k; omega) hends.2
    (Cursor.spelled_say c _) (fun h => ?_) (fun _ h => ?_) hpos fun _ => ?_
  · show k ≤ c.stop
    cases hat : positionOf? isTerminator c.src c.pos with
    | none =>
      rw [hat] at hk
      exact Nat.le_of_eq hk.symm
    | some j =>
      rw [hat] at hk
      exact hk ▸ (h hdepth).1 j hat
  · show c.stop < k
    refine Nat.lt_of_not_le fun hle => h ⟨fun j hj => ?_, fun name next hat => ?_⟩
    · rw [hj] at hk
      obtain rfl : j = k := hk
      exact hle
    · exact absurd (hlead (head?_of_keyAt? hat)) (by decide)
  · cases hat : colourAt? c with
    | none => rfl
    | some found => exact absurd (hlead (head?_of_colourAt? hpos hat)) (by decide)

/-- A key spells what stands from the cursor to its end. -/
theorem spelled_of_keyAt? {name : Text} {next : Nat} (hat : keyAt? c = some (name, next)) :
    ((((c.openSpan .key).push (.text name)).closeSpan .key).moveTo next).spelled =
      c.spelled ++ c.slice c.pos next := by
  obtain ⟨r, hr, hnext, -⟩ := keyAt?_eq_some hat
  have hslice : c.slice c.pos next = ['[', '['] ++ name ++ [']', ']'] := by
    have hlen : next - c.pos = (['[', '['] ++ name ++ [']', ']']).length := by simp; omega
    have hbeyond : c.beyond c.pos = (['[', '['] ++ name ++ [']', ']']) ++ r := by simp [hr]
    rw [Cursor.slice_eq, ← Cursor.beyond_eq, hbeyond, hlen, List.take_left]
  rw [Cursor.spelled_moveTo, Cursor.spelled_closeSpan, Cursor.spelled_push, Cursor.spelled_openSpan]
  simp [hslice, Token.spelling]

theorem tokenRead_key (hpos : c.pos < c.stop) {name : Text} {next : Nat} (hdepth : c.depth < maxSpanDepth)
    (hplain : positionOf? isTerminator c.src c.pos = some c.pos) (hat : keyAt? c = some (name, next)) :
    TokenRead n c ((((c.openSpan .key).push (.text name)).closeSpan .key).moveTo next) := by
  obtain ⟨r, hr, hnext, -⟩ := keyAt?_eq_some hat
  have hsize : next ≤ c.src.size := by
    have hlen := congrArg List.length hr
    rw [Cursor.beyond_eq] at hlen
    simp at hlen
    omega
  have hkeeps : Keeps c (((c.openSpan .key).push (.text name)).closeSpan .key) := Keeps.span (.push _ _)
  refine tokenRead_of_spelled (hkeeps.trans (.moveTo _ next)) (by show c.pos < next; omega) hsize
    (spelled_of_keyAt? hat) (fun h => (h hdepth).2 name next hat) (fun _ h => ?_) hpos
    fun _ => colourAt?_of_head? hpos (head?_of_keyAt? hat) (by decide)
  refine Nat.lt_of_not_le fun hle => h ⟨fun k hk => ?_, fun name' next' hat' => ?_⟩
  · rw [hplain] at hk
    exact Option.some.inj hk ▸ Nat.le_of_lt hpos
  · cases hat.symm.trans hat'
    exact hle

theorem tokenRead_single (hc : Sits n c) (hpos : c.pos < c.stop) {c' : Cursor}
    (hcontained : c.depth < maxSpanDepth → c.Contained) (hnot : colourAt? c = none ∨ maxSpanDepth ≤ c.depth)
    (hsearched : c.Searched c') : TokenRead n c ((c'.say c'.head?.toList).moveTo (c'.pos + 1)) := by
  have hkeeps := Keeps.of_searched hsearched
  have hsize := hc.bound
  have hslice : c.slice c.pos (c.pos + 1) = c.head?.toList := by
    rw [Cursor.slice_eq, Nat.add_sub_cancel_left, ← Cursor.beyond_eq, ← Cursor.head?_beyond]
    cases c.beyond c.pos <;> rfl
  obtain ⟨known, backquotes, seen⟩ := hsearched
  refine tokenRead_of_spelled ((hkeeps.trans (.say _ _)).trans (.moveTo _ _)) (Nat.lt_succ_self c.pos)
    (by show c.pos + 1 ≤ c.src.size; omega) ?_ (fun _ => hpos) (fun hdepth h => absurd (hcontained hdepth) h) hpos
    fun hdepth => hnot.resolve_right (Nat.not_le.mpr hdepth)
  rw [Cursor.spelled_moveTo, Cursor.spelled_say]
  exact congrArg (c.spelled ++ ·) hslice.symm

/-! ## coloured text -/

theorem pos_flush (c : Cursor) : c.flush.pos = c.pos := by
  unfold Cursor.flush
  split <;> rfl

section
variable (c : Cursor) (name : Text) (start stop : Nat)

theorem within_pos : (c.within name start stop).pos = start := pos_flush _

theorem within_src : (c.within name start stop).src = c.src :=
  (Keeps.push { c with pos := start, stop } (.opening (.colour name))).src

theorem within_stop : (c.within name start stop).stop = stop :=
  (Keeps.push { c with pos := start, stop } (.opening (.colour name))).stop

theorem within_depth : (c.within name start stop).depth = c.depth + 1 :=
  congrArg (· + 1) (Keeps.push { c with pos := start, stop } (.opening (.colour name))).depth

theorem spelled_within :
    (c.within name start stop).spelled = c.spelled ++ ('\x7b' :: name ++ ['\x7d', '(']) := Cursor.spelled_push _ _

end

/-- Coloured text inside a window: where it begins and ends, and what stands there. -/
theorem slices_of_colourAt? {name : Text} {start stop : Nat} (h : colourAt? c = some (name, start, stop)) :
    start = c.pos + name.length + 3 ∧ start ≤ stop ∧ stop < c.stop ∧
      c.slice c.pos start = '\x7b' :: name ++ ['\x7d', '('] ∧ c.slice stop (stop + 1) = [')'] := by
  obtain ⟨content, rest, hcoloured, hstart, hstop⟩ := colourAt?_eq_some_iff.mp h
  have hwindow := hcoloured.eq
  rw [Cursor.window, Cursor.slice_eq] at hwindow
  have hlen := congrArg List.length hwindow
  simp only [List.length_take, List.length_append, List.length_cons] at hlen
  obtain ⟨more, hmore⟩ : ∃ more, (c.src.toList.drop c.pos).drop (c.stop - c.pos) = more := ⟨_, rfl⟩
  have htext : c.src.toList.drop c.pos = ('\x7b' :: name ++ ['\x7d', '(']) ++ (content ++ ')' :: (rest ++ more)) := by
    rw [← List.take_append_drop (c.stop - c.pos) (c.src.toList.drop c.pos), hwindow, hmore]
    simp
  have hbehind : c.src.toList.drop stop = ')' :: (rest ++ more) := by
    have hadd : stop = c.pos + (('\x7b' :: name ++ ['\x7d', '(']).length + content.length) := by
      simp only [List.length_append, List.length_cons, List.length_nil]
      omega
    rw [hadd, ← List.drop_drop, htext, ← List.drop_drop, List.drop_left, List.drop_left]
  refine ⟨hstart, by omega, by omega, ?_, ?_⟩
  · have hadd : start - c.pos = ('\x7b' :: name ++ ['\x7d', '(']).length := by
      simp only [List.length_append, List.length_cons, List.length_nil]
      omega
    rw [Cursor.slice_eq, htext, hadd, List.take_left]
  · rw [Cursor.slice_eq, hbehind, Nat.add_sub_cancel_left]
    rfl

theorem tokenRead_colour {k : Nat} (hpos : c.pos < c.stop) (hdepth : c.depth < maxSpanDepth) (hcontained : c.Contained)
    {name : Text} {start stop : Nat} (hat : colourAt? c = some (name, start, stop)) {inner : Cursor}
    (hread : WindowRead k (c.within name start stop) inner) :
    TokenRead (k + 1) c { inner.closeSpan (.colour name) with pos := stop + 1, stop := c.stop } := by
  obtain ⟨hstart, hle, hlt, hopen, hclose⟩ := slices_of_colourAt? hat
  have hspelled : Cursor.spelled { inner.closeSpan (.colour name) with pos := stop + 1, stop := c.stop } =
      inner.spelled ++ [')'] := Cursor.spelled_closeSpan inner (.colour name)
  have hlength : (c.within name start stop).spelled.length = c.spelled.length + (start - c.pos) := by
    rw [spelled_within, List.length_append, hstart]
    simp only [List.length_append, List.length_cons, List.length_nil]
    omega
  have hgrows := hread.grows
  rw [within_pos, within_stop, hlength] at hgrows
  refine ⟨hread.keeps.span.window, by show c.pos < stop + 1; omega, ?_, fun hall => ?_,
    fun _ h => absurd hcontained h, ?_⟩
  · show c.spelled.length + (stop + 1 - c.pos) ≤ _
    rw [hspelled, List.length_append]
    simp only [List.length_cons, List.length_nil]
    omega
  · have hexact := hread.exact (by rw [within_pos, within_stop]; exact hle) fun m d hd =>
      hall m d (.head (.inside hpos hdepth hat) hd)
    rw [within_pos, within_stop, spelled_within, Cursor.slice_eq, within_src, ← Cursor.slice_eq] at hexact
    refine ⟨hlt, ?_⟩
    calc Cursor.spelled { inner.closeSpan (.colour name) with pos := stop + 1, stop := c.stop }
        = c.spelled ++ c.slice c.pos start ++ c.slice start stop ++ c.slice stop (stop + 1) := by
          rw [hspelled, hexact, hopen, hclose]
      _ = c.spelled ++ c.slice c.pos (stop + 1) := by
          rw [List.append_assoc, List.append_assoc, Cursor.slice_append hle (Nat.le_succ stop),
            Cursor.slice_append (by omega) (by omega)]
  · intro k' name' start' stop' m d hk _ hat' hd hnot
    cases hat.symm.trans hat'
    obtain rfl : k = k' := Nat.succ.inj hk
    have hlonger := hread.longer m d hd hnot
    rw [within_pos, within_stop, hlength] at hlonger
    show c.spelled.length + (stop + 1 - c.pos) < _
    rw [hspelled, List.length_append]
    simp only [List.length_cons, List.length_nil]
    omega

end

/-! ## what a window spells -/

theorem sits_within {k : Nat} {c : Cursor} (hc : Sits (k + 1) c) {name : Text} {start stop : Nat}
    (hat : colourAt? c = some (name, start, stop)) : Sits k (c.within name start stop) where
  bound := by
    rw [within_stop, within_src]
    exact Nat.le_trans (Nat.le_of_lt (slices_of_colourAt? hat).2.2.1) hc.bound
  deep := by
    rw [within_depth]
    have := hc.deep
    omega

/-- A window that has been read to its end. -/
theorem windowRead_end {n : Nat} {c : Cursor} (h : c.stop ≤ c.pos) : WindowRead n c c.flush where
  keeps := .flush c
  grows := by
    rw [Cursor.spelled_flush, Nat.sub_eq_zero_of_le h]
    exact Nat.le_refl _
  exact := fun _ _ => by
    rw [Cursor.spelled_flush, Cursor.slice_eq, Nat.sub_eq_zero_of_le h, List.take_zero, List.append_nil]
  longer := fun m d hd => by
    rcases hd.cases with ⟨rfl, rfl⟩ | ⟨hpos, -⟩ | ⟨_, _, _, _, -, hpos, -⟩
    · exact absurd hd.pos (Nat.not_lt.mpr h)
    · exact absurd hpos (Nat.not_lt.mpr h)
    · exact absurd hpos (Nat.not_lt.mpr h)

/-- A token, and the rest of the window behind it. -/
theorem TokenRead.behind {n : Nat} {c c' : Cursor} (hpos : c.pos < c.stop) (h : TokenRead n c (c.advance (walk n)))
    (hrest : WindowRead n (c.advance (walk n)) c') : WindowRead n c c' where
  keeps := h.keeps.trans hrest.keeps
  grows := by
    have h₁ := h.grows
    have h₂ := hrest.grows
    have h₃ := h.forward
    rw [h.keeps.stop] at h₂
    omega
  exact := fun _ hall => by
    obtain ⟨hle, hspelled⟩ := h.exact hall
    have hexact := hrest.exact (by rw [h.keeps.stop]; exact hle) fun m d hd => hall m d (.head (.next hpos) hd)
    rw [hexact, hspelled, h.keeps.stop, Cursor.slice_eq (c.advance _), h.keeps.src, ← Cursor.slice_eq,
      List.append_assoc, Cursor.slice_append (Nat.le_of_lt h.forward) hle]
  longer := fun m d hd hnot => by
    have h₁ := h.grows
    have h₂ := hrest.grows
    have h₃ := h.forward
    rw [h.keeps.stop] at h₂
    rcases hd.cases with ⟨rfl, rfl⟩ | ⟨-, hnext⟩ | ⟨k, name, start, stop, hk, -, hdepth, hat, hinner⟩
    · have := h.beyond hd.depth hnot
      omega
    · have := hrest.longer m d hnext hnot
      rw [h.keeps.stop] at this
      omega
    · have := h.inside k name start stop m d hk hdepth hat hinner hnot
      omega

/-- One step of the walk reads a token. -/
theorem tokenRead_advance {n : Nat} {c : Cursor} (hc : Sits n c) (hpos : c.pos < c.stop)
    (hplain : c.depth < maxSpanDepth → c.Plain n)
    (hinside : ∀ k name start stop, n = k + 1 → c.depth < maxSpanDepth →
      colourAt? c = some (name, start, stop) →
        WindowRead k (c.within name start stop) (walk n .window (c.within name start stop))) :
    TokenRead n c (c.advance (walk n)) := by
  have hstep := step_advance hpos hplain
  generalize c.advance (walk n) = next at hstep
  cases hstep with
  | plain hdepth hk hne => exact tokenRead_plain hc hpos hk hne hdepth
  | key hdepth hterm hat => exact tokenRead_key hpos hdepth hterm hat
  | colour hdepth hcontained hat =>
    obtain ⟨k, rfl⟩ : ∃ k, n = k + 1 := by
      have := hc.deep
      exact ⟨n - 1, by omega⟩
    exact tokenRead_colour hpos hdepth hcontained hat (hinside k _ _ _ rfl hdepth hat)
  | single hcontained hnot hsearched => exact tokenRead_single hc hpos hcontained hnot hsearched

/-- Window after window: what holds of the windows inside, one rule less deep, holds of this one. -/
theorem windowRead_of_inside {n : Nat}
    (hinside : ∀ k, n = k + 1 → ∀ {c : Cursor}, Sits k c → (∀ m d, AsksFrom (k, c) m d → d.Plain m) →
      WindowRead k c (walk n .window c))
    (fuel : Nat) {c : Cursor} (hc : Sits n c) (hfuel : c.stop - c.pos ≤ fuel)
    (hplain : ∀ m d, AsksFrom (n, c) m d → d.Plain m) : WindowRead n c (readWindow (walk n) c.stop fuel c) := by
  induction fuel generalizing c with
  | zero => exact windowRead_end (Nat.sub_eq_zero_iff_le.mp (Nat.le_zero.mp hfuel))
  | succ fuel ih =>
    by_cases hpos : c.pos < c.stop
    · have htoken : TokenRead n c (c.advance (walk n)) := by
        refine tokenRead_advance hc hpos (fun hdepth => hplain n c ⟨.refl, hpos, hdepth⟩) ?_
        rintro k name start stop rfl hdepth hat
        exact hinside k rfl (sits_within hc hat) fun m d hd => hplain m d (.head (.inside hpos hdepth hat) hd)
      have hsits : Sits n (c.advance (walk n)) := hc.of_keeps htoken.keeps
      have hleft : (c.advance (walk n)).stop - (c.advance (walk n)).pos ≤ fuel := by
        have := htoken.forward
        rw [htoken.keeps.stop]
        omega
      have hrest := ih hsits hleft fun m d hd => hplain m d (.head (.next hpos) hd)
      rw [htoken.keeps.stop] at hrest
      rw [readWindow_succ _ hpos]
      exact htoken.behind hpos hrest
    · rw [readWindow_of_le _ (Nat.not_lt.mp hpos)]
      exact windowRead_end (Nat.not_lt.mp hpos)

/-- What a window spells that holds nothing but plain text, keys and coloured text. -/
theorem reads_window (n : Nat) {c : Cursor} (hc : Sits n c) (hplain : ∀ m d, AsksFrom (n, c) m d → d.Plain m) :
    WindowRead n c (walk (n + 1) .window c) := by
  induction n generalizing c with
  | zero => exact windowRead_of_inside (fun k hk => absurd hk.symm (Nat.succ_ne_zero k)) _ hc (Nat.le_refl _) hplain
  | succ n ih =>
    refine windowRead_of_inside ?_ _ hc (Nat.le_refl _) hplain
    rintro k ⟨⟩ c hk hinner
    exact ih hk hinner

end Lectern.Markdown
