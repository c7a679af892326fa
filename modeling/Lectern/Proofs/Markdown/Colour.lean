import Lectern.Markdown.Inline.Nested

/-!
# The grammar of coloured text

Coloured text is a name in braces before content in parentheses.  The content holds parentheses of
its own as long as they pair, a backslash taking the character after it along.

* `Balanced`                      texts whose parentheses pair;
* `IsColourName`                  the names a colour may have;
* `Coloured`                      how a text begins with coloured text, which it does in one way only;
* `balancedLength?_eq_some_iff`   how far content reaches;
* `colourAt?_eq_some_iff`         what the rule finds at the cursor;
* `colourRule_accepts`            the rule reads coloured text and nothing else, and moves behind it.
-/

namespace Lectern.Markdown
open Text

/-! ## parentheses that pair -/

/-- The parentheses of a text pair; a backslash and the character after it count as one ordinary
character. -/
inductive Balanced : Text → Prop where
  | nil : Balanced []
  | plain {c : Char} {t : Text} (h : c ≠ '\\' ∧ c ≠ '(' ∧ c ≠ ')') (ht : Balanced t) : Balanced (c :: t)
  | escaped (c : Char) {t : Text} (ht : Balanced t) : Balanced ('\\' :: c :: t)
  | paren {s t : Text} (hs : Balanced s) (ht : Balanced t) : Balanced ('(' :: s ++ ')' :: t)

/-- A text that closes `depth` parentheses opened before it and pairs all others. -/
def Closes : Nat → Text → Prop
  | 0, s => Balanced s
  | depth + 1, s => ∃ u v, s = u ++ ')' :: v ∧ Balanced u ∧ Closes depth v

namespace Closes
variable {depth : Nat} {s : Text}

theorem plain {c : Char} (hc : c ≠ '\\' ∧ c ≠ '(' ∧ c ≠ ')') (h : Closes depth s) : Closes depth (c :: s) := by
  cases depth with
  | zero => exact Balanced.plain hc h
  | succ depth =>
    obtain ⟨u, v, rfl, hu, hv⟩ := h
    exact ⟨c :: u, v, rfl, .plain hc hu, hv⟩

theorem escaped (c : Char) (h : Closes depth s) : Closes depth ('\\' :: c :: s) := by
  cases depth with
  | zero => exact Balanced.escaped c h
  | succ depth =>
    obtain ⟨u, v, rfl, hu, hv⟩ := h
    exact ⟨'\\' :: c :: u, v, rfl, .escaped c hu, hv⟩

theorem opening (h : Closes (depth + 1) s) : Closes depth ('(' :: s) := by
  obtain ⟨u, v, rfl, hu, hv⟩ := h
  cases depth with
  | zero => exact Balanced.paren hu hv
  | succ depth =>
    obtain ⟨u', v', rfl, hu', hv'⟩ := hv
    exact ⟨'(' :: u ++ ')' :: u', v', by simp, .paren hu hu', hv'⟩

theorem closing (h : Closes depth s) : Closes (depth + 1) (')' :: s) := ⟨[], s, rfl, .nil, h⟩

end Closes

theorem balancedLength?_plain {c : Char} (h : c ≠ '\\' ∧ c ≠ '(' ∧ c ≠ ')') (depth : Nat) (t : Text) :
    balancedLength? depth (c :: t) = (balancedLength? depth t).map (· + 1) := by
  obtain ⟨hb, ho, hc⟩ := h
  cases depth <;> simp [balancedLength?, hb, hc]

/-- The scan passes over a text whose parentheses pair. -/
theorem balancedLength?_append {s : Text} (h : Balanced s) (depth : Nat) (t : Text) :
    balancedLength? depth (s ++ t) = (balancedLength? depth t).map (· + s.length) := by
  induction h generalizing depth t with
  | nil => simp
  | plain hc _ ih =>
    rw [List.cons_append, balancedLength?_plain hc, ih, Option.map_map]
    rfl
  | escaped c _ ih =>
    rw [List.cons_append, List.cons_append, balancedLength?, ih, Option.map_map]
    rfl
  | @paren s u _ _ ihs ihu =>
    have hsplit : '(' :: s ++ ')' :: u ++ t = '(' :: (s ++ ')' :: (u ++ t)) := by simp
    rw [hsplit, balancedLength?, ihs, balancedLength?, ihu]
    simp only [Option.map_map]
    congr 1
    funext n
    simp
    omega

/-- What the scan has passed over closes the parentheses that stood open. -/
theorem closes_of_balancedLength? {depth : Nat} {t : Text} {n : Nat} (h : balancedLength? depth t = some n) :
    ∃ s r, t = s ++ ')' :: r ∧ s.length = n ∧ Closes depth s := by
  fun_induction balancedLength? depth t generalizing n with
  | case1 => cases h
  | case2 => cases h
  | case3 depth c t ih =>
    obtain ⟨m, hm, rfl⟩ := Option.map_eq_some_iff.mp h
    obtain ⟨s, r, rfl, rfl, hs⟩ := ih hm
    exact ⟨'\\' :: c :: s, r, rfl, rfl, hs.escaped c⟩
  | case4 depth t ih =>
    obtain ⟨m, hm, rfl⟩ := Option.map_eq_some_iff.mp h
    obtain ⟨s, r, rfl, rfl, hs⟩ := ih hm
    exact ⟨'(' :: s, r, rfl, rfl, hs.opening⟩
  | case5 t =>
    obtain rfl := Option.some.inj h
    exact ⟨[], t, rfl, rfl, Balanced.nil⟩
  | case6 depth t ih =>
    obtain ⟨m, hm, rfl⟩ := Option.map_eq_some_iff.mp h
    obtain ⟨s, r, rfl, rfl, hs⟩ := ih hm
    exact ⟨')' :: s, r, rfl, rfl, hs.closing⟩
  | case7 depth c t _ hslash hopen hzero hsucc ih =>
    obtain ⟨m, hm, rfl⟩ := Option.map_eq_some_iff.mp h
    obtain ⟨s, r, rfl, rfl, hs⟩ := ih hm
    have hc : c ≠ '\\' ∧ c ≠ '(' ∧ c ≠ ')' := by
      refine ⟨fun e => ?_, hopen, fun e => ?_⟩
      · obtain ⟨d, u, hd⟩ := List.exists_cons_of_ne_nil (List.append_ne_nil_of_right_ne_nil s (List.cons_ne_nil ')' r))
        exact hslash d u e hd
      · cases depth with
        | zero => exact hzero rfl e
        | succ depth => exact hsucc depth rfl e
    exact ⟨c :: s, r, rfl, rfl, hs.plain hc⟩

/-- Content reaches as far as its parentheses pair, up to one that closes what no parenthesis in it opened. -/
theorem balancedLength?_eq_some_iff {t : Text} {n : Nat} :
    balancedLength? 0 t = some n ↔ ∃ s r, t = s ++ ')' :: r ∧ s.length = n ∧ Balanced s := by
  constructor
  · exact closes_of_balancedLength?
  · rintro ⟨s, r, rfl, rfl, hs⟩
    rw [balancedLength?_append hs, balancedLength?]
    simp

/-! ## the beginning of coloured text -/

/-- A letter, and then letters, digits and hyphens. -/
structure IsColourName (name : Text) : Prop where
  head : name.head?.any isLetter = true
  all : ∀ c ∈ name, isLetterOrDigit c = true ∨ c = '-'

instance (name : Text) : Decidable (IsColourName name) :=
  decidable_of_iff (name.head?.any isLetter = true ∧ (name.all fun c => isLetterOrDigit c || c = '-') = true)
    ⟨fun ⟨h, h'⟩ => ⟨h, by simpa using h'⟩, fun h => ⟨h.head, by simpa using h.all⟩⟩

/-- A text begins with the colour `name` in braces and with `content` in parentheses; `rest` is what follows. -/
structure Coloured (t name content rest : Text) : Prop where
  eq : t = '\x7b' :: name ++ '\x7d' :: '(' :: content ++ ')' :: rest
  name : IsColourName name
  nonempty : content ≠ []
  balanced : Balanced content

theorem colourName?_eq_some_iff {t name r : Text} :
    colourName? t = some (name, r) ↔ t = '\x7b' :: name ++ '\x7d' :: '(' :: r ∧ IsColourName name := by
  constructor
  · intro h
    unfold colourName? at h
    split at h
    · rename_i u
      dsimp only at h
      obtain ⟨w, hw⟩ : ∃ w, u.takeWhile (fun d => isLetterOrDigit d || d = '-') = w := ⟨_, rfl⟩
      have hall := List.all_eq_true.mp (hw ▸ List.all_takeWhile (p := fun d => isLetterOrDigit d || d = '-') (l := u))
      have hu : u = w ++ u.drop w.length := by
        conv => lhs; rw [← List.take_append_drop w.length u]
        rw [← hw, ← List.prefix_iff_eq_take.mp (List.takeWhile_prefix _)]
      rw [hw] at h
      split at h
      · rename_i v hv
        split at h
        · rename_i hhead
          cases h
          rw [hv] at hu
          exact ⟨by rw [hu]; rfl, hhead, fun c hc => by simpa using hall c hc⟩
        · cases h
      · cases h
    · cases h
  · rintro ⟨rfl, hhead, hall⟩
    have htake : (name ++ '\x7d' :: '(' :: r).takeWhile (fun d => isLetterOrDigit d || d = '-') = name := by
      rw [List.takeWhile_append_of_pos fun c hc => by simpa using hall c hc, List.takeWhile_cons, if_neg (by decide),
        List.append_nil]
    rw [List.cons_append, colourName?]
    simp only [htake, List.drop_left]
    rw [if_pos hhead]

namespace Coloured
variable {t name content rest : Text}

theorem colourName?_eq (h : Coloured t name content rest) : colourName? t = some (name, content ++ ')' :: rest) :=
  colourName?_eq_some_iff.mpr ⟨by rw [h.eq]; simp, h.name⟩

theorem balancedLength?_eq (h : Coloured t name content rest) :
    balancedLength? 0 (content ++ ')' :: rest) = some content.length :=
  balancedLength?_eq_some_iff.mpr ⟨content, rest, rfl, rfl, h.balanced⟩

/-- A text begins with coloured text in one way only. -/
theorem unique {name' content' rest' : Text} (h : Coloured t name content rest)
    (h' : Coloured t name' content' rest') : name = name' ∧ content = content' ∧ rest = rest' := by
  obtain ⟨hname, hbehind⟩ := Prod.mk.inj (Option.some.inj (h.colourName?_eq.symm.trans h'.colourName?_eq))
  have hlength : content.length = content'.length :=
    Option.some.inj (h.balancedLength?_eq.symm.trans (hbehind ▸ h'.balancedLength?_eq))
  obtain ⟨hcontent, hrest⟩ := List.append_inj hbehind hlength
  exact ⟨hname, hcontent, (List.cons.inj hrest).2⟩

end Coloured

/-- What the rule finds at the cursor: the colour, and where the coloured text begins and ends. -/
theorem colourAt?_eq_some_iff {c : Cursor} {name : Text} {start stop : Nat} :
    colourAt? c = some (name, start, stop) ↔
      ∃ content rest, Coloured (c.window c.pos) name content rest ∧ start = c.pos + name.length + 3 ∧
        stop = start + content.length := by
  constructor
  · intro h
    unfold colourAt? at h
    split at h
    · cases h
    · rename_i w t hname
      obtain ⟨heq, hw⟩ := colourName?_eq_some_iff.mp hname
      split at h
      · rename_i n hn
        cases h
        obtain ⟨content, rest, rfl, hlen, hbal⟩ := balancedLength?_eq_some_iff.mp hn
        refine ⟨content, rest, ⟨by rw [heq]; simp, hw, ?_, hbal⟩, rfl, by rw [hlen]⟩
        rintro rfl
        cases hlen
      · cases h
  · rintro ⟨content, rest, h, rfl, rfl⟩
    obtain ⟨n, hn⟩ : ∃ n, content.length = n + 1 :=
      Nat.exists_eq_succ_of_ne_zero (Nat.pos_iff_ne_zero.mp (List.length_pos_iff.mpr h.nonempty))
    unfold colourAt?
    simp only [h.colourName?_eq, h.balancedLength?_eq, hn]

/-! ## the rule -/

/-- The rule reads coloured text at the start of the window, and nothing else.  Whatever the walk over its content
does, the cursor then stands behind the closing parenthesis and its window ends where it ended; a dry run gives the
same answer and the same place, and writes nothing. -/
theorem colourRule_accepts (walk : Walk) (c : Cursor) :
    (∀ dry, (colourRule walk dry c).1 = true ↔ ∃ name content rest, Coloured (c.window c.pos) name content rest) ∧
      (∀ name content rest name' content' rest', Coloured (c.window c.pos) name content rest →
        Coloured (c.window c.pos) name' content' rest' → name = name' ∧ content = content' ∧ rest = rest') ∧
      (∀ name content rest, Coloured (c.window c.pos) name content rest →
        let next := c.pos + ('\x7b' :: name ++ '\x7d' :: '(' :: content ++ [')']).length
        colourRule walk true c = (true, c.moveTo next) ∧
          ∃ after, colourRule walk false c = (true, after) ∧ after.pos = next ∧ after.stop = c.stop) ∧
      ∀ dry, (colourRule walk dry c).1 = false → (colourRule walk dry c).2 = c := by
  have hfound {name content rest : Text} (h : Coloured (c.window c.pos) name content rest) :
      colourAt? c = some (name, c.pos + name.length + 3, c.pos + name.length + 3 + content.length) :=
    colourAt?_eq_some_iff.mpr ⟨content, rest, h, rfl, rfl⟩
  refine ⟨fun dry => ⟨fun h => ?_, ?_⟩, fun _ _ _ _ _ _ => Coloured.unique, fun name content rest h => ?_,
    fun dry h => ?_⟩
  · unfold colourRule at h
    split at h
    · cases h
    · rename_i name start stop hat
      obtain ⟨content, rest, hcoloured, -⟩ := colourAt?_eq_some_iff.mp hat
      exact ⟨name, content, rest, hcoloured⟩
  · rintro ⟨name, content, rest, h⟩
    rw [colourRule, hfound h]
    cases dry <;> rfl
  · have hnext : c.pos + name.length + 3 + content.length + 1 =
        c.pos + ('\x7b' :: name ++ '\x7d' :: '(' :: content ++ [')']).length := by
      simp only [List.length_append, List.length_cons, List.length_nil]
      omega
    rw [colourRule, colourRule, hfound h]
    exact ⟨by rw [← hnext]; rfl, _, rfl, hnext, rfl⟩
  · unfold colourRule at h ⊢
    split
    · rfl
    · rename_i hat
      rw [hat] at h
      cases dry <;> cases h

/-- Parentheses in it, one of them escaped, in a window that ends before the text does. -/
theorem colourRule_accepts_nested :
    let c := { Cursor.start [] "a\x7bdark-2\x7d(f(x) \\)b) c)".toList with pos := 1, stop := 19 }
    let name := "dark-2".toList
    let content := "f(x) \\)b".toList
    Coloured (c.window c.pos) name content [] ∧ colourRule (walk 3) true c = (true, c.moveTo 19) ∧
      ∃ after, colourRule (walk 3) false c = (true, after) ∧ after.pos = 19 ∧ after.stop = 19 := by
  intro c name content
  have hbalanced : Balanced content :=
    .plain (by decide) (.paren (.plain (by decide) .nil)
      (.plain (by decide) (.escaped ')' (.plain (by decide) .nil))))
  have h : Coloured (c.window c.pos) name content [] :=
    ⟨by decide, by decide, by decide, hbalanced⟩
  exact ⟨h, (colourRule_accepts (walk 3) c).2.2.1 name content [] h⟩

end Lectern.Markdown
