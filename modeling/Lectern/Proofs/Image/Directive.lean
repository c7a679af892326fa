import Lectern.Image.Source
import Lectern.Proofs.Html.Values

/-!
# Size directives

A path may hold the delimiter as long as it is doubled.  Such a path is read back as it was, alone
and before a height, and nothing is a height but what follows the one delimiter that stands alone.

* `double`              a path with its delimiters doubled;
* `Lone`                a delimiter that stands alone, with what comes before it and after it;
* `runs`                texts run by run;
* `mem_loneSplits`      the cuts of a source are its lone delimiters;
* `BarsAs`              a source some of whose bars are written as escapes;
* `directive_undouble`  paths, heights and bars are read back.
-/

namespace Lectern.Image
open Text

/-- The text with every `d` doubled. -/
def double (d : Char) (p : Text) : Text := p.flatMap fun c => if c = d then [d, d] else [c]

/-- A `d` stands alone in `s`: `u` comes before it and `v` after it, and neither has another one next to it. -/
structure Lone (d : Char) (s u v : Text) : Prop where
  eq : s = u ++ d :: v
  before : u.getLast? ≠ some d
  after : v.head? ≠ some d

/-! ## runs -/

section
variable {d : Char}

/-- A text is empty, or begins with another character, or with a run of the delimiter. -/
theorem runs {motive : Text → Prop} (nil : motive []) (other : ∀ c t, c ≠ d → motive t → motive (c :: t))
    (run : ∀ n t, t.head? ≠ some d → motive t → motive (List.replicate (n + 1) d ++ t)) (s : Text) : motive s := by
  suffices h : ∀ s, motive s ∧ ∀ n, motive (List.replicate (n + 1) d ++ s) from (h s).1
  intro s
  induction s with
  | nil => exact ⟨nil, fun n => run n [] (by simp) nil⟩
  | cons c t ih =>
    by_cases hc : c = d
    · subst hc
      have hrun (n : Nat) : motive (List.replicate (n + 1) c ++ c :: t) := by
        have := ih.2 (n + 1)
        rwa [List.replicate_succ', List.append_assoc] at this
      exact ⟨by simpa using ih.2 0, hrun⟩
    · have hcons : motive (c :: t) := other c t hc ih.1
      exact ⟨hcons, fun n => run n (c :: t) (by simpa using hc) hcons⟩

theorem leadingRun_replicate {t : Text} (ht : t.head? ≠ some d) (n : Nat) {fuel : Nat} (hfuel : n ≤ fuel) :
    leadingRun [d] fuel (List.replicate n d ++ t) = n := by
  induction n generalizing fuel with
  | zero =>
    cases fuel with
    | zero => rfl
    | succ fuel =>
      cases t with
      | nil => rfl
      | cons c t =>
        have hc : ¬ d = c := fun h => ht (by rw [h]; rfl)
        simp [leadingRun, stripPrefix?, hc]
  | succ n ih =>
    cases fuel with
    | zero => omega
    | succ fuel => simp [List.replicate_succ, leadingRun, stripPrefix?, ih (Nat.le_of_succ_le_succ hfuel)]

theorem loneSplitsAux_skip (n : Nat) (acc t : Text) :
    loneSplitsAux [d] n acc (List.replicate n d ++ t) = loneSplitsAux [d] 0 (List.replicate n d ++ acc) t := by
  induction n generalizing acc with
  | zero => rfl
  | succ n ih =>
    rw [List.replicate_succ, List.cons_append, loneSplitsAux, ih, ← List.replicate_succ, List.replicate_succ',
      List.append_assoc]
    rfl

theorem loneSplitsAux_other {c : Char} (hc : c ≠ d) (acc t : Text) :
    loneSplitsAux [d] 0 acc (c :: t) = loneSplitsAux [d] 0 (c :: acc) t := by
  have hrun : leadingRun [d] (c :: t).length (c :: t) = 0 :=
    leadingRun_replicate (t := c :: t) (by simpa using hc) 0 (Nat.zero_le _)
  rw [loneSplitsAux]
  rw [hrun]
  rfl

/-- A run is a cut just where it is a single delimiter. -/
theorem loneSplitsAux_run (n : Nat) {t : Text} (ht : t.head? ≠ some d) (acc : Text) :
    loneSplitsAux [d] 0 acc (List.replicate (n + 1) d ++ t) =
      (if n = 0 then [(acc.reverse, t)] else []) ++ loneSplitsAux [d] 0 (List.replicate (n + 1) d ++ acc) t := by
  have hrun : leadingRun [d] (d :: (List.replicate n d ++ t)).length (d :: (List.replicate n d ++ t)) = n + 1 :=
    leadingRun_replicate ht (n + 1) (by simp)
  have hrest : loneSplitsAux [d] n (d :: acc) (List.replicate n d ++ t) =
      loneSplitsAux [d] 0 (List.replicate (n + 1) d ++ acc) t := by
    rw [loneSplitsAux_skip, List.replicate_succ', List.append_assoc]
    rfl
  rw [List.replicate_succ, List.cons_append, loneSplitsAux]
  rw [hrun]
  cases n with
  | zero => exact congrArg ((acc.reverse, t) :: ·) hrest
  | succ n =>
    rw [if_neg (by omega), if_neg (Nat.succ_ne_zero n)]
    have hlen : (n + 1 + 1) * [d].length - 1 = n + 1 := by simp
    rw [hlen]
    exact hrest

/-! ## delimiters that stand alone -/

theorem not_lone_nil {u v : Text} : ¬ Lone d [] u v := fun h => by simpa using h.eq

theorem lone_other_iff {c : Char} (hc : c ≠ d) {t u v : Text} :
    Lone d (c :: t) u v ↔ ∃ w, u = c :: w ∧ Lone d t w v := by
  constructor
  · rintro ⟨heq, hbefore, hafter⟩
    cases u with
    | nil => exact absurd (List.cons.inj heq).1 hc
    | cons e w =>
      obtain ⟨rfl, rfl⟩ := List.cons.inj heq
      refine ⟨w, rfl, rfl, fun h => hbefore ?_, hafter⟩
      rw [List.getLast?_cons, h]
      rfl
  · rintro ⟨w, rfl, rfl, hbefore, hafter⟩
    refine ⟨rfl, fun h => ?_, hafter⟩
    cases hw : w.getLast? with
    | none =>
      rw [List.getLast?_cons, hw] at h
      exact hc (Option.some.inj h)
    | some e =>
      rw [List.getLast?_cons, hw] at h
      exact hbefore (by rw [hw]; exact h)

/-- A run holds one that stands alone just where it is a single delimiter. -/
theorem lone_run_iff {n : Nat} {t u v : Text} (ht : t.head? ≠ some d) :
    Lone d (List.replicate (n + 1) d ++ t) u v ↔
      (n = 0 ∧ u = [] ∧ v = t) ∨ ∃ w, u = List.replicate (n + 1) d ++ w ∧ Lone d t w v := by
  constructor
  · rintro ⟨heq, hbefore, hafter⟩
    rcases List.append_eq_append_iff.mp heq with ⟨w, rfl, rfl⟩ | ⟨w, hrun, hw⟩
    · refine .inr ⟨w, rfl, rfl, fun h => hbefore ?_, hafter⟩
      rw [List.getLast?_append, h]
      rfl
    · cases w with
      | nil =>
        rw [List.nil_append] at hw
        exact absurd (by rw [← hw]; rfl) ht
      | cons e w =>
        obtain ⟨rfl, rfl⟩ := List.cons.inj hw
        obtain ⟨hlen, hu, hw⟩ := List.append_eq_replicate_iff.mp hrun.symm
        have hnil : u = [] := by
          rw [hu, List.getLast?_replicate] at hbefore
          exact List.length_eq_zero_iff.mp (Classical.byContradiction fun h => hbefore (if_neg h))
        have hwnil : w = [] := by
          cases w with
          | nil => rfl
          | cons f w =>
            rw [List.length_cons, List.replicate_succ, List.length_cons, List.replicate_succ] at hw
            exact absurd (congrArg some (List.cons.inj (List.cons.inj hw).2).1) hafter
        subst hnil hwnil
        exact .inl ⟨by simpa using hlen.symm, rfl, rfl⟩
  · rintro (⟨rfl, rfl, rfl⟩ | ⟨w, rfl, rfl, hbefore, hafter⟩)
    · exact ⟨rfl, by simp, ht⟩
    · refine ⟨by rw [List.append_assoc], fun h => ?_, hafter⟩
      cases hw : w.getLast? with
      | none =>
        rw [List.getLast?_eq_none_iff] at hw
        subst hw
        exact ht rfl
      | some e =>
        rw [List.getLast?_append, hw] at h
        exact hbefore (by rw [hw]; exact h)

/-- The cuts of a text are its lone delimiters.  The induction is on the runs; what came before the text does not
end with a delimiter that would go on with its first run. -/
theorem mem_loneSplitsAux {s : Text} : ∀ {acc : Text}, acc.head? ≠ some d ∨ s.head? ≠ some d → ∀ {u v : Text},
    (u, v) ∈ loneSplitsAux [d] 0 acc s ↔ ∃ w, u = acc.reverse ++ w ∧ Lone d s w v := by
  induction s using runs (d := d) with
  | nil => exact fun _ {u v} => ⟨fun h => absurd h List.not_mem_nil, fun ⟨_, _, h⟩ => absurd h not_lone_nil⟩
  | other c t hc ih =>
    intro acc _ u v
    rw [loneSplitsAux_other hc, ih (.inl (by simpa using hc))]
    simp only [lone_other_iff hc, List.reverse_cons, List.append_assoc, List.singleton_append]
    constructor
    · rintro ⟨w, rfl, hw⟩
      exact ⟨c :: w, rfl, w, rfl, hw⟩
    · rintro ⟨_, rfl, w, rfl, hw⟩
      exact ⟨w, rfl, hw⟩
  | run n t ht ih =>
    intro acc _ u v
    rw [loneSplitsAux_run n ht, List.mem_append, ih (.inr ht)]
    simp only [lone_run_iff ht, List.reverse_append, List.reverse_replicate, List.append_assoc]
    constructor
    · rintro (h | ⟨w, rfl, hw⟩)
      · split at h
        · rename_i hn
          cases List.mem_singleton.mp h
          exact ⟨[], by simp, .inl ⟨hn, rfl, rfl⟩⟩
        · cases h
      · exact ⟨_, rfl, .inr ⟨w, rfl, hw⟩⟩
    · rintro ⟨_, rfl, ⟨rfl, rfl, rfl⟩ | ⟨w, rfl, hw⟩⟩
      · exact .inl (by simp)
      · exact .inr ⟨w, rfl, hw⟩

theorem mem_loneSplits {s u v : Text} : (u, v) ∈ loneSplits [d] s ↔ Lone d s u v := by
  rw [loneSplits, if_neg (List.cons_ne_nil d []), mem_loneSplitsAux (.inl (by simp))]
  simp

/-! ## doubled delimiters -/

theorem double_run (n : Nat) (t : Text) :
    double d (List.replicate (n + 1) d ++ t) = List.replicate (2 * n + 1 + 1) d ++ double d t := by
  rw [double, List.flatMap_append]
  refine congrArg (· ++ double d t) ?_
  induction n with
  | zero => simp
  | succ n ih =>
    rw [List.replicate_succ, List.flatMap_cons, ih, if_pos rfl]
    rfl

theorem head?_double (t : Text) : (double d t).head? = t.head? := by
  cases t with
  | nil => rfl
  | cons c t =>
    rw [double, List.flatMap_cons]
    split
    · rename_i hc
      rw [hc]
      rfl
    · rfl

/-- No doubled delimiter stands alone, as long as what follows does not go on with its last run. -/
theorem loneSplitsAux_double {p r : Text} (h : p.getLast? ≠ some d ∨ r.head? ≠ some d) (acc : Text) :
    loneSplitsAux [d] 0 acc (double d p ++ r) = loneSplitsAux [d] 0 ((double d p).reverse ++ acc) r := by
  induction p using runs (d := d) generalizing acc with
  | nil => rfl
  | other c t hc ih =>
    have hcons : double d (c :: t) = c :: double d t := by rw [double, List.flatMap_cons, if_neg hc]; rfl
    rw [hcons, List.cons_append, loneSplitsAux_other hc, ih ?_, List.reverse_cons, List.append_assoc]
    · rfl
    · refine h.imp_left fun h' ht => h' ?_
      rw [List.getLast?_cons, ht]
      rfl
  | run n t ht ih =>
    have hhead : (double d t ++ r).head? ≠ some d := by
      rw [List.head?_append, head?_double]
      cases t with
      | nil =>
        have hlast : (List.replicate (n + 1) d ++ []).getLast? = some d := by
          rw [List.append_nil, List.getLast?_replicate, if_neg (Nat.succ_ne_zero n)]
        exact h.resolve_left fun h' => h' hlast
      | cons c t => exact ht
    rw [double_run, List.append_assoc, loneSplitsAux_run _ hhead, if_neg (Nat.succ_ne_zero _), List.nil_append,
      ih ?_, List.reverse_append, List.reverse_replicate, List.append_assoc]
    refine h.imp_left fun h' ht => h' ?_
    rw [List.getLast?_append, ht]
    rfl

theorem undouble_double (p : Text) : replaceAll ([d] ++ [d]) [d] (double d p) = p := by
  rw [replaceAll, if_neg (by simp)]
  induction p with
  | nil => rfl
  | cons c p ih =>
    rw [double, List.flatMap_cons]
    split
    · rename_i hc
      subst hc
      have hs : startsWith ([c] ++ [c]) (c :: c :: double c p) = true := by simp [startsWith, stripPrefix?]
      show replaceAux ([c] ++ [c]) [c] 0 (c :: c :: double c p) = c :: p
      rw [replaceAux, if_pos hs]
      exact congrArg (c :: ·) ih
    · rename_i hc
      have hs : startsWith ([d] ++ [d]) (c :: double d p) = false := by simp [startsWith, stripPrefix?, Ne.symm hc]
      show replaceAux ([d] ++ [d]) [d] 0 (c :: double d p) = c :: p
      rw [replaceAux, hs]
      exact congrArg (c :: ·) ih

theorem loneSplits_double (p : Text) : loneSplits [d] (double d p) = [] := by
  have h := loneSplitsAux_double (d := d) (p := p) (r := []) (.inr (by simp)) []
  rw [List.append_nil] at h
  rw [loneSplits, if_neg (List.cons_ne_nil d []), h]
  rfl

/-- The only cut of a doubled path, a delimiter and a height is the one between them. -/
theorem loneSplits_directive {p h : Text} (hp : p.getLast? ≠ some d) (hh : h.head? ≠ some d)
    (hlone : ∀ u v, ¬ Lone d h u v) : loneSplits [d] (double d p ++ d :: h) = [(double d p, h)] := by
  have hrun := loneSplitsAux_run 0 hh (double d p).reverse
  have hrest : loneSplitsAux [d] 0 (d :: (double d p).reverse) h = [] := by
    refine List.eq_nil_iff_forall_not_mem.mpr fun uv huv => ?_
    obtain ⟨w, -, hw⟩ := (mem_loneSplitsAux (.inr hh)).mp huv
    exact hlone w uv.2 hw
  rw [loneSplits, if_neg (List.cons_ne_nil d []), loneSplitsAux_double (.inl hp), List.append_nil]
  refine hrun.trans ?_
  rw [if_pos rfl, List.reverse_reverse]
  exact congrArg ((double d p, h) :: ·) hrest

/-- A height is what follows the only delimiter that stands alone. -/
theorem sizeDirective_eq_some {s path h : Text} (heq : sizeDirective [d] s = (path, some h)) :
    ∃ u v, Lone d s u v ∧ (∀ u' v', Lone d s u' v' → u' = u ∧ v' = v) ∧ strip v ≠ [] ∧ h = strip v := by
  unfold sizeDirective at heq
  dsimp only at heq
  split at heq
  · rename_i u v hsplits
    have hmem {u' v' : Text} : Lone d s u' v' ↔ (u', v') = (u, v) := by
      rw [← mem_loneSplits, hsplits, List.mem_singleton]
    have hheight : (if strip v = [] then none else some (strip v)) = some h := congrArg Prod.snd heq
    split at hheight
    · cases hheight
    · rename_i hblank
      refine ⟨u, v, hmem.mpr rfl, fun u' v' h' => ?_, hblank, (Option.some.inj hheight).symm⟩
      cases hmem.mp h'
      exact ⟨rfl, rfl⟩
  · cases heq

end

/-! ## bars and their escapes -/

/-- The second text is the first one, with some of its bars written as escapes. -/
inductive BarsAs : Text → Text → Prop where
  | nil : BarsAs [] []
  | keep (c : Char) {s t : Text} (h : BarsAs s t) : BarsAs (c :: s) (c :: t)
  | capital {s t : Text} (h : BarsAs s t) : BarsAs ('|' :: s) ('%' :: '7' :: 'C' :: t)
  | small {s t : Text} (h : BarsAs s t) : BarsAs ('|' :: s) ('%' :: '7' :: 'c' :: t)

namespace BarsAs

/-- The escapes of other signs, and what may look like the beginning of one, stay. -/
theorem of_cons {c : Char} (hc : c ≠ '|') {s t : Text} (h : BarsAs (c :: s) t) : ∃ r, t = c :: r ∧ BarsAs s r := by
  generalize hs : c :: s = s' at h
  cases h with
  | nil => cases hs
  | keep _ h =>
    cases hs
    exact ⟨_, rfl, h⟩
  | capital h => exact absurd (List.cons.inj hs).1 hc
  | small h => exact absurd (List.cons.inj hs).1 hc

theorem to_cons {c : Char} (hc : c ≠ '|' ∧ c ≠ '%') {s t : Text} (h : BarsAs s (c :: t)) :
    ∃ r, s = c :: r ∧ BarsAs r t := by
  generalize ht : c :: t = t' at h
  cases h with
  | nil => cases ht
  | keep _ h =>
    cases ht
    exact ⟨_, rfl, h⟩
  | capital h => exact absurd (List.cons.inj ht).1 hc.2
  | small h => exact absurd (List.cons.inj ht).1 hc.2

theorem readBars_eq {s t : Text} (h : BarsAs s t) : readBars t = readBars s := by
  fun_induction readBars s generalizing t with
  | case1 s ih =>
    obtain ⟨_, rfl, h₁⟩ := h.of_cons (by decide)
    obtain ⟨_, rfl, h₂⟩ := h₁.of_cons (by decide)
    obtain ⟨_, rfl, h₃⟩ := h₂.of_cons (by decide)
    rw [readBars, ih h₃]
  | case2 s ih =>
    obtain ⟨_, rfl, h₁⟩ := h.of_cons (by decide)
    obtain ⟨_, rfl, h₂⟩ := h₁.of_cons (by decide)
    obtain ⟨_, rfl, h₃⟩ := h₂.of_cons (by decide)
    rw [readBars, ih h₃]
  | case3 c s hC hc ih =>
    cases h with
    | keep _ h =>
      rw [← ih h, readBars]
      · rintro r rfl rfl
        obtain ⟨_, rfl, h₁⟩ := h.to_cons (by decide)
        obtain ⟨_, rfl, -⟩ := h₁.to_cons (by decide)
        exact hC _ rfl rfl
      · rintro r rfl rfl
        obtain ⟨_, rfl, h₁⟩ := h.to_cons (by decide)
        obtain ⟨_, rfl, -⟩ := h₁.to_cons (by decide)
        exact hc _ rfl rfl
    | capital h => rw [readBars, ih h]
    | small h => rw [readBars, ih h]
  | case4 =>
    cases h
    rfl

end BarsAs

/-! ## sources -/

theorem bar_not_mem_replaceAll (p : Text) : '|' ∉ replaceAll ['|'] ['%', '7', 'C'] p := by
  rw [Html.replaceAll_sign]
  intro h
  obtain ⟨c, -, hc⟩ := List.mem_flatMap.mp h
  split at hc
  · exact absurd hc (by decide)
  · rename_i hne
    exact hne (List.mem_singleton.mp hc).symm

/-- A path whose delimiters are doubled is read back, alone and before a height; a height is what follows the only
delimiter that stands alone.  Bars may be written as they are or as escapes, and no address holds one as it is. -/
theorem directive_undouble :
    (∀ d p, sizeDirective [d] (double d p) = (p, none)) ∧
      (∀ d p h, p.getLast? ≠ some d → strip h ≠ [] → h.head? ≠ some d → (∀ u v, ¬ Lone d h u v) →
        sizeDirective [d] (double d p ++ d :: h) = (p, some (strip h))) ∧
      (∀ d s path h, sizeDirective [d] s = (path, some h) →
        ∃ u v, Lone d s u v ∧ (∀ u' v', Lone d s u' v' → u' = u ∧ v' = v) ∧ strip v ≠ [] ∧ h = strip v) ∧
      (∀ imageDir fromRoot s t, BarsAs s t → resolve imageDir fromRoot t = resolve imageDir fromRoot s) ∧
      ∀ imageDir fromRoot s, '|' ∉ imageDir → '|' ∉ (resolve imageDir fromRoot s).1 := by
  refine ⟨fun d p => ?_, fun d p h hp hblank hh hlone => ?_, fun d s path h => sizeDirective_eq_some,
    fun imageDir fromRoot s t h => ?_, fun imageDir fromRoot s hdir hmem => ?_⟩
  · rw [sizeDirective, loneSplits_double]
    exact congrArg (·, none) (undouble_double p)
  · rw [sizeDirective, loneSplits_directive hp hh hlone]
    dsimp only
    rw [undouble_double, if_neg hblank]
  · rw [resolve, resolve, h.readBars_eq]
  · have hpath := bar_not_mem_replaceAll (sizeDirective ['|'] (readBars s)).1
    have hroot : '|' ∉ (if fromRoot then ['/'] else [] : Text) := by cases fromRoot <;> decide
    rw [resolve] at hmem
    dsimp only at hmem
    split at hmem
    · rw [List.mem_append, List.mem_append, List.mem_cons] at hmem
      rcases hmem with (h | h) | h | h
      · exact hroot h
      · exact hdir h
      · exact absurd h (by decide)
      · exact hpath h
    · exact hpath hmem

/-- A path with bars of its own and a height with doubled ones, and the same source with escapes. -/
theorem directive_undouble_bars :
    sizeDirective ['|'] "a||b||||.png| 12||5 ".toList = ("a|b||.png".toList, some "12||5".toList) ∧
      (∃ u v, Lone '|' "a||b| 3".toList u v ∧ strip v ≠ [] ∧ "3".toList = strip v) ∧
      resolve "img".toList true "a%7c|b%7C3".toList = resolve "img".toList true "a||b|3".toList ∧
      '|' ∉ (resolve "img".toList true "a||b|3".toList).1 := by
  have hnone : loneSplits ['|'] " 12||5 ".toList = [] := by decide
  have hlone (u v : Text) : ¬ Lone '|' " 12||5 ".toList u v := fun h =>
    absurd (mem_loneSplits.mpr h) (hnone ▸ List.not_mem_nil)
  have hescaped : BarsAs "a||b|3".toList "a%7c|b%7C3".toList :=
    .keep 'a' (.small (.keep '|' (.keep 'b' (.capital (.keep '3' .nil)))))
  obtain ⟨u, v, h, -, hv⟩ := directive_undouble.2.2.1 '|' "a||b| 3".toList "a|b".toList "3".toList (by decide)
  exact ⟨directive_undouble.2.1 '|' "a|b||.png".toList " 12||5 ".toList (by decide) (by decide) (by decide) hlone,
    ⟨u, v, h, hv⟩, directive_undouble.2.2.2.1 "img".toList true _ _ hescaped,
    directive_undouble.2.2.2.2 "img".toList true _ (by decide)⟩

end Lectern.Image
