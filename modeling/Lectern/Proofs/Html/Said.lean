import Lectern.Proofs.Html.Apart

/-!
# What a tree says of the text it was read from

Text that is blank throughout shrinks to one blank when it goes into a tree.  The text between two tags goes in as a
whole, so it is cut into stretches there, and only a stretch of blanks shrinks.

* `tighten`        a stretch as it goes in;
* `Tightens`       what some text says once its stretches have gone in; where no two blanks stand side by side it is
                   the text itself;
* `tightens_ofTokens`   what a tree says, by what its tokens say.
-/

namespace Lectern.Html
open Text Node

/-- A stretch of text as it goes into a tree, outside of preformatted text. -/
def tighten (t : Text) : Text :=
  if t.all Builder.isPlainBlank then (if t.contains '\n' then ['\n'] else [' ']) else t

/-- Cut into stretches and each of them tightened, the text `s` is `t`. -/
def Tightens (s t : Text) : Prop :=
  ∃ ps : List Text, (∀ p ∈ ps, p ≠ []) ∧ ps.flatten = s ∧ (ps.map tighten).flatten = t

theorem tightens_nil : Tightens [] [] := ⟨[], fun _ h => absurd h List.not_mem_nil, rfl, rfl⟩

theorem Tightens.stretch {s t p : Text} (h : Tightens s t) (hp : p ≠ []) : Tightens (s ++ p) (t ++ tighten p) := by
  obtain ⟨ps, hne, rfl, rfl⟩ := h
  refine ⟨ps ++ [p], fun q hq => ?_, by simp, by simp⟩
  rcases List.mem_append.mp hq with hq | hq
  · exact hne q hq
  · exact List.mem_singleton.mp hq ▸ hp

/-- Every run of blanks is a space or a line end. -/
def IsSparse (t : Text) : Prop :=
  ∀ p : Text, p <:+: t → p.all Builder.isPlainBlank = true → p = [] ∨ p = [' '] ∨ p = ['\n']

theorem Tightens.eq_of_sparse {s t : Text} (h : Tightens s t) (hs : IsSparse s) : t = s := by
  obtain ⟨ps, hne, rfl, rfl⟩ := h
  have hself : ∀ p ∈ ps, tighten p = p := fun p hp => by
    unfold tighten
    split
    · rename_i hall
      rcases hs p (List.infix_of_mem_flatten hp) hall with rfl | rfl | rfl
      · exact absurd rfl (hne [] hp)
      · rfl
      · rfl
    · rfl
  rw [List.map_congr_left hself, List.map_id']

theorem plainTextAll_append (ms ns : List Node) : plainTextAll (ms ++ ns) = plainTextAll ms ++ plainTextAll ns := by
  induction ms with
  | nil => rfl
  | cons m ms ih => rw [List.cons_append, plainTextAll, plainTextAll, ih, List.append_assoc]

theorem plainTextAll_single (n : Node) : plainTextAll [n] = n.plainText := List.append_nil _

/-- What a token says. -/
def Token.said : Token → Text
  | .text t => t
  | _ => []

/-- Elements of a kind in which text is text and blanks shrink. -/
def Kind.IsLoose (P : Kind) : Prop :=
  ∀ name as, P name as → isAsideName name = false ∧ name ≠ "pre".toList ∧ name ≠ "textarea".toList

namespace Builder
variable {P : Kind} {b : Builder} {s : Text}

/-- What has been put into the tree so far says. -/
def saidSoFar (b : Builder) : Text :=
  plainTextAll b.outside.reverse ++ b.open_.reverse.flatMap fun e => plainTextAll e.held.reverse

theorem saidSoFar_add (b : Builder) (n : Node) : (b.add n).saidSoFar = b.saidSoFar ++ n.plainText := by
  unfold add
  split
  · rename_i h
    rw [saidSoFar, saidSoFar, h, List.reverse_cons, plainTextAll_append, plainTextAll_single]
    simp
  · rename_i e es h
    rw [saidSoFar, saidSoFar, h, List.reverse_cons, List.reverse_cons, List.flatMap_append, List.flatMap_append,
      List.flatMap_singleton, List.flatMap_singleton, List.reverse_cons, plainTextAll_append, plainTextAll_single]
    simp only [List.append_assoc]

theorem saidSoFar_closeInnermost (b : Builder) : b.closeInnermost.saidSoFar = b.saidSoFar := by
  unfold closeInnermost
  split
  · rfl
  · rename_i e es h
    rw [saidSoFar_add, saidSoFar, saidSoFar, h, List.reverse_cons, List.flatMap_append, List.flatMap_singleton,
      List.append_assoc]
    rfl

theorem saidSoFar_repeat (b : Builder) (n : Nat) : (n.repeat closeInnermost b).saidSoFar = b.saidSoFar := by
  induction n with
  | zero => rfl
  | succ n ih => exact (saidSoFar_closeInnermost _).trans ih

theorem pending_closeInnermost (b : Builder) : b.closeInnermost.pending = b.pending := by
  unfold closeInnermost
  split
  · rfl
  · exact add_pending _ _

theorem pending_repeat (b : Builder) (n : Nat) : (n.repeat closeInnermost b).pending = b.pending := by
  induction n with
  | zero => rfl
  | succ n ih => exact (pending_closeInnermost _).trans ih

/-- The text read so far says this; the last stretch of it may still be pending. -/
structure Says (b : Builder) (s : Text) : Prop where
  nonempty : b.pending ≠ some []
  said : ∃ r, Tightens r b.saidSoFar ∧ s = r ++ b.pending.getD []

theorem Grown.shrunk (hP : P.IsLoose) (h : b.Grown P) (t : Text) : b.shrunk t = tighten t := by
  have hkeeps : b.keepsBlanks = false := List.any_eq_false.mpr fun e he => by
    obtain ⟨⟨as, hp, -⟩, -⟩ := (h.opened e he).1
    obtain ⟨-, hpre, harea⟩ := hP _ as hp
    rw [decide_eq_false hpre, decide_eq_false harea]
    exact Bool.false_ne_true
  rw [Builder.shrunk, hkeeps, Bool.not_false, Bool.true_and, tighten]

theorem Says.flush (hP : P.IsLoose) (hg : b.Grown P) (h : b.Says s) : b.flush.Says s := by
  obtain ⟨r, hr, rfl⟩ := h.said
  refine ⟨by rw [flush_pending]; exact nofun, ?_⟩
  rw [flush_pending, Option.getD_none]
  unfold Builder.flush flushAs
  rw [hg.isAside fun name as hp => (hP name as hp).1]
  split
  · rename_i hp
    exact ⟨r, hr, by rw [hp]; rfl⟩
  · rename_i t hp
    refine ⟨r ++ t, ?_, by rw [hp, Option.getD_some, List.append_nil]⟩
    rw [saidSoFar_add, hg.shrunk hP]
    exact hr.stretch fun e => h.nonempty (e ▸ hp)

theorem Says.of_eq {b' : Builder} (h : b.Says s) (hs : b'.saidSoFar = b.saidSoFar) (hp : b'.pending = b.pending) :
    b'.Says s := by
  obtain ⟨r, hr, he⟩ := h.said
  exact ⟨hp ▸ h.nonempty, r, hs ▸ hr, hp ▸ he⟩

theorem Says.text {t : Text} (h : b.Says s) (ht : t ≠ []) : (b.step (.text t)).Says (s ++ t) := by
  obtain ⟨r, hr, rfl⟩ := h.said
  refine ⟨fun e => ht (List.append_eq_nil_iff.mp (Option.some.inj e)).2, r, hr, ?_⟩
  rw [List.append_assoc]
  rfl

theorem Says.closing (hP : P.IsLoose) (hg : b.Grown P) (h : b.Says s) (name : Text) : (b.closing name).Says s := by
  rw [Builder.closing, hg.voids]
  show (b.close name).Says s
  have hf := h.flush hP hg
  unfold Builder.close
  dsimp only
  split
  · exact hf
  · exact hf.of_eq (saidSoFar_repeat _ _) (pending_repeat _ _)

theorem Says.step (hP : P.IsLoose) (hg : b.Grown P) (h : b.Says s) {u : Token} (hu : u.Fits P)
    (hne : u ≠ .text []) : (b.step u).Says (s ++ u.said) := by
  cases u with
  | text t => exact h.text fun e => hne (e ▸ rfl)
  | note k t => exact hu.elim
  | closing name => exact (List.append_nil s).symm ▸ h.closing hP hg name
  | opening name as closed =>
    rw [show (Token.opening name as closed).said = [] from rfl, List.append_nil]
    have hf := h.flush hP hg
    cases closed with
    | true =>
      show (b.opening name as true).Says s
      rw [opening_closed hg.voids]
      refine hf.of_eq ?_ (add_pending _ _)
      rw [saidSoFar_add]
      exact List.append_nil _
    | false =>
      have hvoid : isVoidName name = false := Bool.eq_false_iff.mpr fun hv => absurd (hu.2 hv) Bool.false_ne_true
      show (b.opening name as false).Says s
      rw [opening_open hvoid]
      refine hf.of_eq ?_ rfl
      rw [saidSoFar, saidSoFar, push, List.reverse_cons, List.flatMap_append, List.flatMap_singleton]
      exact congrArg _ (List.append_nil _)

theorem Says.foldl (hP : P.IsLoose) (hg : b.Grown P) (h : b.Says s) {us : List Token}
    (hu : ∀ u ∈ us, u.Fits P ∧ u ≠ .text []) : (us.foldl Builder.step b).Says (s ++ us.flatMap Token.said) := by
  induction us generalizing b s with
  | nil => rwa [List.flatMap_nil, List.append_nil]
  | cons u us ih =>
    obtain ⟨hfits, hne⟩ := hu u List.mem_cons_self
    rw [List.flatMap_cons, ← List.append_assoc]
    exact ih (hg.step (fun name as hp => (hP name as hp).1) hfits) (h.step hP hg hfits hne)
      fun v hv => hu v (List.mem_cons_of_mem _ hv)

theorem Says.finish (hP : P.IsLoose) (hg : b.Grown P) (h : b.Says s) : Tightens s (plainTextAll b.finish) := by
  obtain ⟨r, hr, he⟩ := (h.flush hP hg).said
  rw [flush_pending, Option.getD_none, List.append_nil] at he
  subst he
  have hopen : (b.flush.open_.length.repeat closeInnermost b.flush).open_ = [] :=
    List.map_eq_nil_iff.mp ((tags_open_repeat _ _).trans (List.drop_eq_nil_of_le (Nat.le_of_eq (List.length_map _))))
  rw [← saidSoFar_repeat _ b.flush.open_.length, saidSoFar, hopen, List.reverse_nil, List.flatMap_nil,
    List.append_nil] at hr
  exact hr

end Builder

/-- A tree says what its tokens say, tightened. -/
theorem tightens_of_reads {P : Kind} (hP : P.IsLoose) {t : Text} {us : List Token} (hr : Reads t us)
    (hu : ∀ u ∈ us, u.Fits P ∧ u ≠ .text []) (g : Nat) :
    ∃ ns, Node.parse t g = .ok ns ∧ Grown P ns ∧ Tightens (us.flatMap Token.said) (plainTextAll ns) := by
  have hb : ({ generation := g } : Builder).Grown P := ⟨fun e he => absurd he List.not_mem_nil, .nil, rfl⟩
  have hs : ({ generation := g } : Builder).Says [] := ⟨nofun, [], tightens_nil, rfl⟩
  have haside : ∀ name as, P name as → isAsideName name = false := fun name as hp => (hP name as hp).1
  have hgrown := hb.foldl haside fun u h => (hu u h).1
  refine ⟨_, ?_, hgrown.finish haside, (hs.foldl hP hb hu).finish hP hgrown⟩
  rw [parse_eq_read, hr.read]
  rfl

end Lectern.Html
