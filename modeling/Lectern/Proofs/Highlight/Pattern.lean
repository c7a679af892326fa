import Lectern.Highlight.Lexer
import Mathlib.Data.List.TakeDrop
import Mathlib.Logic.Relation

/-!
# Cutting by rules

A table of rules says how a text is cut: for each mode the rules that are tried there, in order.
A rule's pattern is matched where the text has been cut to, its ways tried from the first on, and
the first rule that matches gives its pieces.  Where none does, a line end brings back the first
mode, and any other character is given as an error.

* `Pattern.ways`        all the ways in which a pattern matches, in the order in which they are tried;
* `State.step`          one step with a table of rules;
* `Lexes`, `Reaches`    runs;
* `Lexes.unique`        a run is determined by where it starts;
* `findSome?_many`      a greedy run that is left nowhere but at its end.
-/

namespace Lectern.Highlight
open Text

/-! ## patterns -/

inductive Pattern where
  /-- A line begins here. -/
  | lineStart
  | text (s : Text)
  | one (p : Char → Bool)
  /-- As many of the characters as there are, then fewer. -/
  | many (least : Nat) (most : Option Nat) (p : Char → Bool)
  /-- None of the characters, then more. -/
  | few (p : Char → Bool)
  | both (a b : Pattern)
  | either (a b : Pattern)
  | group (a : Pattern)

/-- What a pattern has matched, as a whole and in its groups, and what is left. -/
structure Match where
  covered : Text
  groups : List Text := []
  rest : Text

def Match.followedBy (m m' : Match) : Match :=
  ⟨m.covered ++ m'.covered, m.groups ++ m'.groups, m'.rest⟩

/-- The first `n` characters of a text as a match. -/
def Match.first (t : Text) (n : Nat) : Match := { covered := t.take n, rest := t.drop n }

/-- Whether a line begins behind some text. -/
def startsBehind (atStart : Bool) (t : Text) : Bool :=
  match t.getLast? with
  | some c => c = '\n'
  | none => atStart

namespace Pattern

/-- One of some patterns, tried in order. -/
def oneOf : List Pattern → Pattern
  | [] => .one fun _ => false
  | p :: ps => .either p (oneOf ps)

/-- The lengths in which a run of characters can be taken, the longest first. -/
def lengths (least : Nat) (most : Option Nat) (run : Nat) : List Nat :=
  (List.range (most.elim run (min run ·) + 1)).reverse.filter (least ≤ ·)

def ways : Pattern → (atStart : Bool) → Text → List Match
  | lineStart, atStart, t => if atStart then [.first t 0] else []
  | text s, _, t => (stripPrefix? s t).toList.map fun rest => { covered := s, rest }
  | one p, _, t => if t.head?.any p then [.first t 1] else []
  | many least most p, _, t => (lengths least most (t.takeWhile p).length).map (.first t)
  | few p, _, t => (List.range ((t.takeWhile p).length + 1)).map (.first t)
  | both a b, atStart, t => (a.ways atStart t).flatMap fun m =>
    (b.ways (startsBehind atStart m.covered) m.rest).map m.followedBy
  | either a b, atStart, t => a.ways atStart t ++ b.ways atStart t
  | group a, atStart, t => (a.ways atStart t).map fun m => { m with groups := m.covered :: m.groups }

end Pattern

/-! ## rules -/

inductive Mode where
  | first
  /-- On the line of a sigil, behind it. -/
  | argument
  deriving DecidableEq

/-- A piece of a text, or a character that no rule holds for. -/
structure Lexeme where
  role : Option Role
  text : Text

def Piece.lexeme (p : Piece) : Lexeme := ⟨some p.role, p.text⟩

/-- What a match is given as: one piece, or one for each group that is not empty. -/
inductive Giving where
  | whole (r : Role)
  | groups (rs : List Role)

def Giving.lexemes (m : Match) : Giving → List Lexeme
  | whole r => [⟨some r, m.covered⟩]
  | groups rs => ((rs.zip m.groups).filter fun g => !g.2.isEmpty).map fun g => ⟨some g.1, g.2⟩

inductive Move where
  | stay
  | push (m : Mode)
  | pop

/-- The modes after a move, the current one first; there is always one left. -/
def Move.apply (modes : List Mode) : Move → List Mode
  | stay => modes
  | push m => m :: modes
  | pop => if 1 < modes.length then modes.drop 1 else modes

structure Rule where
  pattern : Pattern
  giving : Giving
  move : Move := .stay

/-- The first rule that matches, with the first way in which it does. -/
def firstMatch? (rules : List Rule) (atStart : Bool) (t : Text) : Option (Rule × Match) :=
  rules.findSome? fun r => (r.pattern.ways atStart t).head?.map (r, ·)

/-! ## steps and runs -/

structure State where
  /-- The current mode, then those to come back to. -/
  modes : List Mode
  /-- A line begins here. -/
  atStart : Bool
  rest : Text

/-- The beginning of a text, in the first mode. -/
def State.start (t : Text) : State := ⟨[.first], true, t⟩

section
variable (table : Mode → List Rule)

/-- One step; none where nothing matches at the end of the text. -/
def State.step (s : State) : Option (List Lexeme × State) :=
  match firstMatch? (table (s.modes.headD .first)) s.atStart s.rest with
  | some (r, m) =>
    some (r.giving.lexemes m, ⟨r.move.apply s.modes, startsBehind s.atStart m.covered, m.rest⟩)
  | none =>
    match s.rest with
    | [] => none
    | c :: t =>
      if c = '\n' then some ([⟨some .lineEnd, ['\n']⟩], ⟨[.first], true, t⟩)
      else some ([⟨none, [c]⟩], ⟨s.modes, false, t⟩)

/-- A run from a state comes to an end, with these pieces. -/
inductive Lexes : State → List Lexeme → Prop where
  | stop {s : State} (h : s.step table = none) : Lexes s []
  | step {s s' : State} {ls ls' : List Lexeme} (h : s.step table = some (ls, s'))
    (hs : Lexes s' ls') : Lexes s (ls ++ ls')

/-- A run comes from one state to another. -/
def Reaches : State → State → Prop := Relation.ReflTransGen fun s s' => ∃ ls, s.step table = some (ls, s')

variable {table}

theorem Lexes.unique {s : State} {ls ms : List Lexeme} (hl : Lexes table s ls)
    (hm : Lexes table s ms) : ls = ms := by
  induction hl generalizing ms with
  | stop h =>
    cases hm with
    | stop _ => rfl
    | step h' _ => exact nomatch h.symm.trans h'
  | step h _ ih =>
    cases hm with
    | stop h' => exact nomatch h.symm.trans h'
    | step h' hs =>
      obtain ⟨rfl, rfl⟩ := Prod.mk.inj (Option.some.inj (h.symm.trans h'))
      rw [ih hs]

end

/-! ## ways -/

namespace Pattern
variable {α : Type} {p : Char → Bool}

/-- A way covers the front of the text. -/
theorem whole_of_mem_ways {a : Pattern} {s : Bool} {t : Text} {m : Match} (h : m ∈ a.ways s t) :
    m.covered ++ m.rest = t := by
  have first (n : Nat) (hm : m = .first t n) : m.covered ++ m.rest = t := hm ▸ List.take_append_drop n t
  induction a generalizing s t m with
  | lineStart =>
    unfold ways at h
    split at h
    · exact first 0 (List.mem_singleton.mp h)
    · exact absurd h List.not_mem_nil
  | text u =>
    obtain ⟨rest, hrest, rfl⟩ := List.mem_map.mp h
    exact (stripPrefix?_eq_some_iff.mp (Option.mem_toList.mp hrest)).symm
  | one q =>
    unfold ways at h
    split at h
    · exact first 1 (List.mem_singleton.mp h)
    · exact absurd h List.not_mem_nil
  | many least most q =>
    obtain ⟨n, -, hm⟩ := List.mem_map.mp h
    exact first n hm.symm
  | few q =>
    obtain ⟨n, -, hm⟩ := List.mem_map.mp h
    exact first n hm.symm
  | both a b iha ihb =>
    obtain ⟨m₁, h₁, h⟩ := List.mem_flatMap.mp h
    obtain ⟨m₂, h₂, rfl⟩ := List.mem_map.mp h
    have hb := ihb h₂ fun n hm => hm ▸ List.take_append_drop n _
    have ha := iha h₁ fun n hm => hm ▸ List.take_append_drop n _
    show m₁.covered ++ m₂.covered ++ m₂.rest = t
    rw [List.append_assoc, hb, ha]
  | either a b iha ihb => exact (List.mem_append.mp h).elim (iha · first) (ihb · first)
  | group a ih =>
    obtain ⟨m₁, h₁, rfl⟩ := List.mem_map.mp h
    exact ih (m := m₁) h₁ fun n hm => hm ▸ List.take_append_drop n _

theorem ways_oneOf (s : Bool) (t : Text) (ps : List Pattern) : (oneOf ps).ways s t = ps.flatMap (·.ways s t) := by
  induction ps with
  | nil => cases t <;> rfl
  | cons p ps ih => rw [oneOf, ways, ih, List.flatMap_cons]

theorem head?_both (a b : Pattern) (s : Bool) (t : Text) : ((both a b).ways s t).head? =
    (a.ways s t).findSome? fun m => (b.ways (startsBehind s m.covered) m.rest).head?.map m.followedBy := by
  rw [ways, List.head?_flatMap]
  simp only [List.head?_map]

theorem head?_lineStart (b : Pattern) (s : Bool) (t : Text) :
    ((both lineStart b).ways s t).head? = if s then (b.ways true t).head? else none := by
  rw [head?_both, ways]
  cases s with
  | false => rfl
  | true =>
    rw [if_pos rfl, if_pos rfl, List.findSome?_singleton]
    show (b.ways true t).head?.map _ = _
    rw [show Match.followedBy (.first t 0) = id from rfl, Option.map_id, id]

/-! ## runs of characters -/

/-- Where a run that is left sooner leads to nothing, it counts at its full length. -/
theorem findSome?_lengths {f : Nat → Option α} {least run : Nat} {most : Option Nat} {n : Nat}
    (hn : most.elim run (min run ·) = n) (hf : ∀ i, i < n → f n = none → f i = none) :
    (lengths least most run).findSome? f = if least ≤ n then f n else none := by
  rw [lengths, hn, List.range_succ, List.reverse_append, List.reverse_singleton, List.singleton_append]
  by_cases hle : least ≤ n
  · rw [if_pos hle, List.filter_cons_of_pos (by simpa using hle), List.findSome?_cons]
    cases h : f n with
    | some a => rfl
    | none =>
      refine List.findSome?_eq_none_iff.mpr fun i hi => hf i ?_ h
      exact List.mem_range.mp (List.mem_reverse.mp (List.mem_filter.mp hi).1)
  · rw [if_neg hle, List.filter_cons_of_neg (by simpa using hle)]
    refine List.findSome?_eq_none_iff.mpr fun i hi => ?_
    obtain ⟨hi, hleast⟩ := List.mem_filter.mp hi
    have hlt := List.mem_range.mp (List.mem_reverse.mp hi)
    exact absurd (of_decide_eq_true hleast) (by omega)

theorem findSome?_lengths_none {f : Nat → Option α} {least n : Nat}
    (hf : ∀ i, i < n → f n = none → f i = none) :
    (lengths least none n).findSome? f = if least ≤ n then f n else none := findSome?_lengths rfl hf

theorem first_run (p : Char → Bool) (t : Text) :
    Match.first t (t.takeWhile p).length = { covered := t.takeWhile p, rest := t.dropWhile p } := by
  have htake := @List.take_left _ (t.takeWhile p) (t.dropWhile p)
  have hdrop := @List.drop_left _ (t.takeWhile p) (t.dropWhile p)
  rw [List.takeWhile_append_dropWhile] at htake hdrop
  rw [Match.first, htake, hdrop]

/-- What is left of a run that is left too soon begins with one of its characters. -/
theorem exists_drop_of_lt {t : Text} {i : Nat} (h : i < (t.takeWhile p).length) :
    ∃ c u, t.drop i = c :: u ∧ p c = true := by
  have hi : (t.takeWhile p)[i] ∈ t.takeWhile p := List.getElem_mem h
  refine ⟨(t.takeWhile p)[i], (t.takeWhile p).drop (i + 1) ++ t.dropWhile p, ?_,
    List.all_eq_true.mp List.all_takeWhile _ hi⟩
  have hdrop := @List.drop_append_of_le_length _ (t.takeWhile p) (t.dropWhile p) i (Nat.le_of_lt h)
  rw [List.takeWhile_append_dropWhile] at hdrop
  rw [hdrop, List.drop_eq_getElem_cons h, List.cons_append]

/-- A run that has to stop before a text it cannot hold stops at its full length. -/
theorem findSome?_many {g : Match → Option α} {d : Char} {w : Text} (hd : p d = false)
    (hg : ∀ m, stripPrefix? (d :: w) m.rest = none → g m = none) (least : Nat) (s : Bool) (t : Text) :
    ((many least none p).ways s t).findSome? g = if least ≤ (t.takeWhile p).length then
      g { covered := t.takeWhile p, rest := t.dropWhile p } else none := by
  rw [ways, List.findSome?_map, findSome?_lengths_none, Function.comp_apply]
  · rw [first_run]
  · intro i hi _
    obtain ⟨c, u, hdrop, hc⟩ := exists_drop_of_lt hi
    refine hg _ ?_
    show stripPrefix? (d :: w) (t.drop i) = none
    rw [hdrop, stripPrefix?, if_neg fun h => absurd (h ▸ hd) (by rw [hc]; exact Bool.noConfusion)]

/-! ## what is left -/

/-- What the first way leaves. -/
def rest? (a : Pattern) (s : Bool) (t : Text) : Option Text := (a.ways s t).head?.map Match.rest

theorem rest?_text (u : Text) (s : Bool) (t : Text) : (text u).rest? s t = stripPrefix? u t := by
  rw [rest?, ways]
  cases stripPrefix? u t <;> rfl

theorem rest?_both (a b : Pattern) (s : Bool) (t : Text) : (both a b).rest? s t =
    (a.ways s t).findSome? fun m => b.rest? (startsBehind s m.covered) m.rest := by
  rw [rest?, head?_both, List.map_findSome?]
  congr 1
  funext m
  exact Option.map_map ..

theorem rest?_text_both (u : Text) (b : Pattern) (s : Bool) (t : Text) : (both (text u) b).rest? s t =
    (stripPrefix? u t).bind (b.rest? (startsBehind s u)) := by
  rw [rest?_both, ways]
  cases stripPrefix? u t with
  | none => rfl
  | some rest => exact List.findSome?_singleton

theorem rest?_lineStart (b : Pattern) (s : Bool) (t : Text) :
    (both lineStart b).rest? s t = if s then b.rest? true t else none := by
  rw [rest?, head?_lineStart]
  cases s <;> rfl

theorem rest?_many (least : Nat) (s : Bool) (t : Text) : (many least none p).rest? s t =
    if least ≤ (t.takeWhile p).length then some (t.dropWhile p) else none := by
  have hhead : ∀ ns : List Nat, ns.head? = ns.findSome? some := fun ns => by cases ns <;> rfl
  rw [rest?, ways, List.head?_map, hhead, findSome?_lengths_none fun _ _ h => by cases h]
  split
  · rw [Option.map_some, Option.map_some, first_run]
  · rfl

/-- A run between two marks, the latter of which does not begin with a character of the run. -/
theorem rest?_enclosed {d : Char} (hd : p d = false) (ds u : Text) (least : Nat) (s : Bool) (t : Text) :
    (both (text u) (both (many least none p) (text (d :: ds)))).rest? s t = (stripPrefix? u t).bind fun r =>
      if least ≤ (r.takeWhile p).length then stripPrefix? (d :: ds) (r.dropWhile p) else none := by
  rw [rest?_text_both]
  congr 1
  funext r
  rw [rest?_both, findSome?_many hd fun m hm => (rest?_text ..).trans hm, rest?_text]

end Pattern
end Lectern.Highlight
