import Lectern.Text.Basic

/-!
# Patterns for file names

A pattern is a list of pieces: a character that stands for itself, one that may be any, a run of any
characters, or a set in square brackets.  A set begins with an exclamation mark if it names the
characters that are not meant; a bracket that nothing closes stands for itself.

* `Glob.ofText`    a pattern from its written form;
* `Glob.accepts`   whether a whole name fits.
-/

namespace Lectern

namespace Glob

inductive Piece where
  | exactly (c : Char)
  | anyOne
  | anyRun
  /-- Characters from the ranges, or from outside of them. -/
  | oneOf (outside : Bool) (ranges : List (Char × Char))
  deriving DecidableEq

/-- The ranges written in a set: two characters with a dash between them, or a single one. -/
def rangesOf : Text → List (Char × Char)
  | a :: '-' :: b :: t => (a, b) :: rangesOf t
  | a :: t => (a, a) :: rangesOf t
  | [] => []

/-- The set that a text behind an opening bracket begins with, and its length with the closing
bracket.  A closing bracket that comes first is one of the set. -/
def set? (t : Text) : Option (Piece × Nat) :=
  let outside := t.head? = some '!'
  let body := if outside then t.drop 1 else t
  let held := match body with
    | ']' :: rest => ']' :: rest.takeWhile (· ≠ ']')
    | body => body.takeWhile (· ≠ ']')
  if held.length < body.length then
    some (.oneOf outside (rangesOf held), t.length - body.length + held.length + 1)
  else none

/-- Reads a pattern with `skip` characters of a set still to pass over. -/
def ofTextAux : Nat → Text → List Piece
  | _, [] => []
  | skip + 1, _ :: t => ofTextAux skip t
  | 0, '*' :: t => .anyRun :: ofTextAux 0 t
  | 0, '?' :: t => .anyOne :: ofTextAux 0 t
  | 0, c :: t =>
    match if c = '[' then set? t else none with
    | some (piece, length) => piece :: ofTextAux length t
    | none => .exactly c :: ofTextAux 0 t

def ofText (t : Text) : List Piece := ofTextAux 0 t

/-- The pattern fits some end of the name. -/
def acceptsEnd (accepts : Text → Bool) : Text → Bool
  | [] => accepts []
  | c :: t => accepts (c :: t) || acceptsEnd accepts t

/-- The whole name fits. -/
def accepts : List Piece → Text → Bool
  | [], t => t.isEmpty
  | .anyRun :: ps, t => acceptsEnd (accepts ps) t
  | .exactly d :: ps, c :: t => c = d && accepts ps t
  | .anyOne :: ps, _ :: t => accepts ps t
  | .oneOf outside ranges :: ps, c :: t =>
    (ranges.any fun r => decide (r.1 ≤ c) && decide (c ≤ r.2)) != outside && accepts ps t
  | _ :: _, [] => false

/-- A run of any characters before a text that holds no sign of a pattern fits the names that end in
that text. -/
theorem accepts_anyRun_exactly (s t : Text) :
    accepts (.anyRun :: s.map .exactly) t = true ↔ ∃ r, t = r ++ s := by
  have exact : ∀ s t : Text, accepts (s.map .exactly) t = true ↔ t = s := by
    intro s
    induction s with
    | nil => intro t; cases t <;> simp [accepts]
    | cons d s ih => intro t; cases t <;> simp [accepts, ih]
  induction t with
  | nil => simp [accepts, acceptsEnd, exact, eq_comm]
  | cons c t ih =>
    have step : accepts (.anyRun :: s.map .exactly) (c :: t) = true ↔
        c :: t = s ∨ accepts (.anyRun :: s.map .exactly) t = true := by
      simp [accepts, acceptsEnd, exact]
    constructor
    · intro h
      rcases step.1 h with h | h
      · exact ⟨[], by simp [h]⟩
      · obtain ⟨r, h⟩ := ih.1 h
        exact ⟨c :: r, by simp [h]⟩
    · rintro ⟨r, h⟩
      cases r with
      | nil => exact step.2 (Or.inl (by simpa using h))
      | cons d r => exact step.2 (Or.inr (ih.2 ⟨r, (List.cons.inj h).2⟩))

end Glob
end Lectern
