import Lectern.Slides.Quantity
import Mathlib.Algebra.Order.Field.Basic
import Mathlib.Algebra.Order.Field.Rat
import Mathlib.Data.List.Chain
import Mathlib.Tactic.Linarith

/-!
# Exact times, and times in order

The numbers of an ordered field and one that is undefined, as a `Quantity`: nothing is rounded,
what is made of something undefined is undefined, and an undefined number is less than none.  What
holds of times over these holds of the protocol itself, whatever rounding adds to it.  Slides that
appear one after the other are a list of such times.

* `Exact K`             the numbers of `K` and an undefined one;
* `nums`                a list of defined numbers;
* `firstAfter`          where the first time after a bound stands;
* `lt_firstAfter_iff`, `firstAfter_eq_countP`   what stands before it;
* `ShownAt`             the slide that is due at a bound, said without any search;
* `shownAt_firstAfter`  the slide before the first one after the bound is due;
* `shownAt_start`       where slides appear far enough apart, each is due at its own time.
-/

namespace Lectern

inductive Exact (K : Type) where
  | num (x : K)
  | undefined
  deriving DecidableEq

namespace Exact
open Quantity
variable {K : Type}

def map (f : K → K) : Exact K → Exact K
  | num x => num (f x)
  | undefined => undefined

def map₂ (f : K → K → K) : Exact K → Exact K → Exact K
  | num x, num y => num (f x y)
  | _, _ => undefined

/-- Both are defined and stand in a relation. -/
def both (p : K → K → Bool) : Exact K → Exact K → Bool
  | num x, num y => p x y
  | _, _ => false

def isNum : Exact K → Bool
  | num _ => true
  | undefined => false

/-- The numbers of a list, all defined. -/
def nums (xs : List K) : List (Exact K) := xs.map num

theorem length_nums (xs : List K) : (nums xs).length = xs.length := List.length_map _

theorem nums_append (xs ys : List K) : nums (xs ++ ys) = nums xs ++ nums ys := List.map_append

section
variable [Field K] [LinearOrder K]

instance : Quantity (Exact K) where
  zero := num 0
  undefined := undefined
  add := map₂ (· + ·)
  sub := map₂ (· - ·)
  neg := map (- ·)
  div? x y := if y = num 0 then none else some (map₂ (· / ·) x y)
  less := both fun x y => decide (x < y)
  same := both fun x y => decide (x = y)
  isUndefined x := !x.isNum
  isFinite := isNum

@[simp] theorem add_num (x y : K) : add (num x) (num y) = num (x + y) := rfl
@[simp] theorem sub_num (x y : K) : sub (num x) (num y) = num (x - y) := rfl
@[simp] theorem less_num (x y : K) : less (num x) (num y) = decide (x < y) := rfl

end
end Exact
end Lectern

/-! ## times in order -/

set_option linter.unusedSectionVars false

namespace Lectern.Slides

variable {K : Type} [Field K] [LinearOrder K]

/-- Where the first time after a bound stands; how many times there are if none is after it. -/
def firstAfter (times : List K) (bound : K) : Nat := times.findIdx fun t => decide (bound < t)

theorem firstAfter_le (times : List K) (bound : K) : firstAfter times bound ≤ times.length :=
  List.findIdx_le_length

/-- In a list in order, the entries up to a bound stand before the first that is greater. -/
theorem lt_firstAfter_iff {times : List K} (hsorted : times.Pairwise (· ≤ ·)) (bound : K) {i : Nat}
    (hi : i < times.length) : i < firstAfter times bound ↔ times[i] ≤ bound := by
  rw [firstAfter, List.lt_findIdx_iff]
  constructor
  · rintro ⟨_, h⟩
    exact not_lt.mp (of_decide_eq_false (h i le_rfl))
  · intro h
    refine ⟨hi, fun j hj => decide_eq_false (not_lt.mpr ?_)⟩
    rcases Nat.eq_or_lt_of_le hj with rfl | hlt
    · exact h
    · exact (List.pairwise_iff_getElem.mp hsorted j i (by omega) hi hlt).trans h

/-- In a list in order, so many entries stand before the first after a bound as are not after it. -/
theorem firstAfter_eq_countP {times : List K} (hsorted : times.Pairwise (· ≤ ·)) (bound : K) :
    firstAfter times bound = times.countP fun t => decide (t ≤ bound) := by
  unfold firstAfter
  induction times with
  | nil => rfl
  | cons t ts ih =>
    obtain ⟨hfirst, hrest⟩ := List.pairwise_cons.mp hsorted
    by_cases h : bound < t
    · have hnone : ts.countP (fun u => decide (u ≤ bound)) = 0 := by
        rw [List.countP_eq_zero]
        intro u hu hle
        exact absurd (h.trans_le (hfirst u hu)) (not_lt.mpr (of_decide_eq_true hle))
      rw [List.findIdx_cons, List.countP_cons_of_neg (by simpa using h), hnone, decide_eq_true h]
      rfl
    · rw [List.findIdx_cons, List.countP_cons_of_pos (by simpa using h), ← ih hrest,
        decide_eq_false h]
      rfl

/-! ## the slide of a position -/

/-- The slide that is due at a bound: the last that appears by then, or the first one if none
does. -/
def ShownAt (times : List K) (bound : K) (k : Nat) : Prop :=
  (∃ h : k < times.length, times[k] ≤ bound ∧
    ∀ i (hi : i < times.length), k < i → bound < times[i]) ∨
  (k = 0 ∧ ∀ t ∈ times, bound < t)

theorem shownAt_firstAfter {times : List K} (hsorted : times.Pairwise (· ≤ ·)) (bound : K) :
    ShownAt times bound (firstAfter times bound - 1) := by
  have hle := firstAfter_le times bound
  have hiff : ∀ i (hi : i < times.length), i < firstAfter times bound ↔ times[i] ≤ bound :=
    fun _ => lt_firstAfter_iff hsorted bound
  generalize firstAfter times bound = n at hle hiff
  cases n with
  | zero =>
    refine .inr ⟨rfl, fun t ht => ?_⟩
    obtain ⟨i, hi, rfl⟩ := List.getElem_of_mem ht
    exact not_le.mp fun h => Nat.not_lt_zero i ((hiff i hi).mpr h)
  | succ n =>
    refine .inl ⟨hle, (hiff n hle).mp (Nat.lt_succ_self n), fun i hi hlt => ?_⟩
    exact not_le.mp fun h => by
      have := (hiff i hi).mpr h
      omega

section
variable [IsStrictOrderedRing K] {times : List K} {epsilon : K}

/-- Away from the positions at which a slide is exactly due, "due after less than `epsilon`" is what
"not after the position by more than `epsilon`" says. -/
theorem sub_lt_iff_lt_firstAfter (hsorted : times.Pairwise (· ≤ ·)) {p : K}
    (hp : ∀ t ∈ times, p ≠ t - epsilon) {i : Nat} (hi : i < times.length) :
    times[i] - epsilon < p ↔ i < firstAfter times (p + epsilon) := by
  have hne := hp times[i] (List.getElem_mem hi)
  rw [lt_firstAfter_iff hsorted _ hi]
  constructor
  · intro h
    linarith
  · intro h
    exact lt_of_le_of_ne (by linarith) (Ne.symm hne)

/-! ## times far enough apart -/

theorem pairwise_gap (heps : 0 ≤ epsilon) (hgaps : times.IsChain fun a b => epsilon < b - a) :
    times.Pairwise fun a b => epsilon < b - a := by
  have htrans : ∀ a b c : K, epsilon < b - a → epsilon < c - b → epsilon < c - a :=
    fun a b c h1 h2 => by linarith
  have : Trans (fun a b : K => epsilon < b - a) (fun a b : K => epsilon < b - a)
    (fun a b : K => epsilon < b - a) := ⟨fun h1 h2 => htrans _ _ _ h1 h2⟩
  exact hgaps.pairwise

theorem sorted_of_gaps (heps : 0 ≤ epsilon) (hgaps : times.IsChain fun a b => epsilon < b - a) :
    times.Pairwise (· ≤ ·) :=
  (pairwise_gap heps hgaps).imp fun h => by linarith

theorem shownAt_start (heps : 0 ≤ epsilon) (hgaps : times.IsChain fun a b => epsilon < b - a)
    {k : Nat} (hk : k < times.length) : ShownAt times (times[k] + epsilon) k := by
  refine .inl ⟨hk, by linarith, fun i hi hlt => ?_⟩
  have := List.pairwise_iff_getElem.mp (pairwise_gap heps hgaps) k i hk hi hlt
  linarith

end

end Lectern.Slides
