import Lectern.Text.Blank

/-!
# Paths

A path is an anchor and its parts.  The anchor is empty for a relative path, one slash for an
absolute one and two slashes where exactly two were written.  Empty parts and single dots say
nothing and are dropped; two dots stay, because what they mean depends on the files.

* `Path.ofText`, `Path.toText`   reading and writing;
* `Path.join`                    a path below another one, an absolute one standing for itself;
* `Path.suffix`, `Path.withSuffix?`   the ending of the last part;
* `Path.resolve`                 the parts from the root on, with two dots worked out.
-/

namespace Lectern
open Text

structure Path where
  anchor : Text
  parts : List Text
  deriving DecidableEq

namespace Path

/-- The anchor of a path that starts with this many slashes. -/
def anchorOf (slashes : Nat) : Text :=
  if slashes = 0 then [] else if slashes = 2 then ['/', '/'] else ['/']

def ofText (t : Text) : Path :=
  ⟨anchorOf (t.takeWhile (· = '/')).length,
    (splitOn ['/'] t).filter fun p => p ≠ [] ∧ p ≠ ['.']⟩

def isAbsolute (p : Path) : Bool := !p.anchor.isEmpty

def toText (p : Path) : Text :=
  if p.anchor = [] ∧ p.parts = [] then ['.'] else p.anchor ++ Text.join ['/'] p.parts

/-- `q` seen from `p`. -/
def join (p q : Path) : Path :=
  if q.isAbsolute then q else ⟨p.anchor, p.parts ++ q.parts⟩

/-- `t` read as a path and seen from `p`. -/
def child (p : Path) (t : Text) : Path := p.join (ofText t)

/-- The last part. -/
def name (p : Path) : Text := p.parts.getLast?.getD []

def parent (p : Path) : Path := ⟨p.anchor, p.parts.dropLast⟩

/-- The number of parts, the anchor counted as one. -/
def depth (p : Path) : Nat := p.parts.length + if p.isAbsolute then 1 else 0

/-- The ending of a name: its last dot and what follows, where something stands on both sides. -/
def suffixOf (name : Text) : Text :=
  let tail := (name.reverse.takeWhile (· ≠ '.')).reverse
  if tail.length + 1 < name.length ∧ tail ≠ [] then '.' :: tail else []

def suffix (p : Path) : Text := suffixOf p.name

/-- Why a path cannot get another ending. -/
inductive SuffixError where
  | invalidSuffix (suffix : Text)
  | emptyName (path : Path)

/-- The path with its ending exchanged, or with an ending added where it has none. -/
def withSuffix (p : Path) (ending : Text) : Except SuffixError Path :=
  if ending.contains '/' ∨ (ending ≠ [] ∧ ending.head? ≠ some '.') ∨ ending = ['.'] then
    .error (.invalidSuffix ending)
  else if p.parts = [] then .error (.emptyName p)
  else
    let stem := p.name.take (p.name.length - p.suffix.length)
    .ok ⟨p.anchor, p.parts.dropLast ++ [stem ++ ending]⟩

/-- The parts from the root with every pair of dots taken back by the part before it; `done` are the
parts so far. -/
def collapse (done : List Text) : List Text → List Text
  | [] => done
  | c :: cs => if c = ['.', '.'] then collapse done.dropLast cs else collapse (done ++ [c]) cs

/-- Where a path leads from the folder with the parts `here`. -/
def resolve (here : List Text) (p : Path) : List Text :=
  collapse [] (if p.isAbsolute then p.parts else here ++ p.parts)

theorem dots_not_mem_collapse {done : List Text} (h : ['.', '.'] ∉ done) (cs : List Text) :
    ['.', '.'] ∉ collapse done cs := by
  induction cs generalizing done with
  | nil => exact h
  | cons c cs ih =>
    unfold collapse
    split
    · exact ih fun hm => h (List.dropLast_subset done hm)
    · rename_i hc
      refine ih fun hm => ?_
      rcases List.mem_append.mp hm with hm | hm
      · exact h hm
      · exact hc (List.mem_singleton.mp hm).symm

/-- Two dots are all worked out. -/
theorem dots_not_mem_resolve (here : List Text) (p : Path) : ['.', '.'] ∉ p.resolve here :=
  dots_not_mem_collapse List.not_mem_nil _

/-- The absolute path with these parts. -/
def absolute (parts : List Text) : Path := ⟨['/'], parts⟩

/-- The path as seen from the folder `base`, of which it must be a part. -/
def relativeTo? (p base : Path) : Option Path :=
  if p.anchor = base.anchor ∧ base.parts <+: p.parts then
    some ⟨[], p.parts.drop base.parts.length⟩
  else none

/-- Order of part lists, part by part. -/
def partsLe : List Text → List Text → Bool
  | [], _ => true
  | _ :: _, [] => false
  | a :: as, b :: bs => if a = b then partsLe as bs else Text.le a b

end Path
end Lectern
