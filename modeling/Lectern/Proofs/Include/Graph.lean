import Lectern.Proofs.Files
import Lectern.Proofs.Include.Reference
import Mathlib.Logic.Relation

/-!
# The graph of includes

The places of the files are the points of a graph, and a file points to the places its references
name, seen from its own folder.

* `Names`         a text names a place, its references seen from a folder;
* `Includes`      the arrows between places;
* `Reached`       the places to which a text leads;
* `LeadsToCycle`  one of them leads back to itself;
* `AllFound`      every reference on the way is to a file that can be read;
* `Expands`       the text with every reference exchanged for the expansion of its file, and all
                  else as it was.

A text has at most one expansion (`Expands.unique`), and none if it leads to a cycle
(`Expands.not_leadsToCycle`): the expansion of a file has the expansions of all it includes inside.
-/

namespace Lectern.Include
open Text Relation

/-- The folder in which the file at a place lies. -/
def folderOf (place : List Text) : Path := Path.absolute place.dropLast

def Names (here : List Text) (folder : Path) (t : Text) (place : List Text) : Prop :=
  ∃ path, Refers t path ∧ target here folder path = place

def Includes (files : FileTree) (here : List Text) (a b : List Text) : Prop :=
  ∃ text, files.HasText a text ∧ Names here (folderOf a) text b

def Reached (files : FileTree) (here : List Text) (folder : Path) (t : Text)
    (place : List Text) : Prop :=
  ∃ root, Names here folder t root ∧ ReflTransGen (Includes files here) root place

def LeadsToCycle (files : FileTree) (here : List Text) (folder : Path) (t : Text) : Prop :=
  ∃ a, Reached files here folder t a ∧ TransGen (Includes files here) a a

/-- A reference is to a file that can be read as text.  What holds a zero character is the path of no
file. -/
structure Found (files : FileTree) (here : List Text) (folder : Path) (path : Text) : Prop where
  isPath : (folder.child (strip path)).toText.contains (Char.ofNat 0) = false
  read : ∃ text, files.readText here (Path.absolute (target here folder path)) = .ok text

structure AllFound (files : FileTree) (here : List Text) (folder : Path) (t : Text) : Prop where
  direct : ∀ {path}, Refers t path → Found files here folder path
  within : ∀ {place text path}, Reached files here folder t place → files.HasText place text →
    Refers text path → Found files here (folderOf place) path

inductive Expands (files : FileTree) (here : List Text) : Path → Text → Text → Prop where
  | plain {folder : Path} {t : Text} (h : NoReference t) : Expands files here folder t t
  | reference {folder : Path} {t before path rest text inner after : Text}
      (h : FirstReference t before path rest)
      (file : files.HasText (target here folder path) text)
      (there : Expands files here (folderOf (target here folder path)) text inner)
      (behind : Expands files here folder rest after) :
      Expands files here folder t (before ++ inner ++ after)

section
variable {files : FileTree} {here : List Text} {folder : Path} {t before path rest : Text}
  {place : List Text}

/-- What a folder says about a reference is the place it leads to. -/
theorem target_congr {folder' : Path} (h : folder.resolve here = folder'.resolve here)
    (path : Text) : target here folder path = target here folder' path := by
  rw [target, target, Path.child, Path.child, Path.resolve_join, Path.resolve_join, h]

theorem folderOf_resolve {a : List Text} (hdots : ['.', '.'] ∉ a) (here : List Text) :
    (folderOf a).resolve here = a.dropLast :=
  Path.resolve_absolute (fun hm => hdots (List.dropLast_subset a hm)) here

theorem dots_not_mem_target : ['.', '.'] ∉ target here folder path :=
  Path.dots_not_mem_resolve here _

theorem Found.hasText (h : Found files here folder path) :
    ∃ text, files.readText here (Path.absolute (target here folder path)) = .ok text ∧
      files.HasText (target here folder path) text := by
  obtain ⟨text, hread⟩ := h.read
  exact ⟨text, hread, FileTree.hasText_of_readText dots_not_mem_target hread⟩

theorem found_iff : Found files here folder path ↔
    (folder.child (strip path)).toText.contains (Char.ofNat 0) = false ∧
      (files.readText here (Path.absolute (target here folder path))).isOk = true := by
  have hok : ∀ r : Except FileTree.ReadError Text, r.isOk = true ↔ ∃ text, r = .ok text := by
    rintro (e | text) <;> simp [Except.isOk, Except.toBool]
  rw [hok]
  exact ⟨fun h => ⟨h.isPath, h.read⟩, fun h => ⟨h.1, h.2⟩⟩

instance : Decidable (Found files here folder path) := decidable_of_iff _ found_iff.symm

/-! ## the places a text names -/

theorem not_names_of_noReference (h : NoReference t) : ¬ Names here folder t place := by
  rintro ⟨path, hp, -⟩
  cases hp with
  | first hf => exact hf.not_noReference h
  | later hf _ => exact hf.not_noReference h

theorem FirstReference.names (h : FirstReference t before path rest) :
    Names here folder t (target here folder path) :=
  ⟨path, .first h, rfl⟩

/-- A text names what its first reference names, and what is named behind it. -/
theorem FirstReference.names_iff (h : FirstReference t before path rest) :
    Names here folder t place ↔ place = target here folder path ∨ Names here folder rest place := by
  constructor
  · rintro ⟨p, hp, rfl⟩
    cases hp with
    | first hf => exact .inl (by rw [(h.unique hf).2.1])
    | later hf more => exact .inr ⟨p, (h.unique hf).2.2 ▸ more, rfl⟩
  · rintro (rfl | ⟨p, hp, rfl⟩)
    · exact h.names
    · exact ⟨p, .later h hp, rfl⟩

theorem FirstReference.reached (h : FirstReference t before path rest)
    (hp : Reached files here folder rest place) : Reached files here folder t place := by
  obtain ⟨root, hroot, hr⟩ := hp
  exact ⟨root, h.names_iff.mpr (.inr hroot), hr⟩

theorem FirstReference.leadsToCycle (h : FirstReference t before path rest)
    (hc : LeadsToCycle files here folder rest) : LeadsToCycle files here folder t := by
  obtain ⟨a, ha, hcycle⟩ := hc
  exact ⟨a, h.reached ha, hcycle⟩

theorem FirstReference.allFound (h : FirstReference t before path rest)
    (hall : AllFound files here folder t) : AllFound files here folder rest :=
  ⟨fun hp => hall.direct (.later h hp), fun hp => hall.within (h.reached hp)⟩

/-- It is enough to look at a list of files that includes nothing else. -/
theorem AllFound.of_closed (shelf : List (List Text × Text))
    (htexts : ∀ e ∈ shelf, files.HasText e.1 e.2)
    (hdirect : ∀ path ∈ (cut t.length t).2.map Prod.fst,
      Found files here folder path ∧ target here folder path ∈ shelf.map Prod.fst)
    (hwithin : ∀ e ∈ shelf, ∀ path ∈ (cut e.2.length e.2).2.map Prod.fst,
      Found files here (folderOf e.1) path ∧
        target here (folderOf e.1) path ∈ shelf.map Prod.fst) :
    AllFound files here folder t := by
  have hentry : ∀ {place text}, place ∈ shelf.map Prod.fst → files.HasText place text →
      (place, text) ∈ shelf := by
    intro place text hm htext
    obtain ⟨e, he, rfl⟩ := List.mem_map.mp hm
    exact htext.unique (htexts e he) ▸ he
  have hreached : ∀ {place}, Reached files here folder t place → place ∈ shelf.map Prod.fst := by
    rintro place ⟨root, ⟨path, hp, rfl⟩, hreach⟩
    induction hreach with
    | refl => exact (hdirect path ((refers_iff t path).mp hp)).2
    | tail _ hstep ih =>
      obtain ⟨text, htext, p, hp, rfl⟩ := hstep
      exact (hwithin _ (hentry ih htext) p ((refers_iff text p).mp hp)).2
  refine ⟨fun hp => (hdirect _ ((refers_iff t _).mp hp)).1, fun hplace htext hp => ?_⟩
  exact (hwithin _ (hentry (hreached hplace) htext) _ ((refers_iff _ _).mp hp)).1

/-! ## the places a file names -/

section
variable {a : List Text} {text : Text} (hfolder : folder.resolve here = a.dropLast)
  (hdots : ['.', '.'] ∉ a) (htext : files.HasText a text)
include hfolder hdots htext

/-- A file includes what its text names, whichever way its folder is written. -/
theorem includes_iff_names : Includes files here a place ↔ Names here folder text place := by
  have hsame : ∀ path, target here (folderOf a) path = target here folder path :=
    target_congr ((folderOf_resolve hdots here).trans hfolder.symm)
  constructor
  · rintro ⟨text', htext', path, hp, rfl⟩
    exact ⟨path, htext.unique htext' ▸ hp, (hsame path).symm⟩
  · rintro ⟨path, hp, rfl⟩
    exact ⟨text, htext, path, hp, hsame path⟩

theorem leadsToCycle_iff : LeadsToCycle files here folder text ↔
    ∃ b, ReflTransGen (Includes files here) a b ∧ TransGen (Includes files here) b b := by
  have hnames {place} : Includes files here a place ↔ Names here folder text place :=
    includes_iff_names hfolder hdots htext
  constructor
  · rintro ⟨b, ⟨root, hroot, hreach⟩, hcycle⟩
    exact ⟨b, hreach.head (hnames.mpr hroot), hcycle⟩
  · rintro ⟨b, hreach, hcycle⟩
    obtain ⟨root, hroot, hreach⟩ := TransGen.head'_iff.mp (TransGen.trans_right hreach hcycle)
    exact ⟨b, ⟨root, hnames.mp hroot, hreach⟩, hcycle⟩

end

/-! ## inside a file -/

section
variable {text : Text} (h : FirstReference t before path rest)
  (htext : files.HasText (target here folder path) text)
include h htext

/-- What the first file leads to, the text leads to. -/
theorem FirstReference.reached_inside
    (hp : Reached files here (folderOf (target here folder path)) text place) :
    Reached files here folder t place := by
  obtain ⟨root, hroot, hr⟩ := hp
  exact ⟨_, h.names, hr.head ⟨text, htext, hroot⟩⟩

theorem FirstReference.leadsToCycle_inside
    (hc : LeadsToCycle files here (folderOf (target here folder path)) text) :
    LeadsToCycle files here folder t := by
  obtain ⟨a, ha, hcycle⟩ := hc
  exact ⟨a, h.reached_inside htext ha, hcycle⟩

theorem FirstReference.allFound_inside (hall : AllFound files here folder t) :
    AllFound files here (folderOf (target here folder path)) text :=
  ⟨fun hp => hall.within ⟨_, h.names, .refl⟩ htext hp,
    fun hp => hall.within (h.reached_inside htext hp)⟩

end

/-! ## expansions -/

theorem Expands.unique {r r' : Text} (h : Expands files here folder t r)
    (h' : Expands files here folder t r') : r = r' := by
  induction h generalizing r' with
  | plain hn =>
    cases h' with
    | plain => rfl
    | reference hf => exact absurd hn hf.not_noReference
  | reference hf file there behind ihThere ihBehind =>
    cases h' with
    | plain hn => exact absurd hn hf.not_noReference
    | reference hf' file' there' behind' =>
      obtain ⟨rfl, rfl, rfl⟩ := hf.unique hf'
      obtain rfl := file.unique file'
      rw [ihThere there', ihBehind behind']

theorem Expands.not_leadsToCycle {r : Text} (h : Expands files here folder t r) :
    ¬ LeadsToCycle files here folder t := by
  induction h with
  | plain hn =>
    rintro ⟨a, ⟨root, hroot, -⟩, -⟩
    exact not_names_of_noReference hn hroot
  | reference hf file there behind ihThere ihBehind =>
    rintro ⟨a, ⟨root, hroot, hreach⟩, hcycle⟩
    rcases hf.names_iff.mp hroot with rfl | hroot
    · exact ihThere ((leadsToCycle_iff (folderOf_resolve dots_not_mem_target here)
        dots_not_mem_target file).mpr ⟨a, hreach, hcycle⟩)
    · exact ihBehind ⟨a, ⟨root, hroot, hreach⟩, hcycle⟩

end

end Lectern.Include
