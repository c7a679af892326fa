import Lectern.Page.Structure
import Lectern.Proofs.Html.Elements

/-!
# The documents that are accepted

The elements that a document holds directly spell a word, one letter for each of them.  What the word
begins with, and the number of headings in the whole document, decide whether it is accepted.

* `Letter`, `letter`, `word`   the word of a document;
* `BehindAlerts`, `Opening`    the words of the documents that begin as they should;
* `mayOpen_iff`         the scan over the elements accepts those words and no others;
* `heading?_eq_ok_iff`  an accepted document, and its heading;
* `accepts_openings`    which documents are accepted, and what is said of the others.
-/

namespace Lectern.Page
open Html Node

/-! ## the word of a document -/

/-- What an element is to the shape of its document. -/
inductive Letter where
  | alert
  | paragraph
  | heading
  | other
  deriving DecidableEq

def letter (n : Node) : Letter :=
  if isParagraph n then if n.hasClass "alert" then .alert else .paragraph
  else if isHeading n then .heading
  else .other

/-- One letter for each element that a document holds directly. -/
def word (body : Node) : List Letter := (body.children.filter isElement).map letter

/-- Any number of alerts, a letter, and something of a kind. -/
def BehindAlerts (l : Letter) (R : List Letter → Prop) (w : List Letter) : Prop :=
  ∃ m rest, w = List.replicate m .alert ++ l :: rest ∧ R rest

/-- A heading behind any number of alerts, or behind one paragraph among them. -/
def Opening (w : List Letter) : Prop :=
  BehindAlerts .heading (fun _ => True) w ∨
    BehindAlerts .paragraph (BehindAlerts .heading fun _ => True) w

section
variable {l x : Letter} {R : List Letter → Prop} {w : List Letter}

theorem not_behindAlerts_nil : ¬ BehindAlerts x R [] := by
  rintro ⟨m, rest, h, -⟩
  exact absurd h (List.append_ne_nil_of_right_ne_nil _ (List.cons_ne_nil _ _)).symm

theorem behindAlerts_alert (hx : x ≠ .alert) : BehindAlerts x R (.alert :: w) ↔ BehindAlerts x R w := by
  constructor
  · rintro ⟨m, rest, h, hrest⟩
    cases m with
    | zero => exact absurd (List.cons.inj h).1.symm hx
    | succ m => exact ⟨m, rest, (List.cons.inj h).2, hrest⟩
  · rintro ⟨m, rest, rfl, hrest⟩
    exact ⟨m + 1, rest, rfl, hrest⟩

theorem behindAlerts_cons (hl : l ≠ .alert) : BehindAlerts x R (l :: w) ↔ l = x ∧ R w := by
  constructor
  · rintro ⟨m, rest, h, hrest⟩
    cases m with
    | zero =>
      obtain ⟨rfl, rfl⟩ := List.cons.inj h
      exact ⟨rfl, hrest⟩
    | succ m => exact absurd (List.cons.inj h).1 hl
  · rintro ⟨rfl, hw⟩
    exact ⟨0, w, rfl, hw⟩

end

/-! ## the scan -/

section
variable {n : Node} {ns : List Node}

theorem mem_elements_self (h : n.isElement = true) : n ∈ n.elements := by
  cases n with
  | element tag cs => exact List.mem_cons_self
  | _ => cases h

theorem isHeading_of_isParagraph (h : isParagraph n = true) : isHeading n = false := by
  have hname : n.name? = some "p".toList := of_decide_eq_true h
  rw [isHeading, isNamed, hname]
  rfl

theorem letter_eq_alert_iff : letter n = .alert ↔ isAlert n = true := by
  rw [letter, isAlert]
  cases isParagraph n <;> cases n.hasClass "alert" <;> cases isHeading n <;> decide

theorem letter_eq_heading_iff : letter n = .heading ↔ isHeading n = true := by
  rw [letter]
  cases hp : isParagraph n with
  | true =>
    rw [isHeading_of_isParagraph hp]
    cases n.hasClass "alert" <;> decide
  | false => cases isHeading n <;> simp

theorem letter_eq_paragraph_iff (ha : isAlert n = false) : letter n = .paragraph ↔ isParagraph n = true := by
  rw [isAlert] at ha
  rw [letter]
  cases hp : isParagraph n with
  | true =>
    rw [hp, Bool.true_and] at ha
    rw [ha]
    exact ⟨fun _ => rfl, fun _ => rfl⟩
  | false => cases isHeading n <;> simp

theorem skipAlerts_cons_of_alert (h : isAlert n = true) : skipAlerts (n :: ns) = skipAlerts ns :=
  List.dropWhile_cons_of_pos h

theorem skipAlerts_cons (h : isAlert n = false) : skipAlerts (n :: ns) = n :: ns :=
  List.dropWhile_cons_of_neg (Bool.eq_false_iff.mp h)

/-- The first of some elements that is no alert is a heading. -/
theorem head_skipAlerts_iff :
    (skipAlerts ns).head?.any isHeading = true ↔ BehindAlerts .heading (fun _ => True) (ns.map letter) := by
  induction ns with
  | nil => exact ⟨nofun, fun h => absurd h not_behindAlerts_nil⟩
  | cons n ns ih =>
    rw [List.map_cons]
    cases ha : isAlert n with
    | true =>
      rw [skipAlerts_cons_of_alert ha, letter_eq_alert_iff.mpr ha, ih]
      exact (behindAlerts_alert (by decide)).symm
    | false =>
      have hl : letter n ≠ .alert := fun e => absurd (ha.symm.trans (letter_eq_alert_iff.mp e)) nofun
      rw [skipAlerts_cons ha, behindAlerts_cons hl, letter_eq_heading_iff, and_true]
      rfl

theorem mayOpen_iff : mayOpen ns = true ↔ Opening (ns.map letter) := by
  induction ns with
  | nil => exact ⟨nofun, fun h => h.elim (absurd · not_behindAlerts_nil) (absurd · not_behindAlerts_nil)⟩
  | cons n ns ih =>
    rw [List.map_cons]
    cases ha : isAlert n with
    | true =>
      rw [mayOpen, skipAlerts_cons_of_alert ha, letter_eq_alert_iff.mpr ha]
      exact ih.trans (or_congr (behindAlerts_alert (by decide)).symm (behindAlerts_alert (by decide)).symm)
    | false =>
      have hl : letter n ≠ .alert := fun e => absurd (ha.symm.trans (letter_eq_alert_iff.mp e)) nofun
      rw [mayOpen, skipAlerts_cons ha, Opening, behindAlerts_cons hl, behindAlerts_cons hl, letter_eq_heading_iff,
        letter_eq_paragraph_iff ha, ← head_skipAlerts_iff, and_true, Bool.or_eq_true, Bool.and_eq_true]

/-- In what may open a document there is a heading. -/
theorem exists_heading (h : mayOpen ns = true) : ∃ n ∈ ns, isHeading n = true := by
  have hmem {w : List Letter} (hw : BehindAlerts .heading (fun _ => True) w) : .heading ∈ w := by
    obtain ⟨m, rest, rfl, -⟩ := hw
    exact List.mem_append_right _ List.mem_cons_self
  have hword : .heading ∈ ns.map letter := by
    rcases mayOpen_iff.mp h with hw | ⟨m, rest, e, hw⟩
    · exact hmem hw
    · rw [e]
      exact List.mem_append_right _ (List.mem_cons_of_mem _ (hmem hw))
  obtain ⟨n, hn, e⟩ := List.mem_map.mp hword
  exact ⟨n, hn, letter_eq_heading_iff.mp e⟩

end

/-! ## what is accepted -/

theorem heading?_eq_ok_iff {body h : Node} :
    heading? body = .ok h ↔ body.descendants.filter isHeading = [h] ∧ Opening (word body) := by
  have hopen : mayOpen (body.children.filter isElement) = true ↔ Opening (word body) := mayOpen_iff
  rw [← hopen, heading?]
  split
  · next h' hone =>
    rw [hone, List.singleton_inj]
    split
    · next ho => rw [Except.ok.injEq, ho, and_iff_left rfl]
    · next ho => exact ⟨nofun, fun e => absurd e.2 ho⟩
  · next hone => exact ⟨nofun, fun e => absurd e.1 (hone h)⟩

/-- The heading of an accepted document is held by the document itself. -/
theorem mem_children_of_heading? {body h : Node} (hh : heading? body = .ok h) : h ∈ body.children := by
  obtain ⟨hone, hopen⟩ := heading?_eq_ok_iff.mp hh
  obtain ⟨n, hn, hheading⟩ := exists_heading (mayOpen_iff.mpr hopen)
  obtain ⟨hchild, helement⟩ := List.mem_filter.mp hn
  have hdescends : n ∈ body.descendants.filter isHeading :=
    List.mem_filter.mpr ⟨mem_elementsAll.mpr ⟨n, hchild, mem_elements_self helement⟩, hheading⟩
  rw [hone] at hdescends
  obtain rfl := List.mem_singleton.mp hdescends
  exact hchild

theorem heading?_eq_error {body : Node} {e : StructureFault} (h : heading? body = .error e) :
    e = if (body.descendants.filter isHeading).length = 1 then .opening
      else .headings (body.descendants.filter isHeading).length := by
  rw [heading?] at h
  split at h
  · next h' hone =>
    split at h
    · cases h
    · rw [hone]
      exact (Except.error.inj h).symm
  · next hone =>
    rw [if_neg fun hl => by
      obtain ⟨h', e⟩ := List.length_eq_one_iff.mp hl
      exact hone h' e]
    exact (Except.error.inj h).symm

/-- **Which documents are accepted.**  Those with exactly one heading, at any depth, in which a heading
stands behind alerts only, or behind one paragraph among alerts.  The answer is the heading, which the
document holds directly.  Of every other document it is said what is wrong: the number of headings if it
is not one, or else the opening. -/
theorem accepts_openings (body : Node) :
    ((∃ h, heading? body = .ok h) ↔
        (body.descendants.filter isHeading).length = 1 ∧ Opening (word body)) ∧
      (∀ h, heading? body = .ok h → body.descendants.filter isHeading = [h] ∧ h ∈ body.children) ∧
      (¬ ((body.descendants.filter isHeading).length = 1 ∧ Opening (word body)) →
        heading? body = .error (if (body.descendants.filter isHeading).length = 1 then .opening
          else .headings (body.descendants.filter isHeading).length)) := by
  have haccepted : (∃ h, heading? body = .ok h) ↔
      (body.descendants.filter isHeading).length = 1 ∧ Opening (word body) := by
    rw [List.length_eq_one_iff, ← exists_and_right]
    exact exists_congr fun h => heading?_eq_ok_iff
  refine ⟨haccepted, fun h hh => ⟨(heading?_eq_ok_iff.mp hh).1, mem_children_of_heading? hh⟩, fun hnot => ?_⟩
  cases hr : heading? body with
  | ok h => exact absurd (haccepted.mp ⟨h, hr⟩) hnot
  | error e => rw [heading?_eq_error hr]

/-- A paragraph among alerts, the heading, and a table behind it. -/
theorem accepts_openings_among_alerts :
    let p : Node := .element (.of "p" []) []
    let alert : Node := .element (.of "p" [("class", "small alert")]) []
    let h : Node := .element (.of "h1" []) [.text "Title"]
    let body : Node := .element (.of "body" []) [.text "\n", alert, p, alert, h, .element (.of "table" []) []]
    heading? body = .ok h ∧ h ∈ body.children := by
  intro p alert h body
  have hone : body.descendants.filter isHeading = [h] := by rfl
  have hword : word body = [.alert, .paragraph, .alert, .heading, .other] := by decide +kernel
  have hopening : Opening (word body) := .inr ⟨1, _, hword, 1, _, rfl, trivial⟩
  obtain ⟨haccepted, hheading, -⟩ := accepts_openings body
  obtain ⟨h', hh'⟩ := haccepted.mpr ⟨congrArg List.length hone, hopening⟩
  obtain ⟨hone', hchild⟩ := hheading h' hh'
  obtain rfl : h = h' := List.singleton_inj.mp (hone.symm.trans hone')
  exact ⟨hh', hchild⟩

end Lectern.Page
