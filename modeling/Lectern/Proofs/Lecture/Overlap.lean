import Lectern.Proofs.Lecture.Session
import Lectern.Proofs.Times

/-!
# Moves that overlap

Every move that is accepted makes the lecture seek, and the notification of that seek is to change
nothing.  The lecture remembers that it waits, but not for how many notifications.  A move made
while it waits therefore leaves one notification that it will take for a user's, and that takes the
reader to the slide of the position: without times, away from the slide that was asked for.

* `Occurrence.isMove`, `Session.move?`   moves, and where they lead;
* `Session.mistakes`       the notifications that are taken for a user's;
* `Session.overlaps`       the accepted moves made while the lecture still waits;
* `mistakes_add_pending`   every overlap is a mistake made or still to be made;
* `chosen`, `index_run`    the slide that was asked for, which is shown as long as no mistake is made;
* `mistakes_eq_overlaps`   when no notification is to come, both numbers are the same;
* `move_undone`            a move of which nothing is left.
-/

set_option linter.unusedSectionVars false

namespace Lectern.Slides
open Quantity

variable {τ : Type}

/-! ## moves -/

/-- The reader is asked to show another slide. -/
def Occurrence.isMove : Occurrence τ → Bool
  | .next | .previous | .jump _ => true
  | .ended | .scrub _ | .busy _ | .notify => false

/-- Nothing but moves and notifications: nobody touches the video, and it does not play. -/
def Undisturbed (occs : List (Occurrence τ)) : Prop :=
  ∀ o ∈ occs, o.isMove = true ∨ o = .notify

/-- The slide that is asked for, where another one was asked for before; a move that leads nowhere
asks for nothing. -/
def Occurrence.choose (count shown : Nat) : Occurrence τ → Nat
  | .next => min (shown + 1) (count - 1)
  | .previous => shown - 1
  | .jump index => if 0 ≤ index ∧ index < count then index.toNat else shown
  | _ => shown

/-- The slide that the last accepted move asked for. -/
def chosen (count first : Nat) (occs : List (Occurrence τ)) : Nat :=
  occs.foldl (fun shown o => o.choose count shown) first

theorem Reader.index_show?_getD (r : Reader τ) (i : Int) :
    ((r.show? i).getD r).index =
      if 0 ≤ i ∧ i < r.slides.length then i.toNat else r.index := by
  unfold Reader.show?
  split <;> rfl

variable [Quantity τ]

namespace Session

/-- The reader after a move that is accepted. -/
def move? (s : Session τ) : Occurrence τ → Option (Reader τ)
  | .next => s.lecture.reader.next?
  | .previous => s.lecture.reader.previous?
  | .jump index => s.lecture.reader.show? index
  | _ => none

/-- The lecture takes what happens for a seek of the user. -/
def isMistake (s : Session τ) (o : Occurrence τ) : Bool :=
  match o with
  | .notify => 0 < s.pending && s.told.seeked.1
  | _ => false

/-- A move is accepted while the lecture waits for a notification. -/
def isOverlap (s : Session τ) (o : Occurrence τ) : Bool :=
  (s.move? o).isSome && s.lecture.phase = .awaiting

/-- How many moments of a run are of a kind. -/
def count (kind : Session τ → Occurrence τ → Bool) (s : Session τ) : List (Occurrence τ) → Nat
  | [] => 0
  | o :: occs => (kind s o).toNat + count kind (s.act o) occs

def mistakes (s : Session τ) (occs : List (Occurrence τ)) : Nat := s.count isMistake occs

def overlaps (s : Session τ) (occs : List (Occurrence τ)) : Nat := s.count isOverlap occs

variable {s : Session τ} {o : Occurrence τ}

theorem act_of_isMove (h : o.isMove = true) :
    s.act o = s.ask (s.lecture.navigate (s.move? o)) := by
  cases o with
  | next => rfl
  | previous => rfl
  | jump index => rfl
  | ended => exact absurd h Bool.false_ne_true
  | scrub position => exact absurd h Bool.false_ne_true
  | busy seeking => exact absurd h Bool.false_ne_true
  | notify => exact absurd h Bool.false_ne_true

/-- A move that leads nowhere changes nothing. -/
theorem act_of_rejected (h : o.isMove = true) (hm : s.move? o = none) : s.act o = s := by
  rw [act_of_isMove h, hm]
  rfl

theorem act_of_accepted (h : o.isMove = true) {r : Reader τ} (hm : s.move? o = some r) :
    s.act o = ⟨s.lecture.followMove r, s.pending + 1⟩ := by
  rw [act_of_isMove h, hm]
  rfl

theorem isMistake_of_isMove (h : o.isMove = true) : s.isMistake o = false := by
  cases o with
  | notify => exact absurd h Bool.false_ne_true
  | _ => rfl

/-! ## one moment -/

/-- A notification that the lecture waits for is no mistake. -/
theorem notify_of_awaiting (h : s.lecture.phase = .awaiting) (hpos : 0 < s.pending) :
    s.act .notify = ⟨{ s.told with phase := .idle }, s.pending - 1⟩ ∧
      s.isMistake .notify = false := by
  have hseeked : s.told.seeked = (false, { s.told with phase := .idle }) :=
    Lecture.seeked_of_awaiting h
  rw [act_notify_of_pos hpos, hseeked]
  refine ⟨rfl, ?_⟩
  unfold isMistake
  rw [hseeked]
  exact Bool.and_false _

/-- Any other one is. -/
theorem notify_of_idle (h : s.lecture.phase = .idle) (hpos : 0 < s.pending) :
    (s.act .notify).pending = s.pending - 1 ∧ (s.act .notify).lecture.phase = .idle ∧
      s.isMistake .notify = true := by
  obtain ⟨m, hm, hseeked⟩ := Lecture.seeked_of_user (l := s.told) h rfl
  have hphase : m.phase = .idle := by
    rcases hm with rfl | rfl <;> exact h
  rw [act_notify_of_pos hpos]
  unfold isMistake
  rw [hseeked]
  refine ⟨rfl, ?_, ?_⟩
  · exact (Lecture.refreshStamp_phase _).trans hphase
  · exact (Bool.and_true _).trans (decide_eq_true hpos)

theorem notify_of_rest (h : s.pending = 0) : s.act .notify = s ∧ s.isMistake .notify = false := by
  obtain ⟨l, pending⟩ := s
  obtain rfl : pending = 0 := h
  exact ⟨rfl, rfl⟩

/-- What a moment adds to the notifications to come and takes from those that the lecture waits for
is a mistake or an overlap. -/
theorem mistake_add_pending (h : o.isMove = true ∨ o = .notify) (howed : s.owed ≤ s.pending) :
    (s.isMistake o).toNat + (s.act o).pending + s.owed =
        (s.isOverlap o).toNat + (s.act o).owed + s.pending ∧
      (s.act o).owed ≤ (s.act o).pending := by
  rcases h with h | rfl
  · rw [isMistake_of_isMove h]
    unfold isOverlap
    cases hm : s.move? o with
    | none =>
      rw [act_of_rejected h hm]
      exact ⟨Nat.add_right_comm _ _ _, howed⟩
    | some r =>
      have hafter := owed_of_awaiting
        (s := ⟨s.lecture.followMove r, s.pending + 1⟩) (Lecture.followMove_phase _ _)
      rw [act_of_accepted h hm, hafter, Option.isSome_some, Bool.true_and]
      refine ⟨?_, Nat.succ_le_succ (Nat.zero_le _)⟩
      cases hp : s.lecture.phase with
      | awaiting =>
        rw [owed_of_awaiting hp, decide_eq_true rfl, Bool.toNat_false, Bool.toNat_true]
        dsimp only
        omega
      | idle =>
        rw [owed_of_idle hp, decide_eq_false Phase.noConfusion, Bool.toNat_false]
        dsimp only
        omega
  · have hoverlap : s.isOverlap .notify = false := rfl
    rw [hoverlap]
    rcases Nat.eq_zero_or_pos s.pending with h0 | hpos
    · obtain ⟨hact, hmistake⟩ := notify_of_rest h0
      rw [hact, hmistake]
      exact ⟨Nat.add_right_comm _ _ _, howed⟩
    · cases hp : s.lecture.phase with
      | awaiting =>
        obtain ⟨hact, hmistake⟩ := notify_of_awaiting hp hpos
        have hafter := owed_of_idle
          (s := ⟨{ s.told with phase := .idle }, s.pending - 1⟩) rfl
        rw [hact, hmistake, hafter, owed_of_awaiting hp]
        dsimp only
        exact ⟨by omega, Nat.zero_le _⟩
      | idle =>
        obtain ⟨hpending, hphase, hmistake⟩ := notify_of_idle hp hpos
        rw [hpending, hmistake, owed_of_idle hphase, owed_of_idle hp, Bool.toNat_true,
          Bool.toNat_false]
        exact ⟨by omega, Nat.zero_le _⟩

theorem index_move?_getD (s : Session τ) (o : Occurrence τ) :
    ((s.move? o).getD s.lecture.reader).index =
      o.choose s.lecture.reader.slides.length s.lecture.reader.index := by
  cases o with
  | next => exact Reader.index_next?_getD _
  | previous => exact Reader.index_previous?_getD _
  | jump index => exact Reader.index_show?_getD _ _
  | _ => rfl

theorem slides_move? {r : Reader τ} (h : s.move? o = some r) :
    r.slides = s.lecture.reader.slides := by
  cases o with
  | next => exact Reader.slides_of_show? (Reader.exists_show?_of_next? h).choose_spec
  | previous => exact Reader.slides_of_show? (Reader.exists_show?_of_previous? h).choose_spec
  | jump index => exact Reader.slides_of_show? h
  | _ => exact nomatch h

/-- Without a mistake the slide that is asked for is the one shown afterwards. -/
theorem index_act (h : o.isMove = true ∨ o = .notify) (hmistake : s.isMistake o = false) :
    (s.act o).lecture.reader.slides = s.lecture.reader.slides ∧
      (s.act o).lecture.reader.index =
        o.choose s.lecture.reader.slides.length s.lecture.reader.index := by
  rcases h with h | rfl
  · have hindex := s.index_move?_getD o
    cases hm : s.move? o with
    | none =>
      rw [hm] at hindex
      rw [act_of_rejected h hm]
      exact ⟨rfl, hindex⟩
    | some r =>
      rw [hm] at hindex
      rw [act_of_accepted h hm, Lecture.followMove_reader]
      exact ⟨slides_move? hm, hindex⟩
  · rcases Nat.eq_zero_or_pos s.pending with h0 | hpos
    · rw [(notify_of_rest h0).1]
      exact ⟨rfl, rfl⟩
    · cases hp : s.lecture.phase with
      | awaiting =>
        rw [(notify_of_awaiting hp hpos).1]
        exact ⟨rfl, rfl⟩
      | idle =>
        rw [(notify_of_idle hp hpos).2.2] at hmistake
        exact absurd hmistake.symm Bool.false_ne_true

/-! ## whole runs -/

theorem run_cons (s : Session τ) (o : Occurrence τ) (occs : List (Occurrence τ)) :
    s.run (o :: occs) = (s.act o).run occs := rfl

/-- Mistakes made and notifications to come, against overlaps and what the lecture waits for. -/
theorem mistakes_add_pending (occs : List (Occurrence τ)) : ∀ {s : Session τ},
    Undisturbed occs → s.owed ≤ s.pending →
    s.mistakes occs + (s.run occs).pending + s.owed =
        s.overlaps occs + (s.run occs).owed + s.pending ∧
      (s.run occs).owed ≤ (s.run occs).pending := by
  induction occs with
  | nil => exact fun {s} _ howed => ⟨Nat.add_right_comm _ _ _, howed⟩
  | cons o occs ih =>
    intro s h howed
    obtain ⟨hone, howed'⟩ := mistake_add_pending (h o List.mem_cons_self) howed
    obtain ⟨hrest, howed''⟩ := ih (fun x hx => h x (List.mem_cons_of_mem o hx)) howed'
    have hmistakes : s.mistakes (o :: occs) = (s.isMistake o).toNat + (s.act o).mistakes occs := rfl
    have hoverlaps : s.overlaps (o :: occs) = (s.isOverlap o).toNat + (s.act o).overlaps occs := rfl
    rw [run_cons, hmistakes, hoverlaps]
    exact ⟨by omega, howed''⟩

/-- As long as no mistake is made the slide asked for last is shown. -/
theorem index_run (occs : List (Occurrence τ)) : ∀ {s : Session τ},
    Undisturbed occs → s.mistakes occs = 0 →
    (s.run occs).lecture.reader.index =
      chosen s.lecture.reader.slides.length s.lecture.reader.index occs := by
  induction occs with
  | nil => exact fun _ _ => rfl
  | cons o occs ih =>
    intro s h hnone
    have hmistakes : s.mistakes (o :: occs) = (s.isMistake o).toNat + (s.act o).mistakes occs := rfl
    rw [hmistakes, Nat.add_eq_zero_iff] at hnone
    have hfirst : s.isMistake o = false := Bool.toNat_eq_zero.mp hnone.1
    obtain ⟨hslides, hindex⟩ := index_act (h o List.mem_cons_self) hfirst
    rw [run_cons, ih (fun x hx => h x (List.mem_cons_of_mem o hx)) hnone.2, hslides, hindex]
    rfl

theorem owed_start (reader : Reader τ) (media : Media τ) (finish epsilon : τ) :
    (start (.start reader media finish epsilon)).owed = 1 := by
  rw [Lecture.start_eq_followMove]
  exact owed_of_awaiting (Lecture.followMove_phase _ _)

theorem reader_start (reader : Reader τ) (media : Media τ) (finish epsilon : τ) :
    (start (.start reader media finish epsilon)).lecture.reader = reader := by
  rw [Lecture.start_eq_followMove]
  exact Lecture.followMove_reader _ _

/-- **Mistakes are overlaps.**  The video answers every seek of a lecture with one notification,
nobody touches it, and it does not play.  On any page, from any slide, with moves and notifications
in any order, no more notifications are taken for a user's than moves were accepted while the
lecture still waited for a notification; and when none is to come, exactly as many.  As long as none
is taken for a user's, the shown slide is the one that the last accepted move asked for. -/
theorem mistakes_eq_overlaps (slides : List (Slide τ)) (index : Int) (h0 : 0 ≤ index)
    (h1 : index < slides.length) (media : Media τ) (finish epsilon : τ) :
    ∃ reader, Reader.start slides index = .ok reader ∧ (reader.index : Int) = index ∧
      ∀ occs : List (Occurrence τ), Undisturbed occs →
        ∀ s : Session τ, s = start (.start reader media finish epsilon) →
        s.mistakes occs ≤ s.overlaps occs ∧
        ((s.run occs).pending = 0 → s.mistakes occs = s.overlaps occs) ∧
        (s.mistakes occs = 0 →
          (s.run occs).lecture.reader.index = chosen slides.length reader.index occs) := by
  obtain ⟨reader, hstart, hslides, hindex⟩ := Reader.exists_start h0 h1
  refine ⟨reader, hstart, hindex, ?_⟩
  rintro occs hocc s hs
  have howed : s.owed = 1 := by rw [hs, owed_start]
  have hpending : s.pending = 1 := by rw [hs]; rfl
  have hreader : s.lecture.reader = reader := by rw [hs, reader_start]
  obtain ⟨hcount, hle⟩ := mistakes_add_pending occs hocc (howed.trans hpending.symm).le
  refine ⟨by omega, fun hrest => by omega, fun hnone => ?_⟩
  rw [index_run occs hocc hnone, hreader, hslides]

/-- Three slides, of which only the second has a time. -/
def secondTimed : List (Slide (Exact ℚ)) :=
  [⟨0, .undefined, []⟩, ⟨1, .num 2, []⟩, ⟨2, .undefined, []⟩]

/-- One move after the other, each with its notification, and one that leads nowhere. -/
theorem mistakes_eq_overlaps_one_by_one :
    Undisturbed ([.notify, .next, .jump 7, .notify, .next, .notify] : List (Occurrence (Exact ℚ))) ∧
    ∃ reader, Reader.start secondTimed 0 = .ok reader ∧
      let s := start (.start reader .fresh .undefined (.num 1))
      s.mistakes [.notify, .next, .jump 7, .notify, .next, .notify] = 0 ∧
        (s.run [.notify, .next, .jump 7, .notify, .next, .notify]).lecture.reader.index = 2 := by
  have hocc : Undisturbed
      ([.notify, .next, .jump 7, .notify, .next, .notify] : List (Occurrence (Exact ℚ))) := by
    intro o ho
    simp only [List.mem_cons, List.not_mem_nil, or_false] at ho
    rcases ho with rfl | rfl | rfl | rfl | rfl | rfl <;> simp [Occurrence.isMove]
  obtain ⟨reader, hstart, -, h⟩ := mistakes_eq_overlaps secondTimed 0 (by decide)
    (by decide) Media.fresh .undefined (.num 1)
  obtain rfl : _ = reader := Except.ok.inj hstart
  obtain ⟨-, hrest, hshown⟩ := h _ hocc _ rfl
  have hnone : _ = 0 := (hrest rfl).trans rfl
  exact ⟨hocc, _, hstart, hnone, hshown hnone⟩

/-- Three slides without times.  Before the first seek of the lecture is answered the second slide is
asked for; the notification of that move takes the reader on to the last slide. -/
theorem move_undone :
    ∃ reader, Reader.start
        [(⟨0, .undefined, []⟩ : Slide (Exact ℚ)), ⟨1, .undefined, []⟩, ⟨2, .undefined, []⟩] 0 =
          .ok reader ∧
      let s := (start (.start reader .fresh .undefined (.num 1))).run [.jump 1, .notify]
      s.pending = 1 ∧ s.lecture.reader.index = 1 ∧ s.told.seeked.1 = true ∧
        (s.act .notify).lecture.reader.index = 2 :=
  ⟨_, rfl, rfl, rfl, by decide +kernel, by decide +kernel⟩

end Session
end Lectern.Slides
