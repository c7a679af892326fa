import Lectern.Proofs.Lecture.Position
import Lectern.Proofs.Lecture.Session

/-!
# Reader and video at rest

The lecture knows whether it waits for a notification, not for which one.  So it may take the
notification of a user's seek for its own, and one of its own for a user's.  Such a mix-up lasts no
longer than there are notifications to come.

* `Agrees`            the shown slide is the slide of the position;
* `Session.Settling`  reader and video agree, or a notification is to come that will make them;
* `agrees_at_rest`    when none is to come they agree.
-/

set_option linter.unusedSectionVars false

namespace Lectern.Slides
open Quantity

variable {K : Type} [Field K] [LinearOrder K]

/-- The shown slide is the slide of the video's position. -/
def Lecture.Agrees (times : List K) (epsilon : K) (l : Lecture (Exact K)) : Prop :=
  ∃ p, l.media.time = .num p ∧ ShownAt times (p + epsilon) l.reader.index

/-- What holds between the moments of a session.  A notification that the lecture takes for its own
makes nothing agree, any other does; so all is well if more are to come than it will take. -/
structure Session.Settling (times : List K) (epsilon : K) (s : Session (Exact K)) : Prop where
  timedBy : s.lecture.TimedBy times epsilon
  time_num : ∃ p, s.lecture.media.time = .num p
  owed_le : s.owed ≤ s.pending
  agrees_or : s.lecture.Agrees times epsilon ∨ s.owed < s.pending

/-! ## one moment -/

namespace Lecture
variable [IsStrictOrderedRing K] {times : List K} {epsilon : K} {l : Lecture (Exact K)}

theorem agrees_followMove (heps : 0 ≤ epsilon)
    (hgaps : times.IsChain fun a b => epsilon < b - a) {r : Reader (Exact K)}
    (h : (l.followMove r).TimedBy times epsilon) : (l.followMove r).Agrees times epsilon := by
  have hr : (l.followMove r).reader = r := followMove_reader l r
  have hk : r.index < times.length := hr ▸ h.index_lt
  have hlt := r.index_lt
  have htime : r.slides[r.index].time = .num times[r.index] := by
    have e := h.time_getElem hk (by rw [hr]; exact hlt)
    simp only [hr] at e
    exact e
  have htimed : r.slides[r.index].isTimed = true := by
    rw [Slide.isTimed, htime]
    rfl
  refine ⟨times[r.index], ?_, ?_⟩
  · rw [followMove_time, anchorOf_take_of_timed hlt htimed, htime]
  · rw [hr]
    exact shownAt_start heps hgaps hk

theorem agrees_ended (heps : 0 ≤ epsilon) (hgaps : times.IsChain fun a b => epsilon < b - a)
    (hzero : times.head? = some 0) : l.ended.2.Agrees times epsilon := by
  refine ⟨0, l.ended_time, ?_⟩
  cases times with
  | nil => exact absurd hzero (by simp)
  | cons t ts =>
    obtain rfl : t = 0 := Option.some.inj hzero
    rw [l.ended_index]
    exact shownAt_start heps hgaps (Nat.succ_pos _)

/-- A seek of the user ends with the slide of the position, whatever was shown. -/
theorem agrees_seeked (heps : 0 ≤ epsilon) (hgaps : times.IsChain fun a b => epsilon < b - a)
    {p : K} (h : l.At times epsilon p) (hp : l.phase = .idle) :
    l.seeked.2.Agrees times epsilon := by
  refine ⟨p, (seeked_time hp h.seeking_eq).trans h.time_eq, ?_⟩
  rw [h.seeked_index hp]
  exact shownAt_firstAfter (sorted_of_gaps heps hgaps) _

end Lecture

namespace Session
variable [IsStrictOrderedRing K] {times : List K} {epsilon : K} {s : Session (Exact K)}

/-- After a seek of its own the lecture waits for one notification, which is to come. -/
theorem settling_of_seek {l : Lecture (Exact K)} (h : l.TimedBy times epsilon)
    (hp : l.phase = .awaiting) (ha : l.Agrees times epsilon) (n : Nat) :
    Settling times epsilon ⟨l, n + 1⟩ where
  timedBy := h
  time_num := ha.imp fun _ => And.left
  owed_le := by rw [owed_of_awaiting hp]; exact Nat.succ_pos n
  agrees_or := .inl ha

section
variable (heps : 0 ≤ epsilon) (hgaps : times.IsChain fun a b => epsilon < b - a)
include heps hgaps

theorem Settling.ask_navigate (h : s.Settling times epsilon) {move : Option (Reader (Exact K))}
    (hmove : ∀ r, move = some r → ∃ i, s.lecture.reader.show? i = some r) :
    (s.ask (s.lecture.navigate move)).Settling times epsilon := by
  obtain e | ⟨r, hr, e⟩ := Lecture.navigate_cases hmove
  · rw [e]
    exact h
  · rw [e]
    have ht := h.timedBy.of_samePage (Lecture.Outcome.followMove hr).samePage
    exact settling_of_seek ht (Lecture.followMove_phase _ _)
      (Lecture.agrees_followMove heps hgaps ht) s.pending

omit heps hgaps in
theorem Settling.scrub (h : s.Settling times epsilon) (p : K) :
    (s.act (.scrub (.num p))).Settling times epsilon where
  timedBy := ⟨h.timedBy.times_eq, h.timedBy.epsilon_eq⟩
  time_num := ⟨p, rfl⟩
  owed_le := Nat.le_succ_of_le h.owed_le
  agrees_or := .inr (Nat.lt_succ_of_le h.owed_le)

omit heps hgaps in
theorem Settling.busy (h : s.Settling times epsilon) (b : Bool) :
    (s.act (.busy b)).Settling times epsilon where
  timedBy := ⟨h.timedBy.times_eq, h.timedBy.epsilon_eq⟩
  time_num := h.time_num
  owed_le := h.owed_le
  agrees_or := h.agrees_or

theorem Settling.notify (h : s.Settling times epsilon) :
    (s.act .notify).Settling times epsilon := by
  cases hn : s.pending with
  | zero =>
    obtain ⟨l, pending⟩ := s
    obtain rfl : pending = 0 := hn
    exact h
  | succ n =>
    have hact : s.act .notify = ⟨s.told.seeked.2, n⟩ := by
      rw [act_notify_of_pos (hn ▸ Nat.succ_pos n), hn]
      rfl
    rw [hact]
    have ht : s.told.TimedBy times epsilon := ⟨h.timedBy.times_eq, h.timedBy.epsilon_eq⟩
    have ht' := ht.of_samePage (Lecture.Outcome.seeked s.told).samePage
    cases hp : s.lecture.phase with
    | awaiting =>
      -- the lecture takes it for its own: one less to come and none that it still waits for
      have howed : s.owed = 1 := owed_of_awaiting hp
      have e : s.told.seeked = (false, { s.told with phase := .idle }) :=
        Lecture.seeked_of_awaiting hp
      have howed' : (⟨s.told.seeked.2, n⟩ : Session (Exact K)).owed = 0 :=
        owed_of_idle (by rw [e])
      refine ⟨ht', ?_, by rw [howed']; exact Nat.zero_le n, ?_⟩
      · rw [e]
        exact h.time_num
      · rcases h.agrees_or with ha | hlt
        · left
          rw [e]
          exact ha
        · right
          rw [howed, hn] at hlt
          rw [howed']
          exact Nat.lt_of_succ_lt_succ hlt
    | idle =>
      -- the lecture takes it for a seek of the user and looks where the video stands
      obtain ⟨p, hpos⟩ := h.time_num
      have hat : s.told.At times epsilon p := ⟨ht, hpos, rfl⟩
      have ha : s.told.seeked.2.Agrees times epsilon := Lecture.agrees_seeked heps hgaps hat hp
      have howed' : (⟨s.told.seeked.2, n⟩ : Session (Exact K)).owed = 0 :=
        owed_of_idle (Lecture.seeked_phase hp rfl)
      exact ⟨ht', ha.imp fun _ => And.left, by rw [howed']; exact Nat.zero_le n, .inl ha⟩

theorem Settling.act (hzero : times.head? = some 0) (h : s.Settling times epsilon)
    {o : Occurrence (Exact K)} (ho : ∀ q, o = .scrub q → ∃ p, q = .num p) :
    (s.act o).Settling times epsilon := by
  cases o with
  | next => exact h.ask_navigate heps hgaps fun _ => Reader.exists_show?_of_next?
  | previous => exact h.ask_navigate heps hgaps fun _ => Reader.exists_show?_of_previous?
  | jump i => exact h.ask_navigate heps hgaps fun _ hi => ⟨i, hi⟩
  | ended =>
    have ht := h.timedBy.of_samePage (Lecture.Outcome.ended s.lecture).samePage
    exact settling_of_seek ht (Lecture.ended_phase _) (Lecture.agrees_ended heps hgaps hzero)
      s.pending
  | scrub q =>
    obtain ⟨p, rfl⟩ := ho q rfl
    exact h.scrub p
  | busy b => exact h.busy b
  | notify => exact h.notify heps hgaps

theorem Settling.run (hzero : times.head? = some 0) {occs : List (Occurrence (Exact K))}
    (ho : ∀ q, .scrub q ∈ occs → ∃ p, q = .num p) (h : s.Settling times epsilon) :
    (s.run occs).Settling times epsilon := by
  induction occs generalizing s with
  | nil => exact h
  | cons o occs ih =>
    have h' : (s.act o).Settling times epsilon :=
      h.act heps hgaps hzero fun q hq => ho q (hq ▸ List.mem_cons_self)
    exact ih (fun q hq => ho q (List.mem_cons_of_mem o hq)) h'

end

/-- **Reader and video agree at rest.**  On a page whose slides appear from zero on, each more than
`epsilon` after the one before, the video answers every seek, the lecture's and the user's, with one
notification.  Whatever is moved, ended or scrubbed in the meantime, and in whatever order the
notifications fall between: when none is to come, the shown slide is the slide of the position. -/
theorem agrees_at_rest (slides : List (Slide (Exact K)))
    (htimes : slides.map (·.time) = Exact.nums times) (hzero : times.head? = some 0)
    (heps : 0 ≤ epsilon) (hgaps : times.IsChain fun a b => epsilon < b - a)
    (index : Int) (h0 : 0 ≤ index) (h1 : index < slides.length)
    (media : Media (Exact K)) (finish : Exact K) :
    ∃ reader, Reader.start slides index = .ok reader ∧ (reader.index : Int) = index ∧
      ∀ occs : List (Occurrence (Exact K)), (∀ q, .scrub q ∈ occs → ∃ p, q = .num p) →
        ((start (.start reader media finish (.num epsilon))).run occs).pending = 0 →
        ∃ p, ((start (.start reader media finish (.num epsilon))).run occs).lecture.media.time
            = .num p ∧
          ShownAt times (p + epsilon)
            ((start (.start reader media finish (.num epsilon))).run occs).lecture.reader.index := by
  obtain ⟨reader, hstart, hslides, hindex⟩ := Reader.exists_start h0 h1
  refine ⟨reader, hstart, hindex, fun occs hscrub hrest => ?_⟩
  have ht : (Lecture.start reader media finish (.num epsilon)).TimedBy times epsilon :=
    Lecture.TimedBy.of_samePage ⟨by rw [hslides]; exact htimes, rfl⟩
      (Lecture.samePage_start reader media finish (.num epsilon))
  have hs : (start (.start reader media finish (.num epsilon))).Settling times epsilon := by
    rw [Lecture.start_eq_followMove] at ht ⊢
    exact settling_of_seek ht (Lecture.followMove_phase _ _)
      (Lecture.agrees_followMove heps hgaps ht) 0
  rcases (hs.run heps hgaps hzero hscrub).agrees_or with h | h
  · exact h
  · rw [hrest] at h
    exact absurd h (Nat.not_lt_zero _)

/-- Three slides, two and three seconds apart. -/
def evenlyTimed : List (Slide (Exact ℚ)) := [⟨0, .num 0, []⟩, ⟨1, .num 2, []⟩, ⟨2, .num 5, []⟩]

/-- Two seeks of the user among three of the lecture: the notification of the first is taken for one
of the lecture's, and one of the lecture's for the user's. -/
def mixedUp : List (Occurrence (Exact ℚ)) :=
  [.scrub (.num 4), .next, .notify, .jump 0, .scrub (.num (9 / 2)), .notify, .notify, .notify,
    .notify]

theorem agrees_at_rest_mixed_up :
    ∃ reader, Reader.start evenlyTimed 1 = .ok reader ∧
      let s := (start (.start reader .fresh .undefined (.num 1))).run mixedUp
      s.pending = 0 ∧ ∃ p, s.lecture.media.time = .num p ∧
        ShownAt [0, 2, 5] (p + 1) s.lecture.reader.index := by
  have hgaps : [(0 : ℚ), 2, 5].IsChain fun a b => 1 < b - a := by norm_num
  obtain ⟨reader, hstart, -, h⟩ := agrees_at_rest evenlyTimed rfl rfl (by norm_num) hgaps 1
    (by decide) (by decide) Media.fresh .undefined
  obtain rfl : _ = reader := Except.ok.inj hstart
  have hscrub : ∀ q, .scrub q ∈ mixedUp → ∃ p, q = .num p := by
    intro q hq
    simp only [mixedUp, List.mem_cons, Occurrence.scrub.injEq, reduceCtorEq, List.not_mem_nil,
      or_false, false_or] at hq
    rcases hq with rfl | rfl
    · exact ⟨4, rfl⟩
    · exact ⟨9 / 2, rfl⟩
  exact ⟨_, hstart, rfl, h mixedUp hscrub rfl⟩

end Session
end Lectern.Slides
