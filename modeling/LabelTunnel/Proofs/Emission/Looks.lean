import Mathlib.Algebra.GroupWithZero.Nat
import LabelTunnel.Emission.Run

/-! The looks of a pause. A pause looks at the running flag at its start, a slice later and so on, and last at
its deadline, whatever the last slice is then. At the first of these instants at which the flag is clear it
gives up, also if that is the deadline; if there is none, it has slept its whole length. All this takes a
deadline that the clock comes to: without one the pause breaks off before its first look. -/

namespace LabelTunnel

namespace Runtime

variable {runtime : Runtime} {now duration : Nat}

theorem later?_of_le (h : now + duration ≤ runtime.lastInstant) :
    runtime.later? now duration = some (now + duration) := if_pos h

theorem later?_of_lt (h : runtime.lastInstant < now + duration) : runtime.later? now duration = none :=
  if_neg (Nat.not_le_of_lt h)

end Runtime

namespace Pause

variable {running : Nat → Bool} {start duration deadline now stop t : Nat}
  {looks slices : List Nat} {outcome : Bool × Nat}

/-! ### One look -/

theorem look_of_clear (deadline now : Nat) : look false deadline now = .stopped := rfl

theorem look_of_le (h : deadline ≤ now) : look true deadline now = .elapsed := if_pos h

theorem look_of_lt (h : now < deadline) :
    look true deadline now = .sleep (now + min (deadline - now) slice) :=
  if_neg (Nat.not_le_of_lt h)

/-- What is known behind a look, by what it came to. -/
theorem look_tells (set : Bool) (deadline now : Nat) :
    match look set deadline now with
    | .stopped => set = false
    | .elapsed => set = true ∧ deadline ≤ now
    | .sleep wake => set = true ∧ now < deadline ∧ now + min (deadline - now) slice = wake := by
  cases set with
  | false => rfl
  | true =>
      rcases Nat.lt_or_ge now deadline with hleft | hover
      · rw [look_of_lt hleft]
        exact ⟨rfl, hleft, rfl⟩
      · rw [look_of_le hover]
        exact ⟨rfl, hover⟩

/-! ### From look to look -/

/-- How a pause goes on from an instant: the instants of its looks, how long it sleeps between them, and what
it comes to. -/
inductive Course (running : Nat → Bool) (deadline : Nat) : Nat → List Nat → List Nat → Bool × Nat → Prop
  | stopped {now : Nat} (look : look (running now) deadline now = .stopped) :
      Course running deadline now [now] [] (false, now)
  | elapsed {now : Nat} (look : look (running now) deadline now = .elapsed) :
      Course running deadline now [now] [] (true, now)
  | sleep {now wake : Nat} {looks slices : List Nat} {outcome : Bool × Nat}
      (look : look (running now) deadline now = .sleep wake)
      (course : Course running deadline wake looks slices outcome) :
      Course running deadline now (now :: looks) ((wake - now) :: slices) outcome

theorem exists_course (running : Nat → Bool) (deadline now : Nat) :
    ∃ looks slices, Course running deadline now looks slices (follow running deadline now) := by
  induction now using follow.induct running deadline with
  | case1 now h =>
      rw [follow, h]
      exact ⟨_, _, .stopped h⟩
  | case2 now h =>
      rw [follow, h]
      exact ⟨_, _, .elapsed h⟩
  | case3 now wake h ih =>
      obtain ⟨looks, slices, hcourse⟩ := ih
      rw [follow, h]
      exact ⟨_, _, .sleep h hcourse⟩

theorem Course.follow_eq (h : Course running deadline now looks slices outcome) :
    follow running deadline now = outcome := by
  induction h with
  | stopped look => rw [follow, look]
  | elapsed look => rw [follow, look]
  | sleep look _ ih => rw [follow, look, ← ih]

/-! ### The deadline -/

theorem outcome?_of_le {runtime : Runtime} (running : Nat → Bool) (h : start + duration ≤ runtime.lastInstant) :
    outcome? runtime running start duration = some (follow running (start + duration) start) := by
  rw [outcome?, Runtime.later?_of_le h]

/-- A pause breaks off exactly if the clock does not come to its deadline, whatever the flag is. -/
theorem outcome?_eq_none_iff {runtime : Runtime} :
    outcome? runtime running start duration = none ↔ runtime.lastInstant < start + duration := by
  rcases Nat.lt_or_ge runtime.lastInstant (start + duration) with hbeyond | hreached
  · rw [outcome?, Runtime.later?_of_lt hbeyond]
    exact iff_of_true rfl hbeyond
  · rw [outcome?_of_le running hreached]
    exact iff_of_false nofun (Nat.not_lt_of_le hreached)

/-! ### The instants of the looks -/

/-- The instants at which a pause of this length is to look, until it finds the flag cleared: each start of a
full slice in front of the deadline, and the deadline. -/
def checks (start duration : Nat) : List Nat :=
  ((List.range duration).filter fun t => t % slice = 0).map (start + ·) ++ [start + duration]

theorem filter_range_of_le_slice (hpos : 0 < duration) (hle : duration ≤ slice) :
    (List.range duration).filter (fun t => t % slice = 0) = [0] := by
  obtain ⟨rest, rfl⟩ := Nat.exists_eq_add_one_of_ne_zero (Nat.ne_of_gt hpos)
  have hrest : (List.range rest).filter ((fun t => t % slice = 0) ∘ Nat.succ) = [] := by
    refine List.filter_eq_nil_iff.2 ?_
    intro t ht hmultiple
    have hlt : t + 1 < slice := Nat.lt_of_lt_of_le (Nat.succ_lt_succ (List.mem_range.1 ht)) hle
    cases (Nat.mod_eq_of_lt hlt).symm.trans (of_decide_eq_true hmultiple)
  rw [List.range_succ_eq_map, List.filter_cons, List.filter_map, hrest]
  rfl

theorem filter_range_slice_add (rest : Nat) :
    (List.range (slice + rest)).filter (fun t => t % slice = 0) =
      0 :: ((List.range rest).filter fun t => t % slice = 0).map (slice + ·) := by
  have hshift : ((fun t => decide (t % slice = 0)) ∘ (slice + ·)) = fun t => decide (t % slice = 0) := by
    funext t
    rw [Function.comp, Nat.add_mod_left]
  rw [List.range_add, List.filter_append, filter_range_of_le_slice (by decide) (Nat.le_refl slice), List.filter_map,
    hshift, List.singleton_append]

theorem checks_zero (start : Nat) : checks start 0 = [start] := rfl

/-- A pause looks first when it starts, and then as the pause that is left behind its first slice does. -/
theorem checks_of_pos (start : Nat) (hpos : 0 < duration) :
    checks start duration = start :: checks (start + min duration slice) (duration - min duration slice) := by
  rcases Nat.le_total duration slice with hle | hle
  · rw [Nat.min_eq_left hle, Nat.sub_self, checks_zero, checks, filter_range_of_le_slice hpos hle]
    rfl
  · obtain ⟨rest, rfl⟩ := Nat.exists_eq_add_of_le hle
    have hshift : (start + ·) ∘ (slice + ·) = (start + slice + ·) := by
      funext t
      exact (Nat.add_assoc start slice t).symm
    rw [Nat.min_eq_right hle, Nat.add_sub_cancel_left, checks, checks, filter_range_slice_add, List.map_cons,
      List.map_map, hshift, Nat.add_assoc start slice rest]
    rfl

theorem mem_checks_iff : t ∈ checks start duration ↔
    (∃ m < duration, m % slice = 0 ∧ start + m = t) ∨ t = start + duration := by
  simp [checks, and_assoc]

theorem pairwise_checks (start duration : Nat) : (checks start duration).Pairwise (· < ·) := by
  have hslices : ((List.range duration).filter fun t => t % slice = 0).Pairwise fun t u => start + t < start + u :=
    (List.pairwise_lt_range.filter _).imp (Nat.add_lt_add_left · start)
  refine List.pairwise_append.2 ⟨List.pairwise_map.2 hslices, List.pairwise_singleton _ _, ?_⟩
  intro t ht u hu
  obtain ⟨m, hm, rfl⟩ := List.mem_map.1 ht
  have hlt := List.mem_range.1 (List.mem_filter.1 hm).1
  rw [List.mem_singleton.1 hu]
  exact Nat.add_lt_add_left hlt start

/-- No two checks are further apart than a slice. -/
theorem exists_check_before (ht : t ∈ checks start duration) (hlate : start < t) :
    ∃ u ∈ checks start duration, u < t ∧ t ≤ u + slice := by
  have hslice : slice = 100 := rfl
  have hle : t ≤ start + duration := by
    rcases mem_checks_iff.1 ht with ⟨m, hm, -, rfl⟩ | rfl <;> omega
  have hmultiple : (t - start - 1) / slice * slice % slice = 0 := Nat.mul_mod_left _ _
  refine ⟨_, mem_checks_iff.2 (.inl ⟨(t - start - 1) / slice * slice, ?_, hmultiple, rfl⟩), ?_⟩
  · rw [hslice]
    omega
  · rw [hslice]
    omega

/-- What a pause observes: it has looked at all the instants there are and found the flag set, or at those up
to the first one at which the flag is clear. Its slices bring it to the last of its looks. -/
structure Observed (running : Nat → Bool) (start duration : Nat) (looks slices : List Nat) (outcome : Bool × Nat) :
    Prop where
  looked :
    (∀ t ∈ checks start duration, running t = true) ∧ looks = checks start duration ∧
        outcome = (true, start + duration) ∨
      ∃ before t after, checks start duration = before ++ t :: after ∧ (∀ u ∈ before, running u = true) ∧
        running t = false ∧ looks = before ++ [t] ∧ outcome = (false, t)
  slices_le : ∀ d ∈ slices, 0 < d ∧ d ≤ slice
  sum_eq : start + slices.sum = outcome.2

namespace Observed

theorem stopped (duration : Nat) (hclear : running start = false) :
    Observed running start duration [start] [] (false, start) := by
  have hchecks : ∃ after, checks start duration = start :: after := by
    rcases Nat.eq_zero_or_pos duration with rfl | hpos
    · exact ⟨[], checks_zero start⟩
    · exact ⟨_, checks_of_pos start hpos⟩
  obtain ⟨after, hafter⟩ := hchecks
  exact ⟨.inr ⟨[], start, after, hafter, nofun, hclear, rfl, rfl⟩, nofun, rfl⟩

theorem elapsed (hset : running start = true) : Observed running start 0 [start] [] (true, start) := by
  refine ⟨.inl ⟨?_, rfl, rfl⟩, nofun, rfl⟩
  rw [checks_zero]
  exact fun t ht => List.mem_singleton.1 ht ▸ hset

/-- A slice in front of the rest of a pause. -/
theorem sleep (hset : running start = true) (hpos : 0 < duration)
    (h : Observed running (start + min duration slice) (duration - min duration slice) looks slices outcome) :
    Observed running start duration (start :: looks) (min duration slice :: slices) outcome := by
  have hslice : 0 < slice := by decide
  have hchecks := checks_of_pos start hpos
  refine ⟨?_, ?_, ?_⟩
  · rcases h.looked with ⟨hall, rfl, rfl⟩ | ⟨before, t, after, hsplit, hbefore, hclear, rfl, rfl⟩
    · refine .inl ⟨?_, hchecks.symm, Prod.ext rfl ?_⟩
      · rw [hchecks]
        exact List.forall_mem_cons.2 ⟨hset, hall⟩
      · show start + min duration slice + (duration - min duration slice) = start + duration
        omega
    · rw [hsplit] at hchecks
      exact .inr ⟨start :: before, t, after, hchecks, List.forall_mem_cons.2 ⟨hset, hbefore⟩, hclear, rfl, rfl⟩
  · exact List.forall_mem_cons.2 ⟨by omega, h.slices_le⟩
  · rw [List.sum_cons, ← Nat.add_assoc]
    exact h.sum_eq

end Observed

/-- Along the course, for whatever is left of the pause at each of its looks. -/
theorem Course.observed (h : Course running deadline start looks slices outcome) :
    ∀ duration, start + duration = deadline → Observed running start duration looks slices outcome := by
  induction h with
  | @stopped now look =>
      have hclear := look_tells (running now) deadline now
      rw [look] at hclear
      exact fun duration _ => .stopped duration hclear
  | @elapsed now look =>
      intro duration hdeadline
      have hset := look_tells (running now) deadline now
      rw [look] at hset
      obtain rfl : duration = 0 := by omega
      exact .elapsed hset.1
  | @sleep now wake looks slices outcome look _ ih =>
      intro duration hdeadline
      have hset := look_tells (running now) deadline now
      rw [look] at hset
      obtain ⟨hset, hleft, rfl⟩ := hset
      have hlength := Nat.sub_eq_of_eq_add' hdeadline.symm
      rw [hlength] at ih ⊢
      rw [Nat.add_sub_cancel_left]
      exact .sleep hset (by omega) (ih _ (by omega))

/-! ### A stop -/

/-- The running flag if the stop comes at this instant. -/
def clearedAt (stop : Nat) : Nat → Bool := fun t => t < stop

theorem follow_of_late_stop (h : start + duration < stop) :
    follow (clearedAt stop) (start + duration) start = (true, start + duration) := by
  obtain ⟨looks, slices, hcourse⟩ := exists_course (clearedAt stop) (start + duration) start
  rcases (hcourse.observed duration rfl).looked with ⟨-, -, houtcome⟩ | ⟨before, t, after, hsplit, -, hclear, -, -⟩
  · exact houtcome
  · have ht : t ∈ checks start duration := hsplit ▸ List.mem_append_right before List.mem_cons_self
    have hstop := of_decide_eq_false hclear
    rcases mem_checks_iff.1 ht with ⟨m, hm, -, rfl⟩ | rfl <;> omega

theorem follow_of_early_stop (deadline : Nat) (h : stop ≤ start) :
    follow (clearedAt stop) deadline start = (false, start) := by
  have hclear : clearedAt stop start = false := decide_eq_false (Nat.not_lt_of_le h)
  have hlook : look (clearedAt stop start) deadline start = .stopped := hclear ▸ look_of_clear deadline start
  exact (Course.stopped hlook).follow_eq

/-- A stop during the pause is answered at the first check that does not come before it. -/
theorem follow_of_stop (hlate : start < stop) (hearly : stop ≤ start + duration) :
    ∃ t ∈ checks start duration, follow (clearedAt stop) (start + duration) start = (false, t) ∧ stop ≤ t ∧
      t < stop + slice ∧ ∀ u ∈ checks start duration, u < t → u < stop := by
  obtain ⟨looks, slices, hcourse⟩ := exists_course (clearedAt stop) (start + duration) start
  rcases (hcourse.observed duration rfl).looked with
    ⟨hall, -, -⟩ | ⟨before, t, after, hsplit, hbefore, hclear, -, houtcome⟩
  · have hlast := of_decide_eq_true (hall _ (mem_checks_iff.2 (.inr rfl)))
    omega
  · have ht : t ∈ checks start duration := hsplit ▸ List.mem_append_right before List.mem_cons_self
    have hstop : stop ≤ t := Nat.le_of_not_lt (of_decide_eq_false hclear)
    have hearlier : ∀ u ∈ checks start duration, u < t → u < stop := by
      intro u hu hut
      have hsorted := pairwise_checks start duration
      rw [hsplit] at hu hsorted
      have hafter := (List.pairwise_cons.1 (List.pairwise_append.1 hsorted).2.1).1
      rcases List.mem_append.1 hu with hu | hu
      · exact of_decide_eq_true (hbefore u hu)
      rcases List.mem_cons.1 hu with rfl | hu
      · exact absurd hut (Nat.lt_irrefl u)
      · exact absurd hut (Nat.lt_asymm (hafter u hu))
    obtain ⟨u, hu, hut, hgap⟩ := exists_check_before ht (Nat.lt_of_lt_of_le hlate hstop)
    have hbound := hearlier u hu hut
    exact ⟨t, ht, houtcome, hstop, by omega, hearlier⟩

/-- **A pause gives up at the first of its looks that finds the flag clear.** Whatever the flag does, a pause
comes to its end if the clock comes to its deadline. It looks at each start of a slice and at its deadline until
the flag is clear, and it sleeps between its looks and at no other time: up to the deadline exactly, if the flag
is set at all of them. A stop is answered by the next look, less than a slice later. -/
theorem ends_by_looks {runtime : Runtime} (running : Nat → Bool)
    (hreached : start + duration ≤ runtime.lastInstant) :
    (∃ looks slices outcome, outcome? runtime running start duration = some outcome ∧
      Course running (start + duration) start looks slices outcome) ∧
    (∀ looks slices outcome, Course running (start + duration) start looks slices outcome →
      outcome? runtime running start duration = some outcome ∧
        Observed running start duration looks slices outcome) ∧
    ∀ stop,
      (start + duration < stop →
        outcome? runtime (clearedAt stop) start duration = some (true, start + duration)) ∧
      (stop ≤ start → outcome? runtime (clearedAt stop) start duration = some (false, start)) ∧
      (start < stop → stop ≤ start + duration → ∃ t ∈ checks start duration,
        outcome? runtime (clearedAt stop) start duration = some (false, t) ∧ stop ≤ t ∧ t < stop + slice ∧
          ∀ u ∈ checks start duration, u < t → u < stop) := by
  refine ⟨?_, ?_, ?_⟩
  · obtain ⟨looks, slices, hcourse⟩ := exists_course running (start + duration) start
    exact ⟨looks, slices, _, outcome?_of_le running hreached, hcourse⟩
  · intro looks slices outcome hcourse
    rw [outcome?_of_le running hreached, hcourse.follow_eq]
    exact ⟨rfl, hcourse.observed duration rfl⟩
  · intro stop
    rw [outcome?_of_le (clearedAt stop) hreached]
    refine ⟨?_, ?_, ?_⟩
    · intro hlate
      rw [follow_of_late_stop hlate]
    · intro hearly
      rw [follow_of_early_stop _ hearly]
    · intro hlate hearly
      obtain ⟨t, ht, hfollow, hstop⟩ := follow_of_stop hlate hearly
      exact ⟨t, ht, congrArg some hfollow, hstop⟩

/-- A pause of a minute that is stopped between its third and its fourth look, and one of a quarter of a second
that is stopped behind its deadline, in front of its start and between two looks. -/
theorem ends_by_looks_minute :
    0 + 60000 ≤ Runtime.signedSeconds.lastInstant ∧ 0 + 250 ≤ Runtime.signedSeconds.lastInstant ∧
    Course (clearedAt 250) 60000 0 [0, 100, 200, 300] [100, 100, 100] (false, 300) ∧
    outcome? .signedSeconds (clearedAt 250) 0 60000 = some (false, 300) ∧
    Observed (clearedAt 250) 0 60000 [0, 100, 200, 300] [100, 100, 100] (false, 300) ∧
    250 < 251 ∧ outcome? .signedSeconds (clearedAt 251) 0 250 = some (true, 250) ∧
    0 ≤ 0 ∧ outcome? .signedSeconds (clearedAt 0) 0 250 = some (false, 0) ∧
    0 < 120 ∧ 120 ≤ 250 ∧ ∃ t ∈ checks 0 250, outcome? .signedSeconds (clearedAt 120) 0 250 = some (false, t) ∧
      120 ≤ t ∧ t < 120 + slice ∧ ∀ u ∈ checks 0 250, u < t → u < 120 := by
  have hminute : 0 + 60000 ≤ Runtime.signedSeconds.lastInstant := by decide
  have hquarter : 0 + 250 ≤ Runtime.signedSeconds.lastInstant := by decide
  have hfirst : look (clearedAt 250 0) 60000 0 = .sleep 100 := by decide
  have hsecond : look (clearedAt 250 100) 60000 100 = .sleep 200 := by decide
  have hthird : look (clearedAt 250 200) 60000 200 = .sleep 300 := by decide
  have hlast : look (clearedAt 250 300) 60000 300 = .stopped := by decide
  have hcourse := Course.sleep hfirst (Course.sleep hsecond (Course.sleep hthird (Course.stopped hlast)))
  obtain ⟨-, hcourses, -⟩ := ends_by_looks (clearedAt 250) hminute
  obtain ⟨-, -, hstops⟩ := ends_by_looks (clearedAt 250) hquarter
  rw [Nat.zero_add] at hcourses
  obtain ⟨houtcome, hobserved⟩ := hcourses _ _ _ hcourse
  exact ⟨hminute, hquarter, hcourse, houtcome, hobserved, by decide, (hstops 251).1 (by decide), by decide,
    (hstops 0).2.1 (by decide), by decide, by decide, (hstops 120).2.2 (by decide) (by decide)⟩

/-- A pause of as many seconds as 64 bits can count breaks off, on a clock that has a sign bit among its own. -/
theorem not_ends_by_looks :
    ¬∀ (runtime : Runtime) (running : Nat → Bool) (start duration : Nat), ∃ looks slices outcome,
      outcome? runtime running start duration = some outcome ∧
        Course running (start + duration) start looks slices outcome := by
  intro hall
  obtain ⟨looks, slices, outcome, houtcome, -⟩ :=
    hall .signedSeconds (fun _ => true) 0 ((UInt64.size - 1) * 1000)
  have hbroken : outcome? .signedSeconds (fun _ => true) 0 ((UInt64.size - 1) * 1000) = none :=
    outcome?_eq_none_iff.2 (by decide)
  cases hbroken.symm.trans houtcome

end Pause

end LabelTunnel
