import LabelTunnel.Proofs.Emission.Bound
import LabelTunnel.Proofs.Emission.Horizon

/-! When a steady emission sends, and when it ends. Cycle `k` is sent `k` pauses after the start, neither
before nor behind it, up to the bound if there is one. An emission that is stopped in a pause is over
when the slice is that it sleeps in, and sends nothing more. A pause has to end on the clock for that: an
emission breaks off where it begins one that does not. -/

namespace LabelTunnel

variable {ω : Type} {e : Emitter ω} {packets : List Packet} {calls : List Call}

namespace Plan

variable {plan : Plan}

/-- The times at which the packets of so many cycles are sent. -/
def timetable (plan : Plan) (count : Nat) : List Nat :=
  (List.range count).flatMap fun k => List.replicate plan.flows.length (k * plan.interval)

/-- The number of cycles that have begun at a time, the one of that instant included. -/
def cyclesBy (plan : Plan) (time : Nat) : Nat :=
  match plan.maxCycles with
  | none => time / plan.interval + 1
  | some max => min (time / plan.interval + 1) max.toNat

theorem map_fst_schedule (hlength : packets.length = plan.flows.length) (count : Nat) :
    (plan.schedule packets count).map Prod.fst = plan.timetable count := by
  unfold schedule timetable
  rw [List.map_flatMap]
  congr 1
  funext k
  rw [List.map_map, ← hlength]
  exact List.map_const'

theorem le_of_mem_timetable {time sent : Nat} (h : sent ∈ plan.timetable (plan.cyclesBy time)) : sent ≤ time := by
  obtain ⟨k, hk, hsent⟩ := List.mem_flatMap.1 h
  obtain ⟨-, rfl⟩ := List.mem_replicate.1 hsent
  have hle : plan.cyclesBy time ≤ time / plan.interval + 1 := by
    unfold cyclesBy
    cases plan.maxCycles with
    | none => exact Nat.le_refl _
    | some max => exact Nat.min_le_left _ _
  have hcycle := List.mem_range.1 hk
  exact Nat.le_trans (Nat.mul_le_mul_right _ (by omega)) (Nat.div_mul_le_self time plan.interval)

/-- Between the beginnings of two cycles. -/
theorem div_interval_eq {time cycles : Nat} (hlt : time < cycles * plan.interval)
    (hle : cycles * plan.interval ≤ time + plan.interval) : time / plan.interval + 1 = cycles := by
  cases cycles with
  | zero => exact absurd hlt (by omega)
  | succ k =>
      rw [Nat.succ_mul] at hle
      exact congrArg (· + 1) (Nat.div_eq_of_lt_le (by omega) hlt)

theorem cyclesBy_eq_of_lt {time cycles : Nat} (hlt : time < cycles * plan.interval)
    (hle : cycles * plan.interval ≤ time + plan.interval)
    (hbound : ∀ max, plan.maxCycles = some max → cycles ≤ max.toNat) : plan.cyclesBy time = cycles := by
  unfold cyclesBy
  rw [div_interval_eq hlt hle]
  cases hmax : plan.maxCycles with
  | none => rfl
  | some max => exact Nat.min_eq_left (hbound max hmax)

theorem le_div_interval {time cycles : Nat} (hinterval : 0 < plan.interval)
    (hle : cycles * plan.interval ≤ time + plan.interval) : cycles ≤ time / plan.interval + 1 := by
  rw [← Nat.add_div_right time hinterval]
  exact (Nat.le_div_iff_mul_le hinterval).2 hle

theorem cyclesBy_eq_of_le {time : Nat} {max : UInt64} (hmax : plan.maxCycles = some max)
    (hinterval : 0 < plan.interval) (hle : max.toNat * plan.interval ≤ time + plan.interval) :
    plan.cyclesBy time = max.toNat := by
  unfold cyclesBy
  rw [hmax]
  exact Nat.min_eq_right (le_div_interval hinterval hle)

end Plan

namespace Emitter

variable {time cycles : Nat} {max : UInt64}

/-- The clock comes to a time, and to the end of the pause that is on at that time, if a cycle is left that the
pause is in front of. -/
def Outlasts (e : Emitter ω) (time : Nat) : Prop :=
  time ≤ e.runtime.lastInstant ∧
    ((∀ max, e.plan.maxCycles = some max → time / e.plan.interval + 1 < max.toNat) →
      (time / e.plan.interval + 1) * e.plan.interval ≤ e.runtime.lastInstant)

theorem outlasts_of_reached (htime : time ≤ e.runtime.lastInstant) (hlt : time < cycles * e.plan.interval)
    (hle : cycles * e.plan.interval ≤ time + e.plan.interval)
    (hreached : cycles * e.plan.interval ≤ e.runtime.lastInstant) : e.Outlasts time := by
  refine ⟨htime, fun _ => ?_⟩
  rwa [Plan.div_interval_eq hlt hle]

theorem not_outlasts_of_beyond (hlt : time < cycles * e.plan.interval)
    (hle : cycles * e.plan.interval ≤ time + e.plan.interval)
    (hbeyond : e.runtime.lastInstant < cycles * e.plan.interval)
    (hleft : ∀ max, e.plan.maxCycles = some max → cycles < max.toNat) : ¬e.Outlasts time := by
  rintro ⟨-, hend⟩
  rw [Plan.div_interval_eq hlt hle] at hend
  exact Nat.not_le_of_lt hbeyond (hend hleft)

/-- Behind the last cycle no pause is on. -/
theorem outlasts_of_maxCycles (htime : time ≤ e.runtime.lastInstant) (hinterval : 0 < e.plan.interval)
    (hmax : e.plan.maxCycles = some max) (hle : max.toNat * e.plan.interval ≤ time + e.plan.interval) :
    e.Outlasts time := by
  refine ⟨htime, fun hleft => ?_⟩
  exact absurd (Plan.le_div_interval hinterval hle) (Nat.not_le_of_lt (hleft max hmax))

end Emitter

namespace Run

/-! ### Where a steady run is -/

variable {r : Run ω} {time : Nat}

/-- In a pause the next cycle has not begun, unless it begins at this very instant. -/
theorem OnTime.lt_of_asleep (h : OnTime e.plan.interval r) {wake deadline : Nat}
    (hphase : r.phase = .asleep wake deadline) (hdue : time ≤ wake)
    (hquiet : time < wake ∨ ¬e.plan.interval ∣ time) : time < r.cycles * e.plan.interval := by
  obtain ⟨rfl, -, -, hwake, -⟩ := h.of_asleep hphase
  refine Nat.lt_of_le_of_ne (Nat.le_trans hdue hwake) ?_
  rintro rfl
  rcases hquiet with hlater | hoff
  · exact absurd hlater (Nat.not_lt.2 hwake)
  · exact hoff (Nat.dvd_mul_left _ _)

/-- Where a steady run is that is not about to send: over, in the pause behind the last cycle that has begun, or
broken off there because that pause does not end on the clock. -/
inductive Rests (e : Emitter ω) (time : Nat) (r : Run ω) : Prop
  | finished {tally : Tally} (outcome : r.outcome? = some (.ok tally)) (outlasts : e.Outlasts time)
  | pausing {wake deadline : Nat} (phase : r.phase = .asleep wake deadline) (soon : wake ≤ time + Pause.slice)
      (outlasts : e.Outlasts time)
  | brokenOff (phase : r.phase = .brokenOff) (running : r.session.running = true) (short : ¬e.Outlasts time)

theorem At.rests {w : ω} (h : At e { session := { world := w } } time r) (hsteady : e.Steady)
    (hcheck : e.plan.check = .ok ()) (hinterval : 0 < e.plan.interval) (hmax : e.plan.maxCycles ≠ some 0)
    (hquiet : ∀ due, r.due? = some due → time < due ∨ ¬e.plan.interval ∣ time)
    (htime : time ≤ e.runtime.lastInstant) : r.cycles = e.plan.cyclesBy time ∧ r.Rests e time := by
  obtain ⟨⟨n, hn⟩, hnow, hdue⟩ := h
  have hplan := Plan.carries_of_check hcheck
  have hmakes := makes_complete e n { session := { world := w } }
  have hgoing := unhindered_complete hplan rfl n (hmakes.noneHinders hsteady hplan)
  rw [← hn] at hmakes hgoing
  have hclock := hmakes.onTime hplan
  have hreach := hmakes.inReach hplan
  have hlast {max : UInt64} (hsome : e.plan.maxCycles = some max) : r.cycles ≤ max.toNat := by
    have hcycles := (hmakes.within hplan hsome).cycles_le
    rw [Plan.lastCycle_eq (by rintro rfl; exact hmax hsome)] at hcycles
    exact hcycles
  cases hphase : r.phase with
  | ready =>
      have hsame := due?_of_ready hphase
      obtain rfl := Nat.le_antisymm hnow (hdue _ hsame)
      rcases hquiet _ hsame with hlater | hoff
      · exact absurd hlater (Nat.lt_irrefl _)
      · exact absurd (hclock.of_ready hphase ▸ Nat.dvd_mul_left _ _) hoff
  | asleep wake deadline =>
      have hwake := due?_of_asleep hphase
      have hlt := hclock.lt_of_asleep hphase (hdue wake hwake) (hquiet wake hwake)
      obtain ⟨hdeadline, hsince, -, -, hslice⟩ := hclock.of_asleep hphase
      have hle : r.cycles * e.plan.interval ≤ time + e.plan.interval := by omega
      have houtlasts := Emitter.outlasts_of_reached htime hlt hle (hdeadline ▸ hreach.of_asleep hphase)
      exact ⟨(Plan.cyclesBy_eq_of_lt hlt hle fun _ => hlast).symm,
        .pausing hphase (Nat.le_trans hslice (Nat.add_le_add_right hnow _)) houtlasts⟩
  | ended outcome =>
      rcases hgoing with ⟨hnone, -⟩ | ⟨⟨tally, hok⟩, max, hsome, hreached, -⟩
      · cases hnone.symm.trans (outcome?_of_ended hphase)
      · have hcycles : r.cycles = max.toNat := Nat.le_antisymm (hlast hsome) hreached
        have hsince := hclock.of_ended hphase
        have hle := Nat.le_trans hsince (Nat.add_le_add_right hnow _)
        rw [hcycles] at hle
        rw [Plan.cyclesBy_eq_of_le hsome hinterval hle]
        exact ⟨hcycles, .finished hok (Emitter.outlasts_of_maxCycles htime hinterval hsome hle)⟩
  | brokenOff =>
      obtain ⟨hbeyond, hleft⟩ := hreach.of_brokenOff hphase
      replace hbeyond : e.runtime.lastInstant < r.cycles * e.plan.interval := hbeyond
      have hsince : r.cycles * e.plan.interval = r.now + e.plan.interval := hclock.of_brokenOff hphase
      have hlt : time < r.cycles * e.plan.interval := Nat.lt_of_le_of_lt htime hbeyond
      have hle : r.cycles * e.plan.interval ≤ time + e.plan.interval := by omega
      have hrunning : r.session.running = true := by
        rcases hgoing with ⟨-, hrunning⟩ | ⟨⟨tally, hok⟩, -⟩
        · exact hrunning
        · cases (outcome?_of_brokenOff hphase).symm.trans hok
      have hshort := Emitter.not_outlasts_of_beyond hlt hle hbeyond hleft
      exact ⟨(Plan.cyclesBy_eq_of_lt hlt hle fun _ => hlast).symm, .brokenOff hphase hrunning hshort⟩

theorem complete_of_due?_none (h : r.due? = none) (fuel : Nat) : r.complete e fuel = r := by
  cases fuel with
  | zero => rfl
  | succ fuel => rw [complete, h]

/-- A run that is stopped while it sleeps is over when it wakes up. -/
theorem complete_stop_of_asleep {wake deadline fuel : Nat} (hphase : r.phase = .asleep wake deadline)
    (hfuel : 0 < fuel) : r.stop.complete e fuel = { r.stop with now := wake }.finish := by
  obtain ⟨fuel, rfl⟩ := Nat.exists_eq_succ_of_ne_zero (Nat.ne_of_gt hfuel)
  have hstop : r.stop.phase = .asleep wake deadline := hphase
  rw [complete, due?_of_asleep hstop]
  dsimp only
  rw [step_of_asleep hstop, look_of_stopped rfl]
  exact complete_of_due?_none rfl fuel

/-- With two steps for each millisecond, a run comes from its start up to a time. -/
theorem at_advance_start (hcheck : e.plan.check = .ok ()) (hinterval : 0 < e.plan.interval) (w : ω) {fuel : Nat}
    (hfuel : 2 * time + 2 ≤ fuel) :
    At e { session := { world := w } } time (advance e time fuel { session := { world := w } }) ∧
      ∀ due, (advance e time fuel { session := { world := w } }).due? = some due → time < due := by
  refine at_advance (Plan.carries_of_check hcheck) hinterval fuel (Nat.zero_le time) ?_
  show 2 * (time + 1 - 0) ≤ fuel
  omega

/-! ### What is sent, and how it ends -/

/-- Whatever the devices answer, the packets of the full cycles are sent at their times, and behind them
only packets of the next cycle. -/
theorem Makes.prefix_timetable {s : Session ω} (h : Makes e { session := s } calls r)
    (hcheck : e.plan.check = .ok ()) :
    e.plan.timetable r.cycles <+: (Call.parcels calls).map Parcel.time ∧
      (Call.parcels calls).map Parcel.time <+: e.plan.timetable (r.cycles + 1) := by
  have hplan := Plan.carries_of_check hcheck
  obtain ⟨taken, tail, hcalls, hstanding⟩ := h.scheduled hplan (Plan.length_pos_of_check hcheck)
  replace hcalls : calls = taken.flatMap (Delivery.log e.plan.outerDestination) ++ tail := hcalls
  have htimes : (Call.parcels calls).map Parcel.time =
      (taken.map Delivery.slot).map Prod.fst ++ (Call.parcels tail).map Parcel.time := by
    rw [hcalls, Call.parcels_append, List.map_append, Delivery.parcels_log, List.map_map, List.map_map]
    rfl
  have hmap {slots : List (Nat × Packet)} {count : Nat}
      (hfront : slots <+: e.plan.schedule (e.plan.flows.map e.plan.packet) count) :
      slots.map Prod.fst <+: e.plan.timetable count :=
    Plan.map_fst_schedule hplan.length_eq count ▸ hfront.map Prod.fst
  have hmap' {slots : List (Nat × Packet)} {count : Nat}
      (hfront : e.plan.schedule (e.plan.flows.map e.plan.packet) count <+: slots) :
      e.plan.timetable count <+: slots.map Prod.fst :=
    Plan.map_fst_schedule hplan.length_eq count ▸ hfront.map Prod.fst
  rw [htimes]
  cases hstanding with
  | going _ slots =>
      rw [show Call.parcels [] = [] from rfl, List.map_nil, List.append_nil]
      refine ⟨hmap' (slots ▸ List.prefix_rfl), hmap ?_⟩
      rw [slots, Plan.schedule_succ]
      exact List.prefix_append _ _
  | finished _ completed begun =>
      rw [show Call.parcels [] = [] from rfl, List.map_nil, List.append_nil]
      exact ⟨hmap' completed, hmap begun⟩
  | failed _ completed begun passage =>
      have hbegun := hmap begun
      rw [List.map_append] at hbegun
      refine ⟨(hmap' completed).trans (List.prefix_append _ _), List.IsPrefix.trans ?_ hbegun⟩
      exact (List.prefix_append_right_inj _).2 passage.prefix_times

theorem Makes.map_time_parcels {s : Session ω} (h : Makes e { session := s } calls r) (hsteady : e.Steady)
    (hcheck : e.plan.check = .ok ()) : (Call.parcels calls).map Parcel.time = e.plan.timetable r.cycles ∧
      (Call.accepted calls).length = r.cycles * e.plan.flows.length := by
  have hplan := Plan.carries_of_check hcheck
  obtain ⟨taken, hcalls, hslots⟩ := h.whole hplan (h.noneHinders hsteady hplan)
  replace hcalls : calls = taken.flatMap (Delivery.log e.plan.outerDestination) := hcalls
  replace hslots : taken.map Delivery.slot = e.plan.schedule _ r.cycles := hslots
  constructor
  · rw [hcalls, Delivery.parcels_log, List.map_map, ← Plan.map_fst_schedule hplan.length_eq, ← hslots,
      List.map_map]
    rfl
  · have hlength := congrArg List.length hslots
    rw [List.length_map, Plan.length_schedule, hplan.length_eq] at hlength
    rw [hcalls, Delivery.accepted_log, List.length_map, hlength]

end Run

/-- What a watcher comes to that has stopped an emission at a time and waits for its end: all cycles that
had begun are complete, nothing is sent later, and the end is at most a slice away. -/
structure Supervisor.Joined (e : Emitter ω) (r₀ : Run ω) (time : Nat) (reply : Answer × Supervisor ω) :
    Prop where
  answer : ∃ tally, reply.1 = .ended (.ok tally) ∧ tally.cycles = (e.plan.cyclesBy time).toUInt64 ∧
    tally.packets = (e.plan.cyclesBy time * e.plan.flows.length).toUInt64
  cycles_eq : reply.2.run.cycles = e.plan.cyclesBy time
  clock_le : reply.2.clock ≤ time + Pause.slice
  sent : ∃ calls, r₀.Makes e calls reply.2.run ∧ ∀ parcel ∈ Call.parcels calls, parcel.time ≤ time

namespace Run

variable {r : Run ω} {time : Nat}

theorem At.joined {w : ω} (h : At e { session := { world := w } } time r) (hsteady : e.Steady)
    (hcheck : e.plan.check = .ok ()) (hinterval : 0 < e.plan.interval) (hmax : e.plan.maxCycles ≠ some 0)
    (hoff : ¬e.plan.interval ∣ time) (houtlasts : e.Outlasts time) {fuel : Nat} (hfuel : 0 < fuel) :
    Supervisor.Joined e { session := { world := w } } time (Supervisor.serve e fuel ⟨r.stop, time⟩ .join) := by
  have hplan := Plan.carries_of_check hcheck
  obtain ⟨hcycles, hrests⟩ := h.rests hsteady hcheck hinterval hmax (fun _ _ => .inr hoff) houtlasts.1
  obtain ⟨calls, hmakes⟩ : ∃ calls, Makes e { session := { world := w } } calls r := by
    obtain ⟨⟨n, rfl⟩, -, -⟩ := h
    exact ⟨_, makes_complete e n _⟩
  have hbooked := hmakes.booked hplan
  have hend : (r.stop.complete e fuel).outcome? = some (.ok r.session.tally) ∧
      (r.stop.complete e fuel).cycles = r.cycles ∧ (r.stop.complete e fuel).now ≤ time + Pause.slice := by
    cases hrests with
    | @finished tally houtcome =>
        obtain rfl : tally = r.session.tally := hbooked.snapshot tally (phase_of_outcome? houtcome)
        rw [complete_of_due?_none (r := r.stop) (due?_of_ended (phase_of_outcome? houtcome))]
        exact ⟨houtcome, rfl, Nat.le_trans h.now_le (Nat.le_add_right _ _)⟩
    | pausing hphase hsoon =>
        rw [complete_stop_of_asleep hphase hfuel]
        exact ⟨rfl, rfl, hsoon⟩
    | brokenOff _ _ hshort => exact absurd houtlasts hshort
  obtain ⟨houtcome, hcycles', hnow⟩ := hend
  obtain ⟨calls', hmakes'⟩ := hmakes.stop.complete fuel
  have hserve : Supervisor.serve e fuel ⟨r.stop, time⟩ .join =
      (.ended (.ok r.session.tally), ⟨r.stop.complete e fuel, max time (r.stop.complete e fuel).now⟩) := by
    show Supervisor.await _ _ _ _ = _
    rw [Supervisor.await, verdict?_of_outcome? houtcome]
  have htally : r.session.tally = (r.logged calls).counted {} := hbooked.tally_eq
  rw [hserve]
  refine ⟨⟨_, rfl, ?_, ?_⟩, hcycles'.trans hcycles, ?_, calls', hmakes', ?_⟩
  · rw [htally, ← hcycles]
    exact UInt64.zero_add _
  · rw [htally, ← hcycles, ← (hmakes.map_time_parcels hsteady hcheck).2]
    exact UInt64.zero_add _
  · exact Nat.max_le.2 ⟨Nat.le_add_right _ _, hnow⟩
  · intro parcel hparcel
    have htimes := (hmakes'.map_time_parcels hsteady hcheck).1
    rw [hcycles', hcycles] at htimes
    exact Plan.le_of_mem_timetable (htimes ▸ List.mem_map_of_mem hparcel)

/-- An emission whose pause does not end on the clock has sent the cycles that had begun, but has no result for
the watcher: it broke off, and nobody has cleared its flag. -/
theorem At.brokenOff {w : ω} (h : At e { session := { world := w } } time r) (hsteady : e.Steady)
    (hcheck : e.plan.check = .ok ()) (hinterval : 0 < e.plan.interval) (hmax : e.plan.maxCycles ≠ some 0)
    (hoff : ¬e.plan.interval ∣ time) (htime : time ≤ e.runtime.lastInstant) (hshort : ¬e.Outlasts time)
    (fuel : Nat) : r.cycles = e.plan.cyclesBy time ∧ r.session.running = true ∧
      Supervisor.serve e fuel ⟨r.stop, time⟩ .join =
        (.ended (.error (.task e.runtime.report)), ⟨r.stop, time⟩) := by
  obtain ⟨hcycles, hrests⟩ := h.rests hsteady hcheck hinterval hmax (fun _ _ => .inr hoff) htime
  cases hrests with
  | finished _ houtlasts | pausing _ _ houtlasts => exact absurd houtlasts hshort
  | brokenOff hphase hrunning =>
      refine ⟨hcycles, hrunning, ?_⟩
      have hstop : r.stop.phase = .brokenOff := hphase
      have hnow : max time r.stop.now = time := Nat.max_eq_left h.now_le
      show Supervisor.await e (r.stop.complete e fuel) _ _ = _
      rw [complete_of_due?_none (due?_of_brokenOff hstop), Supervisor.await, verdict?_of_brokenOff hstop]
      dsimp only
      rw [hnow]

/-- The packets of cycle `k` are sent at `k` times the interval and at no other time. Under steady devices
every cycle has been sent that has begun, and an emission that is stopped in a pause keeps to that if the pause
ends on the clock: it ends well within a slice, with the cycles that had begun. -/
theorem keeps_timetable {w : ω} {r₀ : Run ω} (hinterval : 0 < e.plan.interval) (hmax : e.plan.maxCycles ≠ some 0)
    (hstart : start e { world := w } = .ok r₀) :
    (∀ calls r, r₀.Makes e calls r → e.plan.timetable r.cycles <+: (Call.parcels calls).map Parcel.time ∧
      (Call.parcels calls).map Parcel.time <+: e.plan.timetable (r.cycles + 1)) ∧
    (e.Steady →
      (∀ calls r, r₀.Makes e calls r → (Call.parcels calls).map Parcel.time = e.plan.timetable r.cycles) ∧
      (∀ time fuel, time ≤ e.runtime.lastInstant → 2 * time + 2 ≤ fuel →
        r₀.At e time (r₀.advance e time fuel) ∧ (r₀.advance e time fuel).cycles = e.plan.cyclesBy time) ∧
      ∀ time r fuel, r₀.At e time r → ¬e.plan.interval ∣ time → e.Outlasts time → 0 < fuel →
        Supervisor.Joined e r₀ time (Supervisor.serve e fuel ⟨r.stop, time⟩ .join)) := by
  obtain ⟨_, hcheck, rfl⟩ := Outcome.map_eq_ok_iff.1 hstart
  refine ⟨fun calls r h => h.prefix_timetable hcheck, ?_⟩
  intro hsteady
  refine ⟨fun calls r h => (h.map_time_parcels hsteady hcheck).1, ?_, ?_⟩
  · intro time fuel htime hfuel
    obtain ⟨hat, hlater⟩ := at_advance_start hcheck hinterval w hfuel
    exact ⟨hat, (hat.rests hsteady hcheck hinterval hmax (fun due hdue => .inl (hlater due hdue)) htime).1⟩
  · intro time r fuel hat hoff houtlasts hfuel
    exact hat.joined hsteady hcheck hinterval hmax hoff houtlasts hfuel

end Run

theorem Emitter.dry_steady (maxCycles : Option UInt64) (interval : Nat) : (Emitter.dry maxCycles interval).Steady :=
  ⟨fun _ _ => ⟨⟨_, rfl⟩, rfl⟩, fun _ _ => ⟨rfl, rfl⟩, fun _ => ⟨rfl, rfl⟩⟩

/-- Stopped 25 milliseconds into its third pause. -/
theorem Run.keeps_timetable_dry :
    let e := Emitter.dry none
    let r₀ : Run String := { session := { world := "" } }
    let r := r₀.advance e 325 652
    e.Steady ∧ 0 < e.plan.interval ∧ e.plan.maxCycles ≠ some 0 ∧ Run.start e { world := "" } = .ok r₀ ∧
    e.plan.cyclesBy 325 = 3 ∧ e.plan.timetable 3 = [0, 0, 150, 150, 300, 300] ∧ ¬e.plan.interval ∣ 325 ∧
    e.Outlasts 325 ∧
    (∀ calls r, r₀.Makes e calls r → e.plan.timetable r.cycles <+: (Call.parcels calls).map Parcel.time ∧
      (Call.parcels calls).map Parcel.time <+: e.plan.timetable (r.cycles + 1)) ∧
    (∀ calls r, r₀.Makes e calls r → (Call.parcels calls).map Parcel.time = e.plan.timetable r.cycles) ∧
    (r₀.At e 325 r ∧ r.cycles = e.plan.cyclesBy 325) ∧
    Supervisor.Joined e r₀ 325 (Supervisor.serve e 1 ⟨r.stop, 325⟩ .join) := by
  intro e r₀ r
  have hsteady : e.Steady := Emitter.dry_steady none 150
  have hinterval : 0 < e.plan.interval := by decide
  have hcheck : e.plan.check = .ok () := by rfl
  have hstart : Run.start e { world := "" } = .ok r₀ := congrArg (Except.map fun _ => r₀) hcheck
  have hoff : ¬e.plan.interval ∣ 325 := by decide
  have houtlasts : e.Outlasts 325 := ⟨by decide, fun _ => by decide⟩
  obtain ⟨hbegun, hall⟩ := Run.keeps_timetable hinterval nofun hstart
  obtain ⟨htimes, hadvance, hjoin⟩ := hall hsteady
  have hat := hadvance 325 652 houtlasts.1 (by decide)
  exact ⟨hsteady, hinterval, nofun, hstart, by decide, by decide, hoff, houtlasts, hbegun, htimes, hat,
    hjoin 325 r 1 hat.1 hoff houtlasts Nat.one_pos⟩

/-- An interval of as many seconds as the clock can count lets no run keep its timetable: the first pause does
not end on the clock. -/
theorem Run.not_keeps_timetable :
    ¬∀ (e : Emitter String) (r₀ r : Run String) (time fuel : Nat), 0 < e.plan.interval →
      e.plan.maxCycles ≠ some 0 → e.Steady → Run.start e { world := "" } = .ok r₀ → r₀.At e time r →
      ¬e.plan.interval ∣ time → 0 < fuel →
      Supervisor.Joined e r₀ time (Supervisor.serve e fuel ⟨r.stop, time⟩ .join) := by
  intro hall
  let e := Emitter.dry none (UInt64.size / 2 * 1000)
  let r₀ : Run String := { session := { world := "" } }
  have hsteady : e.Steady := Emitter.dry_steady none _
  have hinterval : 0 < e.plan.interval := by decide
  have hcheck : e.plan.check = .ok () := by rfl
  have hstart : Run.start e { world := "" } = .ok r₀ := congrArg (Except.map fun _ => r₀) hcheck
  have hoff : ¬e.plan.interval ∣ 50 := by decide
  have hshort : ¬e.Outlasts 50 := fun houtlasts => absurd (houtlasts.2 nofun) (by decide)
  obtain ⟨hat, -⟩ := Run.at_advance_start hcheck hinterval "" (Nat.le_refl (2 * 50 + 2))
  obtain ⟨-, -, hserve⟩ := hat.brokenOff hsteady hcheck hinterval nofun hoff (by decide) hshort 1
  obtain ⟨tally, hanswer, -⟩ := (hall e r₀ _ 50 1 hinterval nofun hsteady hstart hat hoff Nat.one_pos).answer
  rw [hserve] at hanswer
  cases hanswer

end LabelTunnel
