import LabelTunnel.Proofs.Emission.Cycle

/-! Strides: all that a step of a run can do. It stops before a cycle, sweeps a cycle and goes on as the
sweep says, looks into a pause, or stays where it ended. It breaks off if the clock does not come to the
deadline of a pause. What is to hold at every point of a run is shown stride by stride. -/

namespace LabelTunnel

variable {ω : Type} {e : Emitter ω} {packets : List Packet}

namespace Run

/-- A step of a run with a log, the packets of a cycle being given. -/
inductive Stride (e : Emitter ω) (packets : List Packet) (r : Run (Logged ω)) : Run (Logged ω) → Prop
  | ended {outcome : Except Fault Tally} (phase : r.phase = .ended outcome) : Stride e packets r r
  | brokenOff (phase : r.phase = .brokenOff) : Stride e packets r r
  | idle (phase : r.phase = .ready) (stopped : r.session.running = false) : Stride e packets r r.finish
  | broken (phase : r.phase = .ready) (running : r.session.running = true)
      {calls : List Call} {s : Session (Logged ω)} {fault : Fault}
      (follows : r.session.Follows e calls s)
      (sweep : Sweep e.plan.outerDestination r.now 0 packets calls (.error fault)) :
      Stride e packets r ({ r with session := s }.fail fault)
  | cut (phase : r.phase = .ready) (running : r.session.running = true)
      {calls : List Call} {s : Session (Logged ω)} {sent : Nat}
      (follows : r.session.Follows e calls s)
      (sweep : Sweep e.plan.outerDestination r.now 0 packets calls (.ok sent))
      (short : sent < packets.length) (stopped : s.running = false) :
      Stride e packets r { r with session := s }.finish
  | last (phase : r.phase = .ready) (running : r.session.running = true)
      {calls : List Call} {s : Session (Logged ω)} {max : UInt64}
      (follows : r.session.Follows e calls s)
      (sweep : Sweep e.plan.outerDestination r.now 0 packets calls (.ok packets.length))
      (limit : e.plan.maxCycles = some max) (reached : max.toNat ≤ r.cycles + 1) :
      Stride e packets r { r with session := s.countCycle, cycles := r.cycles + 1 }.finish
  | full (phase : r.phase = .ready) (running : r.session.running = true)
      {calls : List Call} {s : Session (Logged ω)}
      (follows : r.session.Follows e calls s)
      (sweep : Sweep e.plan.outerDestination r.now 0 packets calls (.ok packets.length))
      (left : ∀ max, e.plan.maxCycles = some max → r.cycles + 1 < max.toNat)
      (reached : r.now + e.plan.interval ≤ e.runtime.lastInstant) :
      Stride e packets r
        ({ r with session := s.countCycle, cycles := r.cycles + 1 }.look (r.now + e.plan.interval))
  | overrun (phase : r.phase = .ready) (running : r.session.running = true)
      {calls : List Call} {s : Session (Logged ω)}
      (follows : r.session.Follows e calls s)
      (sweep : Sweep e.plan.outerDestination r.now 0 packets calls (.ok packets.length))
      (left : ∀ max, e.plan.maxCycles = some max → r.cycles + 1 < max.toNat)
      (beyond : e.runtime.lastInstant < r.now + e.plan.interval) :
      Stride e packets r { r with session := s.countCycle, cycles := r.cycles + 1, phase := .brokenOff }
  | woken {wake deadline : Nat} (phase : r.phase = .asleep wake deadline) :
      Stride e packets r ({ r with now := wake }.look deadline)

variable {r r₀ : Run ω}

theorem stride_emitCycle (hplan : e.plan.Carries packets) {r : Run (Logged ω)} (hphase : r.phase = .ready)
    (hrunning : r.session.running = true) : r.Stride e packets (r.emitCycle e.logged) := by
  obtain ⟨calls, s, hswept⟩ := Emitter.exists_swept_cycle hplan r.now r.session
  have hsession := hswept.session_eq
  rw [Nat.zero_add] at hsession
  rcases hcycle : e.logged.cycle r.now r.session with ⟨fault | sent, s'⟩
  · rw [hcycle] at hswept hsession
    rw [emitCycle_of_error hcycle, show s' = s from hsession]
    exact .broken hphase hrunning hswept.follows hswept.sweep
  · rw [hcycle] at hswept hsession
    have hle := hswept.sweep.le_of_ok
    have hcut := hswept.stopped_of_cut sent rfl
    rw [Nat.zero_add] at hle hcut
    by_cases hshort : sent < packets.length
    · rw [emitCycle_of_lt hcycle (hplan.length_eq ▸ hshort),
        show s' = s from hsession.trans (if_neg (by rw [Emitter.fills, decide_eq_true_iff]; omega))]
      exact .cut hphase hrunning hswept.follows hswept.sweep hshort (hcut hshort)
    · have hall : sent = packets.length := by omega
      subst hall
      rw [emitCycle_of_le hcycle (Nat.le_of_eq hplan.length_eq.symm),
        show s' = s.countCycle from hsession.trans (if_pos (decide_eq_true (Nat.le_refl _)))]
      by_cases hlast : ∃ max, e.plan.maxCycles = some max ∧ max.toNat ≤ r.cycles + 1
      · obtain ⟨max, hmax, hreached⟩ := hlast
        rw [afterCycle_of_le (r := { r with session := s.countCycle }) hmax hreached]
        exact .last hphase hrunning hswept.follows hswept.sweep hmax hreached
      · have hleft : ∀ max, e.plan.maxCycles = some max → r.cycles + 1 < max.toNat :=
          fun max hmax => Nat.lt_of_not_le fun hreached => hlast ⟨max, hmax, hreached⟩
        rw [afterCycle_of_lt (r := { r with session := s.countCycle }) hleft, Emitter.plan_logged,
          Emitter.runtime_logged]
        rcases Nat.lt_or_ge e.runtime.lastInstant (r.now + e.plan.interval) with hbeyond | hinside
        · rw [pause_of_lt (r := { r with session := s.countCycle, cycles := r.cycles + 1 }) hbeyond]
          exact .overrun hphase hrunning hswept.follows hswept.sweep hleft hbeyond
        · rw [pause_of_le (r := { r with session := s.countCycle, cycles := r.cycles + 1 }) hinside]
          exact .full hphase hrunning hswept.follows hswept.sweep hleft hinside

theorem stride_step (hplan : e.plan.Carries packets) (r : Run (Logged ω)) :
    r.Stride e packets (r.step e.logged) := by
  cases hphase : r.phase with
  | ready =>
      cases hrunning : r.session.running with
      | false =>
          rw [step_of_stopped hphase hrunning]
          exact .idle hphase hrunning
      | true =>
          rw [step_of_running hphase hrunning]
          exact stride_emitCycle hplan hphase hrunning
  | asleep wake deadline =>
      rw [step_of_asleep hphase]
      exact .woken hphase
  | ended outcome =>
      rw [step_of_ended hphase]
      exact .ended hphase
  | brokenOff =>
      rw [step_of_brokenOff hphase]
      exact .brokenOff hphase

/-- A step of a run is a stride of its log, whatever the log has so far. -/
theorem exists_stride_step (hplan : e.plan.Carries packets) (r : Run ω) (calls : List Call) :
    ∃ calls', (r.logged calls).Stride e packets ((r.step e).logged calls') := by
  obtain ⟨calls', hstep, -⟩ := exists_step_logged e r calls
  exact ⟨calls', hstep ▸ stride_step hplan _⟩

/-- What holds at the start, behind every stride and behind every stop from outside holds wherever the
run comes to. -/
theorem Makes.induct {motive : Run (Logged ω) → Prop} {calls : List Call} (h : r₀.Makes e calls r)
    (hplan : e.plan.Carries packets) (start : motive (r₀.logged []))
    (stride : ∀ {r r' : Run (Logged ω)}, r.Stride e packets r' → motive r → motive r')
    (stop : ∀ {r : Run (Logged ω)}, motive r → motive r.stop) : motive (r.logged calls) := by
  obtain ⟨entries, h⟩ := h
  generalize r.logged calls = r' at h
  induction h with
  | start => exact start
  | step _ ih => exact stride (stride_step hplan _) ih
  | stop _ ih => exact stop ih

/-- What holds at the start and behind every stride holds as long as nobody stops the run from outside. -/
theorem complete_induct {motive : Run (Logged ω) → Prop} (hplan : e.plan.Carries packets)
    (stride : ∀ {r r' : Run (Logged ω)}, r.Stride e packets r' → motive r → motive r') (fuel : Nat)
    {r : Run (Logged ω)} (start : motive r) : motive (r.complete e.logged fuel) := by
  induction fuel generalizing r with
  | zero => exact start
  | succ fuel ih =>
      unfold complete
      cases r.due? with
      | none => exact start
      | some due => exact ih (stride (stride_step hplan r) start)

end Run

end LabelTunnel
