import LabelTunnel.Emission.Run
import LabelTunnel.Proofs.Emission.Looks

/-! The course of an emission. A cycle goes packet by packet: a cleared flag ends it before the next
packet, a fault at a packet ends it there, and otherwise it goes on behind that packet. A step of a run
depends on where it stands: it starts a cycle, looks in a pause, or is over. -/

namespace LabelTunnel

variable {ω : Type} {e : Emitter ω}

namespace Session

variable {sink : Sink ω} {line : String} {s : Session ω}

theorem record_of_write_error {reason : String} (h : (sink.write line s.world).result = .error reason) :
    s.record sink line = (.error (.io reason), s.afterSink (sink.write line s.world)) := by
  unfold record
  simp only [h]

theorem record_of_write_ok (h : (sink.write line s.world).result = .ok ()) : s.record sink line =
    ((sink.flush (sink.write line s.world).world).result.mapError .io,
      (s.afterSink (sink.write line s.world)).afterSink (sink.flush (sink.write line s.world).world)) := by
  unfold record
  simp only [h]

end Session

namespace Emitter

variable {time sent : Nat} {s s' : Session ω} {p : Packet}

theorem ship_of_record_error {bytes : Octets} {fault : Fault} (hencode : p.encode = .ok bytes)
    (hrecord : s.record e.sink p.traceLine = (.error fault, s')) :
    e.ship time sent p s = (.error fault, s') := by
  unfold ship
  simp only [hencode, hrecord]

theorem ship_of_record_ok {bytes : Octets} (hencode : p.encode = .ok bytes)
    (hrecord : s.record e.sink p.traceLine = (.ok (), s')) : e.ship time sent p s =
      s'.send e.transmitter (sent + 1) ⟨time, e.plan.outerDestination, bytes⟩ := by
  unfold ship
  simp only [hencode, hrecord]

theorem emit_of_stopped (hstopped : s.running = false) (rest : List Packet) :
    e.emit time sent s (p :: rest) = (.ok sent, s) := by
  rw [emit, hstopped]
  rfl

theorem emit_of_ship_error {fault : Fault} (hrunning : s.running = true)
    (hship : e.ship time sent p s = (.error fault, s')) (rest : List Packet) :
    e.emit time sent s (p :: rest) = (.error fault, s') := by
  rw [emit, hrunning, hship]
  rfl

theorem emit_of_ship_ok (hrunning : s.running = true) (hship : e.ship time sent p s = (.ok (), s'))
    (rest : List Packet) : e.emit time sent s (p :: rest) = e.emit time (sent + 1) s' rest := by
  rw [emit, hrunning, hship]
  rfl

end Emitter

namespace Run

variable {r : Run ω}

theorem step_of_stopped (hphase : r.phase = .ready) (hstopped : r.session.running = false) :
    r.step e = r.finish := by
  rw [step, hphase, hstopped]
  rfl

theorem step_of_running (hphase : r.phase = .ready) (hrunning : r.session.running = true) :
    r.step e = r.emitCycle e := by
  rw [step, hphase, hrunning]
  rfl

theorem step_of_asleep {wake deadline : Nat} (hphase : r.phase = .asleep wake deadline) :
    r.step e = { r with now := wake }.look deadline := by
  rw [step, hphase]

theorem step_of_ended {outcome : Except Fault Tally} (hphase : r.phase = .ended outcome) :
    r.step e = r := by
  rw [step, hphase]

theorem step_of_brokenOff (hphase : r.phase = .brokenOff) : r.step e = r := by
  rw [step, hphase]

theorem outcome?_of_ready (h : r.phase = .ready) : r.outcome? = none := by rw [outcome?, h]

theorem outcome?_of_asleep {wake deadline : Nat} (h : r.phase = .asleep wake deadline) : r.outcome? = none := by
  rw [outcome?, h]

theorem outcome?_of_ended {outcome : Except Fault Tally} (h : r.phase = .ended outcome) :
    r.outcome? = some outcome := by
  rw [outcome?, h]

theorem outcome?_of_brokenOff (h : r.phase = .brokenOff) : r.outcome? = none := by rw [outcome?, h]

theorem due?_of_ready (h : r.phase = .ready) : r.due? = some r.now := by rw [due?, h]

theorem due?_of_asleep {wake deadline : Nat} (h : r.phase = .asleep wake deadline) : r.due? = some wake := by
  rw [due?, h]

theorem due?_of_ended {outcome : Except Fault Tally} (h : r.phase = .ended outcome) : r.due? = none := by
  rw [due?, h]

theorem due?_of_brokenOff (h : r.phase = .brokenOff) : r.due? = none := by rw [due?, h]

theorem outcome?_of_due? {due : Nat} (h : r.due? = some due) : r.outcome? = none := by
  cases hphase : r.phase with
  | ready => exact outcome?_of_ready hphase
  | asleep wake deadline => exact outcome?_of_asleep hphase
  | ended outcome => cases h.symm.trans (due?_of_ended hphase)
  | brokenOff => exact outcome?_of_brokenOff hphase

theorem phase_of_outcome? {outcome : Except Fault Tally} (h : r.outcome? = some outcome) :
    r.phase = .ended outcome := by
  unfold outcome? at h
  cases hphase : r.phase with
  | ready | asleep _ _ | brokenOff =>
      rw [hphase] at h
      cases h
  | ended outcome' =>
      rw [hphase] at h
      exact congrArg _ (Option.some.inj h)

theorem verdict?_of_brokenOff (h : r.phase = .brokenOff) :
    r.verdict? e = some (.error (.task e.runtime.report)) := by
  rw [verdict?, h]

/-- Those who wait for a run learn what it returned. -/
theorem verdict?_of_outcome? {outcome : Except Fault Tally} (h : r.outcome? = some outcome) :
    r.verdict? e = some outcome := by
  rw [verdict?, phase_of_outcome? h]
  exact h

theorem emitCycle_of_error {fault : Fault} {s : Session ω} (hcycle : e.cycle r.now r.session = (.error fault, s)) :
    r.emitCycle e = { r with session := s }.fail fault := by
  rw [emitCycle, hcycle]

theorem emitCycle_of_lt {sent : Nat} {s : Session ω} (hcycle : e.cycle r.now r.session = (.ok sent, s))
    (hcut : sent < e.plan.flows.length) : r.emitCycle e = { r with session := s }.finish := by
  rw [emitCycle, hcycle]
  exact if_pos hcut

theorem emitCycle_of_le {sent : Nat} {s : Session ω} (hcycle : e.cycle r.now r.session = (.ok sent, s))
    (hfull : e.plan.flows.length ≤ sent) :
    r.emitCycle e = { r with session := s }.afterCycle e := by
  rw [emitCycle, hcycle]
  exact if_neg (Nat.not_lt.2 hfull)

theorem look_of_stopped {deadline : Nat} (hstopped : r.session.running = false) : r.look deadline = r.finish := by
  rw [look, hstopped, Pause.look_of_clear]

theorem look_of_le {deadline : Nat} (hrunning : r.session.running = true) (helapsed : deadline ≤ r.now) :
    r.look deadline = { r with phase := .ready } := by
  rw [look, hrunning, Pause.look_of_le helapsed]

theorem look_of_lt {deadline : Nat} (hrunning : r.session.running = true) (hleft : r.now < deadline) :
    r.look deadline = { r with phase := .asleep (r.now + min (deadline - r.now) Pause.slice) deadline } := by
  rw [look, hrunning, Pause.look_of_lt hleft]

/-- A look finds the run stopped, the pause over, or some of it left. -/
theorem look_induct {motive : Run ω → Prop} {deadline : Nat}
    (stopped : r.session.running = false → motive r.finish)
    (elapsed : r.session.running = true → deadline ≤ r.now → motive { r with phase := .ready })
    (asleep : r.session.running = true → r.now < deadline →
      motive { r with phase := .asleep (r.now + min (deadline - r.now) Pause.slice) deadline }) :
    motive (r.look deadline) := by
  cases hrunning : r.session.running with
  | false =>
      rw [look_of_stopped hrunning]
      exact stopped hrunning
  | true =>
      by_cases hleft : deadline ≤ r.now
      · rw [look_of_le hrunning hleft]
        exact elapsed hrunning hleft
      · rw [look_of_lt hrunning (Nat.lt_of_not_le hleft)]
        exact asleep hrunning (Nat.lt_of_not_le hleft)

theorem look_cases (deadline : Nat) (r : Run ω) : r.look deadline = r.finish ∨
    ∃ phase, r.look deadline = { r with phase } := by
  unfold look
  cases Pause.look r.session.running deadline r.now with
  | stopped => exact .inl rfl
  | elapsed => exact .inr ⟨_, rfl⟩
  | sleep wake => exact .inr ⟨_, rfl⟩

@[simp] theorem world_look (deadline : Nat) : (r.look deadline).session.world = r.session.world := by
  rcases look_cases deadline r with h | ⟨phase, h⟩
  · rw [h]
    rfl
  · rw [h]

@[simp] theorem cycles_look (deadline : Nat) : (r.look deadline).cycles = r.cycles := by
  rcases look_cases deadline r with h | ⟨phase, h⟩
  · rw [h]
    rfl
  · rw [h]

@[simp] theorem now_look (deadline : Nat) : (r.look deadline).now = r.now := by
  rcases look_cases deadline r with h | ⟨phase, h⟩
  · rw [h]
    rfl
  · rw [h]

theorem pause_of_le {runtime : Runtime} {duration : Nat} (hreached : r.now + duration ≤ runtime.lastInstant) :
    r.pause runtime duration = r.look (r.now + duration) := by
  rw [pause, Runtime.later?_of_le hreached]

theorem pause_of_lt {runtime : Runtime} {duration : Nat} (hbeyond : runtime.lastInstant < r.now + duration) :
    r.pause runtime duration = { r with phase := .brokenOff } := by
  rw [pause, Runtime.later?_of_lt hbeyond]

theorem pause_cases (runtime : Runtime) (duration : Nat) (r : Run ω) :
    r.pause runtime duration = r.look (r.now + duration) ∨
      r.pause runtime duration = { r with phase := .brokenOff } := by
  rcases Nat.lt_or_ge runtime.lastInstant (r.now + duration) with hbeyond | hreached
  · exact .inr (pause_of_lt hbeyond)
  · exact .inl (pause_of_le hreached)

@[simp] theorem world_pause (runtime : Runtime) (duration : Nat) :
    (r.pause runtime duration).session.world = r.session.world := by
  rcases pause_cases runtime duration r with h | h
  · rw [h, world_look]
  · rw [h]

@[simp] theorem cycles_pause (runtime : Runtime) (duration : Nat) :
    (r.pause runtime duration).cycles = r.cycles := by
  rcases pause_cases runtime duration r with h | h
  · rw [h, cycles_look]
  · rw [h]

/-- Behind a cycle there is one more of them, and either the run is over or it pauses. -/
theorem afterCycle_cases (e : Emitter ω) (r : Run ω) :
    r.afterCycle e = { r with cycles := r.cycles + 1 }.finish ∨
      r.afterCycle e = { r with cycles := r.cycles + 1 }.pause e.runtime e.plan.interval := by
  unfold afterCycle
  cases e.plan.maxCycles with
  | none => exact .inr rfl
  | some max =>
      by_cases hlast : max.toNat ≤ r.cycles + 1
      · exact .inl (if_pos hlast)
      · exact .inr (if_neg hlast)

theorem afterCycle_of_le {max : UInt64} (hmax : e.plan.maxCycles = some max) (hlast : max.toNat ≤ r.cycles + 1) :
    r.afterCycle e = { r with cycles := r.cycles + 1 }.finish := by
  unfold afterCycle
  rw [hmax]
  exact if_pos hlast

theorem afterCycle_of_lt (hleft : ∀ max, e.plan.maxCycles = some max → r.cycles + 1 < max.toNat) :
    r.afterCycle e = { r with cycles := r.cycles + 1 }.pause e.runtime e.plan.interval := by
  unfold afterCycle
  cases hmax : e.plan.maxCycles with
  | none => rfl
  | some max => exact if_neg (Nat.not_le.2 (hleft max hmax))

@[simp] theorem world_afterCycle (e : Emitter ω) : (r.afterCycle e).session.world = r.session.world := by
  rcases afterCycle_cases e r with h | h
  · rw [h]
    rfl
  · rw [h, world_pause]

@[simp] theorem cycles_afterCycle (e : Emitter ω) : (r.afterCycle e).cycles = r.cycles + 1 := by
  rcases afterCycle_cases e r with h | h
  · rw [h]
    rfl
  · rw [h, cycles_pause]

end Run

end LabelTunnel
