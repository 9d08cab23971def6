import LabelTunnel.Proofs.Emission.Course

/-! Emissions seen through a view of their world. Where the devices of one emitter answer as those of
another one do, up to a map between the two worlds, whole runs do so too: the map takes every point
that the first run comes to to the point that the second one comes to. So a world can be given more to
remember without a change in what happens. -/

namespace LabelTunnel

variable {ω ω' α : Type}

def Reply.map (f : ω → ω') (reply : Reply ω α) : Reply ω' α :=
  { result := reply.result, stops := reply.stops, world := f reply.world }

def Session.map (f : ω → ω') (s : Session ω) : Session ω' :=
  { world := f s.world, running := s.running, tally := s.tally }

@[simp] theorem Session.running_map (f : ω → ω') (s : Session ω) : (s.map f).running = s.running := rfl

def Run.map (f : ω → ω') (r : Run ω) : Run ω' :=
  { session := r.session.map f, cycles := r.cycles, now := r.now, phase := r.phase }

/-- The second emitter is the first one, seen through the view. -/
structure Emitter.Shows (f : ω → ω') (e : Emitter ω) (e' : Emitter ω') : Prop where
  plan : e'.plan = e.plan
  runtime : e'.runtime = e.runtime
  send (parcel : Parcel) (w : ω) :
    e'.transmitter.send parcel (f w) = (e.transmitter.send parcel w).map f
  write (line : String) (w : ω) : e'.sink.write line (f w) = (e.sink.write line w).map f
  flush (w : ω) : e'.sink.flush (f w) = (e.sink.flush w).map f

namespace Emitter.Shows

variable {f : ω → ω'} {e : Emitter ω} {e' : Emitter ω'}

theorem record_map (h : e.Shows f e') (line : String) (s : Session ω) :
    (s.map f).record e'.sink line = ((s.record e.sink line).1, (s.record e.sink line).2.map f) := by
  have hwrite : e'.sink.write line (s.map f).world = (e.sink.write line s.world).map f :=
    h.write line s.world
  unfold Session.record
  simp only [hwrite, Reply.map, h.flush]
  cases (e.sink.write line s.world).result with
  | error reason => rfl
  | ok _ => rfl

theorem send_map (h : e.Shows f e') (flow : Nat) (parcel : Parcel) (s : Session ω) :
    (s.map f).send e'.transmitter flow parcel =
      ((s.send e.transmitter flow parcel).1, (s.send e.transmitter flow parcel).2.map f) := by
  have hsend : e'.transmitter.send parcel (s.map f).world = (e.transmitter.send parcel s.world).map f :=
    h.send parcel s.world
  unfold Session.send
  rw [hsend]
  rfl

theorem ship_map (h : e.Shows f e') (time sent : Nat) (p : Packet) (s : Session ω) :
    e'.ship time sent p (s.map f) = ((e.ship time sent p s).1, (e.ship time sent p s).2.map f) := by
  unfold ship
  cases p.encode with
  | error fault => rfl
  | ok bytes =>
      simp only [h.record_map, h.plan]
      cases hrecord : s.record e.sink p.traceLine with
      | mk result s' =>
          cases result with
          | error fault => rfl
          | ok _ => exact h.send_map (sent + 1) _ s'

theorem emit_map (h : e.Shows f e') (time sent : Nat) (s : Session ω) (rest : List Packet) :
    e'.emit time sent (s.map f) rest =
      ((e.emit time sent s rest).1, (e.emit time sent s rest).2.map f) := by
  induction rest generalizing sent s with
  | nil => rfl
  | cons p rest ih =>
      cases hrunning : s.running with
      | false => rw [emit_of_stopped hrunning, emit_of_stopped ((s.running_map f).trans hrunning)]
      | true =>
          have hrunning' : (s.map f).running = true := hrunning
          cases hship : e.ship time sent p s with
          | mk result s' =>
              have hship' : e'.ship time sent p (s.map f) = (result, s'.map f) := by
                rw [h.ship_map, hship]
              cases result with
              | error fault => rw [emit_of_ship_error hrunning hship, emit_of_ship_error hrunning' hship']
              | ok _ =>
                  rw [emit_of_ship_ok hrunning hship, emit_of_ship_ok hrunning' hship']
                  exact ih (sent + 1) s'

theorem cycle_map (h : e.Shows f e') (time : Nat) (s : Session ω) :
    e'.cycle time (s.map f) = ((e.cycle time s).1, (e.cycle time s).2.map f) := by
  unfold cycle
  rw [h.plan]
  cases e.plan.packets with
  | error fault => rfl
  | ok packets => exact h.emit_map time 0 s packets

end Emitter.Shows

namespace Run

variable (f : ω → ω') (r : Run ω)

@[simp] theorem map_finish : r.finish.map f = (r.map f).finish := rfl

theorem map_look (deadline : Nat) : (r.look deadline).map f = (r.map f).look deadline := by
  have hlook : Pause.look (r.map f).session.running deadline (r.map f).now =
      Pause.look r.session.running deadline r.now := rfl
  unfold look
  rw [hlook]
  cases Pause.look r.session.running deadline r.now with
  | stopped => rfl
  | elapsed => rfl
  | sleep wake => rfl

theorem map_pause (runtime : Runtime) (duration : Nat) :
    (r.pause runtime duration).map f = (r.map f).pause runtime duration := by
  have hnow : (r.map f).now = r.now := rfl
  unfold pause
  rw [hnow]
  cases runtime.later? r.now duration with
  | none => rfl
  | some deadline => exact map_look f r deadline

variable {f} {e : Emitter ω} {e' : Emitter ω'}

theorem map_afterCycle (h : e.Shows f e') : (r.afterCycle e).map f = (r.map f).afterCycle e' := by
  unfold afterCycle
  rw [h.plan, h.runtime]
  cases e.plan.maxCycles with
  | none => exact map_pause f _ _ _
  | some max =>
      show (if max.toNat ≤ r.cycles + 1 then _ else _ : Run ω).map f =
        if max.toNat ≤ r.cycles + 1 then _ else _
      by_cases hlast : max.toNat ≤ r.cycles + 1
      · rw [if_pos hlast, if_pos hlast]
        rfl
      · rw [if_neg hlast, if_neg hlast]
        exact map_pause f _ _ _

theorem map_emitCycle (h : e.Shows f e') : (r.emitCycle e).map f = (r.map f).emitCycle e' := by
  have hcycle : e'.cycle (r.map f).now (r.map f).session = _ := h.cycle_map r.now r.session
  rcases hresult : e.cycle r.now r.session with ⟨fault | sent, s⟩
  · rw [hresult] at hcycle
    rw [emitCycle_of_error hresult, emitCycle_of_error hcycle]
    rfl
  · rw [hresult] at hcycle
    by_cases hcut : sent < e.plan.flows.length
    · rw [emitCycle_of_lt hresult hcut, emitCycle_of_lt hcycle (h.plan ▸ hcut)]
      rfl
    · have hfull := Nat.le_of_not_lt hcut
      rw [emitCycle_of_le hresult hfull, emitCycle_of_le hcycle (h.plan ▸ hfull), map_afterCycle _ h]
      rfl

/-- A step of the run seen is the step of the run, seen. -/
theorem map_step (h : e.Shows f e') : (r.step e).map f = (r.map f).step e' := by
  cases hphase : r.phase with
  | ready =>
      have hphase' : (r.map f).phase = .ready := hphase
      cases hrunning : r.session.running with
      | false =>
          have hrunning' : (r.map f).session.running = false := hrunning
          rw [step_of_stopped hphase hrunning, step_of_stopped hphase' hrunning', map_finish]
      | true =>
          have hrunning' : (r.map f).session.running = true := hrunning
          rw [step_of_running hphase hrunning, step_of_running hphase' hrunning', map_emitCycle r h]
  | asleep wake deadline =>
      have hphase' : (r.map f).phase = .asleep wake deadline := hphase
      rw [step_of_asleep hphase, step_of_asleep hphase', map_look]
      rfl
  | ended outcome =>
      have hphase' : (r.map f).phase = .ended outcome := hphase
      rw [step_of_ended hphase, step_of_ended hphase']
  | brokenOff =>
      have hphase' : (r.map f).phase = .brokenOff := hphase
      rw [step_of_brokenOff hphase, step_of_brokenOff hphase']

/-- Following the run to its end and then seeing it is following what is seen. -/
theorem map_complete (h : e.Shows f e') (fuel : Nat) : (r.complete e fuel).map f = (r.map f).complete e' fuel := by
  induction fuel generalizing r with
  | zero => rfl
  | succ fuel ih =>
      have hdue : (r.map f).due? = r.due? := rfl
      unfold complete
      rw [hdue]
      cases r.due? with
      | none => rfl
      | some due =>
          dsimp only
          rw [ih, map_step r h]

end Run

end LabelTunnel
