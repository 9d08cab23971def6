import LabelTunnel.Proofs.Emission.Sweep

/-! What a cycle does to a session. Its calls are a sweep over the packets; what becomes of the running
flag and of the counters is what these calls say, and a sweep that was full is counted as a cycle. -/

namespace LabelTunnel

variable {ω : Type} {rest packets : List Packet} {p : Packet} {calls more : List Call}

namespace Session

/-- The session has gone on by these calls and by nothing else, and the devices have answered them. -/
structure Follows (e : Emitter ω) (s : Session (Logged ω)) (calls : List Call) (s' : Session (Logged ω)) :
    Prop where
  log : s'.world.calls = s.world.calls ++ calls
  running : s'.running = (s.running && !calls.any Call.stops)
  tally : s'.tally = calls.foldl Tally.note s.tally
  answers : ∀ c ∈ calls, e.Answers c

variable {e : Emitter ω}

theorem Follows.refl (s : Session (Logged ω)) : s.Follows e [] s :=
  ⟨(List.append_nil _).symm, (Bool.and_true _).symm, rfl, nofun⟩

theorem Follows.trans {s s' s'' : Session (Logged ω)} (h : s.Follows e calls s') (h' : s'.Follows e more s'') :
    s.Follows e (calls ++ more) s'' := by
  refine ⟨?_, ?_, ?_, ?_⟩
  · rw [h'.log, h.log, List.append_assoc]
  · rw [h'.running, h.running, List.any_append, Bool.not_or, Bool.and_assoc]
  · rw [h'.tally, h.tally, List.foldl_append]
  · intro c hc
    exact (List.mem_append.1 hc).elim (h.answers c) (h'.answers c)

theorem follows_afterSink (s : Session (Logged ω)) (reply : Reply ω Unit) (entry : Except String Unit → Entry)
    (hentry : Tally.note s.tally ⟨entry reply.result, reply.stops⟩ = s.tally)
    (hanswer : e.Answers ⟨entry reply.result, reply.stops⟩) :
    s.Follows e [⟨entry reply.result, reply.stops⟩] (s.afterSink (s.world.note reply entry)) := by
  refine ⟨rfl, ?_, hentry.symm, ?_⟩
  · rw [List.any_cons, List.any_nil, Bool.or_false]
    rfl
  · intro c hc
    exact List.mem_singleton.1 hc ▸ hanswer

theorem follows_afterSend (s : Session (Logged ω)) (parcel : Parcel) (reply : Reply ω UInt64)
    (hanswer : e.Answers ⟨.sent parcel reply.result, reply.stops⟩) :
    s.Follows e [⟨.sent parcel reply.result, reply.stops⟩]
      (s.afterSend (s.world.note reply (.sent parcel))) := by
  refine ⟨rfl, ?_, ?_, ?_⟩
  · rw [List.any_cons, List.any_nil, Bool.or_false]
    rfl
  · obtain ⟨result, stops, world⟩ := reply
    cases result <;> rfl
  · intro c hc
    exact List.mem_singleton.1 hc ▸ hanswer

/-- A line is written, and flushed if that went well. -/
theorem exists_follows_record (e : Emitter ω) (line : String) (s : Session (Logged ω)) :
    (∃ reason a, s.Follows e [⟨.wrote line (.error reason), a⟩] (s.record e.logged.sink line).2 ∧
      (s.record e.logged.sink line).1 = .error (.io reason)) ∨
    ∃ a result b, s.Follows e [⟨.wrote line (.ok ()), a⟩, ⟨.flushed result, b⟩]
      (s.record e.logged.sink line).2 ∧ (s.record e.logged.sink line).1 = result.mapError .io := by
  have hwrite := s.follows_afterSink (e.sink.write line s.world.world) (.wrote line) rfl
    ⟨s.world.world, rfl, rfl⟩
  cases hwritten : (e.sink.write line s.world.world).result with
  | error reason =>
      rw [hwritten] at hwrite
      rw [record_of_write_error (show (e.logged.sink.write line s.world).result = _ from hwritten)]
      exact .inl ⟨reason, _, hwrite, rfl⟩
  | ok _ =>
      rw [hwritten] at hwrite
      rw [record_of_write_ok (show (e.logged.sink.write line s.world).result = _ from hwritten)]
      have hflush := follows_afterSink (e := e) (s.afterSink (e.logged.sink.write line s.world))
        (e.sink.flush (e.sink.write line s.world.world).world) .flushed rfl ⟨_, rfl, rfl⟩
      exact .inr ⟨_, _, _, hwrite.trans hflush, rfl⟩

theorem exists_follows_send (e : Emitter ω) (flow : Nat) (parcel : Parcel) (s : Session (Logged ω)) :
    ∃ result c, s.Follows e [⟨.sent parcel result, c⟩] (s.send e.logged.transmitter flow parcel).2 ∧
      (s.send e.logged.transmitter flow parcel).1 =
        (result.mapError fun reason => .transmission flow parcel.destination reason).map fun _ => () :=
  ⟨_, _, s.follows_afterSend parcel _ ⟨s.world.world, rfl, rfl⟩, rfl⟩

def countCycle (s : Session ω) : Session ω := { s with tally := s.tally.countCycle }

end Session

/-! ### A cycle is a sweep -/

namespace Emitter

variable {e : Emitter ω}

theorem exists_passage_ship (hencode : p.encode = .ok p.octets) (time sent : Nat) (s : Session (Logged ω)) :
    ∃ calls, s.Follows e calls (e.logged.ship time sent p s).2 ∧
      Passage e.plan.outerDestination time (sent + 1) p calls (e.logged.ship time sent p s).1 := by
  rcases s.exists_follows_record e p.traceLine with
    ⟨reason, a, hfollows, hresult⟩ | ⟨a, flushed, b, hfollows, hresult⟩
  · rw [ship_of_record_error hencode (Prod.ext hresult rfl)]
    exact ⟨_, hfollows, .unwritten reason a⟩
  cases flushed with
  | error reason =>
      rw [ship_of_record_error hencode (Prod.ext hresult rfl)]
      exact ⟨_, hfollows, .unflushed reason a b⟩
  | ok _ =>
      rw [ship_of_record_ok hencode (Prod.ext hresult rfl)]
      obtain ⟨result, c, hfollows', hresult'⟩ := Session.exists_follows_send e (sent + 1)
        ⟨time, e.plan.outerDestination, p.octets⟩ (s.record e.logged.sink p.traceLine).2
      refine ⟨_, hfollows.trans hfollows', ?_⟩
      rw [plan_logged, hresult']
      cases result with
      | error reason => exact .refused reason a b c
      | ok accepted => exact .taken accepted a b c

/-- Whether a result is that of a cycle whose packets were all sent. -/
def fills (total : Nat) : Except Fault Nat → Bool
  | .ok sent => decide (total ≤ sent)
  | .error _ => false

/-- What `emit` does to a session: its calls are a sweep, only a full sweep is counted as a cycle, and one
that is cut short has found the emission stopped. -/
structure Swept (e : Emitter ω) (time sent : Nat) (s : Session (Logged ω)) (rest : List Packet)
    (calls : List Call) (s' : Session (Logged ω)) (outcome : Except Fault Nat × Session (Logged ω)) :
    Prop where
  follows : s.Follows e calls s'
  sweep : Sweep e.plan.outerDestination time sent rest calls outcome.1
  session_eq : outcome.2 = if fills (sent + rest.length) outcome.1 then s'.countCycle else s'
  silent : s.running = false → calls = []
  stopped_of_cut : ∀ n, outcome.1 = .ok n → n < sent + rest.length → s'.running = false

theorem exists_swept_emit (hencode : ∀ p ∈ rest, p.encode = .ok p.octets) (time sent : Nat)
    (s : Session (Logged ω)) :
    ∃ calls s', Swept e time sent s rest calls s' (e.logged.emit time sent s rest) := by
  induction rest generalizing sent s with
  | nil =>
      refine ⟨[], s, .refl s, .full sent, ?_, fun _ => rfl, ?_⟩
      · exact (if_pos (decide_eq_true (Nat.le_refl sent))).symm
      · intro n hn hlt
        cases hn
        exact absurd hlt (Nat.lt_irrefl sent)
  | cons p rest ih =>
      cases hrunning : s.running with
      | false =>
          rw [emit_of_stopped hrunning]
          refine ⟨[], s, .refl s, .cut sent p rest, (if_neg ?_).symm, fun _ => rfl, fun _ _ _ => hrunning⟩
          rw [fills, decide_eq_true_iff, List.length_cons]
          omega
      | true =>
          obtain ⟨calls, hfollows, hpassage⟩ := exists_passage_ship (hencode p List.mem_cons_self) time sent s
          rcases hship : e.logged.ship time sent p s with ⟨fault | _, s'⟩
          · rw [hship] at hfollows hpassage
            rw [emit_of_ship_error hrunning hship]
            refine ⟨calls, s', hfollows, .broken hpassage rest, rfl, ?_, nofun⟩
            exact fun hstopped => Bool.noConfusion (hrunning.symm.trans hstopped)
          · rw [hship] at hfollows hpassage
            rw [emit_of_ship_ok hrunning hship]
            obtain ⟨more, s'', hswept⟩ :=
              ih (fun q hq => hencode q (List.mem_cons_of_mem p hq)) (sent + 1) s'
            have htotal : sent + 1 + rest.length = sent + (p :: rest).length := by
              rw [List.length_cons]
              omega
            refine ⟨calls ++ more, s'', hfollows.trans hswept.follows, .next hpassage hswept.sweep ?_,
              htotal ▸ hswept.session_eq, ?_, htotal ▸ hswept.stopped_of_cut⟩
            · intro hstops
              apply hswept.silent
              rw [hfollows.running, hstops]
              exact Bool.and_false _
            · exact fun hstopped => Bool.noConfusion (hrunning.symm.trans hstopped)

theorem exists_swept_cycle (hplan : e.plan.Carries packets) (time : Nat) (s : Session (Logged ω)) :
    ∃ calls s', Swept e time 0 s packets calls s' (e.logged.cycle time s) := by
  have hcycle : e.logged.cycle time s = e.logged.emit time 0 s packets := by
    unfold cycle
    rw [plan_logged, hplan.packets_eq]
  rw [hcycle]
  exact exists_swept_emit hplan.encode_eq time 0 s

end Emitter

end LabelTunnel
