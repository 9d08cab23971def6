import LabelTunnel.Proofs.Emission.Clock

/-! The schedule of a run. Whatever the devices answer, the log has the beginning of the endless schedule,
packet for packet, and behind it at most one passage that failed, with which the run is over. Only the
last call can be one that closes a run. -/

namespace LabelTunnel

variable {ω : Type} {e : Emitter ω} {packets : List Packet}

/-- The packets of so many cycles, each with the time at which it is to be sent. -/
def Plan.schedule (plan : Plan) (packets : List Packet) (count : Nat) : List (Nat × Packet) :=
  (List.range count).flatMap fun k => packets.map (Prod.mk (k * plan.interval))

theorem Plan.schedule_succ (plan : Plan) (packets : List Packet) (count : Nat) :
    plan.schedule packets (count + 1) =
      plan.schedule packets count ++ packets.map (Prod.mk (count * plan.interval)) := by
  unfold schedule
  rw [List.range_succ, List.flatMap_append, List.flatMap_singleton]

theorem Plan.length_schedule (plan : Plan) (packets : List Packet) (count : Nat) :
    (plan.schedule packets count).length = count * packets.length := by
  induction count with
  | zero => rw [Nat.zero_mul]; rfl
  | succ count ih => rw [schedule_succ, List.length_append, List.length_map, ih, Nat.succ_mul]

namespace Run

/-- How far a run has come on its schedule: the packets that were taken, and what calls there are behind
them. A run that goes on has nothing unfinished. -/
inductive Standing (e : Emitter ω) (packets : List Packet) (r : Run (Logged ω)) :
    List Delivery → List Call → Prop
  | going {taken : List Delivery} (outcome : r.outcome? = none)
      (slots : taken.map Delivery.slot = e.plan.schedule packets r.cycles) : Standing e packets r taken []
  | finished {taken : List Delivery} {tally : Tally} (outcome : r.outcome? = some (.ok tally))
      (completed : e.plan.schedule packets r.cycles <+: taken.map Delivery.slot)
      (begun : taken.map Delivery.slot <+: e.plan.schedule packets (r.cycles + 1))
      (short : taken.length < (r.cycles + 1) * packets.length) : Standing e packets r taken []
  | failed {taken : List Delivery} {tail : List Call} {p : Packet} {fault : Fault}
      (outcome : r.outcome? = some (.error fault))
      (completed : e.plan.schedule packets r.cycles <+: taken.map Delivery.slot)
      (begun : taken.map Delivery.slot ++ [(r.cycles * e.plan.interval, p)] <+:
        e.plan.schedule packets (r.cycles + 1))
      (passage : Passage e.plan.outerDestination (r.cycles * e.plan.interval)
        (taken.length - r.cycles * packets.length + 1) p tail (.error fault)) :
      Standing e packets r taken tail

/-- What the log has is on schedule. -/
def Scheduled (e : Emitter ω) (packets : List Packet) (r : Run (Logged ω)) : Prop :=
  ∃ taken tail, r.session.world.calls = taken.flatMap (Delivery.log e.plan.outerDestination) ++ tail ∧
    Standing e packets r taken tail

theorem outcome?_look_ne_error {r : Run ω} (deadline : Nat) (fault : Fault) :
    (r.look deadline).outcome? ≠ some (.error fault) := by
  apply look_induct (motive := fun r => r.outcome? ≠ some (.error fault))
  · exact fun _ => nofun
  · exact fun _ _ => nofun
  · exact fun _ _ => nofun

/-- All that was sent is the packets of the full cycles, at their times. -/
def FullCycles (e : Emitter ω) (packets : List Packet) (r : Run (Logged ω)) : Prop :=
  ∃ taken : List Delivery, r.session.world.calls = taken.flatMap (Delivery.log e.plan.outerDestination) ∧
    taken.map Delivery.slot = e.plan.schedule packets r.cycles

namespace FullCycles

variable {r r' : Run (Logged ω)} {calls : List Call} {s : Session (Logged ω)}

theorem look (h : r.FullCycles e packets) (deadline : Nat) : (r.look deadline).FullCycles e packets := by
  unfold FullCycles
  rw [world_look, cycles_look]
  exact h

/-- A full sweep behind full cycles is one more of them. -/
theorem full (h : r.FullCycles e packets) (htime : r.now = r.cycles * e.plan.interval)
    (hfollows : r.session.Follows e calls s)
    (hsweep : Sweep e.plan.outerDestination r.now 0 packets calls (.ok packets.length)) :
    { r with session := s.countCycle, cycles := r.cycles + 1 }.FullCycles e packets := by
  obtain ⟨taken, hcalls, hslots⟩ := h
  obtain ⟨more, rfl, hmore⟩ := hsweep.exists_taken_of_full
  refine ⟨taken ++ more, ?_, ?_⟩
  · rw [List.flatMap_append, ← hcalls]
    exact hfollows.log
  · rw [List.map_append, hslots, hmore, htime, Plan.schedule_succ]

/-- Full cycles and no fault are a standing, whether the run goes on or not. -/
theorem scheduled (h : r.FullCycles e packets) (hpackets : 0 < packets.length)
    (hfault : ∀ fault, r.outcome? ≠ some (.error fault)) : r.Scheduled e packets := by
  obtain ⟨taken, hcalls, hslots⟩ := h
  refine ⟨taken, [], hcalls.trans (List.append_nil _).symm, ?_⟩
  rcases houtcome : r.outcome? with _ | fault | tally
  · exact .going houtcome hslots
  · exact absurd houtcome (hfault fault)
  · refine .finished houtcome (hslots ▸ List.prefix_rfl) ?_ ?_
    · rw [hslots, Plan.schedule_succ]
      exact List.prefix_append _ _
    · have hlength := congrArg List.length hslots
      rw [List.length_map, Plan.length_schedule] at hlength
      rw [hlength, Nat.succ_mul]
      omega

theorem cut (h : r.FullCycles e packets) (htime : r.now = r.cycles * e.plan.interval)
    (hfollows : r.session.Follows e calls s) {sent : Nat}
    (hsweep : Sweep e.plan.outerDestination r.now 0 packets calls (.ok sent)) (hshort : sent < packets.length) :
    { r with session := s }.finish.Scheduled e packets := by
  obtain ⟨taken, hcalls, hslots⟩ := h
  obtain ⟨more, rfl, hmore, hcount⟩ := hsweep.exists_taken_of_ok
  have hlength := congrArg List.length hslots
  rw [List.length_map, Plan.length_schedule] at hlength
  refine ⟨taken ++ more, [], ?_, .finished rfl ?_ ?_ ?_⟩
  · rw [List.append_nil, List.flatMap_append, ← hcalls]
    exact hfollows.log
  · rw [List.map_append, hslots]
    exact List.prefix_append _ _
  · show _ <+: e.plan.schedule packets (r.cycles + 1)
    rw [List.map_append, hslots, Plan.schedule_succ, ← htime]
    exact (List.prefix_append_right_inj _).2 hmore
  · show _ < (r.cycles + 1) * _
    rw [List.length_append, hlength, Nat.succ_mul]
    omega

theorem broken (h : r.FullCycles e packets) (htime : r.now = r.cycles * e.plan.interval)
    (hfollows : r.session.Follows e calls s) {fault : Fault}
    (hsweep : Sweep e.plan.outerDestination r.now 0 packets calls (.error fault)) :
    ({ r with session := s }.fail fault).Scheduled e packets := by
  obtain ⟨taken, hcalls, hslots⟩ := h
  obtain ⟨more, tail, p, rfl, hmore, hpassage⟩ := hsweep.exists_taken_of_error
  have hlength := congrArg List.length hslots
  rw [List.length_map, Plan.length_schedule] at hlength
  refine ⟨taken ++ more, tail, ?_, .failed (p := p) rfl ?_ ?_ ?_⟩
  · rw [List.flatMap_append, List.append_assoc, ← hcalls]
    exact hfollows.log
  · rw [List.map_append, hslots]
    exact List.prefix_append _ _
  · show _ <+: e.plan.schedule packets (r.cycles + 1)
    rw [List.map_append, hslots, Plan.schedule_succ, List.append_assoc]
    exact (List.prefix_append_right_inj _).2 (htime ▸ hmore)
  · show Passage _ (r.cycles * _) (_ - r.cycles * _ + 1) _ _ _
    rw [List.length_append, hlength, Nat.add_sub_cancel_left, ← htime]
    rwa [Nat.zero_add] at hpassage

end FullCycles

namespace Scheduled

variable {r r' : Run (Logged ω)}

theorem fullCycles (h : r.Scheduled e packets) (hgoing : r.outcome? = none) : r.FullCycles e packets := by
  obtain ⟨taken, tail, hcalls, hstanding⟩ := h
  cases hstanding with
  | going outcome slots => exact ⟨taken, hcalls.trans (List.append_nil _), slots⟩
  | finished outcome | failed outcome => cases hgoing.symm.trans outcome

theorem stride (hpackets : 0 < packets.length) (h : r.Scheduled e packets)
    (htime : OnTime e.plan.interval r) (hstride : r.Stride e packets r') : r'.Scheduled e packets := by
  cases hstride with
  | ended | brokenOff => exact h
  | idle phase =>
      have hcycles := h.fullCycles (outcome?_of_ready phase)
      exact FullCycles.scheduled (r := r.finish) hcycles hpackets nofun
  | broken phase _ follows sweep =>
      exact (h.fullCycles (outcome?_of_ready phase)).broken (htime.of_ready phase) follows sweep
  | cut phase _ follows sweep short =>
      exact (h.fullCycles (outcome?_of_ready phase)).cut (htime.of_ready phase) follows sweep short
  | last phase _ follows sweep =>
      have hcycles := (h.fullCycles (outcome?_of_ready phase)).full (htime.of_ready phase) follows sweep
      exact FullCycles.scheduled (r := finish _) hcycles hpackets nofun
  | full phase _ follows sweep =>
      have hcycles := (h.fullCycles (outcome?_of_ready phase)).full (htime.of_ready phase) follows sweep
      exact (hcycles.look _).scheduled hpackets (outcome?_look_ne_error _)
  | overrun phase _ follows sweep =>
      have hcycles := (h.fullCycles (outcome?_of_ready phase)).full (htime.of_ready phase) follows sweep
      exact FullCycles.scheduled (r := { r with session := _, cycles := _, phase := .brokenOff }) hcycles hpackets
        nofun
  | @woken wake deadline phase =>
      have hcycles := h.fullCycles (outcome?_of_asleep phase)
      exact (FullCycles.look (r := { r with now := wake }) hcycles deadline).scheduled hpackets
        (outcome?_look_ne_error deadline)

theorem stop (h : r.Scheduled e packets) : r.stop.Scheduled e packets := by
  obtain ⟨taken, tail, hcalls, hstanding⟩ := h
  refine ⟨taken, tail, hcalls, ?_⟩
  cases hstanding with
  | going outcome slots => exact .going outcome slots
  | finished outcome completed begun short => exact .finished outcome completed begun short
  | failed outcome completed begun passage => exact .failed outcome completed begun passage

end Scheduled

/-! ### The last call -/

/-- A run goes on only if nothing has closed it, and makes no call behind one that does. -/
structure Orderly (r : Run (Logged ω)) : Prop where
  going {due : Nat} : r.due? = some due → Call.NoneCloses r.session.world.calls
  onlyLast : Call.OnlyLastCloses r.session.world.calls

namespace Orderly

variable {r r' : Run (Logged ω)} {calls : List Call} {s : Session (Logged ω)}

theorem of_noneCloses (h : Call.NoneCloses r.session.world.calls) : r.Orderly := ⟨fun _ => h, h.onlyLast⟩

/-- A run that was looked at goes on only if it is not stopped. -/
theorem of_look {deadline : Nat} (hlast : Call.OnlyLastCloses r.session.world.calls)
    (hgoing : r.session.running = true → Call.NoneCloses r.session.world.calls) : (r.look deadline).Orderly := by
  apply look_induct
  · intro _
    exact ⟨nofun, hlast⟩
  · intro hrunning _
    exact of_noneCloses (hgoing hrunning)
  · intro hrunning _
    exact of_noneCloses (hgoing hrunning)

theorem onlyLast_of_follows (h : r.Orderly) (hready : r.phase = .ready)
    (hfollows : r.session.Follows e calls s) (hcalls : Call.OnlyLastCloses calls) :
    Call.OnlyLastCloses s.world.calls :=
  hfollows.log ▸ .append (h.going (due?_of_ready hready)) hcalls

theorem stride (h : r.Orderly) (hstride : r.Stride e packets r') : r'.Orderly := by
  cases hstride with
  | ended | brokenOff => exact h
  | idle phase => exact ⟨nofun, h.onlyLast⟩
  | broken phase _ follows sweep | cut phase _ follows sweep | last phase _ follows sweep
  | overrun phase _ follows sweep =>
      have hlast := h.onlyLast_of_follows phase follows sweep.onlyLastCloses
      exact ⟨nofun, hlast⟩
  | full phase _ follows sweep =>
      have hlast := h.onlyLast_of_follows phase follows sweep.onlyLastCloses
      refine of_look hlast ?_
      intro hrunning
      obtain ⟨-, hstops⟩ := Bool.and_eq_true_iff.1 (follows.running.symm.trans hrunning)
      rw [Bool.not_eq_true'] at hstops
      have hnone := (h.going (due?_of_ready phase)).append (sweep.noneCloses hstops)
      rw [← follows.log] at hnone
      exact hnone
  | woken phase =>
      have hnone := h.going (due?_of_asleep phase)
      exact of_look hnone.onlyLast fun _ => hnone

end Orderly

variable {s : Session ω} {r : Run ω} {calls : List Call}

theorem Makes.scheduled (h : Makes e { session := s } calls r) (hplan : e.plan.Carries packets)
    (hpackets : 0 < packets.length) : (r.logged calls).Scheduled e packets := by
  have hboth := h.induct (motive := fun r => r.OnTime e.plan.interval ∧ r.Scheduled e packets) hplan
    ⟨(Nat.zero_mul _).symm, FullCycles.scheduled ⟨[], rfl, rfl⟩ hpackets nofun⟩
    (fun hstride h => ⟨h.1.stride hstride, h.2.stride hpackets h.1 hstride⟩) (fun h => ⟨h.1, h.2.stop⟩)
  exact hboth.2

theorem Makes.orderly (h : Makes e { session := s } calls r) (hplan : e.plan.Carries packets) :
    (r.logged calls).Orderly :=
  h.induct hplan (.of_noneCloses nofun) (fun hstride h => h.stride hstride) fun h => ⟨h.going, h.onlyLast⟩

end Run

end LabelTunnel
