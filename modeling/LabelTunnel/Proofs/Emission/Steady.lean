import LabelTunnel.Proofs.Emission.Schedule

/-! Emissions that nothing hinders. As long as no call fails and none asks for a stop, every cycle is a
full one, and a run that nobody stops from outside goes on until its bound is reached. The devices of a
steady emitter never hinder a run. -/

namespace LabelTunnel

variable {ω : Type} {e : Emitter ω} {packets : List Packet} {calls : List Call}

/-- None of the calls failed, and none asked for a stop. -/
def Call.NoneHinders (calls : List Call) : Prop := ∀ c ∈ calls, c.entry.failed = false ∧ c.stops = false

instance (calls : List Call) : Decidable (Call.NoneHinders calls) :=
  inferInstanceAs (Decidable (∀ c ∈ calls, c.entry.failed = false ∧ c.stops = false))

theorem Session.Follows.running_eq {s s' : Session (Logged ω)} (h : s.Follows e calls s')
    (hcalls : Call.NoneHinders s'.world.calls) : s'.running = s.running := by
  have hstops : calls.any Call.stops = false := by
    rw [List.any_eq_false]
    intro c hc
    rw [(hcalls c (h.log ▸ List.mem_append_right _ hc)).2]
    exact Bool.false_ne_true
  rw [h.running, hstops]
  exact Bool.and_true _

theorem Session.Follows.absurd_of_error {s s' : Session (Logged ω)} {time : Nat} {fault : Fault}
    (h : s.Follows e calls s') (hsweep : Sweep e.plan.outerDestination time 0 packets calls (.error fault)) :
    ¬Call.NoneHinders s'.world.calls := by
  intro hcalls
  obtain ⟨c, hc, hfailed⟩ := hsweep.exists_failed
  cases hfailed.symm.trans (hcalls c (h.log ▸ List.mem_append_right _ hc)).1

namespace Run

variable {r r' : Run (Logged ω)}

/-! ### A run goes on until its bound is reached -/

/-- As long as nothing hinders the run it goes on, or it is over with its bound reached. -/
def Unhindered (plan : Plan) (r : Run (Logged ω)) : Prop :=
  Call.NoneHinders r.session.world.calls → r.outcome? = none ∧ r.session.running = true ∨
    (∃ tally, r.outcome? = some (.ok tally)) ∧
      ∃ max, plan.maxCycles = some max ∧ max.toNat ≤ r.cycles ∧ 0 < r.cycles

namespace Unhindered

variable {plan : Plan}

theorem running_of_going (h : r.Unhindered plan) (hcalls : Call.NoneHinders r.session.world.calls)
    (hgoing : r.outcome? = none) : r.session.running = true := by
  rcases h hcalls with ⟨-, hrunning⟩ | ⟨⟨tally, hended⟩, -⟩
  · exact hrunning
  · cases hgoing.symm.trans hended

theorem look {deadline : Nat} (h : Call.NoneHinders r.session.world.calls → r.session.running = true) :
    (r.look deadline).Unhindered plan := by
  apply look_induct
  · intro hstopped hcalls
    cases hstopped.symm.trans (h hcalls)
  · intro hrunning _ _
    exact .inl ⟨rfl, hrunning⟩
  · intro hrunning _ _
    exact .inl ⟨rfl, hrunning⟩

theorem stride (h : r.Unhindered e.plan) (hstride : r.Stride e packets r') : r'.Unhindered e.plan := by
  cases hstride with
  | ended | brokenOff => exact h
  | idle phase stopped =>
      intro hcalls
      cases stopped.symm.trans (h.running_of_going hcalls (outcome?_of_ready phase))
  | broken _ _ follows sweep => exact fun hcalls => absurd hcalls (follows.absurd_of_error sweep)
  | cut _ running follows _ _ stopped =>
      intro hcalls
      cases stopped.symm.trans ((follows.running_eq hcalls).trans running)
  | last _ _ _ _ limit reached => exact fun _ => .inr ⟨⟨_, rfl⟩, _, limit, reached, Nat.succ_pos _⟩
  | full _ running follows => exact look fun hcalls => (follows.running_eq hcalls).trans running
  | overrun _ running follows =>
      exact fun hcalls => .inl ⟨rfl, (follows.running_eq hcalls).trans running⟩
  | woken phase => exact look fun hcalls => h.running_of_going hcalls (outcome?_of_asleep phase)

end Unhindered

/-- Nobody stops the run from outside. -/
theorem unhindered_complete {s : Session ω} (hplan : e.plan.Carries packets) (hrunning : s.running = true)
    (fuel : Nat) :
    ((complete e fuel { session := s }).logged (callsOf e fuel { session := s })).Unhindered e.plan := by
  rw [← complete_logged]
  exact complete_induct (motive := Unhindered e.plan) hplan (fun hstride h => h.stride hstride) fuel
    fun _ => .inl ⟨rfl, hrunning⟩

/-! ### All its cycles are full -/

/-- As long as nothing hinders the run, no cycle is cut short. -/
def Whole (e : Emitter ω) (packets : List Packet) (r : Run (Logged ω)) : Prop :=
  Call.NoneHinders r.session.world.calls → r.FullCycles e packets

namespace Whole

theorem look (h : r.Whole e packets) (deadline : Nat) : (r.look deadline).Whole e packets := by
  unfold Whole
  rw [world_look]
  exact fun hcalls => (h hcalls).look deadline

theorem full (h : r.Whole e packets) (htime : r.now = r.cycles * e.plan.interval) {s : Session (Logged ω)}
    (hfollows : r.session.Follows e calls s)
    (hsweep : Sweep e.plan.outerDestination r.now 0 packets calls (.ok packets.length)) :
    { r with session := s.countCycle, cycles := r.cycles + 1 }.Whole e packets := by
  intro hcalls
  have hbefore : Call.NoneHinders r.session.world.calls :=
    fun c hc => hcalls c (hfollows.log ▸ List.mem_append_left _ hc)
  exact (h hbefore).full htime hfollows hsweep

theorem stride (h : r.Whole e packets) (htime : OnTime e.plan.interval r) (hstride : r.Stride e packets r') :
    r'.Whole e packets := by
  cases hstride with
  | ended | brokenOff | idle => exact h
  | broken _ _ follows sweep => exact fun hcalls => absurd hcalls (follows.absurd_of_error sweep)
  | cut _ running follows _ _ stopped =>
      intro hcalls
      cases stopped.symm.trans ((follows.running_eq hcalls).trans running)
  | last phase _ follows sweep | overrun phase _ follows sweep =>
      have hwhole := h.full (htime.of_ready phase) follows sweep
      exact hwhole
  | full phase _ follows sweep =>
      have hwhole := h.full (htime.of_ready phase) follows sweep
      exact hwhole.look _
  | @woken wake deadline phase => exact look (r := { r with now := wake }) h deadline

end Whole

theorem Makes.whole {s : Session ω} {r : Run ω} (h : Makes e { session := s } calls r)
    (hplan : e.plan.Carries packets) : (r.logged calls).Whole e packets := by
  have hboth := h.induct (motive := fun r => r.OnTime e.plan.interval ∧ r.Whole e packets) hplan
    ⟨(Nat.zero_mul _).symm, fun _ => ⟨[], rfl, rfl⟩⟩
    (fun hstride h => ⟨h.1.stride hstride, h.2.stride h.1 hstride⟩) id
  exact hboth.2

end Run

/-! ### Steady emitters -/

/-- The devices take everything that they are given, and leave it to others to stop the emission. -/
structure Emitter.Steady (e : Emitter ω) : Prop where
  send (parcel : Parcel) (w : ω) : (∃ accepted, (e.transmitter.send parcel w).result = .ok accepted) ∧
    (e.transmitter.send parcel w).stops = false
  write (line : String) (w : ω) : (e.sink.write line w).result = .ok () ∧ (e.sink.write line w).stops = false
  flush (w : ω) : (e.sink.flush w).result = .ok () ∧ (e.sink.flush w).stops = false

namespace Emitter

theorem Steady.answers {c : Call} (h : e.Steady) (hanswer : e.Answers c) :
    c.entry.failed = false ∧ c.stops = false := by
  obtain ⟨entry, stops⟩ := c
  cases entry with
  | wrote line result =>
      obtain ⟨w, rfl, rfl⟩ := hanswer
      rw [(h.write line w).1, (h.write line w).2]
      exact ⟨rfl, rfl⟩
  | flushed result =>
      obtain ⟨w, rfl, rfl⟩ := hanswer
      rw [(h.flush w).1, (h.flush w).2]
      exact ⟨rfl, rfl⟩
  | sent parcel result =>
      obtain ⟨w, rfl, rfl⟩ := hanswer
      obtain ⟨⟨accepted, hresult⟩, hstops⟩ := h.send parcel w
      rw [hresult, hstops]
      exact ⟨rfl, rfl⟩

end Emitter

theorem Run.Stride.answers {r r' : Run (Logged ω)} (hstride : r.Stride e packets r')
    (h : ∀ c ∈ r.session.world.calls, e.Answers c) : ∀ c ∈ r'.session.world.calls, e.Answers c := by
  have hfollows {calls : List Call} {s : Session (Logged ω)} (follows : r.session.Follows e calls s) :
      ∀ c ∈ s.world.calls, e.Answers c := by
    intro c hc
    rw [follows.log] at hc
    exact (List.mem_append.1 hc).elim (h c) (follows.answers c)
  cases hstride with
  | ended | brokenOff | idle => exact h
  | broken _ _ follows | cut _ _ follows | last _ _ follows | overrun _ _ follows =>
      have hall := hfollows follows
      exact hall
  | full _ _ follows =>
      have hall := hfollows follows
      rw [world_look]
      exact hall
  | woken phase =>
      rw [world_look]
      exact h

theorem Run.Makes.noneHinders {s : Session ω} {r : Run ω} (h : Makes e { session := s } calls r)
    (hsteady : e.Steady) (hplan : e.plan.Carries packets) : Call.NoneHinders calls := by
  have hanswers := h.induct (motive := fun r => ∀ c ∈ r.session.world.calls, e.Answers c) hplan nofun
    (fun hstride h => hstride.answers h) id
  exact fun c hc => hsteady.answers (hanswers c hc)

end LabelTunnel
