import LabelTunnel.Proofs.Emission.Counters
import LabelTunnel.Proofs.Emission.Steady

/-! The bound on the cycles of a run. It is looked at behind a cycle, so a bound of 0 lets one cycle
pass, as a bound of 1 does. Whatever the devices answer there are no more cycles than that, and no
more packets than those cycles have; and a run that nothing fails or stops comes to exactly that many
and ends, the pauses being made of finitely many slices, if the clock comes to the last of them. A steady
emission then leaves the lines of all its packets, cycle by cycle. -/

namespace LabelTunnel

variable {ω : Type} {e : Emitter ω} {packets : List Packet} {calls : List Call}

/-- The number of cycles after which a bounded run is over. -/
def Plan.lastCycle (max : UInt64) : Nat := Nat.max max.toNat 1

theorem Plan.lastCycle_eq {max : UInt64} (h : max ≠ 0) : lastCycle max = max.toNat := by
  refine Nat.max_eq_left (Nat.pos_of_ne_zero ?_)
  exact fun hzero => h (UInt64.toNat_inj.1 hzero)

namespace Run

variable {r r' : Run (Logged ω)} {count : Nat} {max : UInt64}

/-- A run has not come past the bound, and is still before it if it goes on. -/
structure Within (count total : Nat) (r : Run (Logged ω)) : Prop where
  cycles_le : r.cycles ≤ count
  parcels_le : (Call.parcels r.session.world.calls).length ≤ count * total
  going : r.outcome? = none →
    r.cycles < count ∧ (Call.parcels r.session.world.calls).length ≤ r.cycles * total

namespace Within

variable {s : Session (Logged ω)} {total : Nat}

/-- A run that is over has only to be within the bound. -/
theorem of_ended {outcome : Except Fault Tally} (hended : r.outcome? = some outcome) (hcycles : r.cycles ≤ count)
    (hparcels : (Call.parcels r.session.world.calls).length ≤ count * total) : r.Within count total :=
  ⟨hcycles, hparcels, fun hgoing => nomatch hgoing.symm.trans hended⟩

theorem of_going (hcycles : r.cycles < count)
    (hparcels : (Call.parcels r.session.world.calls).length ≤ r.cycles * total) : r.Within count total :=
  ⟨Nat.le_of_lt hcycles, Nat.le_trans hparcels (Nat.mul_le_mul_right total (Nat.le_of_lt hcycles)),
    fun _ => ⟨hcycles, hparcels⟩⟩

theorem of_look {deadline : Nat} (hcycles : r.cycles < count)
    (hparcels : (Call.parcels r.session.world.calls).length ≤ r.cycles * total) :
    (r.look deadline).Within count total := by
  refine of_going ?_ ?_
  · rw [cycles_look]
    exact hcycles
  · rw [world_look, cycles_look]
    exact hparcels

/-- Behind a sweep there are at most the packets of one more cycle. -/
theorem length_parcels_le (h : r.Within count packets.length) (hready : r.phase = .ready)
    (hfollows : r.session.Follows e calls s) {result : Except Fault Nat}
    (hsweep : Sweep e.plan.outerDestination r.now 0 packets calls result) :
    r.cycles + 1 ≤ count ∧ (Call.parcels s.world.calls).length ≤ (r.cycles + 1) * packets.length := by
  obtain ⟨hcycles, hparcels⟩ := h.going (outcome?_of_ready hready)
  have hmore := hsweep.length_parcels_le
  refine ⟨hcycles, ?_⟩
  rw [hfollows.log, Call.parcels_append, List.length_append, Nat.succ_mul]
  omega

theorem stride (hmax : e.plan.maxCycles = some max) (h : r.Within (Plan.lastCycle max) packets.length)
    (hstride : r.Stride e packets r') : r'.Within (Plan.lastCycle max) packets.length := by
  cases hstride with
  | ended | brokenOff => exact h
  | idle phase => exact of_ended rfl h.cycles_le h.parcels_le
  | broken phase _ follows sweep | cut phase _ follows sweep =>
      obtain ⟨hcycles, hparcels⟩ := h.length_parcels_le phase follows sweep
      exact of_ended rfl h.cycles_le (Nat.le_trans hparcels (Nat.mul_le_mul_right _ hcycles))
  | last phase _ follows sweep =>
      obtain ⟨hcycles, hparcels⟩ := h.length_parcels_le phase follows sweep
      exact of_ended rfl hcycles (Nat.le_trans hparcels (Nat.mul_le_mul_right _ hcycles))
  | full phase _ follows sweep left =>
      obtain ⟨-, hparcels⟩ := h.length_parcels_le phase follows sweep
      exact of_look (Nat.lt_of_lt_of_le (left max hmax) (Nat.le_max_left _ _)) hparcels
  | overrun phase _ follows sweep left =>
      obtain ⟨-, hparcels⟩ := h.length_parcels_le phase follows sweep
      exact of_going (Nat.lt_of_lt_of_le (left max hmax) (Nat.le_max_left _ _)) hparcels
  | woken phase =>
      obtain ⟨hcycles, hparcels⟩ := h.going (outcome?_of_asleep phase)
      exact of_look hcycles hparcels

end Within

theorem Makes.within {s : Session ω} {r : Run ω} (h : Makes e { session := s } calls r)
    (hplan : e.plan.Carries packets) (hmax : e.plan.maxCycles = some max) :
    (r.logged calls).Within (Plan.lastCycle max) packets.length :=
  h.induct hplan (.of_going (Nat.le_max_right _ _) (Nat.zero_le _)) (fun hstride h => h.stride hmax hstride)
    fun h => ⟨h.1, h.2, h.3⟩

/-! ### A bounded run comes to its end -/

/-- How much there is to do for a run of that many cycles: a step for each cycle that is left, and in each
pause at most as many steps as it has milliseconds. -/
def toDo (count interval : Nat) (r : Run ω) : Nat :=
  match r.phase with
  | .ready => (count - r.cycles) * (interval + 1)
  | .asleep wake deadline => (count - r.cycles) * (interval + 1) + (deadline - wake) + 1
  | .ended _ | .brokenOff => 0

section ToDo

variable {interval deadline : Nat}

theorem toDo_of_ready (h : r.phase = .ready) : toDo count interval r = (count - r.cycles) * (interval + 1) := by
  rw [toDo, h]

theorem toDo_of_asleep {wake : Nat} (h : r.phase = .asleep wake deadline) :
    toDo count interval r = (count - r.cycles) * (interval + 1) + (deadline - wake) + 1 := by
  rw [toDo, h]

theorem toDo_look_lt :
    toDo count interval (r.look deadline) < (count - r.cycles) * (interval + 1) + (deadline - r.now) + 1 := by
  apply look_induct (motive := fun r' => toDo count interval r' < _)
  · intro _
    exact Nat.succ_pos _
  · intro _ _
    show (count - r.cycles) * (interval + 1) < _
    omega
  · intro _ hleft
    have hslice : 0 < Pause.slice := by decide
    show (count - r.cycles) * (interval + 1) +
      (deadline - (r.now + min (deadline - r.now) Pause.slice)) + 1 < _
    omega

end ToDo

theorem toDo_stride_lt (hwithin : r.Within count packets.length) {due : Nat} (hdue : r.due? = some due)
    (hstride : r.Stride e packets r') : toDo count e.plan.interval r' < toDo count e.plan.interval r := by
  obtain ⟨hcycles, -⟩ := hwithin.going (outcome?_of_due? hdue)
  cases hstride with
  | ended phase => cases hdue.symm.trans (due?_of_ended phase)
  | brokenOff phase => cases hdue.symm.trans (due?_of_brokenOff phase)
  | idle phase | broken phase | cut phase | last phase | overrun phase =>
      rw [toDo_of_ready phase]
      exact Nat.mul_pos (Nat.sub_pos_of_lt hcycles) (Nat.succ_pos _)
  | full phase =>
      have hleft : count - r.cycles = count - (r.cycles + 1) + 1 := by omega
      rw [toDo_of_ready phase, hleft, Nat.succ_mul]
      refine Nat.lt_of_lt_of_le toDo_look_lt ?_
      show (count - (r.cycles + 1)) * (e.plan.interval + 1) + (r.now + e.plan.interval - r.now) + 1 ≤ _
      omega
  | @woken wake deadline phase =>
      rw [toDo_of_asleep phase]
      exact toDo_look_lt (r := { r with now := wake })

theorem due?_complete (hmax : e.plan.maxCycles = some max) (hplan : e.plan.Carries packets) (fuel : Nat)
    (hwithin : r.Within (Plan.lastCycle max) packets.length)
    (hfuel : toDo (Plan.lastCycle max) e.plan.interval r ≤ fuel) :
    (r.complete e.logged fuel).due? = none := by
  induction fuel generalizing r with
  | zero =>
      cases hdue : r.due? with
      | none => exact hdue
      | some due =>
          have hless := toDo_stride_lt hwithin hdue (stride_step hplan r)
          omega
  | succ fuel ih =>
      unfold complete
      cases hdue : r.due? with
      | none => exact hdue
      | some due =>
          have hstride := stride_step hplan r
          have hless := toDo_stride_lt hwithin hdue hstride
          exact ih (hwithin.stride hmax hstride) (by omega)

/-- A bounded run that takes no more steps has ended, if the clock comes to the last of its cycles. -/
theorem Makes.outcome?_ne_none {s : Session ω} {r : Run ω} (h : Makes e { session := s } calls r)
    (hplan : e.plan.Carries packets) (hmax : e.plan.maxCycles = some max)
    (hclock : (Plan.lastCycle max - 1) * e.plan.interval ≤ e.runtime.lastInstant) (hdue : r.due? = none) :
    r.outcome? ≠ none := by
  cases hphase : r.phase with
  | ready => cases hdue.symm.trans (due?_of_ready hphase)
  | asleep wake deadline => cases hdue.symm.trans (due?_of_asleep hphase)
  | ended outcome =>
      rw [outcome?_of_ended hphase]
      exact nofun
  | brokenOff =>
      obtain ⟨hbeyond, hleft⟩ := (h.inReach hplan).of_brokenOff hphase
      have hcycles : r.cycles ≤ Plan.lastCycle max - 1 :=
        Nat.le_sub_one_of_lt (Nat.lt_of_lt_of_le (hleft max hmax) (Nat.le_max_left _ _))
      have hreached := Nat.mul_le_mul_right e.plan.interval hcycles
      exact absurd hbeyond (Nat.not_lt_of_le (Nat.le_trans hreached hclock))

/-- With steps enough, a run that nothing hinders ends well with all its cycles. -/
theorem complete_of_unhindered {s : Session ω} (hplan : e.plan.Carries packets)
    (hmax : e.plan.maxCycles = some max)
    (hclock : (Plan.lastCycle max - 1) * e.plan.interval ≤ e.runtime.lastInstant) {fuel : Nat}
    (hfuel : Plan.lastCycle max * (e.plan.interval + 1) ≤ fuel) (hrunning : s.running = true)
    (hcalls : Call.NoneHinders (callsOf e fuel { session := s })) :
    (∃ tally, (complete e fuel { session := s }).outcome? = some (.ok tally)) ∧
      (complete e fuel { session := s }).cycles = Plan.lastCycle max := by
  have hmakes := makes_complete e fuel { session := s }
  have hdue := due?_complete hmax hplan fuel (.of_going (Nat.le_max_right _ _) (Nat.zero_le _))
    (r := ({ session := s } : Run ω).logged []) hfuel
  rw [complete_logged] at hdue
  rcases unhindered_complete hplan hrunning fuel hcalls with ⟨hgoing, -⟩ | ⟨hok, _, hmax', hreached, hone⟩
  · exact absurd hgoing (hmakes.outcome?_ne_none hplan hmax hclock hdue)
  · cases hmax'.symm.trans hmax
    exact ⟨hok, Nat.le_antisymm (hmakes.within hplan hmax).cycles_le (Nat.max_le.2 ⟨hreached, hone⟩)⟩

/-! ### The lines of a bounded run -/

/-- The lines of full cycles are the lines of one cycle, as often as there are cycles. -/
theorem FullCycles.lines_eq (h : r.FullCycles e packets) :
    Call.lines r.session.world.calls = (List.replicate r.cycles (packets.map Packet.traceLine)).flatten := by
  obtain ⟨taken, hcalls, hslots⟩ := h
  have hpackets : taken.map Delivery.packet = (e.plan.schedule packets r.cycles).map Prod.snd := by
    rw [← hslots, List.map_map]
    rfl
  have hcycle (k : Nat) : (packets.map (Prod.mk (k * e.plan.interval))).map Prod.snd = packets := by
    rw [List.map_map]
    exact List.map_id packets
  calc Call.lines r.session.world.calls
      = (taken.map Delivery.packet).map Packet.traceLine := by
          rw [hcalls, Delivery.lines_log, List.map_map]
          rfl
    _ = (((List.range r.cycles).flatMap fun _ => packets).map Packet.traceLine) := by
          rw [hpackets, Plan.schedule, List.map_flatMap]
          simp only [hcycle]
    _ = (List.replicate r.cycles (packets.map Packet.traceLine)).flatten := by
          rw [List.map_flatMap, List.flatMap_def, List.map_const', List.length_range]

/-- A bounded run of a steady emitter ends well, with the lines of all its cycles written. -/
theorem steady_complete {w : ω} (hsteady : e.Steady) (hplan : e.plan.Carries packets)
    (hmax : e.plan.maxCycles = some max) (hpos : max ≠ 0)
    (hclock : (max.toNat - 1) * e.plan.interval ≤ e.runtime.lastInstant) {fuel : Nat}
    (hfuel : max.toNat * (e.plan.interval + 1) ≤ fuel) :
    (∃ tally, (complete e fuel { session := { world := w } }).outcome? = some (.ok tally)) ∧
      Call.lines (callsOf e fuel { session := { world := w } }) =
        (List.replicate max.toNat (packets.map Packet.traceLine)).flatten := by
  have hmakes := makes_complete e fuel { session := { world := w } }
  have hcalls := hmakes.noneHinders hsteady hplan
  rw [← Plan.lastCycle_eq hpos] at hclock hfuel ⊢
  obtain ⟨hok, hcycles⟩ := complete_of_unhindered hplan hmax hclock hfuel rfl hcalls
  refine ⟨hok, ?_⟩
  rw [← hcycles]
  exact (hmakes.whole hplan hcalls).lines_eq

/-! ### The bound -/

/-- A bounded run has at most the cycles of its bound, and at most their packets, and a run that nothing
hinders comes to all of them, on a clock that comes to the last one. Under a bound of 0 it is one cycle all
the same. -/
theorem cycles_of_maxCycles {s : Session ω} {r₀ : Run ω} (hmax : e.plan.maxCycles = some max)
    (hstart : start e s = .ok r₀) :
    (∀ calls r, r₀.Makes e calls r →
      r.session.tally.cycles = s.tally.cycles + r.cycles.toUInt64 ∧ r.cycles ≤ Plan.lastCycle max ∧
      (Call.parcels calls).length ≤ Plan.lastCycle max * e.plan.flows.length) ∧
    ((Plan.lastCycle max - 1) * e.plan.interval ≤ e.runtime.lastInstant →
      ∀ fuel, Plan.lastCycle max * (e.plan.interval + 1) ≤ fuel → s.running = true →
      Call.NoneHinders (r₀.callsOf e fuel) →
      ∃ tally, (r₀.complete e fuel).outcome? = some (.ok tally) ∧
        tally.cycles = s.tally.cycles + (Plan.lastCycle max).toUInt64 ∧
        (r₀.complete e fuel).cycles = Plan.lastCycle max) := by
  obtain ⟨_, hcheck, rfl⟩ := Outcome.map_eq_ok_iff.1 hstart
  have hplan := Plan.carries_of_check hcheck
  constructor
  · intro calls r h
    have hwithin := h.within hplan hmax
    have hparcels := hwithin.parcels_le
    rw [hplan.length_eq] at hparcels
    exact ⟨congrArg Tally.cycles (h.booked hplan).tally_eq, hwithin.cycles_le, hparcels⟩
  · intro hclock fuel hfuel hrunning hcalls
    obtain ⟨⟨tally, houtcome⟩, hcycles⟩ :=
      complete_of_unhindered hplan hmax hclock hfuel hrunning hcalls
    have hbooked := (makes_complete e fuel { session := s }).booked hplan
    have htally := hbooked.snapshot tally (phase_of_outcome? houtcome)
    refine ⟨tally, houtcome, ?_, hcycles⟩
    rw [htally, hbooked.tally_eq, ← hcycles]
    rfl

end Run

/-- Two flows that nobody receives, every 150 milliseconds unless another interval is asked for. -/
def Emitter.dry (maxCycles : Option UInt64) (interval : Nat := 150) : Emitter String where
  plan := {
    flows := [⟨⟨100, 64, 0, 1⟩, 11⟩, ⟨⟨100, 64, 0, 2⟩, 12⟩]
    payload := [0x68, 0x69]
    interval
    maxCycles }
  transmitter := .dryRun
  sink := .collect
  runtime := .signedSeconds

theorem Run.cycles_of_maxCycles_dry :
    let e := Emitter.dry (some 2)
    let r₀ : Run String := { session := { world := "" } }
    e.plan.maxCycles = some 2 ∧ Run.start e r₀.session = .ok r₀ ∧ r₀.session.running = true ∧
    (Plan.lastCycle 2 - 1) * e.plan.interval ≤ e.runtime.lastInstant ∧
    Plan.lastCycle 2 * (e.plan.interval + 1) ≤ 302 ∧ Call.NoneHinders (r₀.callsOf e 302) ∧
    (∀ calls r, r₀.Makes e calls r →
      r.session.tally.cycles = 0 + r.cycles.toUInt64 ∧ r.cycles ≤ Plan.lastCycle 2 ∧
      (Call.parcels calls).length ≤ Plan.lastCycle 2 * e.plan.flows.length) ∧
    ∃ tally, (r₀.complete e 302).outcome? = some (.ok tally) ∧
      tally.cycles = 0 + (Plan.lastCycle 2).toUInt64 ∧ (r₀.complete e 302).cycles = Plan.lastCycle 2 := by
  intro e r₀
  have hcheck : e.plan.check = .ok () := by rfl
  have hstart : Run.start e r₀.session = .ok r₀ := congrArg (Except.map fun _ => r₀) hcheck
  have hclock : (Plan.lastCycle 2 - 1) * e.plan.interval ≤ e.runtime.lastInstant := by decide
  have hfuel : Plan.lastCycle 2 * (e.plan.interval + 1) ≤ 302 := by decide
  have hcalls : Call.NoneHinders (r₀.callsOf e 302) := by decide +kernel
  obtain ⟨hbound, hall⟩ := Run.cycles_of_maxCycles (show e.plan.maxCycles = some 2 from rfl) hstart
  exact ⟨rfl, hstart, rfl, hclock, hfuel, hcalls, hbound, hall hclock 302 hfuel rfl hcalls⟩

/-- A bound of 0 does not keep a run from emitting a cycle. -/
theorem Run.not_cycles_le_maxCycles :
    ¬∀ (e : Emitter String) (max : UInt64) (r₀ r : Run String) (calls : List Call),
      e.plan.maxCycles = some max → Run.start e { world := "" } = .ok r₀ → r₀.Makes e calls r →
      r.session.tally.cycles ≤ max := by
  intro hall
  let r₀ : Run String := { session := { world := "" } }
  have hcheck : (Emitter.dry (some 0)).plan.check = .ok () := by rfl
  have hstart : Run.start (Emitter.dry (some 0)) { world := "" } = .ok r₀ :=
    congrArg (Except.map fun _ => r₀) hcheck
  have hcycles : (r₀.complete (Emitter.dry (some 0)) 1).session.tally.cycles = 1 := by decide +kernel
  have hle := hall _ 0 r₀ _ _ rfl hstart (r₀.makes_complete _ 1)
  rw [hcycles] at hle
  exact absurd hle (by decide)

end LabelTunnel
