import LabelTunnel.Proofs.Emission.Counters
import LabelTunnel.Proofs.Emission.Schedule

/-! The settlement of a run. However a run came to its end, its counters agree with what the devices
answered, its cycles are the full ones, and its outcome tells whether a device failed and which: a packet
that was refused is named by its place in its cycle, a line that could not be traced is followed by no
packet. A plan that passed its check gives no other fault. -/

namespace LabelTunnel

variable {ω : Type} {e : Emitter ω} {packets : List Packet} {calls : List Call}

namespace Run

/-- How the last call of a run ended it with a fault. -/
inductive Failure (e : Emitter ω) (calls : List Call) : Fault → Prop
  | refused {before : List Call} {parcel : Parcel} {reason : String} {stops : Bool}
      (last : calls = before ++ [⟨.sent parcel (.error reason), stops⟩])
      (once : (Call.refusals calls).length = 1) :
      Failure e calls (.transmission ((Call.accepted calls).length % e.plan.flows.length + 1)
        e.plan.outerDestination reason)
  /-- A line that was not written, or not flushed, and the packet it announces was not handed over. -/
  | untraced {before : List Call} {c : Call} {reason : String} (last : calls = before ++ [c])
      (trace : c.entry = .flushed (.error reason) ∨ ∃ line, c.entry = .wrote line (.error reason))
      (never : Call.refusals calls = [])
      (unsent : (Call.lines calls).length = (Call.parcels calls).length + 1) :
      Failure e calls (.io reason)

/-- What a run leaves behind that started with cleared counters, made these calls and has this outcome. -/
structure Settled (e : Emitter ω) (calls : List Call) (r : Run ω) (outcome : Except Fault Tally) : Prop where
  stopped : r.session.running = false
  packets_eq : r.session.tally.packets.toNat = (Call.accepted calls).length
  bytes_eq : r.session.tally.bytes.toNat = ((Call.accepted calls).map UInt64.toNat).sum % 2 ^ 64
  cycles_eq : r.session.tally.cycles.toNat = r.session.tally.packets.toNat / e.plan.flows.length
  errors_eq : r.session.tally.errors.toNat = (Call.refusals calls).length
  errors_le : r.session.tally.errors.toNat ≤ 1
  ok_iff : (∃ tally, outcome = .ok tally) ↔ ∀ c ∈ calls, c.entry.failed = false
  snapshot : ∀ tally, outcome = .ok tally → tally = r.session.tally
  failure : ∀ fault, outcome = .error fault → Failure e calls fault
  /-- Nothing is done behind a call that failed, or behind a packet during which a stop was asked for. -/
  onlyLast : Call.OnlyLastCloses calls

end Run

theorem Tally.toNat_sum (l : List UInt64) : l.sum.toNat = (l.map UInt64.toNat).sum % 2 ^ 64 := by
  induction l with
  | nil => rfl
  | cons n l ih => rw [List.sum_cons, UInt64.toNat_add, ih, List.map_cons, List.sum_cons, Nat.add_mod_mod]

namespace Run

variable {taken : List Delivery} {tail : List Call} {s : Session ω} {r : Run ω}

/-- A passage that failed behind the packets taken is how the run failed. -/
theorem failure_of_passage {p : Packet} {time : Nat} {fault : Fault}
    (hcalls : calls = taken.flatMap (Delivery.log e.plan.outerDestination) ++ tail)
    (hpassage : Passage e.plan.outerDestination time (taken.length % e.plan.flows.length + 1) p tail
      (.error fault)) : Failure e calls fault := by
  have haccepted : (Call.accepted calls).length = taken.length := by
    simp [hcalls, hpassage.accepted_eq_nil]
  have hrefusals : Call.refusals calls = Call.refusals tail := by
    simp [hcalls]
  have hlines : (Call.lines calls).length = taken.length + (Call.lines tail).length := by
    simp [hcalls]
  have hparcels : (Call.parcels calls).length = taken.length + (Call.parcels tail).length := by
    simp [hcalls]
  rw [← haccepted] at hpassage
  cases hpassage with
  | unwritten reason a =>
      refine .untraced hcalls (.inr ⟨_, rfl⟩) hrefusals ?_
      rw [hlines, hparcels]
      rfl
  | unflushed reason a b =>
      refine .untraced (hcalls.trans (List.append_cons _ _ _)) (.inl rfl) hrefusals ?_
      rw [hlines, hparcels]
      rfl
  | refused reason a b c =>
      refine .refused (hcalls.trans ((List.append_cons _ _ _).trans (List.append_cons _ _ _))) ?_
      rw [hrefusals]
      rfl

/-- What the calls of a run that is over add up to, in terms of its full cycles. -/
structure Summed (e : Emitter ω) (calls : List Call) (r : Run ω) (outcome : Except Fault Tally) : Prop where
  cycles_eq : (Call.accepted calls).length / e.plan.flows.length = r.cycles
  refusals_le : (Call.refusals calls).length ≤ 1
  ok_iff : (∃ tally, outcome = .ok tally) ↔ ∀ c ∈ calls, c.entry.failed = false
  failure : ∀ fault, outcome = .error fault → Failure e calls fault

theorem Makes.summed (h : Makes e { session := s } calls r) (hcheck : e.plan.check = .ok ())
    {outcome : Except Fault Tally} (hended : r.outcome? = some outcome) : Summed e calls r outcome := by
  have hplan := Plan.carries_of_check hcheck
  obtain ⟨taken, tail, hcalls, hstanding⟩ := h.scheduled hplan (Plan.length_pos_of_check hcheck)
  replace hcalls : calls = taken.flatMap (Delivery.log e.plan.outerDestination) ++ tail := hcalls
  have hlength : taken.length = (taken.map Delivery.slot).length := (List.length_map _).symm
  cases hstanding with
  | going hnone => cases hended.symm.trans hnone
  | finished houtcome completed begun short =>
      have hle := completed.length_le
      rw [Plan.length_schedule, ← hlength, hplan.length_eq] at hle
      rw [hplan.length_eq] at short
      rw [List.append_nil] at hcalls
      cases houtcome.symm.trans hended
      refine ⟨?_, ?_, ?_, nofun⟩
      · rw [hcalls, Delivery.accepted_log, List.length_map]
        exact Nat.div_eq_of_lt_le hle short
      · simp [hcalls]
      · exact ⟨fun _ => hcalls ▸ Delivery.failed_of_mem_log taken, fun _ => ⟨_, rfl⟩⟩
  | failed houtcome completed begun passage =>
      have hle := completed.length_le
      have hlt := begun.length_le
      rw [Plan.length_schedule, ← hlength, hplan.length_eq] at hle
      rw [List.length_append, Plan.length_schedule, ← hlength, hplan.length_eq] at hlt
      have hdiv : taken.length / e.plan.flows.length = r.cycles := Nat.div_eq_of_lt_le hle hlt
      have hmod : taken.length - r.cycles * e.plan.flows.length = taken.length % e.plan.flows.length := by
        rw [← hdiv, Nat.mod_eq_sub, Nat.mul_comm]
      rw [hplan.length_eq, show (r.logged calls).cycles = r.cycles from rfl, hmod] at passage
      cases houtcome.symm.trans hended
      obtain ⟨c, hmem, hfailed⟩ := passage.exists_failed
      refine ⟨?_, ?_, ?_, ?_⟩
      · rw [hcalls, Call.accepted_append, passage.accepted_eq_nil, List.append_nil, Delivery.accepted_log,
          List.length_map]
        exact hdiv
      · have hparcels := passage.length_parcels_le
        rw [Call.length_parcels] at hparcels
        rw [hcalls, Call.refusals_append, Delivery.refusals_log, List.nil_append]
        omega
      · refine ⟨nofun, ?_⟩
        intro hnone
        have hquiet := hnone c (hcalls ▸ List.mem_append_right _ hmem)
        cases hquiet.symm.trans hfailed
      · intro fault hfault
        cases hfault
        exact failure_of_passage hcalls passage

/-- A run that starts stopped makes no call and leaves the counters alone. -/
theorem Makes.idle (h : Makes e { session := s } calls r) (hplan : e.plan.Carries packets)
    (hstopped : s.running = false) :
    calls = [] ∧ ∀ outcome, r.outcome? = some outcome → outcome = .ok s.tally := by
  have hidle := h.induct (motive := fun r => r.session.world.calls = [] ∧ r.session.running = false ∧
    r.session.tally = s.tally ∧ (r.phase = .ready ∨ r.phase = .ended (.ok s.tally))) hplan
    ⟨rfl, hstopped, rfl, .inl rfl⟩ ?_ ?_
  · obtain ⟨hcalls, -, -, hphase | hphase⟩ := hidle
    · refine ⟨hcalls, ?_⟩
      intro outcome houtcome
      cases (show (r.logged calls).outcome? = none by rw [outcome?, hphase]).symm.trans houtcome
    · refine ⟨hcalls, ?_⟩
      intro outcome houtcome
      have houtcome' : (r.logged calls).outcome? = some (.ok s.tally) := by rw [outcome?, hphase]
      exact (Option.some.inj (houtcome'.symm.trans houtcome)).symm
  · rintro r r' hstride ⟨hcalls, hrunning, htally, hphase⟩
    cases hstride with
    | ended | brokenOff => exact ⟨hcalls, hrunning, htally, hphase⟩
    | idle phase => exact ⟨hcalls, rfl, htally, .inr (congrArg (fun t => Phase.ended (.ok t)) htally)⟩
    | broken _ running | cut _ running | last _ running | full _ running | overrun _ running =>
        cases hrunning.symm.trans running
    | woken phase => rcases hphase with hphase | hphase <;> cases phase.symm.trans hphase
  · rintro r ⟨hcalls, -, htally, hphase⟩
    exact ⟨hcalls, rfl, htally, hphase⟩

/-- However a run with cleared counters came to its end, its counters are what its devices answered and
its outcome is the first failure, or the counters if there was none. One that starts stopped is over at
once. -/
theorem settled_of_ended {w : ω} {running : Bool} {r₀ : Run ω} {outcome : Except Fault Tally}
    (hstart : start e { world := w, running } = .ok r₀) (h : r₀.Makes e calls r)
    (hended : r.outcome? = some outcome) (hfew : (Call.parcels calls).length < 2 ^ 64) :
    Settled e calls r outcome ∧ (running = false → calls = [] ∧ outcome = .ok {}) := by
  obtain ⟨_, hcheck, rfl⟩ := Outcome.map_eq_ok_iff.1 hstart
  have hplan := Plan.carries_of_check hcheck
  have hsummed := h.summed hcheck hended
  have hbooked := h.booked hplan
  have horderly := h.orderly hplan
  have hphase := phase_of_outcome? hended
  rw [Call.length_parcels] at hfew
  have haccepted : (Call.accepted calls).length < 2 ^ 64 := by omega
  have hrefusals : (Call.refusals calls).length < 2 ^ 64 := by omega
  have hcycles : r.cycles < 2 ^ 64 := hsummed.cycles_eq ▸ Nat.lt_of_le_of_lt (Nat.div_le_self _ _) haccepted
  have hnat {n : Nat} (hn : n < 2 ^ 64) : (0 + n.toUInt64 : UInt64).toNat = n := by
    rw [UInt64.zero_add]
    exact UInt64.toNat_ofNat_of_lt' hn
  have htally : r.session.tally = (r.logged calls).counted {} := hbooked.tally_eq
  have hpackets : r.session.tally.packets.toNat = (Call.accepted calls).length := by
    rw [htally]
    exact hnat haccepted
  have herrors : r.session.tally.errors.toNat = (Call.refusals calls).length := by
    rw [htally]
    exact hnat hrefusals
  refine ⟨⟨?_, hpackets, ?_, ?_, herrors, ?_, hsummed.ok_iff, ?_, hsummed.failure, horderly.onlyLast⟩, ?_⟩
  · exact hbooked.stopped_of_ended outcome hphase
  · rw [htally]
    show (0 + (Call.accepted calls).sum : UInt64).toNat = _
    rw [UInt64.zero_add, Tally.toNat_sum]
  · rw [hpackets, hsummed.cycles_eq, htally]
    exact hnat hcycles
  · rw [herrors]
    exact hsummed.refusals_le
  · rintro tally rfl
    exact hbooked.snapshot tally hphase
  · intro hstopped
    obtain ⟨hcalls, houtcome⟩ := h.idle hplan hstopped
    exact ⟨hcalls, houtcome outcome hended⟩

end Run

/-- Two flows on a link that takes three packets and is down for the fourth. -/
def Emitter.failing : Emitter Nat where
  plan := { flows := [⟨⟨100, 64, 0, 1⟩, 11⟩, ⟨⟨100, 64, 0, 2⟩, 12⟩], payload := [0x68, 0x69], interval := 0 }
  transmitter :=
    { name := "failing"
      send := fun _ sends =>
        { result := if sends < 3 then .ok 62 else .error "network is down", world := sends + 1 } }
  sink := { write := fun _ sends => { result := .ok (), world := sends }
            flush := fun sends => { result := .ok (), world := sends } }
  runtime := .signedSeconds

theorem Run.settled_of_ended_failing :
    let e := Emitter.failing
    let r₀ : Run Nat := { session := { world := 0, running := true } }
    let r := r₀.complete e 2
    let calls := r₀.callsOf e 2
    let outcome : Except Fault Tally := .error (.transmission 2 ⟨192, 168, 57, 10⟩ "network is down")
    Run.start e { world := 0, running := true } = .ok r₀ ∧ r₀.Makes e calls r ∧
    r.outcome? = some outcome ∧ (Call.parcels calls).length < 2 ^ 64 ∧
    r.session.tally = ⟨1, 3, 186, 1⟩ ∧
    Settled e calls r outcome ∧ (true = false → calls = [] ∧ outcome = .ok {}) := by
  intro e r₀ r calls outcome
  have hcheck : e.plan.check = .ok () := by rfl
  have hstart : Run.start e { world := 0, running := true } = .ok r₀ := congrArg (Except.map fun _ => r₀) hcheck
  have hmakes : r₀.Makes e calls r := r₀.makes_complete e 2
  have hended : r.outcome? = some outcome := by decide +kernel
  have hfew : (Call.parcels calls).length < 2 ^ 64 := by decide +kernel
  have htally : r.session.tally = ⟨1, 3, 186, 1⟩ := by decide +kernel
  exact ⟨hstart, hmakes, hended, hfew, htally, Run.settled_of_ended hstart hmakes hended hfew⟩

end LabelTunnel
