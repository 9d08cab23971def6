import LabelTunnel.Proofs.Emission.Journal
import LabelTunnel.Proofs.Traffic.Plan

/-! The order of an emission. With a sink that never fails, all that a run does is to ship packets: the
line of the packet is written and flushed, then the packet is handed over. The packets shipped are the
packets of the plan, cycle after cycle; a run that goes on has shipped complete cycles only, and a run
that is over stopped somewhere in the cycle behind them. -/

namespace LabelTunnel

variable {ω : Type}

structure Sink.NeverFails (sink : Sink ω) : Prop where
  write (line : String) (w : ω) : (sink.write line w).result = .ok ()
  flush (w : ω) : (sink.flush w).result = .ok ()

/-- A packet that was announced and handed over, with the answer to it. -/
structure Shipment where
  time : Nat
  packet : Packet
  answer : Except String UInt64

def Shipment.entries (destination : Address) (s : Shipment) : List Entry :=
  [.wrote s.packet.traceLine (.ok ()), .flushed (.ok ()),
    .sent ⟨s.time, destination, s.packet.octets⟩ s.answer]

theorem Shipment.handed_entries (destination : Address) (shipments : List Shipment) :
    (shipments.flatMap (entries destination)).filterMap Entry.handed? =
      (shipments.map packet).map fun p => (p.octets, destination) := by
  induction shipments with
  | nil => rfl
  | cons s shipments ih =>
      rw [List.flatMap_cons, List.filterMap_append, ih]
      rfl

theorem Session.record_journaled {e : Emitter ω} (hsink : e.sink.NeverFails) (line : String)
    (s : Session (Journaled ω)) : ∃ s', s.record e.journaled.sink line = (.ok (), s') ∧
      s'.world.entries = s.world.entries ++ [.wrote line (.ok ()), .flushed (.ok ())] := by
  have hwrite : (e.journaled.sink.write line s.world).result = .ok () := hsink.write line s.world.world
  have hflush (w : Journaled ω) : (e.journaled.sink.flush w).result = .ok () := hsink.flush w.world
  refine ⟨(s.record e.journaled.sink line).2, ?_, ?_⟩
  · unfold Session.record
    simp only [hwrite, hflush]
    rfl
  · unfold Session.record
    simp only [hwrite]
    show (s.world.entries ++ [.wrote line (e.sink.write line s.world.world).result]) ++
      [.flushed (e.sink.flush _).result] = _
    rw [hsink.write, hsink.flush, List.append_assoc]
    rfl

namespace Emitter

variable {e : Emitter ω} {packets : List Packet}

theorem exists_entries_ship (hsink : e.sink.NeverFails) {p : Packet} (hencode : p.encode = .ok p.octets)
    (time sent : Nat) (s : Session (Journaled ω)) :
    ∃ answer, (e.journaled.ship time sent p s).2.world.entries =
      s.world.entries ++ Shipment.entries e.plan.outerDestination ⟨time, p, answer⟩ := by
  obtain ⟨s', hrecord, hentries⟩ := Session.record_journaled hsink p.traceLine s
  refine ⟨(e.transmitter.send ⟨time, e.plan.outerDestination, p.octets⟩ s'.world.world).result, ?_⟩
  unfold ship
  rw [hencode]
  simp only [hrecord]
  show s'.world.entries ++ [Entry.sent _ _] = _
  rw [hentries, List.append_assoc]
  rfl

/-- What is left of a cycle is shipped from the front on. All of it has gone if the number of packets sent
comes out as that of a full cycle. A packet that was refused was handed over all the same, and is the last
one. -/
theorem exists_shipments_emit (hsink : e.sink.NeverFails) {rest : List Packet}
    (hencode : ∀ p ∈ rest, p.encode = .ok p.octets) (time sent : Nat) (s : Session (Journaled ω)) :
    ∃ shipments : List Shipment, shipments.map Shipment.packet <+: rest ∧
      (e.journaled.emit time sent s rest).2.world.entries =
        s.world.entries ++ shipments.flatMap (Shipment.entries e.plan.outerDestination) ∧
      ∀ n, (e.journaled.emit time sent s rest).1 = .ok n → n = sent + shipments.length := by
  induction rest generalizing sent s with
  | nil =>
      refine ⟨[], List.prefix_rfl, (List.append_nil _).symm, ?_⟩
      intro n hn
      exact (Except.ok.inj hn).symm
  | cons p rest ih =>
      cases hrunning : s.running with
      | false =>
          rw [emit_of_stopped hrunning]
          refine ⟨[], List.nil_prefix, (List.append_nil _).symm, ?_⟩
          intro n hn
          exact (Except.ok.inj hn).symm
      | true =>
          obtain ⟨answer, hentries⟩ :=
            exists_entries_ship hsink (hencode p List.mem_cons_self) time sent s
          rcases hship : e.journaled.ship time sent p s with ⟨fault | _, s'⟩
          · rw [hship] at hentries
            rw [emit_of_ship_error hrunning hship]
            refine ⟨[⟨time, p, answer⟩], ?_, ?_, ?_⟩
            · exact List.prefix_append [p] rest
            · rw [hentries, List.flatMap_singleton]
            · intro n hn
              cases hn
          · rw [hship] at hentries
            rw [emit_of_ship_ok hrunning hship]
            obtain ⟨shipments, hfront, hmore, hcount⟩ :=
              ih (fun q hq => hencode q (List.mem_cons_of_mem p hq)) (sent + 1) s'
            refine ⟨⟨time, p, answer⟩ :: shipments, ?_, ?_, ?_⟩
            · exact List.cons_prefix_cons.2 ⟨rfl, hfront⟩
            · rw [hmore, hentries, List.append_assoc, List.flatMap_cons]
            · intro n hn
              rw [hcount n hn, List.length_cons]
              omega

theorem exists_shipments_cycle (hsink : e.sink.NeverFails) (hplan : e.plan.Carries packets) (time : Nat)
    (s : Session (Journaled ω)) :
    ∃ shipments : List Shipment, shipments.map Shipment.packet <+: packets ∧
      (e.journaled.cycle time s).2.world.entries =
        s.world.entries ++ shipments.flatMap (Shipment.entries e.plan.outerDestination) ∧
      ∀ n, (e.journaled.cycle time s).1 = .ok n → n = shipments.length := by
  have hcycle : e.journaled.cycle time s = e.journaled.emit time 0 s packets := by
    unfold cycle
    rw [show e.journaled.plan.packets = .ok packets from hplan.packets_eq]
  obtain ⟨shipments, hfront, hentries, hcount⟩ := exists_shipments_emit hsink hplan.encode_eq time 0 s
  rw [← hcycle] at hentries hcount
  refine ⟨shipments, hfront, hentries, ?_⟩
  intro n hn
  rw [hcount n hn, Nat.zero_add]

end Emitter

namespace Run

/-- What one step ships: nothing, a complete cycle, or the beginning of a cycle with which the run is
over. -/
inductive Ships (packets : List Packet) (r r' : Run ω) : List Shipment → Prop
  | nothing (cycles : r'.cycles = r.cycles) (ended : r'.outcome? = none → r.outcome? = none) :
      Ships packets r r' []
  | cycle {shipments : List Shipment} (all : shipments.map Shipment.packet = packets)
      (going : r.outcome? = none) (cycles : r'.cycles = r.cycles + 1) : Ships packets r r' shipments
  | last {shipments : List Shipment} (part : shipments.map Shipment.packet <+: packets)
      (going : r.outcome? = none) (cycles : r'.cycles = r.cycles) (ended : r'.outcome? ≠ none) :
      Ships packets r r' shipments

variable {e : Emitter ω} {packets : List Packet}

theorem exists_ships_emitCycle (hsink : e.sink.NeverFails) (hplan : e.plan.Carries packets)
    (r : Run (Journaled ω)) (hready : r.phase = .ready) :
    ∃ shipments, (r.emitCycle e.journaled).session.world.entries =
        r.session.world.entries ++ shipments.flatMap (Shipment.entries e.plan.outerDestination) ∧
      Ships packets r (r.emitCycle e.journaled) shipments := by
  have hgoing : r.outcome? = none := by
    rw [outcome?, hready]
  obtain ⟨shipments, hfront, hentries, hcount⟩ :=
    Emitter.exists_shipments_cycle hsink hplan r.now r.session
  refine ⟨shipments, ?_⟩
  rcases hcycle : e.journaled.cycle r.now r.session with ⟨fault | sent, s⟩
  · rw [hcycle] at hentries
    rw [emitCycle_of_error hcycle]
    exact ⟨hentries, .last hfront hgoing rfl (Option.some_ne_none _)⟩
  · rw [hcycle] at hentries hcount
    by_cases hcut : sent < e.plan.flows.length
    · rw [emitCycle_of_lt hcycle hcut]
      exact ⟨hentries, .last hfront hgoing rfl (Option.some_ne_none _)⟩
    · have hfull := Nat.le_of_not_lt hcut
      have hall : shipments.map Shipment.packet = packets := by
        refine hfront.eq_of_length_le ?_
        rw [List.length_map, ← hcount sent rfl, hplan.length_eq]
        exact hfull
      rw [emitCycle_of_le hcycle hfull, world_afterCycle]
      exact ⟨hentries, .cycle hall hgoing (cycles_afterCycle _)⟩

theorem exists_ships_step_journaled (hsink : e.sink.NeverFails) (hplan : e.plan.Carries packets)
    (r : Run (Journaled ω)) :
    ∃ shipments, (r.step e.journaled).session.world.entries =
        r.session.world.entries ++ shipments.flatMap (Shipment.entries e.plan.outerDestination) ∧
      Ships packets r (r.step e.journaled) shipments := by
  cases hphase : r.phase with
  | ready =>
      have hgoing : r.outcome? = none := by
        rw [outcome?, hphase]
      cases hrunning : r.session.running with
      | false =>
          rw [step_of_stopped hphase hrunning]
          exact ⟨[], (List.append_nil _).symm, .nothing rfl (fun _ => hgoing)⟩
      | true =>
          rw [step_of_running hphase hrunning]
          exact exists_ships_emitCycle hsink hplan r hphase
  | asleep wake deadline =>
      have hgoing : r.outcome? = none := by
        rw [outcome?, hphase]
      rw [step_of_asleep hphase]
      refine ⟨[], ?_, .nothing (cycles_look deadline) (fun _ => hgoing)⟩
      rw [world_look]
      exact (List.append_nil _).symm
  | ended outcome =>
      rw [step_of_ended hphase]
      exact ⟨[], (List.append_nil _).symm, .nothing rfl id⟩
  | brokenOff =>
      rw [step_of_brokenOff hphase]
      exact ⟨[], (List.append_nil _).symm, .nothing rfl id⟩

theorem exists_ships_step (hsink : e.sink.NeverFails) (hplan : e.plan.Carries packets) (r : Run ω) :
    ∃ shipments, r.entries e = shipments.flatMap (Shipment.entries e.plan.outerDestination) ∧
      Ships packets r (r.step e) shipments := by
  obtain ⟨shipments, hentries, hships⟩ :=
    exists_ships_step_journaled hsink hplan (r.journaled [])
  refine ⟨shipments, hentries, ?_⟩
  rw [step_journaled] at hships
  cases hships with
  | nothing cycles ended => exact .nothing cycles ended
  | cycle all going cycles => exact .cycle all going cycles
  | last part going cycles ended => exact .last part going cycles ended

/-! ### Whole runs -/

def cyclesOf (packets : List Packet) (count : Nat) : List Packet := (List.replicate count packets).flatten

theorem cyclesOf_succ (packets : List Packet) (count : Nat) :
    cyclesOf packets (count + 1) = cyclesOf packets count ++ packets := by
  unfold cyclesOf
  rw [List.replicate_succ', List.flatten_append, List.flatten_singleton]

/-- What was shipped is the completed cycles, and the beginning of another one only if the run is over. -/
structure InOrder (packets : List Packet) (r : Run ω) (shipped : List Packet) : Prop where
  completed : cyclesOf packets r.cycles <+: shipped
  begun : shipped <+: cyclesOf packets (r.cycles + 1)
  going : r.outcome? = none → shipped = cyclesOf packets r.cycles

theorem InOrder.of_eq {r : Run ω} {shipped : List Packet} (h : shipped = cyclesOf packets r.cycles) :
    InOrder packets r shipped := by
  refine ⟨?_, ?_, fun _ => h⟩
  · exact h ▸ List.prefix_rfl
  · rw [h, cyclesOf_succ]
    exact List.prefix_append _ _

/-- A run that still goes on has nothing unfinished behind it, so its next cycle starts where one ends. -/
theorem InOrder.step {r r' : Run ω} {shipped : List Packet} {shipments : List Shipment}
    (h : InOrder packets r shipped) (hships : Ships packets r r' shipments) :
    InOrder packets r' (shipped ++ shipments.map Shipment.packet) := by
  cases hships with
  | nothing cycles ended =>
      rw [List.map_nil, List.append_nil]
      refine ⟨cycles ▸ h.completed, cycles ▸ h.begun, ?_⟩
      intro hgoing
      rw [cycles]
      exact h.going (ended hgoing)
  | cycle all going cycles =>
      apply InOrder.of_eq
      rw [h.going going, all, cycles, cyclesOf_succ]
  | last part going cycles ended =>
      rw [h.going going]
      refine ⟨?_, ?_, ?_⟩
      · rw [cycles]
        exact List.prefix_append _ _
      · rw [cycles, cyclesOf_succ]
        exact (List.prefix_append_right_inj _).2 part
      · intro hgoing
        exact absurd hgoing ended

theorem Reaches.inOrder (hsink : e.sink.NeverFails) (hplan : e.plan.Carries packets) {r₀ r : Run ω}
    {entries : List Entry} (hfresh : r₀.cycles = 0) (h : r₀.Reaches e entries r) :
    ∃ shipments : List Shipment, entries = shipments.flatMap (Shipment.entries e.plan.outerDestination) ∧
      InOrder packets r (shipments.map Shipment.packet) := by
  induction h with
  | start =>
      refine ⟨[], rfl, InOrder.of_eq ?_⟩
      rw [hfresh]
      rfl
  | @step entries r _ ih =>
      obtain ⟨shipments, hentries, horder⟩ := ih
      obtain ⟨more, hmore, hships⟩ := exists_ships_step hsink hplan r
      refine ⟨shipments ++ more, ?_, ?_⟩
      · rw [hentries, hmore, List.flatMap_append]
      · rw [List.map_append]
        exact horder.step hships
  | stop _ ih =>
      obtain ⟨shipments, hentries, horder⟩ := ih
      exact ⟨shipments, hentries, horder.completed, horder.begun, horder.going⟩

end Run

/-- **Nothing is skipped, repeated or reordered.** Whatever the transmitter answers and whenever it or
others ask for a stop, what a run has handed over is a beginning of the endless repetition of one cycle,
the octets of one packet for each flow. The journal has nothing but these shipments, each of them the
line of the packet, a flush, and the packet itself, and all the cycles counted are among them. -/
theorem Run.entries_of_reaches {e : Emitter ω} {s : Session ω} {r₀ r : Run ω} {entries : List Entry}
    (hsink : e.sink.NeverFails) (hstart : Run.start e s = .ok r₀) (h : r₀.Reaches e entries r) :
    ∃ packets, e.plan.Carries packets ∧
      entries.filterMap Entry.handed? <+: (List.replicate (r.cycles + 1)
        (packets.map fun p => (p.octets, e.plan.outerDestination))).flatten ∧
      ∃ shipments : List Shipment, entries = shipments.flatMap (Shipment.entries e.plan.outerDestination) ∧
        cyclesOf packets r.cycles <+: shipments.map Shipment.packet ∧
        shipments.map Shipment.packet <+: cyclesOf packets (r.cycles + 1) := by
  obtain ⟨_, hcheck, rfl⟩ := Outcome.map_eq_ok_iff.1 hstart
  have hplan := Plan.carries_of_check hcheck
  obtain ⟨shipments, hentries, horder⟩ := h.inOrder hsink hplan rfl
  refine ⟨_, hplan, ?_, shipments, hentries, horder.completed, horder.begun⟩
  rw [hentries, Shipment.handed_entries, ← List.map_replicate, ← List.map_flatten]
  exact horder.begun.map _

/-- An emitter of three flows that is asked to stop during its fourth send, in the second cycle. -/
def Emitter.rehearsed : Emitter Rehearsal where
  plan := {
    flows := [⟨⟨100, 64, 0, 1⟩, 11⟩, ⟨⟨100, 64, 0, 2⟩, 12⟩, ⟨⟨100, 64, 0, 3⟩, 13⟩]
    payload := [0x68, 0x69]
    interval := 0 }
  transmitter := Rehearsal.transmitter { stopAfter := some 4, accept := some 7 }
  sink := Rehearsal.sink {}
  runtime := .signedSeconds

theorem Run.entries_of_reaches_rehearsed :
    let e := Emitter.rehearsed
    let r₀ : Run Rehearsal := { session := { world := {} } }
    let r := (r₀.step e).step e
    let entries := r₀.entries e ++ (r₀.step e).entries e
    e.sink.NeverFails ∧ Run.start e r₀.session = .ok r₀ ∧ r₀.Reaches e entries r ∧
    ∃ packets, e.plan.Carries packets ∧
      entries.filterMap Entry.handed? <+: (List.replicate (r.cycles + 1)
        (packets.map fun p => (p.octets, e.plan.outerDestination))).flatten ∧
      ∃ shipments : List Shipment,
        entries = shipments.flatMap (Shipment.entries e.plan.outerDestination) ∧
        cyclesOf packets r.cycles <+: shipments.map Shipment.packet ∧
        shipments.map Shipment.packet <+: cyclesOf packets (r.cycles + 1) := by
  intro e r₀ r entries
  have hsink : e.sink.NeverFails := by
    constructor
    · intro line w
      show (if line.length = line.length then (.ok () : Except String Unit) else _) = .ok ()
      rw [if_pos rfl]
    · intro w
      rfl
  have hcheck : Emitter.rehearsed.plan.check = .ok () := by rfl
  have hstart : Run.start e r₀.session = .ok r₀ := congrArg (Except.map fun _ => r₀) hcheck
  have hreaches : r₀.Reaches e ([] ++ r₀.entries e ++ (r₀.step e).entries e) r := .step (.step .start)
  rw [List.nil_append] at hreaches
  exact ⟨hsink, hstart, hreaches, Run.entries_of_reaches hsink hstart hreaches⟩

end LabelTunnel
