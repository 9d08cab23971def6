import LabelTunnel.Proofs.Emission.Cycle
import LabelTunnel.Proofs.Packet.Footprint
import LabelTunnel.Proofs.Packet.RoundTrip

/-! What a full cycle is made of. For each flow, in order, one packet is handed over that is read back as
the packet the plan describes, and one line is traced that shows this packet. So the packets of a cycle
differ where the flow shows and nowhere else. -/

namespace LabelTunnel

variable {ω : Type} {e : Emitter ω} {packets : List Packet}

namespace Plan

variable {p : Plan}

/-- The packet of a flow, with all that the plan leaves to the standard values written out. -/
def packetInFull (p : Plan) (flow : Flow) : Packet where
  outer := { source := p.outerSource, destination := p.outerDestination, ttl := 64, identification := 1 }
  ports := { source := flow.sourcePort, destination := p.destinationPort }
  label := { label := p.label, trafficClass := 0, bottom := true, ttl := p.labelTtl }
  inner := { source := flow.innerSource, destination := p.innerDestination, ttl := 64, identification := 1 }
  echo := { kind := .request, code := 0, identifier := 0, sequence := 0 }
  payload := p.payload

theorem label_lt_of_check (h : p.check = .ok ()) : p.label < 0x100000 := by
  have hlabel := (bounds_of_check h).1
  rw [UInt32.le_iff_toNat_le] at hlabel
  rw [UInt32.lt_iff_toNat_lt]
  exact Nat.lt_of_le_of_lt hlabel (by decide)

theorem packet_eq_packetInFull (h : p.check = .ok ()) (flow : Flow) : p.packet flow = p.packetInFull flow := by
  have hclass : (0 : UInt8) < 8 := by decide
  have hlabel : LabelEntry.single p.label p.labelTtl = ⟨p.label, 0, true, p.labelTtl⟩ :=
    (LabelEntry.masked_eq_self_iff _).2 ⟨label_lt_of_check h, hclass⟩
  unfold packet packetInFull
  rw [hlabel]

theorem decode_octets (h : p.check = .ok ()) (flow : Flow) :
    Packet.decode (p.packet flow).octets = .ok (p.packetInFull flow) := by
  have hclass : (0 : UInt8) < 8 := by decide
  have hencode : (p.packet flow).encode = .ok (p.packet flow).octets :=
    Packet.encode_eq_ok_octets (bounds_of_check h).2.2
  rw [packet_eq_packetInFull h] at hencode ⊢
  exact (Packet.decode_encode_eq_ok_self_iff hencode).2 ⟨label_lt_of_check h, hclass, rfl, nofun, nofun⟩

theorem sameBut_octets (h : p.check = .ok ()) (flow flow' : Flow) :
    Octets.SameBut Packet.FlowOffset (p.packet flow).octets (p.packet flow').octets := by
  obtain ⟨-, -, hpayload⟩ := bounds_of_check h
  have hencode : ((p.packet flow).sentBy flow'.innerSource flow'.sourcePort).encode =
      .ok (p.packet flow').octets :=
    Packet.encode_eq_ok_octets hpayload
  exact Packet.sameBut_of_flow (Packet.encode_eq_ok_octets hpayload) hencode

end Plan

namespace Emitter

/-- The calls of one cycle. -/
def cycleCalls (e : Emitter ω) (time : Nat) (s : Session ω) : List Call :=
  (e.logged.cycle time (s.logged [])).2.world.calls

theorem cycle_logged (e : Emitter ω) (time : Nat) (s : Session ω) :
    (e.logged.cycle time (s.logged [])).1 = (e.cycle time s).1 :=
  (congrArg Prod.fst (e.logged_shows.cycle_map time (s.logged []))).symm

theorem cycleCalls_of_swept {time : Nat} {s : Session ω} {calls : List Call} {s' : Session (Logged ω)}
    (h : Swept e time 0 (s.logged []) packets calls s' (e.logged.cycle time (s.logged []))) :
    e.cycleCalls time s = calls := by
  rw [cycleCalls, h.session_eq]
  split <;> exact h.follows.log

theorem exists_taken_of_cycle (hplan : e.plan.Carries packets) {time : Nat} {s : Session ω}
    (hfull : (e.cycle time s).1 = .ok e.plan.flows.length) :
    ∃ taken : List Delivery, e.cycleCalls time s = taken.flatMap (Delivery.log e.plan.outerDestination) ∧
      taken.map Delivery.slot = packets.map (Prod.mk time) := by
  obtain ⟨calls, s', hswept⟩ := exists_swept_cycle hplan time (s.logged [])
  have hsweep := hswept.sweep
  rw [cycle_logged, hfull, ← hplan.length_eq] at hsweep
  obtain ⟨taken, hcalls, hslots⟩ := hsweep.exists_taken_of_full
  exact ⟨taken, (cycleCalls_of_swept hswept).trans hcalls, hslots⟩

/-- A full cycle hands over one packet for each flow, each is read back as the packet of its flow and is
traced as such, and where two of them differ their flows show. -/
theorem content_of_cycle (hcheck : e.plan.check = .ok ()) (time : Nat) (s : Session ω)
    (hfull : (e.cycle time s).1 = .ok e.plan.flows.length) :
    (Call.parcels (e.cycleCalls time s)).map (fun parcel => Packet.decode parcel.bytes) =
      e.plan.flows.map (fun flow => .ok (e.plan.packetInFull flow)) ∧
    Call.lines (e.cycleCalls time s) =
      e.plan.flows.map (fun flow => "Send: " ++ (e.plan.packetInFull flow).summary ++ "\n") ∧
    ∀ a ∈ Call.parcels (e.cycleCalls time s), ∀ b ∈ Call.parcels (e.cycleCalls time s),
      Octets.SameBut Packet.FlowOffset a.bytes b.bytes := by
  obtain ⟨taken, hcalls, hslots⟩ := exists_taken_of_cycle (Plan.carries_of_check hcheck) hfull
  have hpackets : taken.map Delivery.packet = e.plan.flows.map e.plan.packet := by
    have hsecond := congrArg (List.map Prod.snd) hslots
    simpa [Function.comp_def, Delivery.slot] using hsecond
  have hbytes : (Call.parcels (e.cycleCalls time s)).map Parcel.bytes =
      e.plan.flows.map fun flow => (e.plan.packet flow).octets := by
    have hoctets := congrArg (List.map Packet.octets) hpackets
    rw [hcalls, Delivery.parcels_log, List.map_map]
    simpa [Function.comp_def] using hoctets
  have hlines : Call.lines (e.cycleCalls time s) =
      e.plan.flows.map fun flow => (e.plan.packet flow).traceLine := by
    have htraced := congrArg (List.map Packet.traceLine) hpackets
    rw [hcalls, Delivery.lines_log]
    simpa [Function.comp_def] using htraced
  refine ⟨?_, ?_, ?_⟩
  · calc (Call.parcels (e.cycleCalls time s)).map (fun parcel => Packet.decode parcel.bytes)
        = ((Call.parcels (e.cycleCalls time s)).map Parcel.bytes).map Packet.decode := by rw [List.map_map]; rfl
      _ = e.plan.flows.map fun flow => Packet.decode (e.plan.packet flow).octets := by
            rw [hbytes, List.map_map]
            rfl
      _ = e.plan.flows.map fun flow => .ok (e.plan.packetInFull flow) :=
            List.map_congr_left fun flow _ => Plan.decode_octets hcheck flow
  · rw [hlines]
    refine List.map_congr_left ?_
    intro flow _
    rw [Packet.traceLine, Plan.packet_eq_packetInFull hcheck]
  · have hsent : ∀ parcel ∈ Call.parcels (e.cycleCalls time s),
        ∃ flow, (e.plan.packet flow).octets = parcel.bytes := by
      intro parcel hparcel
      have hmem := List.mem_map_of_mem (f := Parcel.bytes) hparcel
      rw [hbytes] at hmem
      obtain ⟨flow, -, hflow⟩ := List.mem_map.1 hmem
      exact ⟨flow, hflow⟩
    intro a ha b hb
    obtain ⟨flow, hflow⟩ := hsent a ha
    obtain ⟨flow', hflow'⟩ := hsent b hb
    rw [← hflow, ← hflow']
    exact Plan.sameBut_octets hcheck flow flow'

/-- The standard plan, its packets sent nowhere. -/
theorem content_of_cycle_standard :
    let e : Emitter String := { plan := {}, transmitter := .dryRun, sink := .collect, runtime := .signedSeconds }
    let s : Session String := { world := "" }
    e.plan.check = .ok () ∧ (e.cycle 0 s).1 = .ok e.plan.flows.length ∧
    (Call.parcels (e.cycleCalls 0 s)).map (fun parcel => Packet.decode parcel.bytes) =
      e.plan.flows.map (fun flow => .ok (e.plan.packetInFull flow)) ∧
    Call.lines (e.cycleCalls 0 s) =
      e.plan.flows.map (fun flow => "Send: " ++ (e.plan.packetInFull flow).summary ++ "\n") ∧
    ∀ a ∈ Call.parcels (e.cycleCalls 0 s), ∀ b ∈ Call.parcels (e.cycleCalls 0 s),
      Octets.SameBut Packet.FlowOffset a.bytes b.bytes := by
  intro e s
  have hcheck : e.plan.check = .ok () := by decide +kernel
  have hfull : (e.cycle 0 s).1 = .ok e.plan.flows.length := by decide +kernel
  exact ⟨hcheck, hfull, content_of_cycle hcheck 0 s hfull⟩

end Emitter

end LabelTunnel
