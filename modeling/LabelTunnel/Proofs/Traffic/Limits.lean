import LabelTunnel.Proofs.Traffic.Plan

/-! The limits of a plan and the limits of its packets. The check of a plan knows the width of a label
and the size of the headers by numbers of its own; the layers come to theirs one by one, each from its
own length field. Both draw the line at the same place: a plan that passes its check has a packet for each
flow that is printed in the size foreseen, and a plan whose packets can be built and printed can only be
refused for its ports. -/

namespace LabelTunnel

namespace Plan

variable {p : Plan} {packets : List Packet} {cause : ParameterFault}

/-! ### The check -/

theorem repeatedPort?_eq_none_iff_of_seen (seen : Nat) (flows : List Flow) : repeatedPort? seen flows = none ↔
    (∀ f ∈ flows, seen.testBit f.sourcePort.toNat = false) ∧ (flows.map Flow.sourcePort).Nodup := by
  induction flows generalizing seen with
  | nil => exact iff_of_true rfl ⟨nofun, List.nodup_nil⟩
  | cons f flows ih =>
      have hseen (g : Flow) : (seen ||| 2 ^ f.sourcePort.toNat).testBit g.sourcePort.toNat = false ↔
          seen.testBit g.sourcePort.toNat = false ∧ f.sourcePort ≠ g.sourcePort := by
        rw [Nat.testBit_or, Nat.testBit_two_pow, Bool.or_eq_false_iff, decide_eq_false_iff_not,
          UInt16.toNat_inj]
      rw [List.map_cons, List.nodup_cons, List.mem_map, List.forall_mem_cons]
      show (if seen.testBit f.sourcePort.toNat then some f.sourcePort else repeatedPort? _ flows) = none ↔ _
      cases hfirst : seen.testBit f.sourcePort.toNat with
      | true => simp
      | false =>
          rw [if_neg Bool.false_ne_true, ih]
          simp only [hseen, forall_and, not_exists, not_and, true_and]
          constructor
          · rintro ⟨⟨hrest, hdiffer⟩, hnodup⟩
            exact ⟨hrest, fun g hg heq => hdiffer g hg heq.symm, hnodup⟩
          · rintro ⟨hrest, hdiffer, hnodup⟩
            exact ⟨⟨hrest, fun g hg heq => hdiffer g hg heq.symm⟩, hnodup⟩

theorem repeatedPort?_eq_none_iff (flows : List Flow) :
    repeatedPort? 0 flows = none ↔ (flows.map Flow.sourcePort).Nodup := by
  rw [repeatedPort?_eq_none_iff_of_seen]
  simp

/-- A plan passes exactly if it violates none of the five conditions. -/
theorem check_eq_ok_iff (p : Plan) : p.check = .ok () ↔ p.label ≤ LabelEntry.maxLabel ∧ p.flows ≠ [] ∧
    (p.flows.map Flow.sourcePort).Nodup ∧ p.destinationPort ≠ 0 ∧ p.packetSize ≤ 65535 := by
  have hfault : p.check = .ok () ↔ p.fault? = none := by
    unfold check
    cases p.fault? <;> simp
  rw [hfault, ← UInt32.not_lt, ← Nat.not_lt, ← repeatedPort?_eq_none_iff]
  unfold fault?
  by_cases hlabel : LabelEntry.maxLabel < p.label
  · simp [hlabel]
  by_cases hflows : p.flows = []
  · simp [hlabel, hflows]
  cases hport : repeatedPort? 0 p.flows with
  | some port => simp [hlabel, hflows]
  | none =>
      by_cases hzero : p.destinationPort = 0
      · simp [hlabel, hflows, hzero]
      · simp [hlabel, hflows, hzero]

/-- A plan whose label, flows and payload are in order has only its ports to be refused for. -/
theorem fault?_of_bounds (hlabel : p.label ≤ LabelEntry.maxLabel) (hflows : p.flows ≠ [])
    (hsize : p.packetSize ≤ 65535) (h : p.fault? = some cause) :
    (∃ port, cause = .portRepeated port ∧ ¬(p.flows.map Flow.sourcePort).Nodup) ∨
      cause = .portZero ∧ p.destinationPort = 0 := by
  unfold fault? at h
  rw [if_neg (UInt32.not_lt.2 hlabel), if_neg hflows] at h
  cases hport : repeatedPort? 0 p.flows with
  | some port =>
      rw [hport] at h
      cases h
      refine .inl ⟨port, rfl, ?_⟩
      rw [← repeatedPort?_eq_none_iff, hport]
      exact Option.some_ne_none port
  | none =>
      rw [hport] at h
      dsimp only at h
      rw [if_neg (Nat.not_lt.2 hsize)] at h
      split at h
      · rename_i hzero
        cases h
        exact .inr ⟨rfl, hzero⟩
      · cases h

/-! ### The packets -/

theorem packetSize_eq_size (p : Plan) (flow : Flow) : p.packetSize = (p.packet flow).size := rfl

theorem label_le_of_build {flow : Flow} {q : Packet} (h : (p.draft flow).build = .ok q) :
    p.label ≤ LabelEntry.maxLabel := by
  refine UInt32.not_lt.1 ?_
  intro hwide
  have hbuild : (p.draft flow).build = .error (.construction (.labelTooWide p.label)) := by
    show (if LabelEntry.maxLabel < p.label then _ else _) = _
    rw [if_pos hwide]
    rfl
  cases hbuild.symm.trans h

/-- A plan with flows whose packets can be built has a label that fits, and these are its packets. -/
theorem bounds_of_packets (hflows : p.flows ≠ []) (h : p.packets = .ok packets) :
    p.label ≤ LabelEntry.maxLabel ∧ packets = p.flows.map p.packet := by
  obtain ⟨flow, hflow⟩ := List.exists_mem_of_ne_nil p.flows hflows
  obtain ⟨q, hbuild⟩ := Outcome.exists_ok_of_mapM_eq_ok h flow hflow
  have hlabel := label_le_of_build hbuild
  have hpackets : p.packets = .ok (p.flows.map p.packet) :=
    Outcome.mapM_eq_ok_map fun flow _ => build_draft hlabel flow
  exact ⟨hlabel, Except.ok.inj (h.symm.trans hpackets)⟩

theorem length_payload_le_of_encode (hflows : p.flows ≠ [])
    (h : ∀ q ∈ p.flows.map p.packet, ∃ bytes, q.encode = .ok bytes) : p.payload.length ≤ 65475 := by
  obtain ⟨flow, hflow⟩ := List.exists_mem_of_ne_nil p.flows hflows
  obtain ⟨bytes, hencode⟩ := h (p.packet flow) (List.mem_map_of_mem hflow)
  exact Packet.length_le_of_encode hencode

/-- **The check of a plan and the printer of its packets draw one line.** A plan that passes has a packet
for each flow, each of them printed in the size that the plan foresees; a plan with flows whose packets
are built and printed has a label and a payload that fit, and is refused, if at all, for a source port
that is repeated or a destination port that is zero. -/
theorem check_agrees_with_encode (p : Plan) : overhead = Packet.overhead ∧
    (p.check = .ok () → p.packetSize ≤ 65535 ∧ ∃ packets, p.packets = .ok packets ∧
      packets.length = p.flows.length ∧
      ∀ q ∈ packets, ∃ bytes, q.encode = .ok bytes ∧ bytes.length = p.packetSize) ∧
    ∀ packets, p.flows ≠ [] → p.packets = .ok packets → (∀ q ∈ packets, ∃ bytes, q.encode = .ok bytes) →
      p.label ≤ 0xFFFFF ∧ p.payload.length ≤ 65475 ∧ ∀ fault, p.check = .error fault →
        (∃ port, fault = .parameter (.portRepeated port) ∧ ¬(p.flows.map Flow.sourcePort).Nodup) ∨
          fault = .parameter .portZero ∧ p.destinationPort = 0 := by
  have hsize : p.packetSize = 60 + p.payload.length := rfl
  refine ⟨rfl, ?_, ?_⟩
  · intro hcheck
    obtain ⟨-, -, hpayload⟩ := bounds_of_check hcheck
    obtain ⟨hpackets, hlength, hencode⟩ := carries_of_check hcheck
    refine ⟨by omega, _, hpackets, hlength, ?_⟩
    intro q hq
    refine ⟨q.octets, hencode q hq, ?_⟩
    obtain ⟨flow, -, rfl⟩ := List.mem_map.1 hq
    rw [Packet.length_of_encode (hencode _ hq), packetSize_eq_size p flow]
  · intro packets hflows hpackets hencode
    obtain ⟨hlabel, rfl⟩ := bounds_of_packets hflows hpackets
    have hpayload := length_payload_le_of_encode hflows hencode
    refine ⟨hlabel, hpayload, ?_⟩
    intro fault hcheck
    unfold check at hcheck
    cases hfault : p.fault? with
    | none =>
        rw [hfault] at hcheck
        cases hcheck
    | some cause =>
        rw [hfault] at hcheck
        cases hcheck
        rcases fault?_of_bounds hlabel hflows (by omega) hfault with ⟨port, rfl, hrepeated⟩ | ⟨rfl, hzero⟩
        · exact .inl ⟨port, rfl, hrepeated⟩
        · exact .inr ⟨rfl, hzero⟩

/-- One flow with the longest payload that there is room for. -/
def longest (destinationPort : UInt16) : Plan where
  destinationPort
  flows := [⟨⟨100, 64, 0, 1⟩, 5001⟩]
  payload := List.replicate 65475 0

theorem check_agrees_with_encode_longest :
    let p := longest 6635
    let q := longest 0
    (p.check = .ok () ∧ p.packetSize ≤ 65535 ∧ ∃ packets, p.packets = .ok packets ∧
      packets.length = p.flows.length ∧
      ∀ r ∈ packets, ∃ bytes, r.encode = .ok bytes ∧ bytes.length = p.packetSize) ∧
    q.flows ≠ [] ∧ q.packets = .ok [q.packet ⟨⟨100, 64, 0, 1⟩, 5001⟩] ∧
    (∀ r ∈ [q.packet ⟨⟨100, 64, 0, 1⟩, 5001⟩], ∃ bytes, r.encode = .ok bytes) ∧
    q.check = .error (.parameter .portZero) ∧ q.label ≤ 0xFFFFF ∧ q.payload.length ≤ 65475 ∧
    ∀ fault, q.check = .error fault →
      (∃ port, fault = .parameter (.portRepeated port) ∧ ¬(q.flows.map Flow.sourcePort).Nodup) ∨
        fault = .parameter .portZero ∧ q.destinationPort = 0 := by
  intro p q
  have hlength (port : UInt16) : (longest port).payload.length = 65475 := List.length_replicate
  have hcheck : p.check = .ok () := by
    refine (check_eq_ok_iff p).2 ⟨by decide, List.cons_ne_nil _ _, by decide, by decide, ?_⟩
    rw [packetSize, hlength]
    decide
  have hpackets : q.packets = .ok [q.packet ⟨⟨100, 64, 0, 1⟩, 5001⟩] :=
    Outcome.mapM_eq_ok_map fun flow _ => build_draft (show q.label ≤ _ by decide) flow
  have hencode : ∀ r ∈ [q.packet ⟨⟨100, 64, 0, 1⟩, 5001⟩], ∃ bytes, r.encode = .ok bytes := by
    intro r hr
    obtain rfl := List.mem_singleton.1 hr
    exact Packet.exists_encode (Nat.le_of_eq (hlength 0))
  exact ⟨⟨hcheck, (check_agrees_with_encode p).2.1 hcheck⟩, List.cons_ne_nil _ _, hpackets, hencode, rfl,
    (check_agrees_with_encode q).2.2 _ (List.cons_ne_nil _ _) hpackets hencode⟩

end Plan

end LabelTunnel
