import LabelTunnel.Proofs.Traffic.Limits

/-! The conditions of a plan, one after the other. The check reports the first condition that a plan violates
and, of ports that are used again, the one that is used again first, as the flows are listed. The scan for it
keeps the ports it has seen, so it stops at the first flow whose port an earlier flow has. Whether a plan
passes does not depend on the order of its flows, only which port is reported does. -/

namespace LabelTunnel.Plan

variable {p : Plan} {flows : List Flow} {port : UInt16} {cause : ParameterFault} {name : String}

/-- The first condition that a plan violates, by the name of its parameter, and what is reported of it. All
conditions in front of it are met. -/
inductive FirstFault (p : Plan) : String → ParameterFault → Prop
  | label (wide : 0xFFFFF < p.label) : FirstFault p "label" (.labelTooWide p.label)
  | noFlows (label : p.label ≤ 0xFFFFF) (empty : p.flows = []) : FirstFault p "flows" .noFlows
  /-- The flow is the earliest one whose port occurs before it. -/
  | portRepeated (label : p.label ≤ 0xFFFFF) {before after : List Flow} {flow : Flow}
      (flows : p.flows = before ++ flow :: after) (distinct : (before.map Flow.sourcePort).Nodup)
      (again : flow.sourcePort ∈ before.map Flow.sourcePort) :
      FirstFault p "flows" (.portRepeated flow.sourcePort)
  | portZero (label : p.label ≤ 0xFFFFF) (nonempty : p.flows ≠ [])
      (distinct : (p.flows.map Flow.sourcePort).Nodup) (zero : p.destinationPort = 0) :
      FirstFault p "destination_port" .portZero
  | payload (label : p.label ≤ 0xFFFFF) (nonempty : p.flows ≠ [])
      (distinct : (p.flows.map Flow.sourcePort).Nodup) (port : p.destinationPort ≠ 0)
      (long : 65475 < p.payload.length) : FirstFault p "payload" (.payloadTooLong p.payload.length)

/-! ### The port that is used again first -/

theorem repeatedPort?_cons_of_seen {f : Flow} {seen : Nat} (h : seen.testBit f.sourcePort.toNat = true) :
    repeatedPort? seen (f :: flows) = some f.sourcePort :=
  if_pos h

/-- Behind a flow with a port of its own, this port counts as seen, too. -/
theorem exists_repeatedPort?_cons {f : Flow} {seen : Nat} (h : seen.testBit f.sourcePort.toNat = false) :
    ∃ seen' : Nat, (∀ port : UInt16, seen'.testBit port.toNat = true ↔
        seen.testBit port.toNat = true ∨ port = f.sourcePort) ∧
      ∀ flows, repeatedPort? seen (f :: flows) = repeatedPort? seen' flows := by
  refine ⟨_, ?_, fun flows => if_neg (Bool.eq_false_iff.1 h)⟩
  intro port
  rw [Nat.testBit_or, Nat.testBit_two_pow, Bool.or_eq_true, decide_eq_true_iff, UInt16.toNat_inj,
    eq_comm (a := f.sourcePort)]

/-- What the scan finds, if some ports count as seen before: a port that is seen or comes up again, and none
in front of it does. The port of a flow that is passed over counts as seen behind it. -/
theorem repeatedPort?_eq_some_iff_of_seen (seen : Nat) (flows : List Flow) :
    repeatedPort? seen flows = some port ↔ ∃ before flow after, flows = before ++ flow :: after ∧
      repeatedPort? seen before = none ∧ flow.sourcePort = port ∧
      (seen.testBit port.toNat = true ∨ port ∈ before.map Flow.sourcePort) := by
  induction flows generalizing seen with
  | nil =>
      refine ⟨nofun, ?_⟩
      rintro ⟨before, flow, after, hsplit, -⟩
      cases List.append_ne_nil_of_right_ne_nil before (List.cons_ne_nil flow after) hsplit.symm
  | cons f flows ih =>
      cases hfirst : seen.testBit f.sourcePort.toNat with
      | true =>
          rw [repeatedPort?_cons_of_seen hfirst]
          constructor
          · intro h
            obtain rfl := Option.some.inj h
            exact ⟨[], f, flows, rfl, rfl, rfl, .inl hfirst⟩
          · rintro ⟨before, flow, after, hsplit, hbefore, hport, -⟩
            cases before with
            | nil =>
                obtain ⟨rfl, -⟩ := List.cons.inj hsplit
                rw [hport]
            | cons g before =>
                obtain ⟨rfl, -⟩ := List.cons.inj hsplit
                rw [repeatedPort?_cons_of_seen hfirst] at hbefore
                cases hbefore
      | false =>
          obtain ⟨seen', hseen, hcons⟩ := exists_repeatedPort?_cons hfirst
          rw [hcons, ih]
          constructor
          · rintro ⟨before, flow, after, rfl, hbefore, hport, hagain⟩
            refine ⟨f :: before, flow, after, rfl, (hcons before).trans hbefore, hport, ?_⟩
            rwa [List.map_cons, List.mem_cons, ← or_assoc, ← hseen]
          · rintro ⟨before, flow, after, hsplit, hbefore, rfl, hagain⟩
            cases before with
            | nil =>
                obtain ⟨rfl, -⟩ := List.cons.inj hsplit
                simp [hfirst] at hagain
            | cons g before =>
                obtain ⟨rfl, rfl⟩ := List.cons.inj hsplit
                rw [List.map_cons, List.mem_cons, ← or_assoc, ← hseen] at hagain
                exact ⟨before, flow, after, rfl, (hcons before).symm.trans hbefore, rfl, hagain⟩

theorem repeatedPort?_eq_some_iff : repeatedPort? 0 flows = some port ↔
    ∃ before flow after, flows = before ++ flow :: after ∧ (before.map Flow.sourcePort).Nodup ∧
      flow.sourcePort = port ∧ port ∈ before.map Flow.sourcePort := by
  simp only [repeatedPort?_eq_some_iff_of_seen, repeatedPort?_eq_none_iff, Nat.zero_testBit, Bool.false_eq_true,
    false_or]

/-! ### The first condition that is violated -/

theorem packetSize_le_iff (p : Plan) : p.packetSize ≤ 65535 ↔ p.payload.length ≤ 65475 := by
  have hsize : p.packetSize = 60 + p.payload.length := rfl
  omega

theorem FirstFault.fault?_eq (h : p.FirstFault name cause) : p.fault? = some cause := by
  have hlabel : p.fault? = if 0xFFFFF < p.label then some (.labelTooWide p.label) else _ := rfl
  rw [hlabel]
  cases h with
  | label wide => rw [if_pos wide]
  | noFlows label empty => rw [if_neg (UInt32.not_lt.2 label), if_pos empty]
  | @portRepeated label before after flow flows distinct again =>
      have hflows : p.flows ≠ [] := by
        rw [flows]
        exact List.append_ne_nil_of_right_ne_nil before (List.cons_ne_nil flow after)
      have hport := repeatedPort?_eq_some_iff.2 ⟨before, flow, after, flows, distinct, rfl, again⟩
      rw [if_neg (UInt32.not_lt.2 label), if_neg hflows, hport]
  | portZero label nonempty distinct zero =>
      rw [if_neg (UInt32.not_lt.2 label), if_neg nonempty, (repeatedPort?_eq_none_iff _).2 distinct]
      exact if_pos zero
  | payload label nonempty distinct port long =>
      have hlong : 65535 < p.packetSize := by
        have hsize := p.packetSize_le_iff
        omega
      rw [if_neg (UInt32.not_lt.2 label), if_neg nonempty, (repeatedPort?_eq_none_iff _).2 distinct]
      dsimp only
      rw [if_neg port, if_pos hlong]

theorem exists_firstFault (h : p.fault? = some cause) : p.FirstFault cause.name cause := by
  unfold fault? at h
  split at h
  · rename_i wide
    cases h
    exact .label wide
  rename_i hwide
  have label := UInt32.not_lt.1 hwide
  split at h
  · rename_i empty
    cases h
    exact .noFlows label empty
  rename_i nonempty
  split at h
  · rename_i port hport
    cases h
    obtain ⟨before, flow, after, flows, distinct, rfl, again⟩ := repeatedPort?_eq_some_iff.1 hport
    exact .portRepeated label flows distinct again
  rename_i hport
  have distinct := (repeatedPort?_eq_none_iff _).1 hport
  split at h
  · rename_i zero
    cases h
    exact .portZero label nonempty distinct zero
  rename_i port
  split at h
  · rename_i hlong
    cases h
    have hsize := p.packetSize_le_iff
    exact .payload label nonempty distinct port (by omega)
  · cases h

theorem check_eq_error_iff (p : Plan) (fault : Fault) : p.check = .error fault ↔
    ∃ name cause, fault = .parameter cause ∧ cause.name = name ∧ p.FirstFault name cause := by
  unfold check
  constructor
  · intro h
    cases hfault : p.fault? with
    | none =>
        rw [hfault] at h
        cases h
    | some cause =>
        rw [hfault] at h
        cases h
        exact ⟨_, cause, rfl, rfl, exists_firstFault hfault⟩
  · rintro ⟨name, cause, rfl, -, h⟩
    rw [h.fault?_eq]

/-- **A plan is refused for the first condition that it violates.** It passes exactly if its label fits, it has
flows, no two of them with one port, its destination port is not zero and there is room for its payload, and
otherwise the first of these that fails is reported; of the ports that are used again it is the one of the
earliest flow whose port an earlier flow has. Plans with the same flows in another order pass together. -/
theorem check_by_conditions (p : Plan) :
    (p.check = .ok () ↔ p.label ≤ 0xFFFFF ∧ p.flows ≠ [] ∧ (p.flows.map Flow.sourcePort).Nodup ∧
      p.destinationPort ≠ 0 ∧ p.payload.length ≤ 65475) ∧
    (∀ fault, p.check = .error fault ↔
      ∃ name cause, fault = .parameter cause ∧ cause.name = name ∧ p.FirstFault name cause) ∧
    ∀ flows, flows.Perm p.flows → ({ p with flows }.check = .ok () ↔ p.check = .ok ()) := by
  refine ⟨?_, check_eq_error_iff p, ?_⟩
  · rw [check_eq_ok_iff, packetSize_le_iff]
    rfl
  · intro flows hperm
    have hflows : flows ≠ [] ↔ p.flows ≠ [] := by
      rw [← List.length_pos_iff, ← List.length_pos_iff, hperm.length_eq]
    have hports : (flows.map Flow.sourcePort).Nodup ↔ (p.flows.map Flow.sourcePort).Nodup :=
      (hperm.map Flow.sourcePort).nodup_iff
    rw [check_eq_ok_iff, check_eq_ok_iff, packetSize_le_iff, packetSize_le_iff, hflows, hports]

/-- A plan with these ports, one flow for each. -/
def ofPorts (ports : List UInt16) : Plan where
  flows := ports.map fun port => ⟨⟨100, 64, 0, 1⟩, port⟩

/-- The first port of the list is used again, but later than another one. -/
theorem check_by_conditions_ofPorts :
    (ofPorts [11, 12, 12, 11]).check = .error (.parameter (.portRepeated 12)) ∧
    (ofPorts [11, 13, 12]).flows.Perm (ofPorts [11, 12, 13]).flows ∧
    ((ofPorts [11, 13, 12]).check = .ok () ↔ (ofPorts [11, 12, 13]).check = .ok ()) := by
  have hfirst : (ofPorts [11, 12, 12, 11]).FirstFault "flows" (.portRepeated 12) :=
    @FirstFault.portRepeated _ (by decide) (ofPorts [11, 12]).flows (ofPorts [11]).flows ⟨⟨100, 64, 0, 1⟩, 12⟩
      rfl (by decide) (by decide)
  have hperm : (ofPorts [11, 13, 12]).flows.Perm (ofPorts [11, 12, 13]).flows := by decide
  exact ⟨((check_by_conditions _).2.1 _).2 ⟨_, _, rfl, rfl, hfirst⟩, hperm,
    (check_by_conditions _).2.2 _ hperm⟩

end LabelTunnel.Plan
