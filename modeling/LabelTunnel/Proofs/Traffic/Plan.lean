import LabelTunnel.Traffic.Plan
import LabelTunnel.Proofs.Packet.Layers

/-! The packets of a plan that passed its check. There is one for each flow, in the order of the flows,
and each of them fits all its length fields, so that it is printed. -/

namespace LabelTunnel.Plan

variable {p : Plan}

def packet (p : Plan) (flow : Flow) : Packet where
  outer := { source := p.outerSource, destination := p.outerDestination }
  ports := ⟨flow.sourcePort, p.destinationPort⟩
  label := .single p.label p.labelTtl
  inner := { source := flow.innerSource, destination := p.innerDestination }
  echo := {}
  payload := p.payload

theorem build_draft (h : p.label ≤ LabelEntry.maxLabel) (flow : Flow) :
    (p.draft flow).build = .ok (p.packet flow) := by
  have hfits : ¬LabelEntry.maxLabel < p.label := UInt32.not_lt.2 h
  show (if LabelEntry.maxLabel < p.label then _ else _) = _
  rw [if_neg hfits]
  rfl

/-- What the check has looked at, as far as the packets depend on it. -/
theorem bounds_of_check (h : p.check = .ok ()) :
    p.label ≤ LabelEntry.maxLabel ∧ p.flows ≠ [] ∧ p.payload.length ≤ 65475 := by
  have hfault : p.fault? = none := by
    unfold check at h
    cases hcase : p.fault? with
    | none => rfl
    | some cause =>
        rw [hcase] at h
        cases h
  unfold fault? at hfault
  by_cases hlabel : LabelEntry.maxLabel < p.label
  · rw [if_pos hlabel] at hfault
    cases hfault
  rw [if_neg hlabel] at hfault
  by_cases hflows : p.flows = []
  · rw [if_pos hflows] at hfault
    cases hfault
  rw [if_neg hflows] at hfault
  refine ⟨UInt32.not_lt.1 hlabel, hflows, ?_⟩
  have hoverhead : p.packetSize = 60 + p.payload.length := rfl
  cases hport : repeatedPort? 0 p.flows with
  | some port =>
      rw [hport] at hfault
      cases hfault
  | none =>
      rw [hport] at hfault
      by_cases hsize : 65535 < p.packetSize
      · simp only [if_pos hsize] at hfault
        split at hfault <;> cases hfault
      · omega

/-- These are the packets of a cycle, one for each flow, and all of them can be printed. -/
structure Carries (p : Plan) (packets : List Packet) : Prop where
  packets_eq : p.packets = .ok packets
  length_eq : packets.length = p.flows.length
  encode_eq : ∀ q ∈ packets, q.encode = .ok q.octets

theorem carries_of_check (h : p.check = .ok ()) : p.Carries (p.flows.map p.packet) := by
  obtain ⟨hlabel, -, hpayload⟩ := bounds_of_check h
  refine ⟨?_, List.length_map _, ?_⟩
  · apply Outcome.mapM_eq_ok_map
    intro flow _
    exact build_draft hlabel flow
  · intro q hq
    obtain ⟨flow, -, rfl⟩ := List.mem_map.1 hq
    exact Packet.encode_eq_ok_octets hpayload

theorem length_pos_of_check (h : p.check = .ok ()) : 0 < (p.flows.map p.packet).length := by
  rw [List.length_map]
  exact List.length_pos_iff.2 (bounds_of_check h).2.1

end LabelTunnel.Plan
