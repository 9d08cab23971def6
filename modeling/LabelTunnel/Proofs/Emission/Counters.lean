import Mathlib.Data.UInt
import LabelTunnel.Proofs.Emission.Stride

/-! The counters of a run. They are those it started with and what the log adds to them; a run that is
over has cleared its flag and gives the counters as they stand, if it gives them. -/

namespace LabelTunnel

variable {ω : Type} {e : Emitter ω} {packets : List Packet}

/-- The counters after the calls of a log, in terms of what the transmitter answered. -/
theorem Tally.foldl_note (t : Tally) (calls : List Call) : calls.foldl Tally.note t =
    { cycles := t.cycles
      packets := t.packets + (Call.accepted calls).length.toUInt64
      bytes := t.bytes + (Call.accepted calls).sum
      errors := t.errors + (Call.refusals calls).length.toUInt64 } := by
  have hsucc (n : UInt64) (l : Nat) : n + 1 + l.toUInt64 = n + (l + 1).toUInt64 := by
    rw [show (l + 1).toUInt64 = l.toUInt64 + 1 from UInt64.ofNat_add l 1, UInt64.add_assoc, UInt64.add_comm 1]
  induction calls generalizing t with
  | nil => simp [Call.accepted, Call.refusals]
  | cons c calls ih =>
      obtain ⟨entry, stops⟩ := c
      rw [List.foldl_cons, ih]
      rcases entry with ⟨line, result⟩ | ⟨result⟩ | ⟨parcel, reason | accepted⟩
      · rfl
      · rfl
      · exact congrArg (fun n => Tally.mk t.cycles _ _ n) (hsucc t.errors _)
      · show Tally.mk t.cycles (t.packets + 1 + _) (t.bytes + accepted + _) _ = Tally.mk t.cycles
          (t.packets + ((Call.accepted calls).length + 1).toUInt64) (t.bytes + (accepted :: _).sum) _
        rw [hsucc, List.sum_cons, UInt64.add_assoc]
        rfl

namespace Run

/-- What the counters of a run are that started with these: what its calls add, and its full cycles. -/
def counted (before : Tally) (r : Run (Logged ω)) : Tally where
  cycles := before.cycles + r.cycles.toUInt64
  packets := before.packets + (Call.accepted r.session.world.calls).length.toUInt64
  bytes := before.bytes + (Call.accepted r.session.world.calls).sum
  errors := before.errors + (Call.refusals r.session.world.calls).length.toUInt64

/-- The counters are right, and a run that is over has cleared the flag and gives the counters as they
are, if it gives them. -/
structure Booked (before : Tally) (r : Run (Logged ω)) : Prop where
  tally_eq : r.session.tally = r.counted before
  stopped_of_ended : ∀ outcome, r.phase = .ended outcome → r.session.running = false
  snapshot : ∀ tally, r.phase = .ended (.ok tally) → tally = r.session.tally

namespace Booked

variable {before : Tally} {r : Run (Logged ω)}

theorem finish (h : r.session.tally = r.counted before) : r.finish.Booked before := by
  refine ⟨h, fun _ _ => rfl, ?_⟩
  intro tally htally
  cases htally
  rfl

theorem fail (h : r.session.tally = r.counted before) (fault : Fault) : (r.fail fault).Booked before := by
  refine ⟨h, fun _ _ => rfl, ?_⟩
  intro tally htally
  cases htally

theorem look (h : r.session.tally = r.counted before) (deadline : Nat) : (r.look deadline).Booked before := by
  apply look_induct
  · intro _
    exact finish h
  · intro _ _
    exact ⟨h, nofun, nofun⟩
  · intro _ _
    exact ⟨h, nofun, nofun⟩

theorem tally_of_follows {calls : List Call} {s : Session (Logged ω)} (h : r.Booked before)
    (hfollows : r.session.Follows e calls s) : s.tally = { r with session := s }.counted before := by
  have hadd (n : UInt64) (k l : Nat) : n + k.toUInt64 + l.toUInt64 = n + (k + l).toUInt64 := by
    rw [show (k + l).toUInt64 = k.toUInt64 + l.toUInt64 from UInt64.ofNat_add k l, UInt64.add_assoc]
  rw [hfollows.tally, h.tally_eq, Tally.foldl_note]
  simp only [counted, hfollows.log, Call.accepted_append, Call.refusals_append, List.length_append,
    List.sum_append, hadd, UInt64.add_assoc]

theorem tally_of_full {calls : List Call} {s : Session (Logged ω)} (h : r.Booked before)
    (hfollows : r.session.Follows e calls s) :
    s.countCycle.tally = { r with session := s.countCycle, cycles := r.cycles + 1 }.counted before := by
  have hcycles : (r.cycles + 1).toUInt64 = r.cycles.toUInt64 + 1 := UInt64.ofNat_add r.cycles 1
  have htally := h.tally_of_follows hfollows
  unfold counted at htally ⊢
  rw [Session.countCycle, Tally.countCycle, htally, hcycles, ← UInt64.add_assoc]

theorem stride {r' : Run (Logged ω)} (h : r.Booked before) (hstride : r.Stride e packets r') :
    r'.Booked before := by
  cases hstride with
  | ended | brokenOff => exact h
  | idle phase => exact finish h.tally_eq
  | broken phase _ follows => exact fail (r := { r with session := _ }) (h.tally_of_follows follows) _
  | cut phase _ follows => exact finish (h.tally_of_follows follows)
  | last phase _ follows => exact finish (h.tally_of_full follows)
  | full phase _ follows => exact look (h.tally_of_full follows) _
  | overrun phase _ follows => exact ⟨h.tally_of_full follows, nofun, nofun⟩
  | @woken wake deadline phase => exact look (r := { r with now := wake }) h.tally_eq deadline

theorem stop (h : r.Booked before) : r.stop.Booked before :=
  ⟨h.tally_eq, fun _ _ => rfl, h.snapshot⟩

end Booked

theorem Makes.booked {s : Session ω} {r : Run ω} {calls : List Call} (h : Makes e { session := s } calls r)
    (hplan : e.plan.Carries packets) : (r.logged calls).Booked s.tally := by
  refine h.induct hplan ⟨?_, nofun, nofun⟩ (fun hstride h => h.stride hstride) Booked.stop
  show s.tally = Tally.mk (_ + (0).toUInt64) (_ + (Call.accepted []).length.toUInt64)
    (_ + (Call.accepted []).sum) (_ + (Call.refusals []).length.toUInt64)
  simp [Call.accepted, Call.refusals]

end Run

end LabelTunnel
