import LabelTunnel.Proofs.Emission.Stride

/-! The clock of a run. Whoever fails and whoever stops it, cycle `k` begins `k` pauses after the start,
although each pause is slept in slices; and a run that sleeps wakes up at the end of a slice. A run breaks off
where the clock does not come to the beginning of its next cycle, and only there. -/

namespace LabelTunnel

variable {ω : Type} {e : Emitter ω} {packets : List Packet}

namespace Run

/-- The clock of a run, by where it stands. A run that is over has not waited longer than a pause behind
its last full cycle, and one that broke off has not waited at all. -/
def OnTime (interval : Nat) (r : Run ω) : Prop :=
  match r.phase with
  | .ready => r.now = r.cycles * interval
  | .asleep wake deadline => deadline = r.cycles * interval ∧ deadline ≤ r.now + interval ∧
      r.now < wake ∧ wake ≤ deadline ∧ wake ≤ r.now + Pause.slice
  | .ended _ => r.cycles * interval ≤ r.now + interval
  | .brokenOff => r.cycles * interval = r.now + interval

namespace OnTime

variable {interval : Nat}

theorem of_ready {r : Run ω} (h : OnTime interval r) (hphase : r.phase = .ready) :
    r.now = r.cycles * interval := by
  unfold OnTime at h
  rwa [hphase] at h

theorem of_asleep {r : Run ω} {wake deadline : Nat} (h : OnTime interval r)
    (hphase : r.phase = .asleep wake deadline) : deadline = r.cycles * interval ∧ deadline ≤ r.now + interval ∧
      r.now < wake ∧ wake ≤ deadline ∧ wake ≤ r.now + Pause.slice := by
  unfold OnTime at h
  rwa [hphase] at h

theorem of_ended {r : Run ω} {outcome : Except Fault Tally} (h : OnTime interval r)
    (hphase : r.phase = .ended outcome) : r.cycles * interval ≤ r.now + interval := by
  unfold OnTime at h
  rwa [hphase] at h

theorem of_brokenOff {r : Run ω} (h : OnTime interval r) (hphase : r.phase = .brokenOff) :
    r.cycles * interval = r.now + interval := by
  unfold OnTime at h
  rwa [hphase] at h

theorem look {deadline : Nat} {r : Run ω} (hdeadline : deadline = r.cycles * interval)
    (hsince : deadline ≤ r.now + interval) (hnow : r.now ≤ deadline) : OnTime interval (r.look deadline) := by
  apply look_induct
  · intro _
    show r.cycles * interval ≤ r.now + interval
    omega
  · intro _ helapsed
    show r.now = r.cycles * interval
    omega
  · intro _ hleft
    have hslice : 0 < Pause.slice := by decide
    have hwake : r.now < r.now + min (deadline - r.now) Pause.slice ∧
        r.now + min (deadline - r.now) Pause.slice ≤ deadline ∧
          r.now + min (deadline - r.now) Pause.slice ≤ r.now + Pause.slice := by omega
    exact ⟨hdeadline, hsince, hwake⟩

theorem stride {r r' : Run (Logged ω)} (h : OnTime e.plan.interval r) (hstride : r.Stride e packets r') :
    OnTime e.plan.interval r' := by
  cases hstride with
  | ended | brokenOff => exact h
  | idle phase | broken phase | cut phase =>
      have hnow := h.of_ready phase
      show r.cycles * _ ≤ r.now + _
      omega
  | last phase =>
      have hnow := h.of_ready phase
      show (r.cycles + 1) * _ ≤ r.now + _
      rw [Nat.succ_mul]
      omega
  | full phase =>
      have hdeadline : r.now + e.plan.interval = (r.cycles + 1) * e.plan.interval := by
        rw [Nat.succ_mul, h.of_ready phase]
      exact look hdeadline (Nat.le_refl _) (Nat.le_add_right _ _)
  | overrun phase =>
      show (r.cycles + 1) * _ = r.now + _
      rw [Nat.succ_mul, h.of_ready phase]
  | @woken wake deadline phase =>
      obtain ⟨hdeadline, hsince, hnow, hwake, -⟩ := h.of_asleep phase
      refine look hdeadline ?_ hwake
      show deadline ≤ wake + _
      omega

end OnTime

theorem Makes.onTime {s : Session ω} {r : Run ω} {calls : List Call} (h : Makes e { session := s } calls r)
    (hplan : e.plan.Carries packets) : r.OnTime e.plan.interval :=
  h.induct (motive := OnTime e.plan.interval) hplan (Nat.zero_mul _).symm (fun hstride h => h.stride hstride) id

/-- What the end of the clock makes of a run. A pause that is on ends on the clock; a run that broke off had
cycles left, and the clock does not come to the beginning of the next one. -/
def InReach (e : Emitter ω) (r : Run (Logged ω)) : Prop :=
  match r.phase with
  | .asleep _ deadline => deadline ≤ e.runtime.lastInstant
  | .brokenOff => e.runtime.lastInstant < r.cycles * e.plan.interval ∧
      ∀ max, e.plan.maxCycles = some max → r.cycles < max.toNat
  | .ready | .ended _ => True

namespace InReach

theorem of_asleep {r : Run (Logged ω)} {wake deadline : Nat} (h : InReach e r)
    (hphase : r.phase = .asleep wake deadline) : deadline ≤ e.runtime.lastInstant := by
  unfold InReach at h
  rwa [hphase] at h

theorem of_brokenOff {r : Run (Logged ω)} (h : InReach e r) (hphase : r.phase = .brokenOff) :
    e.runtime.lastInstant < r.cycles * e.plan.interval ∧
      ∀ max, e.plan.maxCycles = some max → r.cycles < max.toNat := by
  unfold InReach at h
  rwa [hphase] at h

theorem look {deadline : Nat} {r : Run (Logged ω)} (h : deadline ≤ e.runtime.lastInstant) :
    InReach e (r.look deadline) := by
  apply look_induct
  · exact fun _ => trivial
  · exact fun _ _ => trivial
  · exact fun _ _ => h

theorem stride {r r' : Run (Logged ω)} (h : InReach e r) (htime : OnTime e.plan.interval r)
    (hstride : r.Stride e packets r') : InReach e r' := by
  cases hstride with
  | ended | brokenOff => exact h
  | idle | broken | cut | last => exact trivial
  | full _ _ _ _ _ reached => exact look reached
  | overrun phase _ _ _ left beyond =>
      refine ⟨?_, left⟩
      show _ < (r.cycles + 1) * _
      rwa [Nat.succ_mul, ← htime.of_ready phase]
  | woken phase => exact look (h.of_asleep phase)

end InReach

theorem Makes.inReach {s : Session ω} {r : Run ω} {calls : List Call} (h : Makes e { session := s } calls r)
    (hplan : e.plan.Carries packets) : (r.logged calls).InReach e := by
  have hboth := h.induct (motive := fun r => r.OnTime e.plan.interval ∧ r.InReach e) hplan
    ⟨(Nat.zero_mul _).symm, trivial⟩ (fun hstride h => ⟨h.1.stride hstride, h.2.stride h.1 hstride⟩) id
  exact hboth.2

end Run

end LabelTunnel
