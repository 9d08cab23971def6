import LabelTunnel.Proofs.Emission.Stride

/-! A run up to a time. Each step is made when it is due, and with a pause between cycles that takes time
there are only so many steps due by a given time: one for each cycle and one for each slice. So a run that
is given enough steps comes up to that time, to where it would be on its way to the end. -/

namespace LabelTunnel

variable {ω : Type} {e : Emitter ω} {packets : List Packet}

namespace Run

/-- Where a run is at a time, as long as nobody stops it: what is due before is done, and nothing is that
is due later. What is due at that instant may be done or not. -/
structure At (e : Emitter ω) (r₀ : Run ω) (time : Nat) (r : Run ω) : Prop where
  steps : ∃ n, r = r₀.complete e n
  now_le : r.now ≤ time
  le_due : ∀ due, r.due? = some due → time ≤ due

/-- A stride is made when it is due. -/
theorem Stride.now_eq {r r' : Run (Logged ω)} (hstride : r.Stride e packets r') {due : Nat}
    (hdue : r.due? = some due) : r'.now = due := by
  cases hstride with
  | ended phase => cases hdue.symm.trans (due?_of_ended phase)
  | brokenOff phase => cases hdue.symm.trans (due?_of_brokenOff phase)
  | idle phase | broken phase | cut phase | last phase | overrun phase =>
      exact Option.some.inj ((due?_of_ready phase).symm.trans hdue)
  | full phase =>
      rw [now_look]
      exact Option.some.inj ((due?_of_ready phase).symm.trans hdue)
  | woken phase =>
      rw [now_look]
      exact Option.some.inj ((due?_of_asleep phase).symm.trans hdue)

/-- Twice the time that is left up to the horizon, and one more for a run that sleeps: every step that is
due by then takes some of it. -/
def pending (horizon : Nat) (r : Run ω) : Nat :=
  match r.phase with
  | .ready => 2 * (horizon + 1 - r.now)
  | .asleep wake _ => 2 * (horizon + 1 - wake) + 1
  | .ended _ | .brokenOff => 0

section Pending

variable {horizon due deadline : Nat} {r : Run ω}

theorem pending_of_ready (h : r.phase = .ready) : pending horizon r = 2 * (horizon + 1 - r.now) := by
  rw [pending, h]

theorem pending_of_asleep {wake : Nat} (h : r.phase = .asleep wake deadline) :
    pending horizon r = 2 * (horizon + 1 - wake) + 1 := by
  rw [pending, h]

theorem pending_pos (hdue : r.due? = some due) (hle : due ≤ horizon) : 0 < pending horizon r := by
  cases hphase : r.phase with
  | ready =>
      cases hdue.symm.trans (due?_of_ready hphase)
      rw [pending_of_ready hphase]
      omega
  | asleep wake deadline =>
      rw [pending_of_asleep hphase]
      exact Nat.succ_pos _
  | ended outcome => cases hdue.symm.trans (due?_of_ended hphase)
  | brokenOff => cases hdue.symm.trans (due?_of_brokenOff hphase)

theorem pending_look_le (hnow : r.now ≤ horizon) :
    pending horizon (r.look deadline) ≤ 2 * (horizon + 1 - r.now) := by
  apply look_induct (motive := fun r' => pending horizon r' ≤ _)
  · exact fun _ => Nat.zero_le _
  · exact fun _ _ => Nat.le_refl _
  · intro _ hleft
    have hslice : 0 < Pause.slice := by decide
    show 2 * (horizon + 1 - (r.now + min (deadline - r.now) Pause.slice)) + 1 ≤ _
    omega

theorem pending_look_lt (hnow : r.now ≤ horizon) (hlater : r.now < deadline) :
    pending horizon (r.look deadline) < 2 * (horizon + 1 - r.now) := by
  apply look_induct (motive := fun r' => pending horizon r' < _)
  · intro _
    show 0 < 2 * (horizon + 1 - r.now)
    omega
  · intro _ helapsed
    omega
  · intro _ hleft
    have hslice : 0 < Pause.slice := by decide
    show 2 * (horizon + 1 - (r.now + min (deadline - r.now) Pause.slice)) + 1 < _
    omega

end Pending

theorem Stride.pending_lt {r r' : Run (Logged ω)} (hstride : r.Stride e packets r')
    (hinterval : 0 < e.plan.interval) {horizon due : Nat} (hdue : r.due? = some due) (hle : due ≤ horizon) :
    pending horizon r' < pending horizon r := by
  have hpos := pending_pos hdue hle
  cases hstride with
  | ended phase => cases hdue.symm.trans (due?_of_ended phase)
  | brokenOff phase => cases hdue.symm.trans (due?_of_brokenOff phase)
  | idle phase | broken phase | cut phase | last phase | overrun phase => exact hpos
  | full phase =>
      cases hdue.symm.trans (due?_of_ready phase)
      rw [pending_of_ready phase]
      exact pending_look_lt hle (Nat.lt_add_of_pos_right hinterval)
  | @woken wake deadline phase =>
      cases hdue.symm.trans (due?_of_asleep phase)
      rw [pending_of_asleep phase]
      exact Nat.lt_succ_of_le (pending_look_le hle)

theorem At.refl {time : Nat} {r : Run ω} (hnow : r.now ≤ time) (hlater : ∀ due, r.due? = some due → time < due) :
    r.At e time r :=
  ⟨⟨0, rfl⟩, hnow, fun due hdue => Nat.le_of_lt (hlater due hdue)⟩

theorem At.step {time due : Nat} {r r' : Run ω} (hdue : r.due? = some due) (h : (r.step e).At e time r') :
    r.At e time r' := by
  obtain ⟨⟨n, rfl⟩, hnow, hle⟩ := h
  refine ⟨⟨n + 1, ?_⟩, hnow, hle⟩
  rw [complete, hdue]

/-- With steps enough, all is done that is due up to a time. -/
theorem at_advance (hplan : e.plan.Carries packets) (hinterval : 0 < e.plan.interval) {horizon : Nat} (fuel : Nat)
    {r : Run ω} (hnow : r.now ≤ horizon) (hfuel : pending horizon r ≤ fuel) :
    r.At e horizon (r.advance e horizon fuel) ∧
      ∀ due, (r.advance e horizon fuel).due? = some due → horizon < due := by
  induction fuel generalizing r with
  | zero =>
      have hlater : ∀ due, r.due? = some due → horizon < due := by
        intro due hdue
        refine Nat.lt_of_not_le fun hle => ?_
        have hpos := pending_pos hdue hle
        omega
      exact ⟨.refl hnow hlater, hlater⟩
  | succ fuel ih =>
      cases hdue : r.due? with
      | none =>
          rw [advance, hdue]
          have hlater : ∀ due, r.due? = some due → horizon < due := fun due hsome => nomatch hsome.symm.trans hdue
          exact ⟨.refl hnow hlater, hlater⟩
      | some due =>
          rw [advance, hdue]
          dsimp only
          by_cases hle : due ≤ horizon
          · rw [if_pos hle]
            obtain ⟨calls, hstride⟩ := exists_stride_step hplan r []
            have hnow' : (r.step e).now = due := hstride.now_eq hdue
            have hless : pending horizon (r.step e) < pending horizon r := hstride.pending_lt hinterval hdue hle
            obtain ⟨hat, hlater⟩ := ih (hnow' ▸ hle) (by omega)
            exact ⟨hat.step hdue, hlater⟩
          · rw [if_neg hle]
            have hlater : ∀ due', r.due? = some due' → horizon < due' := by
              intro due' hdue'
              cases hdue.symm.trans hdue'
              exact Nat.lt_of_not_le hle
            exact ⟨.refl hnow hlater, hlater⟩

end Run

end LabelTunnel
