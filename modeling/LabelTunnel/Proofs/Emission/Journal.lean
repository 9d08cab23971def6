import LabelTunnel.Proofs.Emission.View

/-! Journals of emissions. The world of an emitter is extended by a journal, in which every call to a
device is noted with its answer; the journal is only written, so nothing else changes. What a step notes
in an empty journal is what it does to the outside, and the points that a run can come to are
reached with what the steps on the way have noted, whenever it is stopped from outside. -/

namespace LabelTunnel

variable {ω α : Type}

/-- A call to a device and what came of it. -/
inductive Entry where
  | wrote (line : String) (result : Except String Unit)
  | flushed (result : Except String Unit)
  | sent (parcel : Parcel) (result : Except String UInt64)

def Entry.handed? : Entry → Option (Octets × Address)
  | .sent parcel _ => some (parcel.bytes, parcel.destination)
  | _ => none

structure Journaled (ω : Type) where
  world : ω
  entries : List Entry := []

namespace Journaled

def note (w : Journaled ω) (reply : Reply ω α) (entry : Except String α → Entry) :
    Reply (Journaled ω) α :=
  reply.map fun world => ⟨world, w.entries ++ [entry reply.result]⟩

/-- The same world, with earlier entries in front of its own. -/
def after (earlier : List Entry) (w : Journaled ω) : Journaled ω := ⟨w.world, earlier ++ w.entries⟩

theorem note_after (earlier : List Entry) (w : Journaled ω) (reply : Reply ω α)
    (entry : Except String α → Entry) :
    (w.after earlier).note reply entry = (w.note reply entry).map (after earlier) := by
  simp only [note, after, Reply.map, List.append_assoc]

end Journaled

def Emitter.journaled (e : Emitter ω) : Emitter (Journaled ω) where
  plan := e.plan
  transmitter :=
    { name := e.transmitter.name
      send := fun parcel w => w.note (e.transmitter.send parcel w.world) (.sent parcel) }
  sink :=
    { write := fun line w => w.note (e.sink.write line w.world) (.wrote line)
      flush := fun w => w.note (e.sink.flush w.world) .flushed }
  runtime := e.runtime

def Run.journaled (r : Run ω) (entries : List Entry) : Run (Journaled ω) := r.map fun w => ⟨w, entries⟩

/-- What a step of the run notes. -/
def Run.entries (e : Emitter ω) (r : Run ω) : List Entry :=
  ((r.journaled []).step e.journaled).session.world.entries

/-- The points that a run can come to, each with what was noted on the way. Between two steps it can be
stopped from outside. -/
inductive Run.Reaches (e : Emitter ω) (r₀ : Run ω) : List Entry → Run ω → Prop
  | start : Reaches e r₀ [] r₀
  | step {entries : List Entry} {r : Run ω} :
      Reaches e r₀ entries r → Reaches e r₀ (entries ++ r.entries e) (r.step e)
  | stop {entries : List Entry} {r : Run ω} : Reaches e r₀ entries r → Reaches e r₀ entries r.stop

/-! ### Keeping a journal changes nothing -/

theorem Emitter.journaled_shows (e : Emitter ω) : e.journaled.Shows Journaled.world e where
  plan := rfl
  runtime := rfl
  send _ _ := rfl
  write _ _ := rfl
  flush _ := rfl

/-- What is noted does not depend on what was noted before: putting earlier entries in front is a view. -/
theorem Emitter.journaled_shows_after (e : Emitter ω) (earlier : List Entry) :
    e.journaled.Shows (Journaled.after earlier) e.journaled where
  plan := rfl
  runtime := rfl
  send _ w := w.note_after earlier _ _
  write _ w := w.note_after earlier _ _
  flush w := w.note_after earlier _ _

namespace Run

variable {e : Emitter ω} {r r₀ : Run ω} {entries : List Entry}

/-- A step of a run with a journal is a step of the run, and adds what the step notes. -/
theorem step_journaled (e : Emitter ω) (r : Run ω) (entries : List Entry) :
    (r.journaled entries).step e.journaled = (r.step e).journaled (entries ++ r.entries e) := by
  have hstep : (r.journaled []).step e.journaled = (r.step e).journaled (r.entries e) := by
    have hmap := map_step (r.journaled []) e.journaled_shows
    rw [show (r.journaled []).map Journaled.world = r from rfl] at hmap
    rw [← hmap]
    rfl
  have hafter := map_step (r.journaled []) (e.journaled_shows_after entries)
  rw [hstep] at hafter
  have hstart : (r.journaled []).map (Journaled.after entries) = r.journaled entries := by
    rw [← List.append_nil entries]
    simp [journaled, map, Session.map, Journaled.after]
  rw [← hstart, ← hafter]
  rfl

namespace Reaches

/-! ### What a watcher sees -/

theorem stay (h : r₀.Reaches e entries r) : ∃ more, r₀.Reaches e (entries ++ more) r :=
  ⟨[], (List.append_nil entries).symm ▸ h⟩

theorem advance (h : r₀.Reaches e entries r) (horizon fuel : Nat) :
    ∃ more, r₀.Reaches e (entries ++ more) (r.advance e horizon fuel) := by
  induction fuel generalizing entries r with
  | zero => exact h.stay
  | succ fuel ih =>
      unfold Run.advance
      cases r.due? with
      | none => exact h.stay
      | some due =>
          dsimp only
          by_cases hdue : due ≤ horizon
          · rw [if_pos hdue]
            obtain ⟨more, hmore⟩ := ih h.step
            exact ⟨r.entries e ++ more, List.append_assoc .. ▸ hmore⟩
          · rw [if_neg hdue]
            exact h.stay

theorem complete (h : r₀.Reaches e entries r) (fuel : Nat) :
    ∃ more, r₀.Reaches e (entries ++ more) (r.complete e fuel) := by
  induction fuel generalizing entries r with
  | zero => exact h.stay
  | succ fuel ih =>
      unfold Run.complete
      cases r.due? with
      | none => exact h.stay
      | some due =>
          obtain ⟨more, hmore⟩ := ih h.step
          exact ⟨r.entries e ++ more, List.append_assoc .. ▸ hmore⟩

end Reaches

end Run

theorem Supervisor.run_await (e : Emitter ω) (r : Run ω) (clock otherwise : Nat) :
    (await e r clock otherwise).2.run = r := by
  unfold await
  cases r.verdict? e with
  | none => rfl
  | some verdict => rfl

/-- Whatever the watcher asks for, the run comes to a point that it can come to. -/
theorem Run.Reaches.serve {e : Emitter ω} {r₀ : Run ω} {entries : List Entry} {s : Supervisor ω}
    (h : r₀.Reaches e entries s.run) (fuel : Nat) (request : Request) :
    ∃ more, r₀.Reaches e (entries ++ more) (s.serve e fuel request).2.run := by
  cases request with
  | sleep duration => exact h.advance (s.clock + duration) fuel
  | stop => exact h.stop.stay
  | tally => exact h.stay
  | waitUpTo duration =>
      obtain ⟨more, hmore⟩ := h.advance (s.clock + duration) fuel
      exact ⟨more, (Supervisor.run_await e _ s.clock _).symm ▸ hmore⟩
  | join =>
      obtain ⟨more, hmore⟩ := h.complete fuel
      exact ⟨more, (Supervisor.run_await e _ s.clock _).symm ▸ hmore⟩

end LabelTunnel
