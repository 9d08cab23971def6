import LabelTunnel.Proofs.Emission.Journal

/-! Calls of emissions. A call is an entry of a journal together with what the entry leaves out of the
answer, whether it asked for a stop. A log of calls therefore has all that the devices did to a run: what
becomes of the running flag and of the counters, the completed cycles apart, is read off it. Every run
has a log, and its journal is the log without the requests to stop. -/

namespace LabelTunnel

variable {ω α : Type}

namespace Entry

def failed : Entry → Bool
  | .wrote _ (.error _) | .flushed (.error _) | .sent _ (.error _) => true
  | _ => false

def line? : Entry → Option String
  | .wrote line _ => some line
  | _ => none

def parcel? : Entry → Option Parcel
  | .sent parcel _ => some parcel
  | _ => none

/-- What the transmitter said it took, if it took a packet. -/
def accepted? : Entry → Option UInt64
  | .sent _ (.ok accepted) => some accepted
  | _ => none

/-- Why the transmitter refused a packet, if it refused one. -/
def refusal? : Entry → Option String
  | .sent _ (.error reason) => some reason
  | _ => none

end Entry

/-- A call to a device: its entry in a journal, and whether it asked the emission to stop. -/
structure Call where
  entry : Entry
  stops : Bool

namespace Call

def parcels (calls : List Call) : List Parcel := calls.filterMap fun c => c.entry.parcel?

def lines (calls : List Call) : List String := calls.filterMap fun c => c.entry.line?

def accepted (calls : List Call) : List UInt64 := calls.filterMap fun c => c.entry.accepted?

def refusals (calls : List Call) : List String := calls.filterMap fun c => c.entry.refusal?

@[simp] theorem parcels_append (calls more : List Call) :
    parcels (calls ++ more) = parcels calls ++ parcels more :=
  List.filterMap_append

@[simp] theorem lines_append (calls more : List Call) : lines (calls ++ more) = lines calls ++ lines more :=
  List.filterMap_append

@[simp] theorem accepted_append (calls more : List Call) :
    accepted (calls ++ more) = accepted calls ++ accepted more :=
  List.filterMap_append

@[simp] theorem refusals_append (calls more : List Call) :
    refusals (calls ++ more) = refusals calls ++ refusals more :=
  List.filterMap_append

/-- A packet that was handed over was either taken or refused. -/
theorem length_parcels (calls : List Call) :
    (parcels calls).length = (accepted calls).length + (refusals calls).length := by
  induction calls with
  | nil => rfl
  | cons c calls ih =>
      obtain ⟨entry, stops⟩ := c
      rcases entry with ⟨line, result⟩ | ⟨result⟩ | ⟨parcel, reason | accepted⟩
      · exact ih
      · exact ih
      · exact congrArg (· + 1) ih
      · exact (congrArg (· + 1) ih).trans (Nat.succ_add _ _).symm

/-- Whether an emission that knows what it does makes this its last call: it failed, or a stop was asked
for while the packet was handed over. -/
def closes (c : Call) : Bool := c.entry.failed || c.entry.parcel?.isSome && c.stops

end Call

def Tally.note (t : Tally) (c : Call) : Tally :=
  match c.entry with
  | .sent _ (.ok accepted) => t.countSent accepted
  | .sent _ (.error _) => t.countError
  | _ => t

/-- Some device of the emitter answers the call so, in some state of its world. -/
def Emitter.Answers (e : Emitter ω) (c : Call) : Prop :=
  match c.entry with
  | .wrote line result =>
    ∃ w, (e.sink.write line w).result = result ∧ (e.sink.write line w).stops = c.stops
  | .flushed result => ∃ w, (e.sink.flush w).result = result ∧ (e.sink.flush w).stops = c.stops
  | .sent parcel result =>
    ∃ w, (e.transmitter.send parcel w).result = result ∧ (e.transmitter.send parcel w).stops = c.stops

structure Logged (ω : Type) where
  world : ω
  calls : List Call := []

namespace Logged

def note (w : Logged ω) (reply : Reply ω α) (entry : Except String α → Entry) : Reply (Logged ω) α :=
  reply.map fun world => ⟨world, w.calls ++ [⟨entry reply.result, reply.stops⟩]⟩

def journal (w : Logged ω) : Journaled ω := ⟨w.world, w.calls.map Call.entry⟩

theorem journal_note (w : Logged ω) (reply : Reply ω α) (entry : Except String α → Entry) :
    (w.note reply entry).map journal = w.journal.note reply entry := by
  simp only [note, Journaled.note, Reply.map, journal, List.map_append, List.map_singleton]

end Logged

def Emitter.logged (e : Emitter ω) : Emitter (Logged ω) where
  plan := e.plan
  transmitter :=
    { name := e.transmitter.name
      send := fun parcel w => w.note (e.transmitter.send parcel w.world) (.sent parcel) }
  sink :=
    { write := fun line w => w.note (e.sink.write line w.world) (.wrote line)
      flush := fun w => w.note (e.sink.flush w.world) .flushed }
  runtime := e.runtime

@[simp] theorem Emitter.plan_logged (e : Emitter ω) : e.logged.plan = e.plan := rfl

@[simp] theorem Emitter.runtime_logged (e : Emitter ω) : e.logged.runtime = e.runtime := rfl

def Session.logged (s : Session ω) (calls : List Call) : Session (Logged ω) := s.map fun w => ⟨w, calls⟩

def Run.logged (r : Run ω) (calls : List Call) : Run (Logged ω) := r.map fun w => ⟨w, calls⟩

/-- The run comes to a point with these calls on the way. Between two steps it can be stopped from
outside. -/
def Run.Makes (e : Emitter ω) (r₀ : Run ω) (calls : List Call) (r : Run ω) : Prop :=
  ∃ entries, (r₀.logged []).Reaches e.logged entries (r.logged calls)

/-- The calls on the way to the end of a run that nobody stops from outside, or as far as the fuel goes. -/
def Run.callsOf (e : Emitter ω) (fuel : Nat) (r : Run ω) : List Call :=
  ((r.logged []).complete e.logged fuel).session.world.calls

/-! ### Keeping a log changes nothing -/

theorem Emitter.logged_shows (e : Emitter ω) : e.logged.Shows Logged.world e where
  plan := rfl
  runtime := rfl
  send _ _ := rfl
  write _ _ := rfl
  flush _ := rfl

theorem Emitter.logged_shows_journaled (e : Emitter ω) : e.logged.Shows Logged.journal e.journaled where
  plan := rfl
  runtime := rfl
  send _ w := (w.journal_note _ _).symm
  write _ w := (w.journal_note _ _).symm
  flush w := (w.journal_note _ _).symm

namespace Run

variable {e : Emitter ω} {r r₀ : Run ω} {entries : List Entry} {calls : List Call}

/-- A step of a run with a log is a step of the run, and the log goes on as the journal does. -/
theorem exists_step_logged (e : Emitter ω) (r : Run ω) (calls : List Call) :
    ∃ calls', (r.logged calls).step e.logged = (r.step e).logged calls' ∧
      calls'.map Call.entry = calls.map Call.entry ++ r.entries e := by
  have hworld := map_step (r.logged calls) e.logged_shows
  have hjournal := map_step (r.logged calls) e.logged_shows_journaled
  have hstart : (r.logged calls).map Logged.journal = r.journaled (calls.map Call.entry) := rfl
  rw [hstart, step_journaled] at hjournal
  rw [show (r.logged calls).map Logged.world = r from rfl] at hworld
  refine ⟨((r.logged calls).step e.logged).session.world.calls, ?_, ?_⟩
  · rw [← hworld]
    rfl
  · exact congrArg (fun r' : Run (Journaled ω) => r'.session.world.entries) hjournal

/-- The points that a run can come to are those that it comes to with calls, and its journal is what the
calls leave in it. So what holds wherever calls lead to holds wherever the run can come to. -/
theorem Reaches.exists_makes (h : r₀.Reaches e entries r) :
    ∃ calls, calls.map Call.entry = entries ∧ r₀.Makes e calls r := by
  induction h with
  | start => exact ⟨[], rfl, [], .start⟩
  | @step entries r _ ih =>
      obtain ⟨calls, hcalls, noted, hmakes⟩ := ih
      obtain ⟨calls', hstep, hcalls'⟩ := exists_step_logged e r calls
      refine ⟨calls', ?_, _, hstep ▸ hmakes.step⟩
      rw [hcalls', hcalls]
  | stop _ ih =>
      obtain ⟨calls, hcalls, noted, hmakes⟩ := ih
      exact ⟨calls, hcalls, noted, hmakes.stop⟩

theorem complete_logged_from (e : Emitter ω) (fuel : Nat) (r : Run ω) (calls : List Call) :
    (r.logged calls).complete e.logged fuel =
      (r.complete e fuel).logged ((r.logged calls).complete e.logged fuel).session.world.calls := by
  have hworld := map_complete (r.logged calls) e.logged_shows fuel
  rw [show (r.logged calls).map Logged.world = r from rfl] at hworld
  rw [← hworld]
  rfl

theorem complete_logged (e : Emitter ω) (fuel : Nat) (r : Run ω) :
    (r.logged []).complete e.logged fuel = (r.complete e fuel).logged (r.callsOf e fuel) :=
  complete_logged_from e fuel r []

theorem Makes.stop (h : r₀.Makes e calls r) : r₀.Makes e calls r.stop := by
  obtain ⟨entries, h⟩ := h
  exact ⟨entries, h.stop⟩

theorem Makes.complete (h : r₀.Makes e calls r) (fuel : Nat) :
    ∃ calls', r₀.Makes e calls' (r.complete e fuel) := by
  obtain ⟨entries, h⟩ := h
  obtain ⟨more, h⟩ := h.complete fuel
  exact ⟨_, _, complete_logged_from e fuel r calls ▸ h⟩

theorem makes_complete (e : Emitter ω) (fuel : Nat) (r : Run ω) :
    r.Makes e (r.callsOf e fuel) (r.complete e fuel) := by
  have hstart : (r.logged []).Reaches e.logged [] (r.logged []) := .start
  obtain ⟨entries, h⟩ := hstart.complete fuel
  exact ⟨_, complete_logged e fuel r ▸ h⟩

end Run

end LabelTunnel
