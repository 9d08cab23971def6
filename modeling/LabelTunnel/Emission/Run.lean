import LabelTunnel.Emission.Cycle

/-! Whole emissions in virtual time. A run goes from one point where it waits to the next: a step
either emits a cycle or takes a look in the pause after one. Emitting takes no time; only the pause
moves the clock. Between two steps others may clear the running flag. Whoever watches a run has a clock of
its own; while it waits, the run takes the steps that fall due. -/

namespace LabelTunnel

/-! ### Pauses

A pause fixes its deadline when it begins, and breaks off if the clock has no such instant. It sleeps in
slices and looks at the running flag, then at its deadline, at the start and after each slice; so a stop is
noticed at the next look, and the slices add up to the pause exactly. -/

namespace Pause

def slice : Nat := 100

inductive Look where
  | stopped
  | elapsed
  | sleep (wake : Nat)
  deriving DecidableEq

def look (running : Bool) (deadline now : Nat) : Look :=
  if !running then .stopped
  else if deadline ≤ now then .elapsed
  else .sleep (now + min (deadline - now) slice)

/-- A sleep ends later than it starts, and no later than the deadline. -/
theorem look_eq_sleep {running : Bool} {deadline now wake : Nat}
    (h : look running deadline now = .sleep wake) : now < wake ∧ wake ≤ deadline := by
  simp only [look] at h
  split at h
  · simp at h
  · split at h
    · simp at h
    · simp only [Look.sleep.injEq, slice] at h
      omega

/-- Follows a pause under a running flag given for every instant. Gives whether the pause was slept
through to its deadline, and the instant at which that is known. -/
def follow (running : Nat → Bool) (deadline now : Nat) : Bool × Nat :=
  match _h : look (running now) deadline now with
  | .stopped => (false, now)
  | .elapsed => (true, now)
  | .sleep wake => follow running deadline wake
termination_by deadline - now
decreasing_by have := look_eq_sleep _h; omega

/-- What a pause comes to that begins at an instant, unless it breaks off there. -/
def outcome? (runtime : Runtime) (running : Nat → Bool) (start duration : Nat) : Option (Bool × Nat) :=
  match runtime.later? start duration with
  | none => none
  | some deadline => some (follow running deadline start)

end Pause

/-! ### Runs -/

variable {ω : Type}

inductive Phase where
  /-- About to look at the running flag and start a cycle. -/
  | ready
  /-- Asleep until `wake`, in a pause that lasts until `deadline`. -/
  | asleep (wake deadline : Nat)
  /-- At its end, with the counters or with the fault that ended it. -/
  | ended (outcome : Except Fault Tally)
  /-- Broken off where a pause was to begin. The flag and the counters are left as they were. -/
  | brokenOff

structure Run (ω : Type) where
  session : Session ω
  cycles : Nat := 0
  /-- The time of the last step, in milliseconds. -/
  now : Nat := 0
  phase : Phase := .ready

namespace Run

def finish (r : Run ω) : Run ω :=
  { r with session := r.session.stop, phase := .ended (.ok r.session.tally) }

def fail (r : Run ω) (fault : Fault) : Run ω :=
  { r with session := r.session.stop, phase := .ended (.error fault) }

def look (r : Run ω) (deadline : Nat) : Run ω :=
  match Pause.look r.session.running deadline r.now with
  | .stopped => r.finish
  | .elapsed => { r with phase := .ready }
  | .sleep wake => { r with phase := .asleep wake deadline }

def pause (runtime : Runtime) (duration : Nat) (r : Run ω) : Run ω :=
  match runtime.later? r.now duration with
  | none => { r with phase := .brokenOff }
  | some deadline => r.look deadline

/-- Counts a completed cycle, and pauses unless it was the last one. -/
def afterCycle (e : Emitter ω) (r : Run ω) : Run ω :=
  let r := { r with cycles := r.cycles + 1 }
  match e.plan.maxCycles with
  | none => r.pause e.runtime e.plan.interval
  | some max => if max.toNat ≤ r.cycles then r.finish else r.pause e.runtime e.plan.interval

/-- Emits a cycle. A cycle that was cut short ends the run. -/
def emitCycle (e : Emitter ω) (r : Run ω) : Run ω :=
  match e.cycle r.now r.session with
  | (.error fault, session) => { r with session }.fail fault
  | (.ok sent, session) =>
    if sent < e.plan.flows.length then { r with session }.finish
    else { r with session }.afterCycle e

/-- Goes on to the next point where the run waits or starts a cycle. -/
def step (e : Emitter ω) (r : Run ω) : Run ω :=
  match r.phase with
  | .ready => if r.session.running then r.emitCycle e else r.finish
  | .asleep wake deadline => { r with now := wake }.look deadline
  | .ended _ | .brokenOff => r

/-- The time of the next step, unless the run takes no more of them. -/
def due? (r : Run ω) : Option Nat :=
  match r.phase with
  | .ready => some r.now
  | .asleep wake _ => some wake
  | .ended _ | .brokenOff => none

/-- What the run has returned, if it has. -/
def outcome? (r : Run ω) : Option (Except Fault Tally) :=
  match r.phase with
  | .ended outcome => some outcome
  | _ => none

/-- What is learnt by those who wait for the run: what it returned, or that it broke off. -/
def verdict? (e : Emitter ω) (r : Run ω) : Option (Except Fault Tally) :=
  match r.phase with
  | .brokenOff => some (.error (.task e.runtime.report))
  | _ => r.outcome?

def stop (r : Run ω) : Run ω := { r with session := r.session.stop }

/-- Takes the steps that are due up to a time, at most `fuel` of them. -/
def advance (e : Emitter ω) (horizon : Nat) : Nat → Run ω → Run ω
  | 0, r => r
  | fuel + 1, r =>
    match r.due? with
    | none => r
    | some due => if due ≤ horizon then (r.step e).advance e horizon fuel else r

/-- Takes steps until there are no more of them, at most `fuel`. -/
def complete (e : Emitter ω) : Nat → Run ω → Run ω
  | 0, r => r
  | fuel + 1, r =>
    match r.due? with
    | none => r
    | some _ => (r.step e).complete e fuel

/-- A run at its beginning, at time 0. Only a plan that passes its check is run. -/
def start (e : Emitter ω) (session : Session ω) : Except Fault (Run ω) :=
  e.plan.check.map fun _ => { session }

end Run

/-! ### Watched runs -/

/-- What the watcher can do. Times are in milliseconds. -/
inductive Request where
  | sleep (duration : Nat)
  | stop
  | tally
  /-- Waits for the run to end, but no longer than this. -/
  | waitUpTo (duration : Nat)
  | join
  deriving DecidableEq

inductive Answer where
  | nothing
  | tally (tally : Tally)
  | stillRunning
  | ended (verdict : Except Fault Tally)

structure Supervisor (ω : Type) where
  run : Run ω
  clock : Nat := 0

namespace Supervisor

/-- Waits for a run to end. One that ended before costs no time; `otherwise` is the time at which to
give up on one that has not ended. -/
def await (e : Emitter ω) (run : Run ω) (clock otherwise : Nat) : Answer × Supervisor ω :=
  match run.verdict? e with
  | some verdict => (.ended verdict, ⟨run, max clock run.now⟩)
  | none => (.stillRunning, ⟨run, otherwise⟩)

/-- Serves a request; the run takes at most `fuel` steps meanwhile. -/
def serve (e : Emitter ω) (fuel : Nat) (s : Supervisor ω) : Request → Answer × Supervisor ω
  | .sleep duration =>
    let clock := s.clock + duration
    (.nothing, ⟨s.run.advance e clock fuel, clock⟩)
  | .stop => (.nothing, { s with run := s.run.stop })
  | .tally => (.tally s.run.session.tally, s)
  | .waitUpTo duration =>
    let clock := s.clock + duration
    await e (s.run.advance e clock fuel) s.clock clock
  | .join => await e (s.run.complete e fuel) s.clock s.clock

end Supervisor

end LabelTunnel
