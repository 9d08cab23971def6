import LabelTunnel.Command.Performance

/-! The program. It reads its command line and lets a run take its steps, sleeping between them as
long as the run's clock says, and prints the trace as it comes. -/

namespace LabelTunnel.Command

/-- Lets a run take its steps in real time, until its end or the time limit. -/
partial def live (e : Emitter String) (limit : Option Nat) (run : Run String) : IO UInt32 := do
  let out ← IO.getStdout
  match run.verdict? e with
  | some (.ok _) => return 0
  | some (.error fault) =>
    IO.eprintln fault.message
    return 1
  | none =>
    let due := run.due?.getD run.now
    let run := if limit.any (· ≤ due) then run.stop else run
    IO.sleep (due - run.now).toUInt32
    let run := run.step e
    out.putStr run.session.world
    out.flush
    live e limit { run with session := { run.session with world := "" } }

end LabelTunnel.Command

open LabelTunnel.Command in
def main (words : List String) : IO UInt32 := do
  match Line.read words with
  | .error refusal =>
    let performance := refusal.performance
    IO.print performance.output
    if let some message := refusal.message? then IO.eprintln message
    return performance.exitCode.toUInt32
  | .ok options =>
    match options.run with
    | .error fault =>
      IO.eprintln fault.message
      return 1
    | .ok (plan, run) =>
      live (dryEmitter plan) (options.timeLimit.map fun seconds => 1000 * seconds.toNat) run
