import LabelTunnel.Command.Line
import LabelTunnel.Emission.Run

/-! Carrying out a command line: what the program prints and how it exits. Only a dry run is carried
out here; a run that has to open a raw socket is refused. -/

namespace LabelTunnel.Command

def programName : String := "mpls-packet-gen"

def versionLine : String := programName ++ " 0.1.0\n"

/-- The help, abridged: it names the options and leaves out the placeholders of their values, what they are for
and their defaults. -/
def helpText : String :=
  "Send MPLS-over-UDP encapsulated ICMP echo requests at a fixed cadence\n\nUsage: " ++ programName ++
    " [OPTIONS]\n\nOptions:\n" ++
    String.join (Name.all.map fun n =>
      (match n.letter? with
        | some c => "  " ++ String.ofList ['-', c] ++ ", "
        | none => "      ") ++ n.text ++ "\n")

structure Performance where
  exitCode : Nat
  output : String
  deriving DecidableEq

/-- The emitter of a dry run, which prints its trace. Its clock is an ideal one that outlasts every bounded
command line: there are fewer than `2 ^ 64` cycles, and less than `2 ^ 64` milliseconds between two of them. -/
def dryEmitter (plan : Plan) : Emitter String where
  plan
  transmitter := .dryRun
  sink := .collect
  runtime := { Runtime.signedSeconds with lastInstant := UInt64.size * UInt64.size }

/-- How a refused command line ends. Asking for information is no failure. -/
def Refusal.performance : Refusal → Performance
  | .help => ⟨0, helpText⟩
  | .version => ⟨0, versionLine⟩
  | _ => ⟨2, ""⟩

def socketFault : Fault := .privilege "opening a raw IPv4 socket requires CAP_NET_RAW"

/-- The run that the options ask for, ready to start. -/
def Options.run (o : Options) : Except Fault (Plan × Run String) := do
  let plan ← o.plan
  if !o.dryRun then throw socketFault
  return (plan, ← Run.start (dryEmitter plan) { world := "" })

/-- Takes a run to its end, stopping it at the time limit. -/
def Options.complete (o : Options) (fuel : Nat) (plan : Plan) (run : Run String) :
    Run String :=
  let e := dryEmitter plan
  match o.timeLimit with
  | none => run.complete e fuel
  | some seconds => ((run.advance e (1000 * seconds.toNat) fuel).stop).complete e fuel

/-- Carries out a command line. There is no result if the run has not ended after `fuel` steps. -/
def perform (fuel : Nat) (words : List String) : Option Performance :=
  match Line.read words with
  | .error refusal => some refusal.performance
  | .ok options =>
    match options.run with
    | .error _ => some ⟨1, ""⟩
    | .ok (plan, run) =>
      let run := options.complete fuel plan run
      (run.verdict? (dryEmitter plan)).map fun verdict =>
        ⟨match verdict with
          | .ok _ => 0
          | .error _ => 1, run.session.world⟩

end LabelTunnel.Command
