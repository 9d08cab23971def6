import LabelTunnel.Command.Performance
import LabelTunnel.Proofs.Command.Overlay
import LabelTunnel.Proofs.Emission.Bound

/-! What the program prints and how it exits. A dry run collects its trace, so its output is the lines that
its emission has written, and that is known from the plan alone. A line that is refused and options that
make no plan print nothing; they differ in the exit code. -/

namespace LabelTunnel.Command

variable {plan : Plan} {packets : List Packet} {fuel : Nat} {words : List String} {options : Options}

/-! ### The emitter of a dry run -/

theorem dryEmitter_steady (plan : Plan) : (dryEmitter plan).Steady :=
  ⟨fun _ _ => ⟨⟨_, rfl⟩, rfl⟩, fun _ _ => ⟨rfl, rfl⟩, fun _ => ⟨rfl, rfl⟩⟩

/-- The text of the lines in a log. -/
def logText (w : Logged String) : String := String.join (Call.lines w.calls)

theorem logText_note (world : String) (w : Logged String) (c : Call) :
    logText ⟨world, w.calls ++ [c]⟩ = logText w ++ (c.entry.line?).getD "" := by
  rw [logText, logText, Call.lines_append, String.join_append]
  obtain ⟨⟨line, result⟩ | result | ⟨parcel, result⟩, stops⟩ := c
  · exact congrArg _ (String.empty_append ..)
  · rfl
  · rfl

/-- What is collected can be read off the log: seen through the text of its lines, the emitter with a log
is the emitter. -/
theorem dryEmitter_shows (plan : Plan) : (dryEmitter plan).logged.Shows logText (dryEmitter plan) where
  plan := rfl
  runtime := rfl
  send parcel w := by
    have htext := logText_note w.world w ⟨.sent parcel (.ok parcel.bytes.length.toUInt64), false⟩
    exact congrArg (Reply.mk _ _) (htext.trans (String.append_empty ..)).symm
  write line w := by
    have htext := logText_note (w.world ++ line) w ⟨.wrote line (.ok ()), false⟩
    exact congrArg (Reply.mk _ _) htext.symm
  flush w := by
    have htext := logText_note w.world w ⟨.flushed (.ok ()), false⟩
    exact congrArg (Reply.mk _ _) (htext.trans (String.append_empty ..)).symm

theorem world_complete (plan : Plan) (fuel : Nat) :
    (Run.complete (dryEmitter plan) fuel { session := { world := "" } }).session.world =
      String.join (Call.lines (Run.callsOf (dryEmitter plan) fuel { session := { world := "" } })) := by
  have hview := Run.map_complete (({ session := { world := "" } } : Run String).logged [])
    (dryEmitter_shows plan) fuel
  exact congrArg (fun r : Run String => r.session.world) hview.symm

theorem last_pause_le (count interval : UInt64) (plan : Plan) :
    (count.toNat - 1) * interval.toNat ≤ (dryEmitter plan).runtime.lastInstant := by
  have hcount : count.toNat - 1 ≤ UInt64.size :=
    Nat.le_of_lt (Nat.lt_of_le_of_lt (Nat.sub_le _ 1) count.toNat_lt_size)
  exact Nat.mul_le_mul hcount (Nat.le_of_lt interval.toNat_lt_size)

/-! ### The program -/

theorem perform_of_plan_error {fault : Fault} (hread : Line.read words = .ok options)
    (hplan : options.plan = .error fault) : perform fuel words = some ⟨1, ""⟩ := by
  rw [perform, hread]
  dsimp only
  rw [Options.run, hplan]
  rfl

theorem perform_of_refusal {refusal : Refusal} (hread : Line.read words = .error refusal) (hhelp : refusal ≠ .help)
    (hversion : refusal ≠ .version) : perform fuel words = some ⟨2, ""⟩ := by
  rw [perform, hread]
  cases refusal with
  | help => exact absurd rfl hhelp
  | version => exact absurd rfl hversion
  | unknown | valueMissing | valueRefused | valueUnexpected | repeated | excluded => rfl

theorem perform_of_dryRun (hread : Line.read words = .ok options) (hdry : options.dryRun = true)
    (hcount : options.count ≠ 0) (htimeout : options.timeout = 0) (hplan : options.plan = .ok plan) :
    ∃ packets, plan.packets = .ok packets ∧ packets.length = plan.flows.length ∧
      ∀ fuel, options.count.toNat * (options.interval.toNat + 1) ≤ fuel →
        perform fuel words = some ⟨0, String.join
          (List.replicate options.count.toNat (packets.map Packet.traceLine)).flatten⟩ := by
  obtain ⟨hoverlays, -, hcheck⟩ := ((Options.plan_iff options).1 plan).1 hplan
  have hcarries := Plan.carries_of_check hcheck
  have hmax : plan.maxCycles = some options.count := hoverlays.maxCycles.2 hcount
  have hinterval : plan.interval = options.interval.toNat := hoverlays.interval
  refine ⟨_, hcarries.packets_eq, hcarries.length_eq, ?_⟩
  intro fuel hfuel
  have hclock := last_pause_le options.count options.interval plan
  rw [← hinterval] at hclock hfuel
  obtain ⟨⟨tally, houtcome⟩, hlines⟩ := Run.steady_complete (e := dryEmitter plan) (w := "") (dryEmitter_steady plan)
    hcarries hmax hcount hclock hfuel
  have hrun : options.run = .ok (plan, { session := { world := "" } }) := by
    rw [Options.run, hplan, Outcome.ok_bind, hdry]
    show (plan.check.map _ >>= _) = _
    rw [hcheck]
    rfl
  have hlimit : options.timeLimit = none := if_pos htimeout
  rw [perform, hread]
  dsimp only
  rw [hrun]
  dsimp only
  rw [Options.complete, hlimit]
  dsimp only
  rw [Run.verdict?_of_outcome? houtcome, world_complete, hlines]
  rfl

end LabelTunnel.Command
