import LabelTunnel.Proofs.Command.Overlay
import LabelTunnel.Proofs.Command.Spelling
import LabelTunnel.Proofs.Traffic.Plan

/-! Plans expressed on a command line. Every plan that passes its check, with a pause of whole milliseconds
and text to send, has choices that stand for it, and however these are ordered and spelled, as long as the
flows keep their order, the line is read as the plan. -/

namespace LabelTunnel.Command

open Choice (textsFor textsFor_append textsFor_cons textsFor_map textsFor_eq_of_perm)

variable {plan : Plan} {text : String} {choices given : List Choice}

/-! ### Values written and read -/

namespace Setting

theorem readAddress_text (a : Address) : readAddress a.text = .ok a := by
  rw [readAddress, Address.text, String.toList_ofList, Address.read?_chars]

theorem readField_text {n limit : Nat} (h : n ≤ limit) (hlimit : limit ≤ 0x7FFFFFFFFFFFFFFF) :
    readField limit (Numeral.text n) = .ok n := by
  rw [readField, Numeral.text, String.toList_ofList, Numeral.readInt_digits (Nat.le_trans h hlimit)]
  dsimp only
  rw [if_pos ⟨Int.natCast_nonneg n, Int.ofNat_le.2 h⟩, Int.toNat_natCast]

theorem readCount_text {n : Nat} (h : n < UInt64.size) : readCount (Numeral.text n) = .ok n.toUInt64 := by
  rw [readCount, Numeral.text, String.toList_ofList, Numeral.readNat_digits (Nat.le_of_lt_succ h)]
  rfl

end Setting

/-- The choices that stand for a plan with this text to send. The count is 0 for a plan without a bound. -/
def choicesFor (plan : Plan) (text : String) : List Choice :=
  [(.outerSource, plan.outerSource.text), (.outerDestination, plan.outerDestination.text),
    (.innerDestination, plan.innerDestination.text),
    (.destinationPort, Numeral.text plan.destinationPort.toNat)] ++
  plan.flows.map (fun f => (.flow, f.text)) ++
  [(.label, Numeral.text plan.label.toNat), (.labelTtl, Numeral.text plan.labelTtl.toNat), (.payload, text),
    (.interval, Numeral.text plan.interval), (.count, Numeral.text (plan.maxCycles.getD 0).toNat)]

/-- The options that choose every value of the plan. -/
def optionsFor (plan : Plan) (text : String) : Options where
  outerSource := some plan.outerSource
  outerDestination := some plan.outerDestination
  innerDestination := some plan.innerDestination
  destinationPort := some plan.destinationPort
  flows := plan.flows
  label := some plan.label
  labelTtl := some plan.labelTtl
  payload := some text
  interval := plan.interval.toUInt64
  count := plan.maxCycles.getD 0

/-- The texts that these choices give for every setting. -/
def textsOf (plan : Plan) (text : String) : Setting → List String
  | .outerSource => [plan.outerSource.text]
  | .outerDestination => [plan.outerDestination.text]
  | .innerDestination => [plan.innerDestination.text]
  | .destinationPort => [Numeral.text plan.destinationPort.toNat]
  | .flow => plan.flows.map Flow.text
  | .label => [Numeral.text plan.label.toNat]
  | .labelTtl => [Numeral.text plan.labelTtl.toNat]
  | .payload => [text]
  | .interval => [Numeral.text plan.interval]
  | .count => [Numeral.text (plan.maxCycles.getD 0).toNat]
  | .labelCidr | .timeout => []

theorem textsFor_choicesFor (plan : Plan) (text : String) (s : Setting) :
    textsFor (choicesFor plan text) s = textsOf plan text s := by
  rw [choicesFor, textsFor_append, textsFor_append, textsFor_map]
  cases s <;> simp [textsFor_cons, textsOf]

section

variable (plan : Plan)

/-! The numbers of a plan are read back from their numerals. -/

theorem readField_destinationPort :
    Setting.readField 65535 (Numeral.text plan.destinationPort.toNat) = .ok plan.destinationPort.toNat :=
  Setting.readField_text (Nat.le_of_lt_succ plan.destinationPort.toNat_lt) (by decide)

theorem readField_label :
    Setting.readField 4294967295 (Numeral.text plan.label.toNat) = .ok plan.label.toNat :=
  Setting.readField_text (Nat.le_of_lt_succ plan.label.toNat_lt) (by decide)

theorem readField_labelTtl :
    Setting.readField 255 (Numeral.text plan.labelTtl.toNat) = .ok plan.labelTtl.toNat :=
  Setting.readField_text (Nat.le_of_lt_succ plan.labelTtl.toNat_lt) (by decide)

theorem readCount_maxCycles :
    Setting.readCount (Numeral.text (plan.maxCycles.getD 0).toNat) = .ok (plan.maxCycles.getD 0) := by
  rw [Setting.readCount_text (plan.maxCycles.getD 0).toNat_lt]
  exact congrArg Except.ok UInt64.ofNat_toNat

end

theorem ofTexts_textsOf (hinterval : plan.interval < UInt64.size) :
    Options.ofTexts (textsOf plan text) = optionsFor plan text := by
  have hflows : (plan.flows.map Flow.text).filterMap (fun t => (Flow.read t).toOption) = plan.flows := by
    have hread : (fun t => (Flow.read t).toOption) ∘ Flow.text = some := by
      funext f
      show (Flow.read f.text).toOption = some f
      rw [Flow.read_text]
      rfl
    rw [List.filterMap_map, hread, List.filterMap_some]
  have hport : plan.destinationPort.toNat.toUInt16 = plan.destinationPort := UInt16.ofNat_toNat
  have hlabel : plan.label.toNat.toUInt32 = plan.label := UInt32.ofNat_toNat
  have httl : plan.labelTtl.toNat.toUInt8 = plan.labelTtl := UInt8.ofNat_toNat
  simp only [Options.ofTexts, textsOf, optionsFor, List.getLast?_singleton, List.getLast?_nil, Option.bind_some,
    Option.bind_none, Setting.readAddress_text, readField_destinationPort, readField_label, readField_labelTtl,
    readCount_maxCycles, Setting.readCount_text hinterval, hflows, Outcome.toOption_ok, Option.map_some, hport, hlabel,
    httl, Option.getD_some, Option.getD_none]

theorem accepts_of_mem_choicesFor (hinterval : plan.interval < UInt64.size) {c : Choice}
    (h : c ∈ choicesFor plan text) : c.1.Accepts c.2 := by
  simp only [choicesFor, List.mem_append, List.mem_cons, List.mem_map, List.not_mem_nil, or_false] at h
  rcases h with ((rfl | rfl | rfl | rfl) | ⟨flow, -, rfl⟩) | rfl | rfl | rfl | rfl | rfl
  · exact Setting.accepts_of_map rfl (Setting.readAddress_text plan.outerSource)
  · exact Setting.accepts_of_map rfl (Setting.readAddress_text plan.outerDestination)
  · exact Setting.accepts_of_map rfl (Setting.readAddress_text plan.innerDestination)
  · exact Setting.accepts_of_map rfl (readField_destinationPort plan)
  · have hread : (Flow.read flow.text).mapError ValueFault.flow = .ok flow := by
      rw [Flow.read_text]
      rfl
    exact Setting.accepts_of_map rfl hread
  · exact Setting.accepts_of_map rfl (readField_label plan)
  · exact Setting.accepts_of_map rfl (readField_labelTtl plan)
  · exact ⟨_, rfl⟩
  · exact Setting.accepts_of_map rfl (Setting.readCount_text hinterval)
  · exact Setting.accepts_of_map rfl (readCount_maxCycles plan)

section

variable (hcheck : plan.check = .ok ()) (hpos : 0 < plan.interval) (hinterval : plan.interval < UInt64.size)
  (hmax : plan.maxCycles ≠ some 0) (hpayload : plan.payload = Octets.ofText text)

include hcheck hinterval hmax hpayload

/-- Nothing of the standard plan is left under these options. -/
theorem overlay_optionsFor : (optionsFor plan text).overlay plan.label = plan := by
  have hflows : (if (optionsFor plan text).flows = [] then ({} : Plan).flows else (optionsFor plan text).flows) =
      plan.flows := if_neg (Plan.bounds_of_check hcheck).2.1
  have hvalue : (optionsFor plan text).interval.toNat = plan.interval := Nat.mod_eq_of_lt hinterval
  have hbound : (if (optionsFor plan text).count = 0 then none else some (optionsFor plan text).count) =
      plan.maxCycles := by
    rw [optionsFor]
    cases hcycles : plan.maxCycles with
    | none => rfl
    | some max =>
        have hmax' : max ≠ 0 := by
          rintro rfl
          exact hmax hcycles
        exact if_neg hmax'
  rw [Options.overlay, hflows, hvalue, hbound]
  show { plan with payload := Octets.ofText text } = plan
  rw [← hpayload]

include hpos

theorem plan_optionsFor : (optionsFor plan text).plan = .ok plan := by
  have hnonzero : (optionsFor plan text).interval ≠ 0 := by
    intro hzero
    have hvalue : plan.interval.toUInt64.toNat = plan.interval := Nat.mod_eq_of_lt hinterval
    have hzero' : plan.interval.toUInt64 = 0 := hzero
    rw [hzero'] at hvalue
    exact Nat.ne_of_lt hpos hvalue
  have hlabel : (optionsFor plan text).chosenLabel = .ok plan.label := rfl
  have hoverlays := Options.overlays_overlay hlabel
  rw [overlay_optionsFor hcheck hinterval hmax hpayload] at hoverlays
  exact ((Options.plan_iff _).1 plan).2 ⟨hoverlays, hnonzero, hcheck⟩

end

/-- **Every plan can be chosen.** A plan that passes its check, with a pause of milliseconds that are not 0 and
fit their number, no bound of 0, and text to send, is what is read from any line on which the choices for it
are spelled, in any order that keeps the flows in theirs. -/
theorem read_of_plan {plan : Plan} {text : String} {given : List Choice} {words : List String}
    (hcheck : plan.check = .ok ()) (hpos : 0 < plan.interval) (hinterval : plan.interval < UInt64.size)
    (hmax : plan.maxCycles ≠ some 0) (hpayload : plan.payload = Octets.ofText text)
    (hperm : given.Perm (choicesFor plan text))
    (hflows : (given.filter fun c => c.1 = .flow) = (choicesFor plan text).filter fun c => c.1 = .flow)
    (hspelled : Choice.Spelled given words) :
    ∃ options, Line.read words = .ok options ∧ options.plan = .ok plan := by
  have htexts : textsFor given = textsOf plan text := by
    funext s
    rw [← textsFor_choicesFor]
    by_cases hs : s = .flow
    · rw [hs, textsFor, hflows, textsFor]
    · refine textsFor_eq_of_perm hperm ?_
      rw [textsFor_choicesFor]
      cases s with
      | flow => exact absurd rfl hs
      | _ => simp [textsOf]
  have haccepts : ∀ c ∈ given, c.1.Accepts c.2 := by
    intro c hc
    exact accepts_of_mem_choicesFor hinterval (hperm.mem_iff.1 hc)
  have hgiven : (Line.ofChoices given).given.Perm (Line.ofChoices (choicesFor plan text)).given :=
    (hperm.map _).filter _
  have hlist : (Line.ofChoices (choicesFor plan text)).given = [.outerSource, .outerDestination, .innerDestination,
      .destinationPort, .label, .labelTtl, .payload, .interval, .count] := by
    rw [choicesFor, Line.given_ofChoices_append, Line.given_ofChoices_append, Line.given_ofChoices_map _ _ rfl]
    rfl
  refine ⟨optionsFor plan text, ?_, plan_optionsFor hcheck hpos hinterval hmax hpayload⟩
  rw [← ofTexts_textsOf hinterval, ← htexts]
  refine Line.read_of_choices hspelled haccepts ?_ ?_
  · rw [hgiven.nodup_iff, hlist]
    decide
  · rw [hgiven.mem_iff, hlist]
    decide

/-- Two flows without a bound, and a payload that begins with a dash. -/
def samplePlan : Plan where
  flows := [⟨⟨100, 64, 0, 2⟩, 12⟩, ⟨⟨100, 64, 0, 1⟩, 11⟩]
  payload := Octets.ofText "-n=1"
  interval := 150

def sampleGiven : List Choice :=
  [(.count, "0"), (.payload, "-n=1"), (.flow, "100.64.0.2:12"), (.labelTtl, "64"), (.label, "1004051"),
    (.outerDestination, "192.168.57.10"), (.flow, "100.64.0.1:11"), (.interval, "150"),
    (.destinationPort, "6635"), (.outerSource, "192.168.57.30"), (.innerDestination, "1.1.1.1")]

theorem read_of_samplePlan :
    let words := ["-c=0", "--payload=-n=1", "-f", "100.64.0.2:12", "--mpls-ttl", "64", "-l1004051",
      "--outer-dst=192.168.57.10", "--flow=100.64.0.1:11", "-i150", "--dst-port", "6635",
      "--outer-src=192.168.57.30", "--inner-dst", "1.1.1.1"]
    Choice.Spelled sampleGiven words ∧
    ∃ options, Line.read words = .ok options ∧ options.plan = .ok samplePlan := by
  intro words
  have hspelled : Choice.Spelled sampleGiven words :=
    .cons (.shortEquals rfl) <| .cons .longAttached <| .cons (.shortApart rfl (by decide)) <|
      .cons (.longApart (by decide)) <| .cons (.shortAttached rfl (by decide) (by decide)) <| .cons .longAttached <|
      .cons .longAttached <| .cons (.shortAttached rfl (by decide) (by decide)) <|
      .cons (.longApart (by decide)) <| .cons .longAttached <| .cons (.longApart (by decide)) .nil
  have hcheck : samplePlan.check = .ok () := by rfl
  have hperm : sampleGiven.Perm (choicesFor samplePlan "-n=1") := by decide
  exact ⟨hspelled, read_of_plan hcheck (by decide) (by decide) nofun rfl hperm (by decide) hspelled⟩

end LabelTunnel.Command
