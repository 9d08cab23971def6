import LabelTunnel.Command.Options
import LabelTunnel.Emission.Run
import LabelTunnel.Proofs.Traffic.Cidr
import LabelTunnel.Proofs.Traffic.Conditions

/-! Choices laid over the standard plan. Every choice replaces a part of its own and no other; the label has two
choices, of which the address goes first. A plan comes of the options exactly if the address of the label, if
there is one, is accepted, the pause is not empty, and the plan passes its check, and the first of these that
fails is reported. So every plan that comes of options can be run, and neither flows that were not chosen nor a
label that stands for an address are ever a reason to refuse one. -/

namespace LabelTunnel.Command

/-- The value is the chosen one, or the standard one where none was chosen. -/
def Follows {α : Type} (chosen : Option α) (standard value : α) : Prop :=
  (∀ a, chosen = some a → value = a) ∧ (chosen = none → value = standard)

theorem follows_iff {α : Type} {chosen : Option α} {standard value : α} :
    Follows chosen standard value ↔ value = chosen.getD standard := by
  cases chosen <;> simp [Follows]

namespace Options

variable {o : Options} {p : Plan} {label : UInt32} {fault : Fault} {cause : ParameterFault}

/-- The plan is the standard one with the choices laid over it, each over its own part. -/
structure Overlays (o : Options) (p : Plan) : Prop where
  outerSource : Follows o.outerSource ({} : Plan).outerSource p.outerSource
  outerDestination : Follows o.outerDestination ({} : Plan).outerDestination p.outerDestination
  innerDestination : Follows o.innerDestination ({} : Plan).innerDestination p.innerDestination
  destinationPort : Follows o.destinationPort ({} : Plan).destinationPort p.destinationPort
  flows : (o.flows ≠ [] → p.flows = o.flows) ∧ (o.flows = [] → p.flows = ({} : Plan).flows)
  labelOfCidr : ∀ text, o.labelCidr = some text → Cidr.readLabel text = .ok p.label
  labelOfNumber : o.labelCidr = none → Follows o.label ({} : Plan).label p.label
  labelTtl : Follows o.labelTtl ({} : Plan).labelTtl p.labelTtl
  payload : Follows (o.payload.map Octets.ofText) ({} : Plan).payload p.payload
  interval : p.interval = o.interval.toNat
  maxCycles : (o.count = 0 → p.maxCycles = none) ∧ (o.count ≠ 0 → p.maxCycles = some o.count)

/-- Why no plan comes of the options: the address of the label is refused, else the pause is empty, else the
plan does not pass its check. -/
inductive FirstFault (o : Options) : Fault → Prop
  | cidr {text : String} {fault : Fault} (given : o.labelCidr = some text)
      (refused : Cidr.readLabel text = .error fault) : FirstFault o fault
  | interval (cidr : ∀ text, o.labelCidr = some text → ∃ label, Cidr.readLabel text = .ok label)
      (zero : o.interval = 0) : FirstFault o (.parameter .intervalZero)
  | plan {p : Plan} {fault : Fault} (overlays : o.Overlays p) (interval : o.interval ≠ 0)
      (refused : p.check = .error fault) : FirstFault o fault

/-! ### The label -/

theorem chosenLabel_eq_ok_iff : o.chosenLabel = .ok label ↔
    (∀ text, o.labelCidr = some text → Cidr.readLabel text = .ok label) ∧
      (o.labelCidr = none → Follows o.label ({} : Plan).label label) := by
  rw [chosenLabel, follows_iff]
  cases o.labelCidr with
  | none => simp [eq_comm]
  | some text => simp

theorem chosenLabel_eq_error_iff : o.chosenLabel = .error fault ↔
    ∃ text, o.labelCidr = some text ∧ Cidr.readLabel text = .error fault := by
  rw [chosenLabel]
  cases o.labelCidr <;> simp

/-- Every label that stands for an address fits the label field. -/
theorem label_le_of_readLabel {text : String} (h : Cidr.readLabel text = .ok label) : label ≤ 0xFFFFF := by
  obtain ⟨a, suffix, -, -, hlabel⟩ := Cidr.readLabel_eq_ok_iff.1 h
  have hmax : (0xFFFFF : UInt32).toNat = 1048575 := rfl
  rw [UInt32.le_iff_toNat_le, hmax]
  omega

/-! ### The plan -/

theorem overlays_overlay (h : o.chosenLabel = .ok label) : o.Overlays (o.overlay label) where
  outerSource := follows_iff.2 rfl
  outerDestination := follows_iff.2 rfl
  innerDestination := follows_iff.2 rfl
  destinationPort := follows_iff.2 rfl
  flows := ⟨fun h => if_neg h, fun h => if_pos h⟩
  labelOfCidr := (chosenLabel_eq_ok_iff.1 h).1
  labelOfNumber := (chosenLabel_eq_ok_iff.1 h).2
  labelTtl := follows_iff.2 rfl
  payload := follows_iff.2 rfl
  interval := rfl
  maxCycles := ⟨fun h => if_pos h, fun h => if_neg h⟩

/-- Nothing of a plan is left open by the choices that are laid over it. -/
theorem Overlays.eq_overlay (h : o.Overlays p) : o.chosenLabel = .ok p.label ∧ p = o.overlay p.label := by
  refine ⟨chosenLabel_eq_ok_iff.2 ⟨h.labelOfCidr, h.labelOfNumber⟩, ?_⟩
  have hflows : p.flows = if o.flows = [] then ({} : Plan).flows else o.flows := by
    split
    · exact h.flows.2 ‹_›
    · exact h.flows.1 ‹_›
  have hmax : p.maxCycles = if o.count = 0 then none else some o.count := by
    split
    · exact h.maxCycles.1 ‹_›
    · exact h.maxCycles.2 ‹_›
  rw [overlay, ← follows_iff.1 h.outerSource, ← follows_iff.1 h.outerDestination, ← follows_iff.1 h.innerDestination,
    ← follows_iff.1 h.destinationPort, ← hflows, ← follows_iff.1 h.labelTtl, ← follows_iff.1 h.payload, ← h.interval,
    ← hmax]

/-- What becomes of options with choices laid over the standard plan. -/
theorem Overlays.plan_eq (h : o.Overlays p) : o.plan =
    if o.interval = 0 then .error (.parameter .intervalZero) else p.check.map fun _ => p := by
  obtain ⟨hlabel, hp⟩ := h.eq_overlay
  rw [plan, hlabel, Outcome.ok_bind, ← hp]
  by_cases hzero : o.interval = 0
  · rw [if_pos hzero, if_pos hzero]
    rfl
  · rw [if_neg hzero, if_neg hzero]
    cases hcheck : p.check with
    | error fault => simp only [hcheck]; rfl
    | ok passed => simp only [hcheck]; rfl

theorem FirstFault.plan_eq (h : o.FirstFault fault) : o.plan = .error fault := by
  cases h with
  | cidr given refused =>
      rw [Options.plan, chosenLabel_eq_error_iff.2 ⟨_, given, refused⟩]
      rfl
  | interval cidr zero =>
      cases hlabel : o.chosenLabel with
      | error fault =>
          obtain ⟨text, hgiven, hrefused⟩ := chosenLabel_eq_error_iff.1 hlabel
          obtain ⟨label, hread⟩ := cidr text hgiven
          cases hrefused.symm.trans hread
      | ok label => rw [(overlays_overlay hlabel).plan_eq, if_pos zero]
  | plan overlays interval refused =>
      rw [overlays.plan_eq, if_neg interval, refused]
      rfl

/-- How options end: in the plan that they are laid over, if it passes, or in the first fault. -/
theorem plan_iff (o : Options) :
    (∀ p, o.plan = .ok p ↔ o.Overlays p ∧ o.interval ≠ 0 ∧ p.check = .ok ()) ∧
    ∀ fault, o.plan = .error fault ↔ o.FirstFault fault := by
  apply Outcome.iff_of_cases
  · rintro p ⟨hoverlays, hinterval, hcheck⟩
    rw [hoverlays.plan_eq, if_neg hinterval, hcheck]
    rfl
  · exact fun fault => FirstFault.plan_eq
  · cases hlabel : o.chosenLabel with
    | error fault =>
        obtain ⟨text, hgiven, hrefused⟩ := chosenLabel_eq_error_iff.1 hlabel
        exact .inr ⟨fault, .cidr hgiven hrefused⟩
    | ok label =>
        have hoverlays := overlays_overlay hlabel
        by_cases hzero : o.interval = 0
        · exact .inr ⟨_, .interval (fun text hgiven => ⟨_, hoverlays.labelOfCidr text hgiven⟩) hzero⟩
        · cases hcheck : (o.overlay label).check with
          | error fault => exact .inr ⟨fault, .plan hoverlays hzero hcheck⟩
          | ok passed => exact .inl ⟨_, hoverlays, hzero, hcheck⟩

/-! ### What no plan and no fault can be -/

theorem Overlays.flows_ne_nil (h : o.Overlays p) : p.flows ≠ [] := by
  by_cases hflows : o.flows = []
  · rw [h.flows.2 hflows]
    exact List.cons_ne_nil _ _
  · rwa [h.flows.1 hflows]

theorem Overlays.maxCycles_ne (h : o.Overlays p) : p.maxCycles ≠ some 0 := by
  by_cases hcount : o.count = 0
  · rw [h.maxCycles.1 hcount]
    exact nofun
  · rw [h.maxCycles.2 hcount]
    exact fun hzero => hcount (Option.some.inj hzero)

theorem Overlays.interval_pos (h : o.Overlays p) (hinterval : o.interval ≠ 0) : 0 < p.interval := by
  rw [h.interval]
  refine Nat.pos_of_ne_zero fun hzero => hinterval ?_
  exact UInt64.toNat_inj.1 hzero

/-- No options fail for their flows being none. -/
theorem FirstFault.ne_noFlows (h : o.FirstFault fault) : fault ≠ .parameter .noFlows := by
  cases h with
  | cidr given refused =>
      obtain ⟨cause, rfl, hname⟩ := Cidr.exists_parameter_of_read (Outcome.map_eq_error_iff.1 refused)
      rintro ⟨⟩
      exact absurd hname (by decide)
  | interval cidr zero => exact nofun
  | plan overlays interval refused =>
      rintro rfl
      obtain ⟨name, cause, hcause, -, hfirst⟩ := (Plan.check_eq_error_iff _ _).1 refused
      cases hcause
      cases hfirst with
      | noFlows label empty => exact overlays.flows_ne_nil empty

/-- A label that stands for an address is never what options fail for. -/
theorem FirstFault.name_ne_label (h : o.FirstFault (.parameter cause)) (hcidr : o.labelCidr ≠ none) :
    cause.name ≠ "label" := by
  cases h with
  | cidr given refused =>
      obtain ⟨cause, hcause, hname⟩ := Cidr.exists_parameter_of_read (Outcome.map_eq_error_iff.1 refused)
      cases hcause
      rw [hname]
      decide
  | interval cidr zero => decide
  | plan overlays interval refused =>
      obtain ⟨text, hgiven⟩ := Option.ne_none_iff_exists'.1 hcidr
      have hle := label_le_of_readLabel (overlays.labelOfCidr text hgiven)
      obtain ⟨name, cause, hcause, hname, hfirst⟩ := (Plan.check_eq_error_iff _ _).1 refused
      cases hcause
      rw [hname]
      cases hfirst with
      | label wide => exact absurd wide (UInt32.not_lt.2 hle)
      | noFlows | portRepeated | portZero | payload => decide

theorem check_standard : ({} : Plan).check = .ok () :=
  (Plan.check_eq_ok_iff {}).2 ⟨by decide, List.cons_ne_nil _ _, by decide, by decide, by decide⟩

/-- **Plans of options.** A plan comes of options exactly if it is the standard plan with the choices laid over
it, each over its own part, with a pause that is not empty, and passes its check; otherwise the address of the
label, the pause or the plan is reported, whichever fails first. Every plan that comes of options can be run,
whatever the devices, has a pause and no bound of 0; and options fail neither for having no flows nor for a label
that stands for an address. Without choices it is the standard plan. -/
theorem plan_by_choices (o : Options) :
    (∀ p, o.plan = .ok p ↔ o.Overlays p ∧ o.interval ≠ 0 ∧ p.check = .ok ()) ∧
    (∀ fault, o.plan = .error fault ↔ o.FirstFault fault) ∧
    (∀ p, o.plan = .ok p → 0 < p.interval ∧ p.maxCycles ≠ some 0 ∧
      ∀ (ω : Type) (transmitter : Transmitter ω) (sink : Sink ω) (runtime : Runtime) (session : Session ω),
        ∃ run, Run.start ⟨p, transmitter, sink, runtime⟩ session = .ok run) ∧
    o.plan ≠ .error (.parameter .noFlows) ∧
    (o.labelCidr ≠ none → ∀ cause, o.plan = .error (.parameter cause) → cause.name ≠ "label") ∧
    (o = {} → o.plan = .ok {}) := by
  obtain ⟨hok, herror⟩ := plan_iff o
  refine ⟨hok, herror, ?_, ?_, ?_, ?_⟩
  · intro p hp
    obtain ⟨hoverlays, hinterval, hcheck⟩ := (hok p).1 hp
    refine ⟨hoverlays.interval_pos hinterval, hoverlays.maxCycles_ne, ?_⟩
    intro ω transmitter sink runtime session
    refine ⟨{ session }, ?_⟩
    rw [Run.start, hcheck]
    rfl
  · intro hfault
    exact ((herror _).1 hfault).ne_noFlows rfl
  · intro hcidr cause hfault
    exact ((herror _).1 hfault).name_ne_label hcidr
  · rintro rfl
    exact (hok {}).2 ⟨overlays_overlay rfl, by decide, check_standard⟩

/-- Both labels are chosen, the one of them too wide. -/
def sampleTwice : Options where
  label := some 0xFFFFFFFF
  labelCidr := some "192.0.1.2/29"
  payload := some "-"
  interval := 150
  count := 3

/-- The plan of these options; and with a pause of none, behind an address without a length and in front of a
port of 0, what is reported. -/
theorem plan_by_choices_sampleTwice :
    let p : Plan := { label := 1002012, payload := Octets.ofText "-", interval := 150, maxCycles := some 3 }
    (sampleTwice.plan = .ok p ∧ 0 < p.interval) ∧
    { sampleTwice with labelCidr := some "1.2.3.4", interval := 0 }.plan =
      .error (.parameter (.cidrWithoutSlash "1.2.3.4")) ∧
    { sampleTwice with interval := 0, destinationPort := some 0 }.plan = .error (.parameter .intervalZero) ∧
    (sampleTwice.labelCidr ≠ none ∧ ∀ cause, sampleTwice.plan = .error (.parameter cause) → cause.name ≠ "label") ∧
    ({} : Options).plan = .ok {} := by
  intro p
  have hlabel : Cidr.readLabel "192.0.1.2/29" = .ok 1002012 := by rfl
  have hread : ∀ text, sampleTwice.labelCidr = some text → Cidr.readLabel text = .ok 1002012 := by
    rintro text ⟨⟩
    exact hlabel
  have hoverlays : sampleTwice.Overlays p := overlays_overlay hlabel
  have hcheck : p.check = .ok () :=
    (Plan.check_eq_ok_iff p).2 ⟨by decide, List.cons_ne_nil _ _, by decide, by decide, by decide⟩
  obtain ⟨hok, -, hruns, -, hcidr, -⟩ := plan_by_choices sampleTwice
  have hplan := (hok p).2 ⟨hoverlays, by decide, hcheck⟩
  refine ⟨⟨hplan, (hruns p hplan).1⟩, ?_, ?_, ⟨nofun, hcidr nofun⟩, ?_⟩
  · exact ((plan_by_choices _).2.1 _).2 (.cidr rfl rfl)
  · exact ((plan_by_choices _).2.1 _).2 (.interval (fun text hgiven => ⟨_, hread text hgiven⟩) rfl)
  · exact (plan_by_choices {}).2.2.2.2.2 rfl

end Options

end LabelTunnel.Command
