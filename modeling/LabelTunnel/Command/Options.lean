import LabelTunnel.Traffic.Cidr
import LabelTunnel.Traffic.Plan

/-! What a user chose on the command line, and the plan that follows from it: the standard plan with
the given choices laid over it. -/

namespace LabelTunnel.Command

/-- The choices of a user. What was not chosen is absent, or has the value it has without a choice. -/
structure Options where
  outerSource : Option Address := none
  outerDestination : Option Address := none
  innerDestination : Option Address := none
  destinationPort : Option UInt16 := none
  flows : List Flow := []
  label : Option UInt32 := none
  /-- The text of an address whose label to use. -/
  labelCidr : Option String := none
  labelTtl : Option UInt8 := none
  payload : Option String := none
  /-- In milliseconds. -/
  interval : UInt64 := 2000
  /-- The number of cycles, 0 for no limit. -/
  count : UInt64 := 0
  /-- In seconds, 0 for no limit. -/
  timeout : UInt64 := 0
  dryRun : Bool := false
  verbosity : UInt8 := 0
  deriving DecidableEq

namespace Options

/-- The label to use. One that stands for an address goes before one given as a number. -/
def chosenLabel (o : Options) : Except Fault UInt32 :=
  match o.labelCidr with
  | some text => Cidr.readLabel text
  | none => .ok (o.label.getD ({} : Plan).label)

/-- The standard plan under these choices and this label, not checked yet. -/
def overlay (o : Options) (label : UInt32) : Plan :=
  let standard : Plan := {}
  { outerSource := o.outerSource.getD standard.outerSource
    outerDestination := o.outerDestination.getD standard.outerDestination
    innerDestination := o.innerDestination.getD standard.innerDestination
    destinationPort := o.destinationPort.getD standard.destinationPort
    flows := if o.flows = [] then standard.flows else o.flows
    label
    labelTtl := o.labelTtl.getD standard.labelTtl
    payload := (o.payload.map Octets.ofText).getD standard.payload
    interval := o.interval.toNat
    maxCycles := if o.count = 0 then none else some o.count }

/-- The plan that was chosen. The label is looked at first, then the interval, then the plan. -/
def plan (o : Options) : Except Fault Plan := do
  let label ← o.chosenLabel
  if o.interval = 0 then throw (.parameter .intervalZero)
  let plan := o.overlay label
  plan.check
  return plan

def timeLimit (o : Options) : Option UInt64 := if o.timeout = 0 then none else some o.timeout

def logLevel (o : Options) : String :=
  if o.verbosity = 0 then "info" else if o.verbosity = 1 then "debug" else "trace"

end Options

end LabelTunnel.Command
