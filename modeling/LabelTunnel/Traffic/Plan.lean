import LabelTunnel.Packet.Draft

/-! Traffic plans: what is sent, from where to where, how often. A plan has flows, each a simulated sender
inside the tunnel and the source port its packets leave from, written as address, colon, port. A plan that
passes `check` has packets for all its flows, and each fits the length fields of all its layers. -/

namespace LabelTunnel

structure Flow where
  innerSource : Address
  sourcePort : UInt16
  deriving DecidableEq

namespace Flow

def text (f : Flow) : String := f.innerSource.text ++ ":" ++ Numeral.text f.sourcePort.toNat

/-- Reads a flow. The port is what follows the last colon, and the address is looked at first. -/
def read (text : String) : Except Fault Flow :=
  match Split.atLast? ':' text.toList with
  | none => .error (.parameter .flowWithoutPort)
  | some (address, port) =>
    match Address.read? address with
    | none => .error (.parameter (.flowAddress (String.ofList address)))
    | some innerSource =>
      match Numeral.readNat 65535 port with
      | .error cause => .error (.parameter (.flowPort (String.ofList port) cause))
      | .ok port => .ok ⟨innerSource, port.toUInt16⟩

end Flow

/-- A traffic plan. -/
structure Plan where
  outerSource : Address := ⟨192, 168, 57, 30⟩
  outerDestination : Address := ⟨192, 168, 57, 10⟩
  innerDestination : Address := ⟨1, 1, 1, 1⟩
  destinationPort : UInt16 := 6635
  /-- One packet for each of them makes a cycle, in this order. -/
  flows : List Flow := [⟨⟨100, 64, 0, 1⟩, 5001⟩, ⟨⟨100, 64, 0, 2⟩, 5002⟩, ⟨⟨100, 64, 0, 3⟩, 5003⟩]
  label : UInt32 := 1004051
  labelTtl : UInt8 := 64
  payload : Octets := Octets.ofText "123456789012345678901234567890"
  /-- The pause after a cycle, in whole milliseconds. The timers count in these, so a duration that is not a
  whole number of them makes the pause of the next whole millisecond. -/
  interval : Nat := 2000
  maxCycles : Option UInt64 := none
  deriving DecidableEq

namespace Plan

/-- The first port from the left that was seen before. The ports seen are the bits of `seen` that are
set. -/
def repeatedPort? (seen : Nat) : List Flow → Option UInt16
  | [] => none
  | f :: rest =>
    if seen.testBit f.sourcePort.toNat then some f.sourcePort
    else repeatedPort? (seen ||| 2 ^ f.sourcePort.toNat) rest

/-- The octets that a plan allows for around a payload: an internet header, a user header, a label, and
inside the tunnel an internet header and an echo header. -/
def overhead : Nat := 20 + 8 + 4 + 20 + 8

def packetSize (p : Plan) : Nat := overhead + p.payload.length

/-- The first condition that a plan violates, if it violates one. -/
def fault? (p : Plan) : Option ParameterFault :=
  if LabelEntry.maxLabel < p.label then some (.labelTooWide p.label)
  else if p.flows = [] then some .noFlows
  else
    match repeatedPort? 0 p.flows with
    | some port => some (.portRepeated port)
    | none =>
      if p.destinationPort = 0 then some .portZero
      else if 65535 < p.packetSize then some (.payloadTooLong p.payload.length)
      else none

def check (p : Plan) : Except Fault Unit :=
  match p.fault? with
  | some cause => .error (.parameter cause)
  | none => .ok ()

def edits (p : Plan) (flow : Flow) : List Draft.Edit :=
  [.outer p.outerSource p.outerDestination, .ports flow.sourcePort p.destinationPort,
    .label p.label p.labelTtl, .inner flow.innerSource p.innerDestination, .echoRequest,
    .payload p.payload]

def draft (p : Plan) (flow : Flow) : Draft := .ofEdits (p.edits flow)

/-- The packets of one cycle, one for each flow, in the order of the flows. -/
def packets (p : Plan) : Except Fault (List Packet) := p.flows.mapM fun flow => (p.draft flow).build

end Plan

end LabelTunnel
