import LabelTunnel.Packet

/-! Packets under construction. A draft holds the layers given so far, the last one of each kind; it
becomes a packet once no layer is missing and its label fits the label field. -/

namespace LabelTunnel

/-- A packet under construction. Every layer but the payload has to be given. -/
structure Draft where
  outer : Option Envelope := none
  ports : Option Ports := none
  label : Option (UInt32 × UInt8) := none
  inner : Option Envelope := none
  echo : Option EchoHeader := none
  payload : Octets := []
  deriving DecidableEq

namespace Draft

inductive Edit where
  | outer (source destination : Address)
  | ports (source destination : UInt16)
  | label (label : UInt32) (ttl : UInt8)
  | inner (source destination : Address)
  /-- An echo request with zero identifier and sequence number. -/
  | echoRequest
  | payload (octets : Octets)
  deriving DecidableEq

/-- A later edit of a layer replaces an earlier one. -/
def edit (d : Draft) : Edit → Draft
  | .outer source destination => { d with outer := some { source, destination } }
  | .ports source destination => { d with ports := some ⟨source, destination⟩ }
  | .label label ttl => { d with label := some (label, ttl) }
  | .inner source destination => { d with inner := some { source, destination } }
  | .echoRequest => { d with echo := some {} }
  | .payload octets => { d with payload := octets }

def ofEdits (edits : List Edit) : Draft := edits.foldl edit {}

def require {α : Type} (layer : Layer) : Option α → Except Fault α
  | some value => .ok value
  | none => .error (.construction (.missing layer))

/-- The packet of a complete draft. The first missing layer from the outside in is reported, and the
width of the label only if none is missing. -/
def build (d : Draft) : Except Fault Packet := do
  let outer ← require .outer d.outer
  let ports ← require .udp d.ports
  let (label, ttl) ← require .label d.label
  let inner ← require .inner d.inner
  let echo ← require .echo d.echo
  if LabelEntry.maxLabel < label then throw (.construction (.labelTooWide label))
  return { outer, ports, label := .single label ttl, inner, echo, payload := d.payload }

end Draft

end LabelTunnel
