import LabelTunnel.Numeral

/-! The numbers that say what a header carries: the protocol of an internet datagram and the kind of
a control message. Each number has a named or a numeric form; `ofNumber` gives the named form wherever
there is one, and a numeric form of a named number is a value of its own. -/

namespace LabelTunnel

inductive Protocol where
  | icmp
  | udp
  | other (number : UInt8)
  deriving DecidableEq

namespace Protocol

def number : Protocol → UInt8
  | .icmp => 1
  | .udp => 17
  | .other n => n

def ofNumber (n : UInt8) : Protocol :=
  if n = 1 then .icmp else if n = 17 then .udp else .other n

def text : Protocol → String
  | .icmp => "icmp"
  | .udp => "udp"
  | .other n => Numeral.text n.toNat

@[simp] theorem number_ofNumber (n : UInt8) : (ofNumber n).number = n := by
  unfold ofNumber
  split
  · simp [number, *]
  · split <;> simp [number, *]

end Protocol

/-- What a control message with an echo header is. -/
inductive EchoKind where
  | reply
  | request
  | other (number : UInt8)
  deriving DecidableEq

namespace EchoKind

def number : EchoKind → UInt8
  | .reply => 0
  | .request => 8
  | .other n => n

def ofNumber (n : UInt8) : EchoKind :=
  if n = 0 then .reply else if n = 8 then .request else .other n

def text : EchoKind → String
  | .reply => "echo-reply"
  | .request => "echo-request"
  | .other n => "type-" ++ Numeral.text n.toNat

@[simp] theorem number_ofNumber (n : UInt8) : (ofNumber n).number = n := by
  unfold ofNumber
  split
  · simp [number, *]
  · split <;> simp [number, *]

end EchoKind

end LabelTunnel
