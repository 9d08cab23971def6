import LabelTunnel.Address
import LabelTunnel.Protocol

/-! Everything that can go wrong, by cause, and the text each cause is reported with. A cause carries
the values its text shows; the `stated` causes carry a wording chosen by the caller. -/

namespace LabelTunnel

inductive CidrFault where
  | manySlashes (text : String)
  | address (text : String)
  | length
  deriving DecidableEq

def CidrFault.message : CidrFault → String
  | .manySlashes text => "invalid cidr format: CIDR must contain a single '/': " ++ text
  | .address text => "invalid address: " ++ text
  | .length => "invalid prefix"

inductive ParameterFault where
  | labelTooWide (label : UInt32)
  | noFlows
  | portRepeated (port : UInt16)
  | portZero
  | payloadTooLong (length : Nat)
  | intervalZero
  | flowWithoutPort
  | flowAddress (text : String)
  | flowPort (text : String) (cause : Numeral.Fault)
  | cidrWithoutSlash (text : String)
  | cidrMalformed (text : String) (cause : CidrFault)
  | stated (name reason : String)
  deriving DecidableEq

namespace ParameterFault

def name : ParameterFault → String
  | .labelTooWide _ => "label"
  | .noFlows | .portRepeated _ => "flows"
  | .portZero => "destination_port"
  | .payloadTooLong _ => "payload"
  | .intervalZero => "interval-ms"
  | .flowWithoutPort | .flowAddress _ | .flowPort _ _ => "flow"
  | .cidrWithoutSlash _ | .cidrMalformed _ _ => "prefix"
  | .stated name _ => name

def reason : ParameterFault → String
  | .labelTooWide label => Numeral.text label.toNat ++ " does not fit in 20 bits"
  | .noFlows => "at least one flow is required"
  | .portRepeated port => "source port " ++ Numeral.text port.toNat ++ " used by more than one flow"
  | .portZero => "must be non-zero"
  | .payloadTooLong length => Numeral.text length ++ " bytes overflows the outer IPv4 length"
  | .intervalZero => "must be positive"
  | .flowWithoutPort => "expected ADDR:PORT"
  | .flowAddress text => "bad address '" ++ text ++ "': " ++ Address.malformedMessage
  | .flowPort text cause => "bad port '" ++ text ++ "': " ++ cause.message
  | .cidrWithoutSlash text => "'" ++ text ++ "' is not in CIDR notation"
  | .cidrMalformed text cause => "'" ++ text ++ "' is not an IPv4 prefix: " ++ cause.message
  | .stated _ reason => reason

end ParameterFault

inductive Layer where
  | outer
  | udp
  | label
  | inner
  | echo
  deriving DecidableEq

def Layer.text : Layer → String
  | .outer => "outer IPv4"
  | .udp => "UDP"
  | .label => "MPLS"
  | .inner => "inner IPv4"
  | .echo => "ICMP"

inductive ConstructionFault where
  | internetTooLong (payload : Nat)
  | userTooLong (payload : Nat)
  | missing (layer : Layer)
  | labelTooWide (label : UInt32)
  | stated (reason : String)
  deriving DecidableEq

def ConstructionFault.reason : ConstructionFault → String
  | .internetTooLong payload =>
    "IPv4 payload of " ++ Numeral.text payload ++ " bytes exceeds the maximum packet size"
  | .userTooLong payload =>
    "UDP payload of " ++ Numeral.text payload ++ " bytes exceeds the maximum datagram size"
  | .missing layer => layer.text ++ " layer is required"
  | .labelTooWide label => "MPLS label " ++ Numeral.text label.toNat ++ " does not fit in 20 bits"
  | .stated reason => reason

inductive ParsingFault where
  | internetShort (available : Nat)
  | version (number : UInt8)
  | headerLength (length : Nat)
  | totalLength (length available : Nat)
  | userShort (available : Nat)
  | userLength (length available : Nat)
  | echoShort (available : Nat)
  | labelShort (available : Nat)
  | stackTruncated (entries : Nat)
  | outerProtocol (protocol : Protocol)
  | labelCount (entries : Nat)
  | innerProtocol (protocol : Protocol)
  | stated (reason : String)
  deriving DecidableEq

def ParsingFault.reason : ParsingFault → String
  | .internetShort available => "IPv4 header needs 20 bytes, got " ++ Numeral.text available
  | .version number => "IP version " ++ Numeral.text number.toNat ++ " is not IPv4"
  | .headerLength length => "bad IPv4 header length " ++ Numeral.text length
  | .totalLength length available =>
    "IPv4 total length " ++ Numeral.text length ++ " does not match " ++ Numeral.text available ++
      " available bytes"
  | .userShort available => "UDP header needs 8 bytes, got " ++ Numeral.text available
  | .userLength length available =>
    "UDP length " ++ Numeral.text length ++ " does not match " ++ Numeral.text available ++
      " available bytes"
  | .echoShort available => "ICMP echo header needs 8 bytes, got " ++ Numeral.text available
  | .labelShort available => "MPLS header needs 4 bytes, got " ++ Numeral.text available
  | .stackTruncated entries =>
    "MPLS label stack truncated after " ++ Numeral.text entries ++ " entries"
  | .outerProtocol protocol => "outer IPv4 protocol is " ++ protocol.text ++ ", expected udp"
  | .labelCount entries => "expected a single MPLS label, found " ++ Numeral.text entries
  | .innerProtocol protocol => "inner IPv4 protocol is " ++ protocol.text ++ ", expected icmp"
  | .stated reason => reason

inductive Fault where
  | io (reason : String)
  | parameter (cause : ParameterFault)
  | construction (cause : ConstructionFault)
  | parsing (cause : ParsingFault)
  | transport (reason : String)
  | privilege (reason : String)
  /-- The transmitter refused the packet of a flow, counted from 1. -/
  | transmission (flow : Nat) (destination : Address) (reason : String)
  /-- The emitter ended without a result. -/
  | task (reason : String)
  deriving DecidableEq

namespace Fault

def message : Fault → String
  | .io reason => "I/O error: " ++ reason
  | .parameter cause => "Invalid parameter '" ++ cause.name ++ "': " ++ cause.reason
  | .construction cause => "Packet construction error: " ++ cause.reason
  | .parsing cause => "Packet parsing error: " ++ cause.reason
  | .transport reason => "Transport error: " ++ reason
  | .privilege reason => "Insufficient privileges: " ++ reason
  | .transmission flow destination reason =>
    "Transmission of flow " ++ Numeral.text flow ++ " to " ++ destination.text ++ " failed: " ++ reason
  | .task reason => "Emitter task failed: " ++ reason

def isTransmission : Fault → Bool
  | .transmission _ _ _ => true
  | _ => false

end Fault

end LabelTunnel
