import LabelTunnel.Command.Options

/-! The vocabulary of the command line: settings, which take a value, and switches, which do not. Every
one has a long name and some have a letter. A setting says how its value is read and where it goes. -/

namespace LabelTunnel.Command

/-- What takes a value. -/
inductive Setting where
  | outerSource
  | outerDestination
  | innerDestination
  | destinationPort
  | flow
  | label
  | labelCidr
  | labelTtl
  | payload
  | interval
  | count
  | timeout
  deriving DecidableEq

/-- What takes no value. -/
inductive Switch where
  | dryRun
  | verbose
  | help
  | version
  deriving DecidableEq

inductive Name where
  | setting (setting : Setting)
  | switch (switch : Switch)
  deriving DecidableEq

inductive ValueFault where
  | address
  | flow (fault : Fault)
  | numeral (fault : Numeral.Fault)
  | outside (value : Int) (limit : Nat)
  deriving DecidableEq

def ValueFault.message : ValueFault → String
  | .address => Address.malformedMessage
  | .flow fault => fault.message
  | .numeral fault => fault.message
  | .outside value limit =>
    (if value < 0 then "-" else "") ++ Numeral.text value.natAbs ++ " is not in 0..=" ++
      Numeral.text limit

namespace Setting

def all : List Setting :=
  [.outerSource, .outerDestination, .innerDestination, .destinationPort, .flow, .label, .labelCidr,
    .labelTtl, .payload, .interval, .count, .timeout]

def longName : Setting → String
  | .outerSource => "outer-src"
  | .outerDestination => "outer-dst"
  | .innerDestination => "inner-dst"
  | .destinationPort => "dst-port"
  | .flow => "flow"
  | .label => "label"
  | .labelCidr => "label-from-prefix"
  | .labelTtl => "mpls-ttl"
  | .payload => "payload"
  | .interval => "interval-ms"
  | .count => "count"
  | .timeout => "timeout"

def letter? : Setting → Option Char
  | .flow => some 'f'
  | .label => some 'l'
  | .interval => some 'i'
  | .count => some 'c'
  | .timeout => some 't'
  | _ => none

/-- The word that stands for the value in messages. -/
def valueName : Setting → String
  | .outerSource | .outerDestination | .innerDestination => "ADDR"
  | .destinationPort => "PORT"
  | .flow => "ADDR:PORT"
  | .label => "LABEL"
  | .labelCidr => "CIDR"
  | .labelTtl => "TTL"
  | .payload => "TEXT"
  | .interval => "MS"
  | .count => "CYCLES"
  | .timeout => "SECONDS"

/-- Whether the setting may be given more than once. -/
def repeats : Setting → Bool
  | .flow => true
  | _ => false

/-- How messages show the setting. -/
def text (s : Setting) : String := "--" ++ s.longName ++ " <" ++ s.valueName ++ ">"

def readAddress (value : String) : Except ValueFault Address :=
  match Address.read? value.toList with
  | some address => .ok address
  | none => .error .address

/-- Reads a number of a field with a limit. It is read as a signed number first, so that one outside
the field is told the field's limits. -/
def readField (limit : Nat) (value : String) : Except ValueFault Nat :=
  match Numeral.readInt value.toList with
  | .error fault => .error (.numeral fault)
  | .ok n => if 0 ≤ n ∧ n ≤ limit then .ok n.toNat else .error (.outside n limit)

def readCount (value : String) : Except ValueFault UInt64 :=
  ((Numeral.readNat 0xFFFFFFFFFFFFFFFF value.toList).map Nat.toUInt64).mapError .numeral

/-- Reads the value of a setting and lays it down in the options. Flows are collected. -/
def store (s : Setting) (value : String) (o : Options) : Except ValueFault Options :=
  match s with
  | .outerSource => (readAddress value).map fun a => { o with outerSource := some a }
  | .outerDestination => (readAddress value).map fun a => { o with outerDestination := some a }
  | .innerDestination => (readAddress value).map fun a => { o with innerDestination := some a }
  | .destinationPort =>
    (readField 65535 value).map fun n => { o with destinationPort := some n.toUInt16 }
  | .flow => ((Flow.read value).mapError .flow).map fun f => { o with flows := o.flows ++ [f] }
  | .label => (readField 4294967295 value).map fun n => { o with label := some n.toUInt32 }
  | .labelCidr => .ok { o with labelCidr := some value }
  | .labelTtl => (readField 255 value).map fun n => { o with labelTtl := some n.toUInt8 }
  | .payload => .ok { o with payload := some value }
  | .interval => (readCount value).map fun n => { o with interval := n }
  | .count => (readCount value).map fun n => { o with count := n }
  | .timeout => (readCount value).map fun n => { o with timeout := n }

end Setting

namespace Switch

def all : List Switch := [.dryRun, .verbose, .help, .version]

def longName : Switch → String
  | .dryRun => "dry-run"
  | .verbose => "verbose"
  | .help => "help"
  | .version => "version"

def letter : Switch → Char
  | .dryRun => 'n'
  | .verbose => 'v'
  | .help => 'h'
  | .version => 'V'

def text : Switch → String
  | .verbose => "--verbose..."
  | s => "--" ++ s.longName

end Switch

namespace Name

def all : List Name := Setting.all.map .setting ++ Switch.all.map .switch

def longName : Name → String
  | .setting s => s.longName
  | .switch s => s.longName

def letter? : Name → Option Char
  | .setting s => s.letter?
  | .switch s => some s.letter

def text : Name → String
  | .setting s => s.text
  | .switch s => s.text

def ofLong? (spelling : String) : Option Name := all.find? fun n => n.longName = spelling

def ofLetter? (letter : Char) : Option Name := all.find? fun n => n.letter? = some letter

end Name

end LabelTunnel.Command
