import LabelTunnel.Address

/-! What an emission talks to: a transmitter that takes packets and a sink that takes trace lines.
Each is a pure step on one world, so a device can keep a state and can see what the other one did. A
call can fail, and it can ask for the emission to stop, whether it fails or not. The devices here send
nothing, keep all the text, or follow a script for rehearsing an emission: which sends fail, when a stop
comes, how much trace there is room for. Beside its devices an emission has a runtime, for the time. -/

namespace LabelTunnel

structure Parcel where
  time : Nat
  destination : Address
  bytes : Octets
  deriving DecidableEq

/-- What a device answers to a call. -/
structure Reply (ω α : Type) where
  result : Except String α
  /-- Whether the emission was asked to stop during the call. -/
  stops : Bool := false
  world : ω

/-- A way for packets to leave. An accepted packet is answered with a number of octets, which need not
be the packet's length. -/
structure Transmitter (ω : Type) where
  name : String
  send : Parcel → ω → Reply ω UInt64

structure Sink (ω : Type) where
  write : String → ω → Reply ω Unit
  flush : ω → Reply ω Unit

variable {ω : Type}

/-- Takes every packet and sends none. -/
def Transmitter.dryRun : Transmitter ω where
  name := "dry-run"
  send parcel world := { result := .ok parcel.bytes.length.toUInt64, world }

/-- Keeps all the text it is given. -/
def Sink.collect : Sink String where
  write line text := { result := .ok (), world := text ++ line }
  flush text := { result := .ok (), world := text }

/-! ### The runtime -/

/-- What an emission runs on. Its clock counts milliseconds from the start of the emission and has a last
instant; of a task that broke off it has a report. -/
structure Runtime where
  lastInstant : Nat
  report : String

namespace Runtime

/-- The instant that lies so far behind another one, if the clock comes to it. -/
def later? (runtime : Runtime) (now duration : Nat) : Option Nat :=
  if now + duration ≤ runtime.lastInstant then some (now + duration) else none

/-- A clock that counts its seconds in 64 bits with a sign, and what it says of an instant that is beyond them. -/
def signedSeconds : Runtime where
  lastInstant := UInt64.size / 2 * 1000 - 1
  report := "overflow when adding duration to instant"

end Runtime

/-! ### Rehearsed devices -/

/-- What a rehearsed transmitter does. Sends are counted from 0. -/
structure LinkScript where
  /-- Takes every packet and keeps no record. -/
  dryRun : Bool := false
  failAt : List Nat := []
  reason : String := "network is down"
  /-- Asks for a stop during each accepted send that is at least this number of sends in all. -/
  stopAfter : Option Nat := none
  /-- The number of octets to report in place of the packet's length. -/
  accept : Option UInt64 := none

structure LinkLog where
  sends : Nat := 0
  parcels : Array Parcel := #[]

def LinkScript.answer (script : LinkScript) (parcel : Parcel) (log : LinkLog) : Reply LinkLog UInt64 :=
  let sends := log.sends + 1
  if script.dryRun then Transmitter.dryRun.send parcel { log with sends }
  else if log.sends ∈ script.failAt then
    { result := .error script.reason, world := { log with sends } }
  else
    { result := .ok (script.accept.getD parcel.bytes.length.toUInt64)
      stops := script.stopAfter.any (· ≤ sends)
      world := ⟨sends, log.parcels.push parcel⟩ }

/-- What a rehearsed sink does. Flushes are counted from 0. -/
structure SinkScript where
  /-- The number of characters there is room for, if that is bounded. -/
  capacity : Option Nat := none
  /-- Reports a full sink as one that takes nothing more, and not as one that refuses. -/
  takesNothing : Bool := false
  flushFailAt : Option Nat := none

structure SinkLog where
  used : Nat := 0
  flushes : Nat := 0
  text : String := ""

namespace SinkScript

def fullReason (script : SinkScript) : String :=
  if script.takesNothing then "failed to write whole buffer" else "trace sink is full"

/-- What a rehearsed sink answers to a line. What there is room for is kept of one that does not fit. -/
def answerLine (script : SinkScript) (line : String) (log : SinkLog) : Reply SinkLog Unit :=
  let kept :=
    match script.capacity with
    | none => line
    | some capacity => String.ofList (line.toList.take (capacity - log.used))
  { result := if kept.length = line.length then .ok () else .error script.fullReason
    world := { log with used := log.used + kept.length, text := log.text ++ kept } }

def answerFlush (script : SinkScript) (log : SinkLog) : Reply SinkLog Unit :=
  { result := if script.flushFailAt = some log.flushes then .error "flush failed" else .ok ()
    world := { log with flushes := log.flushes + 1 } }

end SinkScript

structure Rehearsal where
  link : LinkLog := {}
  trace : SinkLog := {}

namespace Rehearsal

def transmitter (script : LinkScript) : Transmitter Rehearsal where
  name := if script.dryRun then (Transmitter.dryRun : Transmitter Rehearsal).name else "rehearsal"
  send parcel := fun ⟨link, trace⟩ =>
    let reply := script.answer parcel link
    { result := reply.result, stops := reply.stops, world := ⟨reply.world, trace⟩ }

def sink (script : SinkScript) : Sink Rehearsal where
  write line := fun ⟨link, trace⟩ =>
    let reply := script.answerLine line trace
    { result := reply.result, stops := reply.stops, world := ⟨link, reply.world⟩ }
  flush := fun ⟨link, trace⟩ =>
    let reply := script.answerFlush trace
    { result := reply.result, stops := reply.stops, world := ⟨link, reply.world⟩ }

end Rehearsal

end LabelTunnel
