import LabelTunnel.Emission.Device
import LabelTunnel.Emission.Tally
import LabelTunnel.Traffic.Plan

/-! One cycle of an emission: for each flow in order, look at the running flag, write and flush the
trace line, then hand the packet to the transmitter. The first failure ends the cycle; a cleared flag
ends it quietly before the next packet. Only a cycle whose packets were all sent is counted. -/

namespace LabelTunnel

variable {ω : Type}

/-- What an emission works on: the world of its devices, its running flag and its counters. -/
structure Session (ω : Type) where
  world : ω
  running : Bool := true
  tally : Tally := {}

namespace Session

def stop (s : Session ω) : Session ω := { s with running := false }

def resume (s : Session ω) : Session ω := { s with running := true }

/-- Starts over with a set flag and fresh counters, in the same world. -/
def renew (s : Session ω) : Session ω := { world := s.world }

/-- Takes over what the sink answered to a call. -/
def afterSink (s : Session ω) (reply : Reply ω Unit) : Session ω :=
  { s with world := reply.world, running := s.running && !reply.stops }

/-- Takes over what the transmitter answered to a call, and counts it. -/
def afterSend (s : Session ω) (reply : Reply ω UInt64) : Session ω :=
  { s with
    world := reply.world
    running := s.running && !reply.stops
    tally :=
      match reply.result with
      | .ok accepted => s.tally.countSent accepted
      | .error _ => s.tally.countError }

def record (sink : Sink ω) (line : String) (s : Session ω) : Except Fault Unit × Session ω :=
  let written := sink.write line s.world
  match written.result with
  | .error reason => (.error (.io reason), s.afterSink written)
  | .ok () =>
    let flushed := sink.flush written.world
    (flushed.result.mapError .io, (s.afterSink written).afterSink flushed)

def send (transmitter : Transmitter ω) (flow : Nat) (parcel : Parcel) (s : Session ω) :
    Except Fault Unit × Session ω :=
  let reply := transmitter.send parcel s.world
  ((reply.result.mapError fun reason => .transmission flow parcel.destination reason).map fun _ => (),
    s.afterSend reply)

end Session

def Packet.traceLine (p : Packet) : String := "Send: " ++ p.summary ++ "\n"

structure Emitter (ω : Type) where
  plan : Plan
  transmitter : Transmitter ω
  sink : Sink ω
  runtime : Runtime

namespace Emitter

/-- Announces one packet and hands it to the transmitter, after `sent` others of its cycle. -/
def ship (e : Emitter ω) (time sent : Nat) (p : Packet) (s : Session ω) : Except Fault Unit × Session ω :=
  match p.encode with
  | .error fault => (.error fault, s)
  | .ok bytes =>
    match s.record e.sink p.traceLine with
    | (.error fault, s) => (.error fault, s)
    | (.ok (), s) => s.send e.transmitter (sent + 1) ⟨time, e.plan.outerDestination, bytes⟩

/-- Emits the packets that are left of a cycle, `sent` of them being out already. -/
def emit (e : Emitter ω) (time sent : Nat) (s : Session ω) :
    List Packet → Except Fault Nat × Session ω
  | [] => (.ok sent, { s with tally := s.tally.countCycle })
  | p :: rest =>
    if !s.running then (.ok sent, s)
    else
      match e.ship time sent p s with
      | (.error fault, s) => (.error fault, s)
      | (.ok (), s) => e.emit time (sent + 1) s rest

def cycle (e : Emitter ω) (time : Nat) (s : Session ω) : Except Fault Nat × Session ω :=
  match e.plan.packets with
  | .error fault => (.error fault, s)
  | .ok packets => e.emit time 0 s packets

end Emitter

end LabelTunnel
