import LabelTunnel.Packet
import LabelTunnel.Proofs.Guarded
import LabelTunnel.Proofs.Layer.Label

/-! The readers of the layers, guarded. Each reads what the reader of its layer reads, in the same order
and behind the same checks, but every octet and every part of the data is taken by a guarded read; the
label stack is walked by an offset that moves from entry to entry. All of them give what the readers give,
so no reader of a layer, and not the reader of packets, ever reads out of range. -/

namespace LabelTunnel

variable {data : Octets}

namespace InternetDatagram

/-- Reads a datagram, every access checked. The low half of the fragment word is read and dropped. -/
def decode? (data : Octets) : Guarded InternetDatagram := do
  if data.length < headerSize then throw (.parsing (.internetShort data.length))
  let first ← data.byteAt? 0
  if first / 16 ≠ 4 then throw (.parsing (.version (first / 16)))
  let headerLength := 4 * (first % 16).toNat
  if headerLength < headerSize ∨ data.length < headerLength then
    throw (.parsing (.headerLength headerLength))
  let total ← data.wordAt? 2
  if total.toNat < headerLength ∨ data.length < total.toNat then
    throw (.parsing (.totalLength total.toNat data.length))
  let flags ← data.byteAt? 6
  let _ ← data.byteAt? 7
  let serviceType ← data.byteAt? 1
  let identification ← data.wordAt? 4
  let ttl ← data.byteAt? 8
  let protocol ← data.byteAt? 9
  let checksum ← data.wordAt? 10
  let source ← data.addressAt? 12
  let destination ← data.addressAt? 16
  let payload ← data.slice? headerLength total.toNat
  return {
    serviceType, identification, ttl, checksum, source, destination, payload
    flags := .ofBits (flags / 32)
    protocol := .ofNumber protocol }

theorem gives_decode (data : Octets) : (decode? data).Gives (decode data) := by
  unfold decode? decode
  dsimp only
  refine Guarded.Gives.check ?_
  intro hroom
  rw [headerSize, Nat.not_lt] at hroom
  refine Guarded.Gives.read (Octets.byteAt?_of_lt (by omega)) ?_
  refine Guarded.Gives.check ?_
  intro _
  refine Guarded.Gives.check ?_
  intro hheader
  refine Guarded.Gives.read (Octets.wordAt?_of_le (by omega)) ?_
  refine Guarded.Gives.check ?_
  intro htotal
  refine Guarded.Gives.read (Octets.byteAt?_of_lt (by omega)) ?_
  refine Guarded.Gives.read (Octets.byteAt?_of_lt (by omega)) ?_
  refine Guarded.Gives.read (Octets.byteAt?_of_lt (by omega)) ?_
  refine Guarded.Gives.read (Octets.wordAt?_of_le (by omega)) ?_
  refine Guarded.Gives.read (Octets.byteAt?_of_lt (by omega)) ?_
  refine Guarded.Gives.read (Octets.byteAt?_of_lt (by omega)) ?_
  refine Guarded.Gives.read (Octets.wordAt?_of_le (by omega)) ?_
  refine Guarded.Gives.read (Octets.addressAt?_of_le (by omega)) ?_
  refine Guarded.Gives.read (Octets.addressAt?_of_le (by omega)) ?_
  refine Guarded.Gives.read (Octets.slice?_of_le (by omega) (by omega)) ?_
  exact Guarded.gives_pure _

end InternetDatagram

namespace UserDatagram

def decode? (data : Octets) : Guarded UserDatagram := do
  if data.length < headerSize then throw (.parsing (.userShort data.length))
  let length ← data.wordAt? 4
  if length.toNat < headerSize ∨ data.length < length.toNat then
    throw (.parsing (.userLength length.toNat data.length))
  let sourcePort ← data.wordAt? 0
  let destinationPort ← data.wordAt? 2
  let checksum ← data.wordAt? 6
  let payload ← data.slice? headerSize length.toNat
  return { sourcePort, destinationPort, checksum, payload }

theorem gives_decode (data : Octets) : (decode? data).Gives (decode data) := by
  unfold decode? decode
  dsimp only
  refine Guarded.Gives.check ?_
  intro hroom
  rw [headerSize, Nat.not_lt] at hroom
  refine Guarded.Gives.read (Octets.wordAt?_of_le (by omega)) ?_
  refine Guarded.Gives.check ?_
  intro hlength
  refine Guarded.Gives.read (Octets.wordAt?_of_le (by omega)) ?_
  refine Guarded.Gives.read (Octets.wordAt?_of_le (by omega)) ?_
  refine Guarded.Gives.read (Octets.wordAt?_of_le (by omega)) ?_
  refine Guarded.Gives.read (Octets.slice?_of_le (by omega) (by omega)) ?_
  exact Guarded.gives_pure _

end UserDatagram

namespace EchoMessage

def decode? (data : Octets) : Guarded EchoMessage := do
  if data.length < headerSize then throw (.parsing (.echoShort data.length))
  let kind ← data.byteAt? 0
  let code ← data.byteAt? 1
  let checksum ← data.wordAt? 2
  let identifier ← data.wordAt? 4
  let sequence ← data.wordAt? 6
  let payload ← data.drop? headerSize
  return { kind := .ofNumber kind, code, checksum, identifier, sequence, payload }

theorem gives_decode (data : Octets) : (decode? data).Gives (decode data) := by
  unfold decode? decode
  refine Guarded.Gives.check ?_
  intro hroom
  have hroom' : 8 ≤ data.length := Nat.le_of_not_lt hroom
  refine Guarded.Gives.read (Octets.byteAt?_of_lt (by omega)) ?_
  refine Guarded.Gives.read (Octets.byteAt?_of_lt (by omega)) ?_
  refine Guarded.Gives.read (Octets.wordAt?_of_le (by omega)) ?_
  refine Guarded.Gives.read (Octets.wordAt?_of_le (by omega)) ?_
  refine Guarded.Gives.read (Octets.wordAt?_of_le (by omega)) ?_
  refine Guarded.Gives.read (Octets.drop?_of_le hroom') ?_
  exact Guarded.gives_pure _

end EchoMessage

namespace LabelEntry

def readFields? (data : Octets) : Guarded LabelEntry := do
  return ofDoubleWord (Octets.doubleWord (← data.byteAt? 0) (← data.byteAt? 1) (← data.byteAt? 2)
    (← data.byteAt? 3))

theorem gives_ofFields (h : size ≤ data.length) : (readFields? data).Gives (.ok (ofFields data)) := by
  have hroom : 4 ≤ data.length := h
  refine Guarded.Gives.read (Octets.byteAt?_of_lt (by omega)) ?_
  refine Guarded.Gives.read (Octets.byteAt?_of_lt (by omega)) ?_
  refine Guarded.Gives.read (Octets.byteAt?_of_lt (by omega)) ?_
  refine Guarded.Gives.read (Octets.byteAt?_of_lt (by omega)) ?_
  exact Guarded.gives_pure _

end LabelEntry

namespace LabelStack

/-- Walks a stack from an offset on, with the entries found before it. Gives the whole stack and the offset
behind it. -/
def decodeFrom? (data : Octets) (offset : Nat) (found : List LabelEntry) :
    Guarded (List LabelEntry × Nat) := do
  let rest ← data.drop? offset
  if _hroom : data.length < offset + LabelEntry.size then throw (.parsing (.stackTruncated found.length))
  else
    let entry ← LabelEntry.readFields? rest
    if entry.bottom then return (found ++ [entry], offset + LabelEntry.size)
    else decodeFrom? data (offset + LabelEntry.size) (found ++ [entry])
termination_by data.length - offset
decreasing_by
  rw [LabelEntry.size] at _hroom ⊢
  omega

def decode? (data : Octets) : Guarded (List LabelEntry × Nat) := decodeFrom? data 0 []

/-- Along the stack each entry moves from the front of what is left to the end of what was found. -/
theorem gives_decodeFrom {offset : Nat} {found : List LabelEntry} (hoffset : offset ≤ data.length) :
    (decodeFrom? data offset found).Gives ((decodeAfter found.length (data.drop offset)).map fun more =>
      (found ++ more, offset + size more)) := by
  induction offset, found using decodeFrom?.induct data with
  | case1 offset found ih =>
      rw [decodeFrom?]
      refine Guarded.Gives.read (Octets.drop?_of_le hoffset) ?_
      by_cases hroom : data.length < offset + LabelEntry.size
      · have hshort : (data.drop offset).length < LabelEntry.size := by
          rw [List.length_drop]
          omega
        rw [dif_pos hroom, decodeAfter_of_lt hshort]
        exact Guarded.gives_throw _
      · have hentry : LabelEntry.size ≤ (data.drop offset).length := by
          rw [List.length_drop]
          omega
        rw [dif_neg hroom, decodeAfter_of_le hentry]
        refine (LabelEntry.gives_ofFields hentry).andThen ?_
        by_cases hbottom : (LabelEntry.ofFields (data.drop offset)).bottom = true
        · rw [if_pos hbottom, if_pos hbottom]
          exact Guarded.gives_pure _
        · have hwalk := ih hroom (LabelEntry.ofFields (data.drop offset)) (by omega)
          rw [if_neg hbottom, if_neg hbottom]
          rw [List.length_append, List.length_singleton, ← List.drop_drop] at hwalk
          have hmap (tail : Except Fault (List LabelEntry)) :
              (tail.map fun stack => LabelEntry.ofFields (data.drop offset) :: stack).map
                (fun more => (found ++ more, offset + size more)) =
              tail.map fun more => (found ++ [LabelEntry.ofFields (data.drop offset)] ++ more,
                offset + LabelEntry.size + size more) := by
            cases tail with
            | error fault => rfl
            | ok stack =>
                simp only [Except.map, List.append_assoc, List.singleton_append, size, List.length_cons,
                  Nat.mul_succ, Nat.add_assoc, Nat.add_comm LabelEntry.size]
          rwa [hmap]

/-- Walking the stack from its front gives what reading it gives, with the length of what was read. -/
theorem gives_decode (data : Octets) :
    (decode? data).Gives ((decode data).map fun stack => (stack, size stack)) := by
  have hwalk := @gives_decodeFrom data 0 [] (Nat.zero_le _)
  simp only [List.drop_zero, List.nil_append, List.length_nil, Nat.zero_add] at hwalk
  exact hwalk

end LabelStack

namespace Packet

def decode? (data : Octets) : Guarded Packet := do
  let outer ← InternetDatagram.decode? data
  if outer.protocol ≠ .udp then throw (.parsing (.outerProtocol outer.protocol))
  let tunnel ← UserDatagram.decode? outer.payload
  let (stack, consumed) ← LabelStack.decode? tunnel.payload
  if stack.length ≠ 1 then throw (.parsing (.labelCount stack.length))
  let inner ← InternetDatagram.decode? (← tunnel.payload.drop? consumed)
  if inner.protocol ≠ .icmp then throw (.parsing (.innerProtocol inner.protocol))
  let message ← EchoMessage.decode? inner.payload
  let label ← (stack[0]? : Option LabelEntry)
  return {
    outer := .ofDatagram outer
    ports := ⟨tunnel.sourcePort, tunnel.destinationPort⟩
    label
    inner := .ofDatagram inner
    echo := ⟨message.kind, message.code, message.identifier, message.sequence⟩
    payload := message.payload }

theorem gives_decode (data : Octets) : (decode? data).Gives (decode data) := by
  unfold decode? decode
  refine (InternetDatagram.gives_decode data).bind ?_
  intro outer _
  refine Guarded.Gives.check ?_
  intro _
  refine (UserDatagram.gives_decode outer.payload).bind ?_
  intro tunnel _
  have hwalk := LabelStack.gives_decode tunnel.payload
  cases hstack : LabelStack.decode tunnel.payload with
  | error fault =>
      rw [hstack] at hwalk
      exact hwalk.bind (g := fun _ => Except.error fault) nofun
  | ok stack =>
      rw [hstack] at hwalk
      refine hwalk.andThen ?_
      rw [Outcome.ok_bind]
      match stack with
      | [] => exact Guarded.gives_throw _
      | _ :: _ :: _ => exact Guarded.gives_throw _
      | [label] =>
          have hroom := (LabelStack.decode_eq_ok_singleton_iff.1 hstack).1
          refine Guarded.Gives.read (Octets.drop?_of_le hroom) ?_
          refine (InternetDatagram.gives_decode _).bind ?_
          intro inner _
          refine Guarded.Gives.check ?_
          intro _
          refine (EchoMessage.gives_decode inner.payload).bind ?_
          intro message _
          refine Guarded.Gives.read (a := label) rfl ?_
          exact Guarded.gives_pure _

end Packet

end LabelTunnel
