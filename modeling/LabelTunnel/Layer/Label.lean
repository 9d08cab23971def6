import LabelTunnel.Fault

/-! Label stack entries and label stacks. An entry is one double word: 20 bits of label, 3 of traffic
class, the bottom-of-stack bit and 8 bits of time to live. A stack runs up to and including its first
bottom entry. -/

namespace LabelTunnel

/-- An entry of a label stack. Label and class may be wider than their fields; the printer cuts
them. -/
structure LabelEntry where
  label : UInt32
  trafficClass : UInt8
  bottom : Bool
  ttl : UInt8
  deriving DecidableEq

namespace LabelEntry

/-- The largest label of 20 bits. -/
def maxLabel : UInt32 := 0xFFFFF

def size : Nat := 4

/-- The same entry with label and class cut to their fields. -/
def masked (e : LabelEntry) : LabelEntry :=
  { e with label := e.label % (maxLabel + 1), trafficClass := e.trafficClass % 8 }

/-- The only entry of a stack: class 0, bottom set, the label cut to its field. -/
def single (label : UInt32) (ttl : UInt8) : LabelEntry := masked ⟨label, 0, true, ttl⟩

def toDoubleWord (e : LabelEntry) : UInt32 :=
  e.masked.label * 4096 + e.masked.trafficClass.toUInt32 * 512 + e.bottom.toUInt32 * 256 +
    e.ttl.toUInt32

def ofDoubleWord (w : UInt32) : LabelEntry :=
  ⟨w / 4096, (w / 512 % 8).toUInt8, w / 256 % 2 == 1, w.toUInt8⟩

def encode (e : LabelEntry) : Octets := Octets.ofDoubleWord e.toDoubleWord

def decode : Octets → Except Fault LabelEntry
  | a :: b :: c :: d :: _ => .ok (ofDoubleWord (Octets.doubleWord a b c d))
  | data => .error (.parsing (.labelShort data.length))

def text (e : LabelEntry) : String :=
  "MPLS label=" ++ Numeral.text e.label.toNat ++ " exp=" ++ Numeral.text e.trafficClass.toNat ++
    " s=" ++ Numeral.text e.bottom.toNat ++ " ttl=" ++ Numeral.text e.ttl.toNat

@[simp] theorem length_encode (e : LabelEntry) : e.encode.length = size := rfl

end LabelEntry

namespace LabelStack

def encode (stack : List LabelEntry) : Octets := stack.flatMap LabelEntry.encode

/-- Reads entries up to the bottom of the stack, after `found` entries read before. -/
def decodeAfter (found : Nat) : Octets → Except Fault (List LabelEntry)
  | a :: b :: c :: d :: rest =>
    let entry := LabelEntry.ofDoubleWord (Octets.doubleWord a b c d)
    if entry.bottom then .ok [entry]
    else (decodeAfter (found + 1) rest).map fun stack => entry :: stack
  | _ => .error (.parsing (.stackTruncated found))

/-- Reads a whole stack; the result has as many entries as were read. -/
def decode (data : Octets) : Except Fault (List LabelEntry) := decodeAfter 0 data

def size (stack : List LabelEntry) : Nat := LabelEntry.size * stack.length

end LabelStack

end LabelTunnel
