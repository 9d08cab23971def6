import LabelTunnel.Address

/-! The internet checksum: the complement of the ones' complement sum of the big-endian words of the
data. The words are added up in 32 bits and the carries folded back in afterwards, which is exact for
data of up to 131072 octets. -/

namespace LabelTunnel.Checksum

/-- Adds the words of the data onto a sum; an odd last octet is the high half of a word. -/
def addWords (sum : UInt32) : Octets → UInt32
  | high :: low :: rest => addWords (sum + (Octets.word high low).toUInt32) rest
  | [high] => sum + (Octets.word high 0).toUInt32
  | [] => sum

/-- Adds the carries of a sum back into its low word until none is left. -/
def fold (sum : UInt32) : UInt32 :=
  if sum < 65536 then sum else fold (sum % 65536 + sum / 65536)
termination_by sum.toNat
decreasing_by
  rename_i h
  have h := UInt32.not_lt.mp h
  rw [UInt32.le_iff_toNat_le] at h
  have := sum.toNat_lt
  simp only [UInt32.reduceToNat, UInt32.toNat_add, UInt32.toNat_mod, UInt32.toNat_div] at *
  rw [Nat.mod_eq_of_lt (by omega)]
  omega

def ofSum (sum : UInt32) : UInt16 := ~~~(fold sum).toUInt16

def compute (data : Octets) : UInt16 := ofSum (addWords 0 data)

/-- What a transport checksum covers beside the data: addresses, protocol and the length, of which
the field keeps the low 16 bits. -/
def pseudoHeader (source destination : Address) (protocol : UInt8) (length : Nat) : Octets :=
  source.octets ++ destination.octets ++ [0, protocol] ++ Octets.ofWord length.toUInt16

/-- The checksum of a transport header and its payload under their pseudo-header. -/
def computeTransport (source destination : Address) (protocol : UInt8) (data : Octets) : UInt16 :=
  ofSum (addWords (addWords 0 (pseudoHeader source destination protocol data.length)) data)

/-- A checksum taken over data that holds its own checksum is one of the two zeros. -/
def isZero (checksum : UInt16) : Bool := checksum == 0 || checksum == 0xFFFF

/-- Whether data that holds its own checksum is intact. -/
def verify (data : Octets) : Bool := isZero (compute data)

end LabelTunnel.Checksum
