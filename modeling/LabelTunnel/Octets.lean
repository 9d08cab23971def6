/-! Octet strings and the big-endian words inside them. A header is printed by appending the octets
of its fields and read back by position, so every layer's layout is a list of words. -/

namespace LabelTunnel

/-- A string of octets, as it stands on the wire. -/
abbrev Octets := List UInt8

namespace Octets

def word (high low : UInt8) : UInt16 := high.toUInt16 * 256 + low.toUInt16

/-- A word in network order, high half first. -/
def ofWord (w : UInt16) : Octets := [(w / 256).toUInt8, w.toUInt8]

def doubleWord (a b c d : UInt8) : UInt32 := (word a b).toUInt32 * 65536 + (word c d).toUInt32

def ofDoubleWord (w : UInt32) : Octets := ofWord (w / 65536).toUInt16 ++ ofWord w.toUInt16

/-- The octets of a text in UTF-8. -/
def ofText (text : String) : Octets := text.toByteArray.data.toList

/-- The octet at an offset. Headers ask only within a length they have checked; past the end it is 0. -/
def byteAt (data : Octets) (offset : Nat) : UInt8 := data.getD offset 0

def wordAt (data : Octets) (offset : Nat) : UInt16 := word (data.byteAt offset) (data.byteAt (offset + 1))

/-- The octets from `start` up to, but not including, `stop`. -/
def slice (data : Octets) (start stop : Nat) : Octets := (data.take stop).drop start

theorem toNat_word (high low : UInt8) : (word high low).toNat = 256 * high.toNat + low.toNat := by
  have := high.toNat_lt; have := low.toNat_lt
  simp only [word, UInt16.toNat_add, UInt16.toNat_mul, UInt8.toNat_toUInt16, UInt16.reduceToNat]
  omega

@[simp] theorem length_ofWord (w : UInt16) : (ofWord w).length = 2 := rfl

theorem word_ofWord (w : UInt16) : word (w / 256).toUInt8 w.toUInt8 = w := by
  apply UInt16.toNat_inj.mp
  have := w.toNat_lt
  simp only [toNat_word, UInt16.toNat_toUInt8, UInt16.toNat_div, UInt16.reduceToNat]
  omega

theorem length_slice (data : Octets) (start stop : Nat) :
    (data.slice start stop).length = min stop data.length - start := by
  simp [slice]

end Octets

end LabelTunnel
