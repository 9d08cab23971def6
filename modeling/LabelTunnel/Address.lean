import LabelTunnel.Numeral

/-! Addresses of the internet protocol and their dotted form. An address has exactly one written form:
four decimal octets without leading zeros, three dots, nothing around. -/

namespace LabelTunnel

structure Address where
  first : UInt8
  second : UInt8
  third : UInt8
  fourth : UInt8
  deriving DecidableEq

namespace Address

def octets (a : Address) : Octets := [a.first, a.second, a.third, a.fourth]

def ofOctetsAt (data : Octets) (offset : Nat) : Address :=
  ⟨data.byteAt offset, data.byteAt (offset + 1), data.byteAt (offset + 2), data.byteAt (offset + 3)⟩

/-- The address as one number, first octet highest. -/
def toDoubleWord (a : Address) : UInt32 := Octets.doubleWord a.first a.second a.third a.fourth

def chars (a : Address) : List Char :=
  Numeral.digits a.first.toNat ++ '.' :: (Numeral.digits a.second.toNat ++
    '.' :: (Numeral.digits a.third.toNat ++ '.' :: Numeral.digits a.fourth.toNat))

def text (a : Address) : String := String.ofList a.chars

/-- Reads one octet off the front: at most three digits, no leading zero, at most 255. -/
def readOctet? (s : List Char) : Option (UInt8 × List Char) :=
  let numeral := s.takeWhile Char.isDigit
  let rest := s.dropWhile Char.isDigit
  let value := Nat.ofDigitChars 10 numeral 0
  if numeral.length ≤ 3 ∧ value ≤ 255 ∧ numeral = Numeral.digits value then
    some (value.toUInt8, rest)
  else none

def readDot? : List Char → Option (List Char)
  | '.' :: rest => some rest
  | _ => none

def read? (s : List Char) : Option Address := do
  let (first, s) ← readOctet? s
  let s ← readDot? s
  let (second, s) ← readOctet? s
  let s ← readDot? s
  let (third, s) ← readOctet? s
  let s ← readDot? s
  let (fourth, s) ← readOctet? s
  if s = [] then some ⟨first, second, third, fourth⟩ else none

/-- What a text that is no dotted address is told. -/
def malformedMessage : String := "invalid IPv4 address syntax"

@[simp] theorem length_octets (a : Address) : a.octets.length = 4 := rfl

end Address

end LabelTunnel
