import LabelTunnel.Fault

/-! Addresses with a length, and the label that stands for one. The length is a number of bits or a
netmask. The label takes the last four decimal digits of the address written without dots, above a
base of its own, so it depends on the address alone and always fits the label field. -/

namespace LabelTunnel

/-- An address and the number of its leading bits that name a network. -/
structure Cidr where
  address : Address
  length : Nat
  deriving DecidableEq

namespace Cidr

/-- The netmask of a length: that many ones, then zeros. -/
def netmask (length : Nat) : Nat := 0x100000000 - 1 <<< (32 - length)

def lengthOfNetmask? (mask : Address) : Option Nat :=
  (List.range 33).find? fun length => mask.toDoubleWord.toNat = netmask length

/-- Reads a length: a netmask in dotted form, or a number of at most 32. -/
def readLength? (s : List Char) : Option Nat :=
  match Address.read? s with
  | some mask => lengthOfNetmask? mask
  | none =>
    match Numeral.readNat 255 s with
    | .ok length => if length ≤ 32 then some length else none
    | .error _ => none

/-- Reads an address with a length, given apart at the first slash. -/
def readParts (text : String) (address length : List Char) : Except CidrFault Cidr :=
  if '/' ∈ length then .error (.manySlashes text)
  else
    match Address.read? address with
    | none => .error (.address (String.ofList address))
    | some a =>
      match readLength? length with
      | none => .error .length
      | some n => .ok ⟨a, n⟩

def read (text : String) : Except Fault Cidr :=
  match Split.atFirst? '/' text.toList with
  | none => .error (.parameter (.cidrWithoutSlash text))
  | some (address, length) =>
    (readParts text address length).mapError fun cause => .parameter (.cidrMalformed text cause)

/-- The first label of the range that stands for addresses. -/
def labelBase : UInt32 := 1000000

/-- The number written by the digits of the address, dots left out. -/
def digitsNumber (c : Cidr) : Nat := Nat.ofDigitChars 10 (c.address.chars.filter (· ≠ '.')) 0

def label (c : Cidr) : UInt32 := labelBase + (c.digitsNumber % 10000).toUInt32

def readLabel (text : String) : Except Fault UInt32 := (read text).map label

end Cidr

end LabelTunnel
