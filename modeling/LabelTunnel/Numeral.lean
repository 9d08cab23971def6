import LabelTunnel.Octets

/-! Decimal numerals, and cutting a text in two. A number is printed with the fewest digits; it is read with
an optional plus sign and any number of leading zeros, against a limit, and the first thing wrong from the
left decides the fault: a character that is no digit, or the digit that passes the limit. A cut at a
separator loses exactly the separator; the first cut leaves none on its left, the last cut none on its
right. -/

namespace LabelTunnel

namespace Numeral

def digits (n : Nat) : List Char := Nat.toDigits 10 n

def text (n : Nat) : String := String.ofList (digits n)

inductive Fault where
  | empty
  | badDigit
  | tooLarge
  | tooSmall
  deriving DecidableEq

def Fault.message : Fault → String
  | .empty => "cannot parse integer from empty string"
  | .badDigit => "invalid digit found in string"
  | .tooLarge => "number too large to fit in target type"
  | .tooSmall => "number too small to fit in target type"

/-- The digit that a character stands for, if it is one of the ten ASCII digits. -/
def digit? (c : Char) : Option Nat := if c.isDigit then some (c.toNat - '0'.toNat) else none

/-- Reads digits onto a value already read. The value stays within the limit; the digit that would
take it past the limit is reported as `beyond`. -/
def readDigits (limit : Nat) (beyond : Fault) (value : Nat) : List Char → Except Fault Nat
  | [] => .ok value
  | c :: rest =>
    match digit? c with
    | none => .error .badDigit
    | some d =>
      if 10 * value + d ≤ limit then readDigits limit beyond (10 * value + d) rest
      else .error beyond

def readNat (limit : Nat) : List Char → Except Fault Nat
  | [] => .error .empty
  | ['+'] => .error .badDigit
  | '+' :: rest => readDigits limit .tooLarge 0 rest
  | cs => readDigits limit .tooLarge 0 cs

/-- Reads a signed number of 64 bits. -/
def readInt : List Char → Except Fault Int
  | [] => .error .empty
  | ['+'] => .error .badDigit
  | ['-'] => .error .badDigit
  | '+' :: rest => (readDigits 0x7FFFFFFFFFFFFFFF .tooLarge 0 rest).map Int.ofNat
  | '-' :: rest => (readDigits 0x8000000000000000 .tooSmall 0 rest).map fun n => -Int.ofNat n
  | cs => (readDigits 0x7FFFFFFFFFFFFFFF .tooLarge 0 cs).map Int.ofNat

end Numeral

namespace Split

variable (separator : Char)

def atFirst? : List Char → Option (List Char × List Char)
  | [] => none
  | c :: rest =>
    if c = separator then some ([], rest) else (atFirst? rest).map fun p => (c :: p.1, p.2)

def atLast? : List Char → Option (List Char × List Char)
  | [] => none
  | c :: rest =>
    match atLast? rest with
    | some p => some (c :: p.1, p.2)
    | none => if c = separator then some ([], rest) else none

theorem atFirst?_eq_some {s left right : List Char} (h : atFirst? separator s = some (left, right)) :
    s = left ++ separator :: right ∧ separator ∉ left := by
  induction s generalizing left with
  | nil => simp [atFirst?] at h
  | cons c rest ih =>
    rw [atFirst?] at h
    split at h
    · rename_i hc
      simp only [Option.some.injEq, Prod.mk.injEq] at h
      simp [← h.1, ← h.2, hc]
    · rename_i hc
      obtain ⟨p, hp, heq⟩ := Option.map_eq_some_iff.1 h
      simp only [Prod.mk.injEq] at heq
      have hrest : atFirst? separator rest = some (p.1, right) := by rw [hp, ← heq.2]
      obtain ⟨hs, hmem⟩ := ih hrest
      rw [← heq.1]
      exact ⟨by simp [← hs], by simpa [hmem] using fun h => hc h.symm⟩

end Split

end LabelTunnel
