import LabelTunnel.Numeral

/-! The counters of an emission and its closing line. The counters have 64 bits and wrap around. The line
shows the time in seconds with one decimal: the number of seconds is first taken to the nearest binary
fraction of 53 bits, and the exact value of that fraction is rounded to tenths, a half going to the even
neighbour. -/

namespace LabelTunnel

structure Tally where
  cycles : UInt64 := 0
  /-- Packets that the transmitter took. -/
  packets : UInt64 := 0
  /-- Octets that the transmitter said it took. -/
  bytes : UInt64 := 0
  /-- Packets that the transmitter refused. -/
  errors : UInt64 := 0
  deriving DecidableEq

namespace Tally

def countCycle (t : Tally) : Tally := { t with cycles := t.cycles + 1 }

def countSent (t : Tally) (accepted : UInt64) : Tally :=
  { t with packets := t.packets + 1, bytes := t.bytes + accepted }

def countError (t : Tally) : Tally := { t with errors := t.errors + 1 }

end Tally

/-! ### The closing line -/

/-- A quotient rounded to the nearest natural, a half to the even neighbour. -/
def roundHalfEven (numerator denominator : Nat) : Nat :=
  let quotient := numerator / denominator
  let twice := 2 * (numerator % denominator)
  if twice < denominator ∨ (twice = denominator ∧ quotient % 2 = 0) then quotient else quotient + 1

structure Elapsed where
  seconds : UInt64 := 0
  nanos : UInt32 := 0
  deriving DecidableEq

namespace Elapsed

/-- The time in seconds, as the nearest binary fractions give it. -/
def toFloat (e : Elapsed) : Float := e.seconds.toFloat + e.nanos.toNat.toFloat / 1000000000

/-- A finite number that is not negative, in tenths. -/
def tenths (x : Float) : Nat :=
  let bits := x.toBits.toNat
  let exponent := bits / 0x10000000000000
  let fraction := bits % 0x10000000000000
  if exponent = 0 then roundHalfEven (10 * fraction) (1 <<< 1074)
  else
    let significand := 0x10000000000000 + fraction
    roundHalfEven ((10 * significand) <<< (exponent - 1075)) (1 <<< (1075 - exponent))

def text (e : Elapsed) : String :=
  let n := tenths e.toFloat
  Numeral.text (n / 10) ++ "." ++ Numeral.text (n % 10)

end Elapsed

structure Report where
  tally : Tally := {}
  elapsed : Elapsed := {}
  deriving DecidableEq

def Report.text (r : Report) : String :=
  Numeral.text r.tally.cycles.toNat ++ " cycles, " ++ Numeral.text r.tally.packets.toNat ++
    " packets, " ++ Numeral.text r.tally.bytes.toNat ++ " bytes, " ++
    Numeral.text r.tally.errors.toNat ++ " errors in " ++ r.elapsed.text ++ "s"

end LabelTunnel
