import LabelTunnel.Fault
import LabelTunnel.Proofs.Field

/-! Guarded reading. A guarded read of an octet string gives nothing if it reaches past the end, and a
computation made of such reads gives nothing as soon as one of them does. So a reader that always gives
its result is one that never reads out of range. -/

namespace LabelTunnel

namespace Octets

variable {data : Octets} {start stop offset : Nat}

def byteAt? (data : Octets) (offset : Nat) : Option UInt8 := data[offset]?

def wordAt? (data : Octets) (offset : Nat) : Option UInt16 := do
  return word (← data.byteAt? offset) (← data.byteAt? (offset + 1))

def addressAt? (data : Octets) (offset : Nat) : Option Address := do
  return ⟨← data.byteAt? offset, ← data.byteAt? (offset + 1), ← data.byteAt? (offset + 2),
    ← data.byteAt? (offset + 3)⟩

def slice? (data : Octets) (start stop : Nat) : Option Octets :=
  if start ≤ stop ∧ stop ≤ data.length then some (data.slice start stop) else none

def drop? (data : Octets) (start : Nat) : Option Octets :=
  if start ≤ data.length then some (data.drop start) else none

theorem byteAt?_of_lt (h : offset < data.length) : data.byteAt? offset = some (data.byteAt offset) := by
  rw [byteAt?, byteAt_eq_getElem h, List.getElem?_eq_getElem h]

theorem wordAt?_of_le (h : offset + 2 ≤ data.length) : data.wordAt? offset = some (data.wordAt offset) := by
  rw [wordAt?, byteAt?_of_lt (by omega), byteAt?_of_lt (by omega)]
  rfl

theorem addressAt?_of_le (h : offset + 4 ≤ data.length) :
    data.addressAt? offset = some (.ofOctetsAt data offset) := by
  rw [addressAt?, byteAt?_of_lt (by omega), byteAt?_of_lt (by omega), byteAt?_of_lt (by omega),
    byteAt?_of_lt (by omega)]
  rfl

theorem slice?_of_le (h : start ≤ stop) (h' : stop ≤ data.length) :
    data.slice? start stop = some (data.slice start stop) := if_pos ⟨h, h'⟩

theorem drop?_of_le (h : start ≤ data.length) : data.drop? start = some (data.drop start) := if_pos h

end Octets

/-- A computation that can fail with a fault, and that gives nothing at all after a read out of range. -/
abbrev Guarded (α : Type) : Type := ExceptT Fault Option α

namespace Guarded

variable {α β : Type}

/-- The computation reads nothing out of range, and this is its result. -/
def Gives (x : Guarded α) (result : Except Fault α) : Prop := x.run = some result

theorem gives_pure (a : α) : (pure a : Guarded α).Gives (.ok a) := rfl

theorem gives_throw (fault : Fault) : (throw fault : Guarded α).Gives (.error fault) := rfl

theorem gives_lift {read : Option α} {a : α} (h : read = some a) : (liftM read : Guarded α).Gives (.ok a) := by
  rw [h]
  rfl

/-- Guarded computations follow one another as the computations that they guard. -/
theorem Gives.bind {x : Guarded α} {result : Except Fault α} {f : α → Guarded β} {g : α → Except Fault β}
    (h : x.Gives result) (hf : ∀ a, result = .ok a → (f a).Gives (g a)) : (x >>= f).Gives (result >>= g) := by
  rw [Gives, ExceptT.run_bind, h]
  cases result with
  | error fault => rfl
  | ok a => exact hf a rfl

/-- What has a result goes on with that result. -/
theorem Gives.andThen {x : Guarded α} {a : α} {f : α → Guarded β} {result : Except Fault β}
    (h : x.Gives (.ok a)) (hf : (f a).Gives result) : (x >>= f).Gives result :=
  h.bind (g := fun _ => result) fun _ heq => Except.ok.inj heq ▸ hf

/-- A read in range goes on with what is read. -/
theorem Gives.read {read : Option α} {a : α} {f : α → Guarded β} {result : Except Fault β} (h : read = some a)
    (hf : (f a).Gives result) : ((liftM read : Guarded α) >>= f).Gives result :=
  (gives_lift h).andThen hf

/-- A check lets the computation go on, or ends it with its fault. -/
theorem Gives.check {p : Prop} [Decidable p] {fault : Fault} {x : Guarded α} {result : Except Fault α}
    (h : ¬p → x.Gives result) :
    (do if p then throw fault
        x : Guarded α).Gives (if p then .error fault else result) := by
  by_cases hp : p
  · rw [if_pos hp, if_pos hp]
    rfl
  · rw [if_neg hp, if_neg hp]
    exact h hp

end Guarded

end LabelTunnel
