import LabelTunnel.Proofs.WordSum

/-! The checksum as an exact function of its word sum. With every addition checked the accumulator still
gives its result, up to 131072 octets of data, and folding that result takes two rounds at most. What is
left after folding is the one number that stands for the sum in ones' complement, and the checksum is its
complement, for plain data and for data under a pseudo-header alike. -/

namespace LabelTunnel.Checksum

/-! ### Checked accumulation -/

/-- The sum of two numbers of 32 bits, or nothing if it does not fit. -/
def add? (a b : UInt32) : Option UInt32 :=
  if a.toNat + b.toNat < 4294967296 then some (a + b) else none

/-- Adds the words of the data onto a sum, and gives nothing as soon as one addition does not fit. -/
def addWords? (sum : UInt32) : Octets → Option UInt32
  | high :: low :: rest => (add? sum (Octets.word high low).toUInt32).bind (addWords? · rest)
  | [high] => add? sum (Octets.word high 0).toUInt32
  | [] => some sum

theorem add?_eq_some_iff {a b c : UInt32} : add? a b = some c ↔ c.toNat = a.toNat + b.toNat := by
  have hc := c.toNat_lt
  have hadd : (a + b).toNat = (a.toNat + b.toNat) % 4294967296 := UInt32.toNat_add a b
  rw [add?]
  split
  · rw [Option.some.injEq, ← UInt32.toNat_inj, hadd]
    omega
  · simp only [reduceCtorEq, false_iff]
    omega

/-- The checked accumulator succeeds exactly with the exact sum: where the whole sum fits, so does every
addition on the way. -/
theorem addWords?_eq_some_iff {sum total : UInt32} {data : Octets} :
    addWords? sum data = some total ↔ total.toNat = sum.toNat + wordSum data := by
  induction data using wordSum.induct generalizing sum with
  | case1 high low rest ih =>
      simp only [addWords?, Option.bind_eq_some_iff, add?_eq_some_iff, ih, wordSum, UInt16.toNat_toUInt32]
      constructor
      · rintro ⟨next, hnext, htotal⟩
        rw [htotal, hnext, Nat.add_assoc]
      · intro htotal
        have hlt := total.toNat_lt
        refine ⟨sum + (Octets.word high low).toUInt32, ?_, ?_⟩
        all_goals
          rw [UInt32.toNat_add, UInt16.toNat_toUInt32, Nat.mod_eq_of_lt (by omega)]
        omega
  | case2 high => rw [addWords?, add?_eq_some_iff, wordSum, UInt16.toNat_toUInt32]
  | case3 => rw [addWords?, wordSum, Option.some.injEq, ← UInt32.toNat_inj, Nat.add_zero, eq_comm]

theorem addWords?_eq_some {sum : UInt32} {data : Octets} (h : sum.toNat + wordSum data < 4294967296) :
    addWords? sum data = some (addWords sum data) :=
  addWords?_eq_some_iff.2 (toNat_addWords h)

/-! ### Rounds of folding -/

/-- One round: the carries are added onto the low word. -/
def foldRound (sum : UInt32) : UInt32 := sum % 65536 + sum / 65536

/-- The loop that folds a sum goes round this often before it ends with this result. -/
inductive FoldsTo : UInt32 → Nat → UInt32 → Prop
  | done {sum : UInt32} (h : sum < 65536) : FoldsTo sum 0 sum
  | round {sum result : UInt32} {rounds : Nat} (h : ¬sum < 65536)
      (next : FoldsTo (foldRound sum) rounds result) : FoldsTo sum (rounds + 1) result

theorem FoldsTo.eq_fold {sum result : UInt32} {rounds : Nat} (h : FoldsTo sum rounds result) :
    result = fold sum := by
  induction h with
  | done h => rw [fold, if_pos h]
  | @round sum result rounds h next ih => rw [ih, fold.eq_def sum, if_neg h, foldRound]

theorem toNat_foldRound (sum : UInt32) :
    (foldRound sum).toNat = sum.toNat % 65536 + sum.toNat / 65536 := by
  have := sum.toNat_lt
  simp only [foldRound, UInt32.toNat_add, UInt32.toNat_mod, UInt32.toNat_div, UInt32.reduceToNat]
  exact Nat.mod_eq_of_lt (by omega)

/-- The first round leaves at most one carry, so the second leaves none. -/
theorem foldRound_foldRound_lt (sum : UInt32) : foldRound (foldRound sum) < 65536 := by
  have := sum.toNat_lt
  simp only [UInt32.lt_iff_toNat_lt, toNat_foldRound, UInt32.reduceToNat]
  omega

theorem exists_foldsTo (sum : UInt32) : ∃ rounds ≤ 2, FoldsTo sum rounds (fold sum) := by
  suffices h : ∃ rounds ≤ 2, ∃ result, FoldsTo sum rounds result by
    obtain ⟨rounds, hle, result, hfolds⟩ := h
    exact ⟨rounds, hle, hfolds.eq_fold ▸ hfolds⟩
  by_cases hsum : sum < 65536
  · exact ⟨0, by decide, sum, .done hsum⟩
  by_cases hround : foldRound sum < 65536
  · exact ⟨1, by decide, foldRound sum, .round hsum (.done hround)⟩
  · exact ⟨2, by decide, _, .round hsum (.round hround (.done (foldRound_foldRound_lt sum)))⟩

/-! ### The number that stands for a sum -/

/-- In ones' complement of 16 bits a sum of 0 is 0, and any other sum is the number from 1 to 65535 that
is congruent to it modulo 65535. -/
structure Represents (r sum : Nat) : Prop where
  zero : sum = 0 → r = 0
  positive : sum ≠ 0 → 1 ≤ r
  le : r ≤ 65535
  congruent : r % 65535 = sum % 65535

theorem represents_iff {r sum : Nat} : Represents r sum ↔ r = residue sum := by
  rw [residue]
  constructor
  · rintro ⟨hzero, hpositive, hle, hcongruent⟩
    split <;> omega
  · rintro rfl
    constructor <;> split <;> omega

/-- A checksum was formed from a sum without loss: the checked accumulator gives what the unchecked one
holds, which is the sum in full, folding it takes two rounds at most, and the checksum is the complement of
the one number that stands for the sum. -/
structure Lossless (checked : Option UInt32) (total : UInt32) (sum : Nat) (checksum : UInt16) : Prop where
  checked_eq : checked = some total
  toNat_eq : total.toNat = sum
  rounds : ∃ rounds ≤ 2, FoldsTo total rounds (fold total)
  complement : ∀ r, Represents r sum ↔ checksum.toNat = 65535 - r ∧ r ≤ 65535

theorem lossless_ofSum {checked : Option UInt32} {total : UInt32} {sum : Nat} (hchecked : checked = some total)
    (hsum : total.toNat = sum) : Lossless checked total sum (ofSum total) := by
  refine ⟨hchecked, hsum, exists_foldsTo total, ?_⟩
  intro r
  have := residue_lt sum
  rw [represents_iff, toNat_ofSum, hsum]
  omega

theorem lossless_compute {data : Octets} (h : data.length ≤ 131072) :
    Lossless (addWords? 0 data) (addWords 0 data) (wordSum data) (compute data) := by
  have hsum : (0 : UInt32).toNat + wordSum data = wordSum data := Nat.zero_add _
  have hlt := wordSum_lt h
  rw [← hsum] at hlt
  exact lossless_ofSum (addWords?_eq_some hlt) ((toNat_addWords hlt).trans hsum)

/-! ### Under a pseudo-header -/

/-- The words of a pseudo-header: two addresses, the protocol and the low 16 bits of the length. -/
def pseudoSum (source destination : Address) (protocol : UInt8) (length : Nat) : Nat :=
  wordSum source.octets + wordSum destination.octets + protocol.toNat + length % 65536

theorem wordSum_pseudoHeader (source destination : Address) (protocol : UInt8) (length : Nat) :
    wordSum (pseudoHeader source destination protocol length) =
      pseudoSum source destination protocol length := by
  have hprotocol : wordSum [0, protocol] = protocol.toNat := by
    rw [wordSum, wordSum, Octets.toNat_word, UInt8.toNat_zero]
    omega
  have hlength : length.toUInt16.toNat = length % 65536 := UInt16.toNat_ofNat'
  rw [pseudoHeader, wordSum_append (by simp), wordSum_append (by simp), wordSum_append (by simp), hprotocol,
    wordSum_ofWord, hlength, pseudoSum]

theorem toNat_computeTransport (source destination : Address) (protocol : UInt8) {data : Octets}
    (h : 12 + data.length ≤ 131072) : (computeTransport source destination protocol data).toNat =
      65535 - residue (pseudoSum source destination protocol data.length + wordSum data) := by
  rw [computeTransport_eq_compute, toNat_compute (by rwa [List.length_append, length_pseudoHeader]),
    wordSum_append (by rw [length_pseudoHeader]), wordSum_pseudoHeader]

/-- Data under a pseudo-header is summed up in two goes, and the sum is that of both. -/
theorem lossless_computeTransport (source destination : Address) (protocol : UInt8) {data : Octets}
    (h : 12 + data.length ≤ 131072) :
    Lossless ((addWords? 0 (pseudoHeader source destination protocol data.length)).bind (addWords? · data))
      (addWords (addWords 0 (pseudoHeader source destination protocol data.length)) data)
      (pseudoSum source destination protocol data.length + wordSum data)
      (computeTransport source destination protocol data) := by
  have hlength : (pseudoHeader source destination protocol data.length ++ data).length ≤ 131072 := by
    rwa [List.length_append, length_pseudoHeader]
  have hlt := wordSum_lt hlength
  rw [wordSum_append (by rw [length_pseudoHeader])] at hlt
  rw [← wordSum_pseudoHeader, computeTransport]
  generalize pseudoHeader source destination protocol data.length = front at hlt ⊢
  have hzero : (0 : UInt32).toNat + wordSum front = wordSum front := Nat.zero_add _
  have hfront : (addWords 0 front).toNat = wordSum front := by
    rw [toNat_addWords (by omega), hzero]
  apply lossless_ofSum
  · rw [addWords?_eq_some (by omega), Option.bind_some, addWords?_eq_some (by omega)]
  · rw [toNat_addWords (by omega), hfront]

/-! ### The two ends of the range -/

theorem wordSum_eq_zero_iff {data : Octets} : wordSum data = 0 ↔ ∀ octet ∈ data, octet = 0 := by
  have hword (high low : UInt8) : (Octets.word high low).toNat = 0 ↔ high = 0 ∧ low = 0 := by
    rw [← Octets.word_eq_zero_iff, ← UInt16.toNat_inj, UInt16.toNat_zero]
  induction data using wordSum.induct with
  | case1 high low rest ih =>
      simp only [wordSum, Nat.add_eq_zero_iff, ih, hword, List.forall_mem_cons, and_assoc]
  | case2 high => simp only [wordSum, hword, and_true, List.forall_mem_singleton]
  | case3 => simp [wordSum]

/-- All ones come out for data of zeros and for no other. -/
theorem compute_eq_ones_iff {data : Octets} (h : data.length ≤ 131072) :
    compute data = 0xFFFF ↔ ∀ octet ∈ data, octet = 0 := by
  have := residue_lt (wordSum data)
  have hresidue : residue (wordSum data) = 0 ↔ wordSum data = 0 := by
    rw [residue]
    split <;> omega
  rw [← wordSum_eq_zero_iff, ← hresidue, ← UInt16.toNat_inj, toNat_compute h]
  simp only [UInt16.reduceToNat]
  omega

/-- **The checksum in exact arithmetic.** Within 131072 octets, those of a pseudo-header included, nothing
is lost on the way to the checksum, all ones stand for zeros alone, and intact is what sums to a multiple
of 65535. -/
theorem lossless_of_length_le (data : Octets) (source destination : Address) (protocol : UInt8) :
    (data.length ≤ 131072 →
      Lossless (addWords? 0 data) (addWords 0 data) (wordSum data) (compute data) ∧
      (compute data = 0xFFFF ↔ ∀ octet ∈ data, octet = 0) ∧
      (verify data = true ↔ 65535 ∣ wordSum data)) ∧
    (12 + data.length ≤ 131072 →
      Lossless ((addWords? 0 (pseudoHeader source destination protocol data.length)).bind (addWords? · data))
        (addWords (addWords 0 (pseudoHeader source destination protocol data.length)) data)
        (pseudoSum source destination protocol data.length + wordSum data)
        (computeTransport source destination protocol data)) := by
  refine ⟨?_, lossless_computeTransport source destination protocol⟩
  intro h
  refine ⟨lossless_compute h, compute_eq_ones_iff h, ?_⟩
  rw [verify_iff h, Nat.dvd_iff_mod_eq_zero]

/-- The most octets that fit behind a pseudo-header, all ones: the sum is 131065 short of 32 bits. -/
def longestOnes : Octets := List.replicate 131060 0xFF

theorem lossless_of_length_le_ones :
    longestOnes.length ≤ 131072 ∧ 12 + longestOnes.length ≤ 131072 ∧
    Lossless (addWords? 0 longestOnes) (addWords 0 longestOnes) (wordSum longestOnes) (compute longestOnes) ∧
    (compute longestOnes = 0xFFFF ↔ ∀ octet ∈ longestOnes, octet = 0) ∧
    (verify longestOnes = true ↔ 65535 ∣ wordSum longestOnes) ∧
    Lossless
      ((addWords? 0 (pseudoHeader ⟨255, 255, 255, 255⟩ ⟨255, 255, 255, 255⟩ 17 longestOnes.length)).bind
        (addWords? · longestOnes))
      (addWords (addWords 0 (pseudoHeader ⟨255, 255, 255, 255⟩ ⟨255, 255, 255, 255⟩ 17 longestOnes.length))
        longestOnes)
      (pseudoSum ⟨255, 255, 255, 255⟩ ⟨255, 255, 255, 255⟩ 17 longestOnes.length + wordSum longestOnes)
      (computeTransport ⟨255, 255, 255, 255⟩ ⟨255, 255, 255, 255⟩ 17 longestOnes) := by
  have hlength : longestOnes.length = 131060 := List.length_replicate
  have hle : longestOnes.length ≤ 131072 := by omega
  have hle' : 12 + longestOnes.length ≤ 131072 := by omega
  obtain ⟨hplain, htransport⟩ :=
    lossless_of_length_le longestOnes ⟨255, 255, 255, 255⟩ ⟨255, 255, 255, 255⟩ 17
  obtain ⟨hlossless, hones, hverify⟩ := hplain hle
  exact ⟨hle, hle', hlossless, hones, hverify, htransport hle'⟩

end LabelTunnel.Checksum
