import LabelTunnel.Checksum
import LabelTunnel.Proofs.Field

/-! The internet checksum as arithmetic modulo 65535. Up to 131072 octets the 32-bit sum is the sum of
the words in full, folding takes it to its representative between 1 and 65535 (or to 0, from 0 alone),
and the checksum is the complement of that. So data is intact exactly when its words sum to a multiple
of 65535, and a checksum field makes it so exactly when it agrees modulo 65535 with the checksum
computed over a cleared field. -/

namespace LabelTunnel.Checksum

/-- The sum of the big-endian words, an odd last octet being the high half of a word. -/
def wordSum : Octets → Nat
  | high :: low :: rest => (Octets.word high low).toNat + wordSum rest
  | [high] => (Octets.word high 0).toNat
  | [] => 0

/-- The representative of a sum that folding ends with. -/
def residue (sum : Nat) : Nat := if sum = 0 then 0 else (sum - 1) % 65535 + 1

@[simp] theorem wordSum_ofWord (w : UInt16) : wordSum (Octets.ofWord w) = w.toNat := by
  rw [Octets.ofWord, wordSum, wordSum, Octets.word_ofWord, Nat.add_zero]

theorem wordSum_append {front : Octets} (heven : front.length % 2 = 0) (rest : Octets) :
    wordSum (front ++ rest) = wordSum front + wordSum rest := by
  induction front using wordSum.induct with
  | case1 high low front ih =>
      simp only [List.length_cons] at heven
      simp only [List.cons_append, wordSum, ih (by omega), Nat.add_assoc]
  | case2 high => simp at heven
  | case3 => simp [wordSum]

@[simp] theorem wordSum_ofWord_append (w : UInt16) (rest : Octets) :
    wordSum (Octets.ofWord w ++ rest) = w.toNat + wordSum rest := by
  rw [wordSum_append (by rw [Octets.length_ofWord]), wordSum_ofWord]

theorem wordSum_le (data : Octets) : 2 * wordSum data ≤ 65535 * (data.length + 1) := by
  induction data using wordSum.induct with
  | case1 high low rest ih =>
      have := (Octets.word high low).toNat_lt
      simp only [wordSum, List.length_cons]
      omega
  | case2 high =>
      have := (Octets.word high 0).toNat_lt
      simp only [wordSum, List.length_singleton]
      omega
  | case3 => simp [wordSum]

theorem wordSum_lt {data : Octets} (h : data.length ≤ 131072) : wordSum data < 4294967296 := by
  have := wordSum_le data
  omega

/-! ### The accumulator -/

theorem addWords_append {front : Octets} (heven : front.length % 2 = 0) (sum : UInt32) (rest : Octets) :
    addWords sum (front ++ rest) = addWords (addWords sum front) rest := by
  induction sum, front using addWords.induct with
  | case1 sum high low front ih =>
      simp only [List.length_cons] at heven
      simp only [List.cons_append, addWords, ih (by omega)]
  | case2 sum high => simp at heven
  | case3 sum => rfl

theorem toNat_addWords {sum : UInt32} {data : Octets} (h : sum.toNat + wordSum data < 4294967296) :
    (addWords sum data).toNat = sum.toNat + wordSum data := by
  induction sum, data using addWords.induct with
  | case1 sum high low rest ih =>
      have hstep : (sum + (Octets.word high low).toUInt32).toNat =
          sum.toNat + (Octets.word high low).toNat := by
        rw [wordSum] at h
        rw [UInt32.toNat_add, UInt16.toNat_toUInt32, Nat.mod_eq_of_lt (by omega)]
      rw [wordSum, ← Nat.add_assoc, ← hstep] at h ⊢
      rw [addWords, ih h]
  | case2 sum high =>
      rw [wordSum] at h ⊢
      rw [addWords, UInt32.toNat_add, UInt16.toNat_toUInt32, Nat.mod_eq_of_lt h]
  | case3 sum => rfl

theorem toNat_fold (sum : UInt32) : (fold sum).toNat = residue sum.toNat := by
  induction sum using fold.induct with
  | case1 sum h =>
      have hlt : sum.toNat < 65536 := h
      rw [fold, if_pos h, residue]
      split <;> omega
  | case2 sum h ih =>
      have hle : 65536 ≤ sum.toNat := Nat.le_of_not_lt h
      have := sum.toNat_lt
      have hstep : (sum % 65536 + sum / 65536).toNat = sum.toNat % 65536 + sum.toNat / 65536 := by
        simp only [UInt32.toNat_add, UInt32.toNat_mod, UInt32.toNat_div, UInt32.reduceToNat]
        exact Nat.mod_eq_of_lt (by omega)
      rw [fold, if_neg h, ih, hstep, residue, residue, if_neg (by omega), if_neg (by omega)]
      omega

theorem residue_lt (sum : Nat) : residue sum < 65536 := by
  unfold residue
  split <;> omega

theorem residue_mod (sum : Nat) : residue sum % 65535 = sum % 65535 := by
  unfold residue
  split <;> omega

theorem toNat_ofSum (sum : UInt32) : (ofSum sum).toNat = 65535 - residue sum.toNat := by
  have := residue_lt sum.toNat
  rw [ofSum, UInt16.toNat_not, UInt32.toNat_toUInt16, toNat_fold, Nat.mod_eq_of_lt (by omega)]
  rfl

/-! ### Intact data -/

/-- The checksum is the complement of the representative of the word sum. -/
theorem toNat_compute {data : Octets} (h : data.length ≤ 131072) :
    (compute data).toNat = 65535 - residue (wordSum data) := by
  have hsum : (0 : UInt32).toNat + wordSum data = wordSum data := Nat.zero_add _
  rw [compute, toNat_ofSum, toNat_addWords (hsum.symm ▸ wordSum_lt h), hsum]

@[simp] theorem length_pseudoHeader (source destination : Address) (protocol : UInt8) (length : Nat) :
    (pseudoHeader source destination protocol length).length = 12 := rfl

/-- The pseudo-header is covered as if it stood before the data. -/
theorem computeTransport_eq_compute (source destination : Address) (protocol : UInt8) (data : Octets) :
    computeTransport source destination protocol data =
      compute (pseudoHeader source destination protocol data.length ++ data) := by
  rw [computeTransport, compute, addWords_append (by rw [length_pseudoHeader])]

theorem isZero_iff (checksum : UInt16) : isZero checksum = true ↔ checksum.toNat % 65535 = 0 := by
  have := checksum.toNat_lt
  simp only [isZero, Bool.or_eq_true, beq_iff_eq, ← UInt16.toNat_inj, UInt16.reduceToNat]
  omega

theorem verify_iff {data : Octets} (h : data.length ≤ 131072) :
    verify data = true ↔ wordSum data % 65535 = 0 := by
  have := residue_lt (wordSum data)
  have := residue_mod (wordSum data)
  rw [verify, isZero_iff, toNat_compute h]
  omega

/-- A word at an even offset is a summand of its own. -/
theorem wordSum_setWord {data : Octets} {offset : Nat} (heven : offset % 2 = 0)
    (hfit : offset + 2 ≤ data.length) (w : UInt16) : wordSum (data.setWord offset w) =
      w.toNat + (wordSum (data.take offset) + wordSum (data.drop (offset + 2))) := by
  have hfront : (data.take offset).length % 2 = 0 := by
    rw [List.length_take_of_le (by omega), heven]
  rw [Octets.setWord_eq_append hfit, wordSum_append hfront, wordSum_ofWord_append]
  omega

theorem wordSum_setWord_add {data : Octets} {offset : Nat} (heven : offset % 2 = 0)
    (hfit : offset + 2 ≤ data.length) (w : UInt16) :
    wordSum (data.setWord offset w) + (data.wordAt offset).toNat = wordSum data + w.toNat := by
  have hself := wordSum_setWord heven hfit (data.wordAt offset)
  rw [Octets.setWord_wordAt hfit] at hself
  rw [wordSum_setWord heven hfit, hself]
  omega

/-- An octet that stands alone at the end is the high half of the last word. -/
theorem wordSum_last {data : Octets} {offset : Nat} (heven : offset % 2 = 0)
    (hlast : data.length = offset + 1) :
    wordSum data = wordSum (data.take offset) + (Octets.word (data.byteAt offset) 0).toNat := by
  have hfront : (data.take offset).length % 2 = 0 := by
    rw [List.length_take_of_le (by omega), heven]
  have hdrop : data.drop offset = [data.byteAt offset] := by
    rw [Octets.drop_eq_byteAt_cons (by omega), List.drop_of_length_le (by omega)]
  calc wordSum data
      = wordSum (data.take offset ++ data.drop offset) := by rw [List.take_append_drop]
    _ = wordSum (data.take offset) + wordSum [data.byteAt offset] := by rw [wordSum_append hfront, hdrop]

theorem wordSum_clearWord {data : Octets} {offset : Nat} (heven : offset % 2 = 0)
    (hfit : offset + 2 ≤ data.length) :
    wordSum data = (data.wordAt offset).toNat + wordSum (data.clearWord offset) := by
  have hsum := wordSum_setWord_add heven hfit 0
  rw [UInt16.toNat_zero, Nat.add_zero] at hsum
  rw [Octets.clearWord_eq_setWord, ← hsum, Nat.add_comm]

/-- A field at an even offset makes the data intact exactly when it agrees, modulo 65535, with the
checksum computed while it is clear. -/
theorem verify_iff_wordAt {data : Octets} {offset : Nat} (heven : offset % 2 = 0)
    (hfit : offset + 2 ≤ data.length) (h : data.length ≤ 131072) :
    verify data = true ↔
      (data.wordAt offset).toNat % 65535 = (compute (data.clearWord offset)).toNat % 65535 := by
  have hsum := wordSum_clearWord heven hfit
  have := residue_lt (wordSum (data.clearWord offset))
  have := residue_mod (wordSum (data.clearWord offset))
  rw [verify_iff h, toNat_compute (by rwa [Octets.length_clearWord]), hsum]
  omega

theorem verify_of_wordAt_eq {data : Octets} {offset : Nat} (heven : offset % 2 = 0)
    (hfit : offset + 2 ≤ data.length) (h : data.length ≤ 131072)
    (hfield : data.wordAt offset = compute (data.clearWord offset)) : verify data = true := by
  rw [verify_iff_wordAt heven hfit h, hfield]

end LabelTunnel.Checksum
