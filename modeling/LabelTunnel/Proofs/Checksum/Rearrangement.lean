import LabelTunnel.Layer.User
import LabelTunnel.Proofs.Checksum.Accumulation

/-! What the checksum does not see. It depends on the data through the sum of the words alone, so words may
change places and zeros may follow the last of them. A pseudo-header is summed up like so many words in
front of the data, and the two addresses in it are among the words that can change places: from the
checksum nobody can tell the sender of a datagram from its receiver. -/

namespace LabelTunnel

namespace Octets

/-- The words of a string in their order. An odd last octet is the high half of a word. -/
def words : Octets → List UInt16
  | high :: low :: rest => word high low :: words rest
  | [high] => [word high 0]
  | [] => []

def ofWords (words : List UInt16) : Octets := words.flatMap ofWord

/-- A string of whole words is made up of its words. -/
theorem ofWords_words {data : Octets} (heven : data.length % 2 = 0) : ofWords data.words = data := by
  induction data using words.induct with
  | case1 high low rest ih =>
      simp only [List.length_cons] at heven
      have hrest : ofWords (words rest) = rest := ih (by omega)
      rw [words, ofWords, List.flatMap_cons, ← ofWords, hrest, ofWord_word]
      rfl
  | case2 high => simp at heven
  | case3 => rfl

/-- The octets that follow `position` others, with a zero in front of them if a word is cut there: the first
of them is the low half of that word then. -/
def fromPosition (position : Nat) (rest : Octets) : Octets := List.replicate (position % 2) 0 ++ rest

end Octets

namespace Checksum

theorem wordSum_ofWords_cons (w : UInt16) (words : List UInt16) :
    wordSum (Octets.ofWords (w :: words)) = w.toNat + wordSum (Octets.ofWords words) := by
  rw [Octets.ofWords, List.flatMap_cons, wordSum_ofWord_append, Octets.ofWords]

theorem wordSum_ofWords_of_perm {words words' : List UInt16} (h : words.Perm words') :
    wordSum (Octets.ofWords words) = wordSum (Octets.ofWords words') := by
  induction h with
  | nil => rfl
  | cons w _ ih => rw [wordSum_ofWords_cons, wordSum_ofWords_cons, ih]
  | swap w w' words => simp only [wordSum_ofWords_cons, Nat.add_left_comm]
  | trans _ _ ih ih' => rw [ih, ih']

/-- A string may be cut anywhere: its sum is that of the front and that of what follows, where a cut word
counts half on either side. -/
theorem wordSum_append_fromPosition (front rest : Octets) :
    wordSum (front ++ rest) = wordSum front + wordSum (Octets.fromPosition front.length rest) := by
  induction front using wordSum.induct with
  | case1 high low front ih =>
      have hposition : (high :: low :: front).length % 2 = front.length % 2 := by
        simp only [List.length_cons]
        omega
      rw [Octets.fromPosition] at ih ⊢
      rw [List.cons_append, List.cons_append, wordSum, wordSum, ih, hposition, Nat.add_assoc]
  | case2 high =>
      cases rest with
      | nil => rfl
      | cons low rest =>
          have hcut : (Octets.word high low).toNat =
              (Octets.word high 0).toNat + (Octets.word 0 low).toNat := by
            simp only [Octets.toNat_word, UInt8.toNat_zero]
            omega
          show (Octets.word high low).toNat + wordSum rest =
            (Octets.word high 0).toNat + ((Octets.word 0 low).toNat + wordSum rest)
          rw [hcut, Nat.add_assoc]
  | case3 => exact (Nat.zero_add _).symm

theorem wordSum_fromPosition_eq_zero {rest : Octets} (h : ∀ octet ∈ rest, octet = 0) (position : Nat) :
    wordSum (Octets.fromPosition position rest) = 0 := by
  rw [wordSum_eq_zero_iff, Octets.fromPosition]
  intro octet hmem
  rcases List.mem_append.1 hmem with hcut | hrest
  · exact List.eq_of_mem_replicate hcut
  · exact h octet hrest

theorem wordSum_append_zeros (data : Octets) (count : Nat) :
    wordSum (data ++ List.replicate count 0) = wordSum data := by
  rw [wordSum_append_fromPosition, wordSum_fromPosition_eq_zero, Nat.add_zero]
  exact fun octet hmem => List.eq_of_mem_replicate hmem

/-! ### The sum decides -/

/-- Additions in 32 bits come to the sum in 32 bits, however far it reaches. -/
theorem addWords_eq_add (sum : UInt32) (data : Octets) : addWords sum data = sum + UInt32.ofNat (wordSum data) := by
  have hword (w : UInt16) : w.toUInt32 = UInt32.ofNat w.toNat := by
    rw [← UInt32.toNat_inj, UInt16.toNat_toUInt32, UInt32.toNat_ofNat', Nat.mod_eq_of_lt]
    exact Nat.lt_trans w.toNat_lt (by decide)
  induction sum, data using addWords.induct with
  | case1 sum high low rest ih => rw [addWords, ih, wordSum, UInt32.ofNat_add, hword, UInt32.add_assoc]
  | case2 sum high => rw [addWords, wordSum, hword]
  | case3 sum => exact (UInt32.add_zero sum).symm

theorem compute_eq_of_wordSum_eq {data other : Octets} (h : wordSum data = wordSum other) :
    compute data = compute other := by
  rw [compute, compute, addWords_eq_add, addWords_eq_add, h]

theorem computeTransport_comm (source destination : Address) (protocol : UInt8) (data : Octets) :
    computeTransport source destination protocol data =
      computeTransport destination source protocol data := by
  rw [computeTransport_eq_compute, computeTransport_eq_compute]
  apply compute_eq_of_wordSum_eq
  rw [wordSum_append (by rw [length_pseudoHeader]), wordSum_append (by rw [length_pseudoHeader]),
    wordSum_pseudoHeader, wordSum_pseudoHeader, pseudoSum, pseudoSum,
    Nat.add_comm (wordSum source.octets)]

theorem compute_ofWords_of_perm {words : List UInt16} {data : Octets} (heven : data.length % 2 = 0)
    (h : words.Perm data.words) : compute (Octets.ofWords words) = compute data := by
  apply compute_eq_of_wordSum_eq
  calc wordSum (Octets.ofWords words)
      = wordSum (Octets.ofWords data.words) := wordSum_ofWords_of_perm h
    _ = wordSum data := by rw [Octets.ofWords_words heven]

/-- **What the checksum does not see.** A pseudo-header counts as twelve octets in front of the data. Data
has the same checksum with its words in any other order, and with zeros behind it; and the same between
two addresses as between these addresses exchanged, so that the check of a user datagram has the same
answer for both. -/
theorem compute_of_rearranged (source destination : Address) (protocol : UInt8) (data : Octets) :
    computeTransport source destination protocol data =
      compute (source.octets ++ destination.octets ++ [0, protocol] ++
        Octets.ofWord (data.length % 65536).toUInt16 ++ data) ∧
    (data.length % 2 = 0 → Octets.ofWords data.words = data ∧
      ∀ words, words.Perm data.words → compute (Octets.ofWords words) = compute data) ∧
    (∀ count, compute (data ++ List.replicate count 0) = compute data) ∧
    computeTransport source destination protocol data = computeTransport destination source protocol data ∧
    UserDatagram.verify data source destination = UserDatagram.verify data destination source := by
  have hlength : (data.length % 65536).toUInt16 = data.length.toUInt16 := UInt16.ofNat_mod_size
  refine ⟨?_, ?_, ?_, computeTransport_comm source destination protocol data, ?_⟩
  · rw [hlength, computeTransport_eq_compute, pseudoHeader]
  · intro heven
    exact ⟨Octets.ofWords_words heven, fun words h => compute_ofWords_of_perm heven h⟩
  · intro count
    exact compute_eq_of_wordSum_eq (wordSum_append_zeros data count)
  · rw [UserDatagram.verify, UserDatagram.verify, computeTransport_comm]

/-- Three words, of which the last one is all ones. -/
def sampleWords : Octets := [0x12, 0x34, 0xAB, 0xCD, 0xFF, 0xFF]

theorem compute_of_rearranged_sampleWords :
    sampleWords.length % 2 = 0 ∧ [0xFFFF, 0x1234, 0xABCD].Perm sampleWords.words ∧
    compute (Octets.ofWords [0xFFFF, 0x1234, 0xABCD]) = compute sampleWords ∧
    compute (sampleWords ++ List.replicate 3 0) = compute sampleWords ∧
    computeTransport ⟨10, 0, 0, 1⟩ ⟨10, 0, 0, 2⟩ 17 sampleWords =
      computeTransport ⟨10, 0, 0, 2⟩ ⟨10, 0, 0, 1⟩ 17 sampleWords := by
  have hperm : [0xFFFF, 0x1234, 0xABCD].Perm sampleWords.words := by decide
  obtain ⟨-, hwords, hzeros, hswap, -⟩ :=
    compute_of_rearranged ⟨10, 0, 0, 1⟩ ⟨10, 0, 0, 2⟩ 17 sampleWords
  exact ⟨rfl, hperm, (hwords rfl).2 _ hperm, hzeros 3, hswap⟩

end Checksum

end LabelTunnel
