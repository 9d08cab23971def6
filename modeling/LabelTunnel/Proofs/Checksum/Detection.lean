import LabelTunnel.Proofs.Checksum.Patch

/-! Changes that a checksum detects. Intact data in which one word is changed stays intact exactly if a zero
was exchanged for its twin, so no change of a single octet passes. The check of a user datagram detects as
much, in its own octets and in the addresses around it; what it cannot detect is a checksum field that is
cleared, since then nothing is checked. -/

namespace LabelTunnel

namespace Octets

/-! ### One word changed -/

/-- A word at an even offset is changed from `a` to `b`. A last octet that stands alone is the high half of
a word, whose low half is 0 before and after. -/
inductive WordChange (data : Octets) : Nat → UInt16 → UInt16 → Octets → Prop
  | whole {offset : Nat} (b : UInt16) (heven : offset % 2 = 0) (hfit : offset + 2 ≤ data.length) :
      WordChange data offset (data.wordAt offset) b (data.setWord offset b)
  | last {offset : Nat} (octet : UInt8) (heven : offset % 2 = 0) (hlast : data.length = offset + 1) :
      WordChange data offset (word (data.byteAt offset) 0) (word octet 0) (data.set offset octet)

namespace WordChange

variable {data changed front rest : Octets} {offset : Nat} {a b : UInt16}

theorem length_eq (h : data.WordChange offset a b changed) : changed.length = data.length := by
  cases h with
  | whole b heven hfit => exact length_setWord data offset b
  | last octet heven hlast => exact List.length_set

/-- The other words stay. -/
theorem wordAt_eq (h : data.WordChange offset a b changed) {k : Nat} (heven : k % 2 = 0) (hne : k ≠ offset) :
    changed.wordAt k = data.wordAt k := by
  apply wordAt_eq_of_byteAt <;> cases h with
  | whole b heven' hfit => rw [setWord, byteAt_set_of_ne (by omega), byteAt_set_of_ne (by omega)]
  | last octet heven' hlast => rw [byteAt_set_of_ne (by omega)]

/-- Behind a front of whole words the same word is changed. -/
theorem append_left (h : data.WordChange offset a b changed) (hfront : front.length % 2 = 0) :
    (front ++ data).WordChange (front.length + offset) a b (front ++ changed) := by
  have hbyte (k : Nat) : (front ++ data).byteAt (front.length + k) = data.byteAt k := by
    rw [← byteAt_drop, List.drop_left]
  have hset (data : Octets) (k : Nat) (octet : UInt8) :
      (front ++ data).set (front.length + k) octet = front ++ data.set k octet := by
    rw [List.set_append_right _ _ (Nat.le_add_right _ _), Nat.add_sub_cancel_left]
  cases h with
  | whole b heven hfit =>
      have hword : (front ++ data).wordAt (front.length + offset) = data.wordAt offset := by
        rw [wordAt, wordAt, hbyte, Nat.add_assoc, hbyte]
      rw [← hword, setWord, ← hset, ← hset, ← Nat.add_assoc]
      exact .whole b (by omega) (by rw [List.length_append]; omega)
  | last octet heven hlast =>
      rw [← hbyte, ← hset]
      exact .last octet (by omega) (by rw [List.length_append]; omega)

/-- In front of other octets the same word is changed, if the data has whole words only. -/
theorem append_right (h : data.WordChange offset a b changed) (hdata : data.length % 2 = 0) :
    (data ++ rest).WordChange offset a b (changed ++ rest) := by
  cases h with
  | whole b heven hfit =>
      have hword : (data ++ rest).wordAt offset = data.wordAt offset :=
        wordAt_eq_of_byteAt (byteAt_append_left (by omega)) (byteAt_append_left (by omega))
      have hset : (data ++ rest).setWord offset b = data.setWord offset b ++ rest := by
        rw [setWord, setWord, List.set_append_left _ _ (by omega),
          List.set_append_left _ _ (by rw [List.length_set]; omega)]
      rw [← hword, ← hset]
      exact .whole b heven (by rw [List.length_append]; omega)
  | last octet heven hlast => omega

end WordChange

/-- To change one octet is to change one word, of which the other octet stays. -/
theorem exists_wordChange_set {data : Octets} {i : Nat} {octet : UInt8} (h : i < data.length)
    (hne : octet ≠ data.byteAt i) : ∃ offset high low high' low',
      data.WordChange offset (word high low) (word high' low') (data.set i octet) ∧
      (high ≠ high' ∧ low = low' ∨ high = high' ∧ low ≠ low') := by
  rcases Nat.mod_two_eq_zero_or_one i with heven | hodd
  · by_cases hlast : data.length = i + 1
    · exact ⟨i, _, 0, octet, 0, .last octet heven hlast, .inl ⟨hne.symm, rfl⟩⟩
    have hset : data.set i octet = data.setWord i (word octet (data.byteAt (i + 1))) := by
      rw [setWord_word, ← byteAt_set_of_ne (Nat.ne_of_lt (Nat.lt_succ_self i)) octet, set_byteAt]
    rw [hset]
    exact ⟨i, _, _, _, _, .whole _ heven (by omega), .inl ⟨hne.symm, rfl⟩⟩
  · obtain ⟨offset, rfl⟩ : ∃ offset, i = offset + 1 := ⟨i - 1, by omega⟩
    have hset : data.set (offset + 1) octet = data.setWord offset (word (data.byteAt offset) octet) := by
      rw [setWord_word, set_byteAt]
    rw [hset]
    exact ⟨offset, _, _, _, _, .whole _ (by omega) (by omega), .inr ⟨rfl, hne.symm⟩⟩

end Octets

namespace Checksum

variable {data changed : Octets} {offset : Nat} {a b : UInt16}

theorem wordSum_wordChange (h : data.WordChange offset a b changed) :
    wordSum changed + a.toNat = wordSum data + b.toNat := by
  cases h with
  | whole b heven hfit => exact wordSum_setWord_add heven hfit b
  | last octet heven hlast =>
      have hlength : (data.set offset octet).length = offset + 1 := by rw [List.length_set, hlast]
      rw [wordSum_last heven hlength, wordSum_last heven hlast, List.take_set_of_le (Nat.le_refl _),
        Octets.byteAt_set_self (by omega)]
      omega

/-- Intact data stays intact exactly if the new word counts as the old one. -/
theorem verify_wordChange (hchange : data.WordChange offset a b changed) (h : data.length ≤ 131072)
    (hverify : verify data = true) : verify changed = true ↔ a = b ∨ TwinZeros a b := by
  have hsum := wordSum_wordChange hchange
  rw [verify_iff h] at hverify
  rw [verify_iff (hchange.length_eq ▸ h), ← toNat_mod_eq_iff]
  omega

/-- The two zeros differ in both octets. -/
theorem not_twinZeros_word {high low high' low' : UInt8} (h : high = high' ∨ low = low') :
    ¬TwinZeros (Octets.word high low) (Octets.word high' low') := by
  have := low.toNat_lt
  have := low'.toNat_lt
  simp only [TwinZeros, ← UInt16.toNat_inj, ← UInt8.toNat_inj, Octets.toNat_word, UInt16.reduceToNat] at h ⊢
  omega

theorem verify_set_eq_false {i : Nat} {octet : UInt8} (h : data.length ≤ 131072) (hverify : verify data = true)
    (hi : i < data.length) (hne : octet ≠ data.byteAt i) : verify (data.set i octet) = false := by
  obtain ⟨offset, high, low, high', low', hchange, hwords⟩ := Octets.exists_wordChange_set hi hne
  have hword : Octets.word high low ≠ Octets.word high' low' := by
    have := low.toNat_lt
    have := low'.toNat_lt
    simp only [ne_eq, ← UInt16.toNat_inj, ← UInt8.toNat_inj, Octets.toNat_word] at hwords ⊢
    omega
  have htwin : ¬TwinZeros (Octets.word high low) (Octets.word high' low') :=
    not_twinZeros_word (hwords.symm.imp And.left And.right)
  rw [Bool.eq_false_iff, ne_eq, verify_wordChange hchange h hverify]
  exact not_or.2 ⟨hword, htwin⟩

end Checksum

/-! ### User datagrams -/

namespace UserDatagram

variable {data changed : Octets} {source destination source' destination' : Address} {offset : Nat}
  {a b : UInt16}

theorem room_of_verify (h : verify data source destination = true) : headerSize ≤ data.length := by
  rw [verify, Bool.and_eq_true, decide_eq_true_eq] at h
  exact h.1

theorem verify_of_field_eq_zero (hroom : headerSize ≤ data.length) (hfield : data.wordAt 6 = 0) :
    verify data source destination = true := by
  rw [verify, decide_eq_true hroom, hfield]
  rfl

/-- One word changed among all that is covered, with a checksum in the field before and after: the check
passes exactly if the new word counts as the old one. -/
theorem verify_covered_change
    (hchange : (covered source destination data).WordChange offset a b (covered source' destination' changed))
    (h : data.length ≤ 131060) (hfield : data.wordAt 6 ≠ 0) (hfield' : changed.wordAt 6 ≠ 0)
    (hverify : verify data source destination = true) :
    verify changed source' destination' = true ↔ a = b ∨ Checksum.TwinZeros a b := by
  have hroom := room_of_verify hverify
  have hlength := hchange.length_eq
  rw [length_covered, length_covered] at hlength
  have hcovered := (verify_iff_covered hroom hfield).1 hverify
  rw [verify_iff_covered (by omega) hfield']
  exact Checksum.verify_wordChange hchange (by rw [length_covered]; omega) hcovered

theorem covered_data (hchange : data.WordChange offset a b changed) :
    (covered source destination data).WordChange (12 + offset) a b (covered source destination changed) := by
  rw [covered, covered, hchange.length_eq]
  exact hchange.append_left (by rw [Checksum.length_pseudoHeader])

theorem covered_source (hchange : source.octets.WordChange offset a b source'.octets) :
    (covered source destination data).WordChange offset a b (covered source' destination data) := by
  simp only [covered, Checksum.pseudoHeader, List.append_assoc]
  exact hchange.append_right (by rw [Address.length_octets])

theorem covered_destination (hchange : destination.octets.WordChange offset a b destination'.octets) :
    (covered source destination data).WordChange (4 + offset) a b (covered source destination' data) := by
  simp only [covered, Checksum.pseudoHeader, List.append_assoc]
  exact (hchange.append_right (by rw [Address.length_octets])).append_left (by rw [Address.length_octets])

/-- Only clearing the field goes unnoticed, since two words that are not 0 are no twins. -/
theorem verify_setWord_field (h : data.length ≤ 131060) (hfield : data.wordAt 6 ≠ 0)
    (hverify : verify data source destination = true) (hne : b ≠ data.wordAt 6) :
    verify (data.setWord 6 b) source destination = true ↔ b = 0 := by
  have hfit : 6 + 2 ≤ data.length := room_of_verify hverify
  have hword := Octets.wordAt_setWord hfit b
  by_cases hb : b = 0
  · have hroom : headerSize ≤ (data.setWord 6 b).length := by rwa [Octets.length_setWord]
    exact iff_of_true (verify_of_field_eq_zero hroom (hword.trans hb)) hb
  · have hfield' : (data.setWord 6 b).wordAt 6 ≠ 0 := by rwa [hword]
    rw [verify_covered_change (covered_data (.whole b rfl hfit)) h hfield hfield' hverify, iff_false_right hb]
    rintro (heq | ⟨hold, -⟩ | ⟨-, hnew⟩)
    · exact hne heq.symm
    · exact hfield hold
    · exact hb hnew

end UserDatagram

namespace Checksum

/-- **What a change of one word does to intact data.** It stays intact exactly if the two zeros were
exchanged, so that no change of one octet passes. A user datagram with a checksum is as sensitive, to its
own words and to the halves of both addresses; its checksum field alone can be cleared, and not changed in
any other way. -/
theorem verify_after_change (data : Octets) (source destination : Address) :
    (data.length ≤ 131072 → verify data = true →
      (∀ offset a b changed, data.WordChange offset a b changed → a ≠ b →
        (verify changed = true ↔ TwinZeros a b)) ∧
      (∀ i octet, i < data.length → octet ≠ data.byteAt i → verify (data.set i octet) = false)) ∧
    (data.length ≤ 131060 → data.wordAt 6 ≠ 0 → UserDatagram.verify data source destination = true →
      (∀ offset a b changed, data.WordChange offset a b changed → offset ≠ 6 → a ≠ b →
        (UserDatagram.verify changed source destination = true ↔ TwinZeros a b)) ∧
      (∀ offset a b source', source.octets.WordChange offset a b source'.octets → a ≠ b →
        (UserDatagram.verify data source' destination = true ↔ TwinZeros a b)) ∧
      (∀ offset a b destination', destination.octets.WordChange offset a b destination'.octets → a ≠ b →
        (UserDatagram.verify data source destination' = true ↔ TwinZeros a b)) ∧
      (∀ b, b ≠ data.wordAt 6 →
        (UserDatagram.verify (data.setWord 6 b) source destination = true ↔ b = 0))) := by
  constructor
  · intro h hverify
    refine ⟨?_, fun i octet hi hne => verify_set_eq_false h hverify hi hne⟩
    intro offset a b changed hchange hne
    rw [verify_wordChange hchange h hverify, or_iff_right hne]
  · intro h hfield hverify
    refine ⟨?_, ?_, ?_, fun b hne => UserDatagram.verify_setWord_field h hfield hverify hne⟩
    · intro offset a b changed hchange hoffset hne
      have hkept := hchange.wordAt_eq rfl hoffset.symm
      rw [UserDatagram.verify_covered_change (UserDatagram.covered_data hchange) h hfield
        (by rwa [hkept]) hverify, or_iff_right hne]
    · intro offset a b source' hchange hne
      rw [UserDatagram.verify_covered_change (UserDatagram.covered_source hchange) h hfield hfield hverify,
        or_iff_right hne]
    · intro offset a b destination' hchange hne
      rw [UserDatagram.verify_covered_change (UserDatagram.covered_destination hchange) h hfield hfield
        hverify, or_iff_right hne]

/-- Intact octets with a zero word and half a word at the end. -/
def sampleIntact : Octets := [0x12, 0x34, 0, 0, 0x97, 0xCB, 0x56]

/-- An intact user datagram from 10.0.0.1 to 0.0.10.2, with a zero word for its payload. -/
def sampleDatagram : Octets := [0x13, 0x88, 0x19, 0xEB, 0, 10, 0xBE, 0x64, 0, 0]

theorem verify_after_change_samples :
    (verify sampleIntact = true ∧
      (verify (sampleIntact.setWord 2 0xFFFF) = true ↔ TwinZeros (sampleIntact.wordAt 2) 0xFFFF) ∧
      (verify (sampleIntact.set 6 0xFF) = true ↔
        TwinZeros (Octets.word (sampleIntact.byteAt 6) 0) (Octets.word 0xFF 0)) ∧
      verify (sampleIntact.set 3 1) = false) ∧
    (UserDatagram.verify sampleDatagram ⟨10, 0, 0, 1⟩ ⟨0, 0, 10, 2⟩ = true ∧
      (UserDatagram.verify (sampleDatagram.setWord 8 0xFFFF) ⟨10, 0, 0, 1⟩ ⟨0, 0, 10, 2⟩ = true ↔
        TwinZeros (sampleDatagram.wordAt 8) 0xFFFF) ∧
      (UserDatagram.verify sampleDatagram ⟨10, 0, 1, 1⟩ ⟨0, 0, 10, 2⟩ = true ↔ TwinZeros 0x0001 0x0101) ∧
      (UserDatagram.verify sampleDatagram ⟨10, 0, 0, 1⟩ ⟨255, 255, 10, 2⟩ = true ↔ TwinZeros 0 0xFFFF) ∧
      (UserDatagram.verify (sampleDatagram.setWord 6 0) ⟨10, 0, 0, 1⟩ ⟨0, 0, 10, 2⟩ = true ↔
        (0 : UInt16) = 0)) := by
  have hlength : sampleIntact.length = 7 := rfl
  have hlength' : sampleDatagram.length = 10 := rfl
  have hintact : verify sampleIntact = true := by cbv
  have hintact' : UserDatagram.verify sampleDatagram ⟨10, 0, 0, 1⟩ ⟨0, 0, 10, 2⟩ = true := by cbv
  obtain ⟨hword, hoctet⟩ :=
    (verify_after_change sampleIntact ⟨10, 0, 0, 1⟩ ⟨0, 0, 10, 2⟩).1 (by omega) hintact
  obtain ⟨hword', hsource, hdestination, hfield⟩ :=
    (verify_after_change sampleDatagram ⟨10, 0, 0, 1⟩ ⟨0, 0, 10, 2⟩).2 (by omega) (by decide) hintact'
  refine ⟨⟨hintact, ?_, ?_, ?_⟩, hintact', ?_, ?_, ?_, ?_⟩
  · exact hword 2 _ _ _ (.whole 0xFFFF rfl (by omega)) (by decide)
  · exact hword 6 _ _ _ (.last 0xFF rfl rfl) (by decide)
  · exact hoctet 3 1 (by omega) (by decide)
  · exact hword' 8 _ _ _ (.whole 0xFFFF rfl (by omega)) (by decide) (by decide)
  · exact hsource 2 0x0001 0x0101 ⟨10, 0, 1, 1⟩ (.whole 0x0101 rfl (by decide)) (by decide)
  · exact hdestination 0 0 0xFFFF ⟨255, 255, 10, 2⟩ (.whole 0xFFFF rfl (by decide)) (by decide)
  · exact hfield 0 (by decide)

end Checksum

end LabelTunnel
