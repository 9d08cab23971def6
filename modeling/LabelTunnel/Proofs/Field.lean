import LabelTunnel.Address

/-! Fields of an octet string. A field read at an offset does not depend on how the string was put
together: behind a cut it is read at the shifted offset, and a string with room for a word is what
stands before it, the word, and what stands behind it. So a layout written as a chain of fields and a
reader that goes by offsets meet in the same words. -/

namespace LabelTunnel

namespace Octets

def clearWord (data : Octets) (offset : Nat) : Octets := (data.set offset 0).set (offset + 1) 0

/-- The string with the word at an offset replaced. -/
def setWord (data : Octets) (offset : Nat) (w : UInt16) : Octets :=
  (data.set offset (w / 256).toUInt8).set (offset + 1) w.toUInt8

theorem clearWord_eq_setWord (data : Octets) (offset : Nat) : data.clearWord offset = data.setWord offset 0 :=
  rfl

@[simp] theorem length_clearWord (data : Octets) (offset : Nat) :
    (data.clearWord offset).length = data.length := by
  simp [clearWord]

@[simp] theorem length_setWord (data : Octets) (offset : Nat) (w : UInt16) :
    (data.setWord offset w).length = data.length := by
  simp [setWord]

theorem word_eq_zero_iff {high low : UInt8} : word high low = 0 ↔ high = 0 ∧ low = 0 := by
  simp only [← UInt16.toNat_inj, ← UInt8.toNat_inj, toNat_word, UInt16.toNat_zero, UInt8.toNat_zero]
  omega

theorem ofWord_word (high low : UInt8) : ofWord (word high low) = [high, low] := by
  have := high.toNat_lt
  have := low.toNat_lt
  rw [ofWord, List.cons.injEq, List.cons.injEq, ← UInt8.toNat_inj, ← UInt8.toNat_inj]
  simp only [UInt16.toNat_toUInt8, UInt16.toNat_div, UInt16.reduceToNat, toNat_word, and_true]
  omega

theorem ofDoubleWord_doubleWord (a b c d : UInt8) : ofDoubleWord (doubleWord a b c d) = [a, b, c, d] := by
  have hlt := (word a b).toNat_lt
  have hlt' := (word c d).toNat_lt
  have hhigh : (doubleWord a b c d / 65536).toUInt16 = word a b := by
    apply UInt16.toNat_inj.1
    simp only [doubleWord, UInt32.toNat_toUInt16, UInt32.toNat_div, UInt32.toNat_add, UInt32.toNat_mul,
      UInt16.toNat_toUInt32, UInt32.reduceToNat]
    omega
  have hlow : (doubleWord a b c d).toUInt16 = word c d := by
    apply UInt16.toNat_inj.1
    simp only [doubleWord, UInt32.toNat_toUInt16, UInt32.toNat_add, UInt32.toNat_mul,
      UInt16.toNat_toUInt32, UInt32.reduceToNat]
    omega
  rw [ofDoubleWord, hhigh, hlow, ofWord_word, ofWord_word]
  rfl

/-- The quarters of a double word in network order make it up again. -/
theorem doubleWord_ofDoubleWord (w : UInt32) :
    doubleWord ((w / 65536).toUInt16 / 256).toUInt8 (w / 65536).toUInt16.toUInt8
      (w.toUInt16 / 256).toUInt8 w.toUInt16.toUInt8 = w := by
  rw [doubleWord, word_ofWord, word_ofWord, ← UInt32.toNat_inj]
  have := w.toNat_lt
  simp only [UInt32.toNat_add, UInt32.toNat_mul, UInt16.toNat_toUInt32, UInt32.toNat_toUInt16,
    UInt32.toNat_div, UInt32.reduceToNat]
  omega

/-! ### Octet by octet -/

section

variable {data other : Octets} {i j : Nat}

theorem byteAt_eq_getElem (h : i < data.length) : data.byteAt i = data[i] := by
  rw [byteAt, List.getD_eq_getElem?_getD, List.getElem?_eq_getElem h, Option.getD_some]

theorem byteAt_of_le (h : data.length ≤ i) : data.byteAt i = 0 := by
  rw [byteAt, List.getD_eq_getElem?_getD, List.getElem?_eq_none h, Option.getD_none]

theorem eq_of_byteAt (hlength : data.length = other.length) (h : ∀ i, data.byteAt i = other.byteAt i) :
    data = other := by
  apply List.ext_getElem hlength
  intro i hi hi'
  rw [← byteAt_eq_getElem hi, ← byteAt_eq_getElem hi', h i]

theorem wordAt_eq_of_byteAt (h : data.byteAt i = other.byteAt i)
    (h' : data.byteAt (i + 1) = other.byteAt (i + 1)) : data.wordAt i = other.wordAt i := by
  rw [wordAt, wordAt, h, h']

theorem byteAt_append_left (h : i < data.length) : (data ++ other).byteAt i = data.byteAt i := by
  rw [byteAt, byteAt, List.getD_eq_getElem?_getD, List.getD_eq_getElem?_getD, List.getElem?_append_left h]

theorem byteAt_set_self (h : i < data.length) (octet : UInt8) : byteAt (data.set i octet) i = octet := by
  rw [byteAt_eq_getElem (by rwa [List.length_set]), List.getElem_set_self]

theorem byteAt_set_of_ne (h : i ≠ j) (octet : UInt8) : byteAt (data.set i octet) j = data.byteAt j := by
  rw [byteAt, byteAt, List.getD_eq_getElem?_getD, List.getD_eq_getElem?_getD, List.getElem?_set_ne h]

/-- An octet written where it stands already changes nothing. -/
theorem set_byteAt (data : Octets) (i : Nat) : data.set i (data.byteAt i) = data := by
  by_cases h : i < data.length
  · rw [byteAt_eq_getElem h, List.set_getElem_self]
  · exact List.set_eq_of_length_le (Nat.le_of_not_lt h)

end

/-! ### Reading behind a cut -/

theorem byteAt_drop (data : Octets) (start offset : Nat) :
    byteAt (data.drop start) offset = byteAt data (start + offset) := by
  simp [byteAt, List.getD_eq_getElem?_getD]

theorem wordAt_drop (data : Octets) (start offset : Nat) :
    wordAt (data.drop start) offset = wordAt data (start + offset) := by
  rw [wordAt, wordAt, byteAt_drop, byteAt_drop, Nat.add_assoc]

theorem slice_eq_take_drop (data : Octets) (start stop : Nat) :
    data.slice start stop = (data.drop start).take (stop - start) := by
  rw [slice, List.drop_take]

theorem byteAt_slice (data : Octets) {start stop offset : Nat} (h : start + offset < stop) :
    byteAt (data.slice start stop) offset = byteAt data (start + offset) := by
  simp [slice, byteAt, List.getD_eq_getElem?_getD, h]

theorem wordAt_slice (data : Octets) {start stop offset : Nat} (h : start + offset + 2 ≤ stop) :
    wordAt (data.slice start stop) offset = wordAt data (start + offset) := by
  rw [wordAt, wordAt, byteAt_slice data (by omega), byteAt_slice data (by omega), Nat.add_assoc]

/-! ### A string as a chain of its fields -/

theorem slice_append_slice (data : Octets) {start middle stop : Nat} (h : start ≤ middle)
    (h' : middle ≤ stop) : data.slice start middle ++ data.slice middle stop = data.slice start stop := by
  have hdrop : data.drop middle = (data.drop start).drop (middle - start) := by
    rw [List.drop_drop, Nat.add_sub_cancel' h]
  rw [slice_eq_take_drop, slice_eq_take_drop, slice_eq_take_drop, hdrop, ← List.take_add]
  congr 1
  omega

theorem drop_eq_byteAt_cons {data : Octets} {offset : Nat} (h : offset < data.length) :
    data.drop offset = data.byteAt offset :: data.drop (offset + 1) := by
  rw [List.drop_eq_getElem_cons h, byteAt_eq_getElem h]

theorem slice_byte {data : Octets} {offset : Nat} (h : offset < data.length) :
    data.slice offset (offset + 1) = [data.byteAt offset] := by
  rw [slice_eq_take_drop, drop_eq_byteAt_cons h, Nat.add_sub_cancel_left, List.take_succ_cons,
    List.take_zero]

theorem slice_word {data : Octets} {offset : Nat} (h : offset + 2 ≤ data.length) :
    data.slice offset (offset + 2) = ofWord (data.wordAt offset) := by
  rw [← slice_append_slice data (Nat.le_add_right offset 1) (by omega), slice_byte (by omega),
    slice_byte (by omega), wordAt, ofWord_word]
  rfl

theorem eq_append_wordAt {data : Octets} {offset : Nat} (h : offset + 2 ≤ data.length) :
    data = data.take offset ++ (ofWord (data.wordAt offset) ++ data.drop (offset + 2)) := by
  have hword : ofWord (data.wordAt offset) ++ data.drop (offset + 2) = data.drop offset := by
    rw [← slice_word h, slice_eq_take_drop, Nat.add_sub_cancel_left, ← List.drop_drop,
      List.take_append_drop]
  rw [hword, List.take_append_drop]

/-! ### Writing a word -/

section

variable {data : Octets} {offset : Nat}

theorem setWord_append (front : Octets) (w w' : UInt16) (rest : Octets) :
    setWord (front ++ (ofWord w ++ rest)) front.length w' = front ++ (ofWord w' ++ rest) := by
  simp [setWord, ofWord]

theorem setWord_eq_append (h : offset + 2 ≤ data.length) (w : UInt16) :
    data.setWord offset w = data.take offset ++ (ofWord w ++ data.drop (offset + 2)) := by
  have hlength : (data.take offset).length = offset := List.length_take_of_le (by omega)
  have hset := setWord_append (data.take offset) (data.wordAt offset) w (data.drop (offset + 2))
  rwa [← eq_append_wordAt h, hlength] at hset

theorem setWord_wordAt (h : offset + 2 ≤ data.length) : data.setWord offset (data.wordAt offset) = data := by
  rw [setWord_eq_append h, ← eq_append_wordAt h]

theorem wordAt_setWord (h : offset + 2 ≤ data.length) (w : UInt16) :
    (data.setWord offset w).wordAt offset = w := by
  rw [wordAt, setWord, byteAt_set_self (by rw [List.length_set]; omega), byteAt_set_of_ne (by omega),
    byteAt_set_self (by omega), word_ofWord]

theorem setWord_word (data : Octets) (offset : Nat) (high low : UInt8) :
    data.setWord offset (word high low) = (data.set offset high).set (offset + 1) low := by
  obtain ⟨hhigh, hlow⟩ := List.cons.inj (ofWord_word high low)
  rw [setWord, hhigh, (List.cons.inj hlow).1]

end

end Octets

namespace Address

theorem octets_ofOctetsAt {data : Octets} {offset : Nat} (h : offset + 4 ≤ data.length) :
    (ofOctetsAt data offset).octets = data.slice offset (offset + 4) := by
  rw [← Octets.slice_append_slice data (Nat.le_add_right offset 2) (by omega),
    Octets.slice_word (by omega), Octets.slice_word (by omega), Octets.wordAt, Octets.wordAt,
    Octets.ofWord_word, Octets.ofWord_word]
  rfl

end Address

end LabelTunnel
