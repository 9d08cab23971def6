import LabelTunnel.Layer.Label
import LabelTunnel.Proofs.Field
import LabelTunnel.Proofs.Outcome

/-! Label entries and stacks printed and read. An entry is read back cut to its fields, every double
word is the printed form of the entry read from it. A stack of one entry is read exactly from data whose
first entry has the bottom bit, and no stack exactly from data none of whose entries has it. -/

namespace LabelTunnel

namespace LabelEntry

theorem toNat_toUInt32 (b : Bool) : b.toUInt32.toNat = b.toNat := by cases b <;> rfl

theorem toNat_toDoubleWord (e : LabelEntry) : e.toDoubleWord.toNat =
    e.label.toNat % 1048576 * 4096 + e.trafficClass.toNat % 8 * 512 + e.bottom.toNat * 256 +
      e.ttl.toNat := by
  have := e.bottom.toNat_le
  have := e.ttl.toNat_lt
  have hmax : (maxLabel + 1).toNat = 1048576 := rfl
  simp only [toDoubleWord, masked, UInt32.toNat_add, UInt32.toNat_mul, UInt32.toNat_mod, hmax,
    UInt8.toNat_toUInt32, UInt8.toNat_mod, toNat_toUInt32, UInt32.reduceToNat, UInt8.reduceToNat]
  omega

/-- Reading a printed entry cuts label and class to their fields and changes nothing else. -/
theorem ofDoubleWord_toDoubleWord (e : LabelEntry) : ofDoubleWord e.toDoubleWord = e.masked := by
  have hvalue := toNat_toDoubleWord e
  have hbottom := e.bottom.toNat_le
  have httl := e.ttl.toNat_lt
  have hmax : (maxLabel + 1).toNat = 1048576 := rfl
  have hflag : (e.toDoubleWord / 256 % 2 == 1) = e.bottom := by
    rw [Bool.eq_iff_iff, beq_iff_eq, ← UInt32.toNat_inj, ← Bool.toNat_eq_one]
    simp only [UInt32.toNat_mod, UInt32.toNat_div, UInt32.reduceToNat]
    omega
  rw [ofDoubleWord, masked, hflag, mk.injEq, ← UInt32.toNat_inj, ← UInt8.toNat_inj, ← UInt8.toNat_inj]
  simp only [UInt32.toNat_div, UInt32.toNat_mod, UInt32.toNat_toUInt8, UInt8.toNat_mod, hmax,
    UInt32.reduceToNat, UInt8.reduceToNat, true_and]
  omega

/-- Every double word is the printed form of the entry read from it. -/
theorem toDoubleWord_ofDoubleWord (w : UInt32) : (ofDoubleWord w).toDoubleWord = w := by
  have hlt := w.toNat_lt
  have hbit : (w / 256 % 2 == 1).toNat = w.toNat / 256 % 2 := by
    have hnat : w / 256 % 2 = 1 ↔ w.toNat / 256 % 2 = 1 := by
      rw [← UInt32.toNat_inj]
      simp only [UInt32.toNat_mod, UInt32.toNat_div, UInt32.reduceToNat]
    by_cases h : w / 256 % 2 = 1
    · rw [beq_iff_eq.2 h, hnat.1 h]
      rfl
    · rw [beq_eq_false_iff_ne.2 h, Bool.toNat_false]
      have := mt hnat.2 h
      omega
  rw [← UInt32.toNat_inj, toNat_toDoubleWord]
  simp only [ofDoubleWord, hbit, UInt32.toNat_div, UInt32.toNat_mod, UInt32.toNat_toUInt8,
    UInt32.reduceToNat]
  omega

theorem encode_ofDoubleWord (a b c d : UInt8) :
    (ofDoubleWord (Octets.doubleWord a b c d)).encode = [a, b, c, d] := by
  rw [encode, toDoubleWord_ofDoubleWord, Octets.ofDoubleWord_doubleWord]

def ofFields (data : Octets) : LabelEntry :=
  ofDoubleWord (Octets.doubleWord (data.byteAt 0) (data.byteAt 1) (data.byteAt 2) (data.byteAt 3))

theorem ofFields_encode (e : LabelEntry) (rest : Octets) : ofFields (e.encode ++ rest) = e.masked := by
  rw [← ofDoubleWord_toDoubleWord, ← Octets.doubleWord_ofDoubleWord e.toDoubleWord]
  rfl

theorem encode_ofFields {data : Octets} (h : size ≤ data.length) :
    (ofFields data).encode = data.slice 0 size := by
  have hroom : 4 ≤ data.length := h
  have hchain : [data.byteAt 0, data.byteAt 1, data.byteAt 2, data.byteAt 3] =
      Octets.ofWord (data.wordAt 0) ++ Octets.ofWord (data.wordAt 2) := by
    rw [Octets.wordAt, Octets.wordAt, Octets.ofWord_word, Octets.ofWord_word]
    rfl
  rw [ofFields, encode_ofDoubleWord, hchain, ← Octets.slice_word (by omega), ← Octets.slice_word (by omega)]
  exact Octets.slice_append_slice data (by omega) (by omega)

end LabelEntry

namespace LabelStack

variable {data : Octets} {found : Nat} {fault : Fault}

theorem length_encode (stack : List LabelEntry) : (encode stack).length = size stack := by
  induction stack with
  | nil => rfl
  | cons e stack ih =>
      rw [encode, List.flatMap_cons, List.length_append, ← encode, ih, LabelEntry.length_encode, size, size,
        List.length_cons, Nat.mul_succ, Nat.add_comm]

/-- A stack that was read has its bottom entry, so it is not empty. -/
theorem ne_nil_of_decodeAfter {stack : List LabelEntry} (h : decodeAfter found data = .ok stack) :
    stack ≠ [] := by
  unfold decodeAfter at h
  split at h
  · dsimp only at h
    split at h
    · cases h
      exact List.cons_ne_nil _ _
    · obtain ⟨tail, -, rfl⟩ := Outcome.map_eq_ok_iff.1 h
      exact List.cons_ne_nil _ _
  · cases h

/-- All entries that the data has room for, bottom or not. -/
def entries (data : Octets) : List LabelEntry :=
  (List.range (data.length / LabelEntry.size)).map fun i => .ofFields (data.drop (LabelEntry.size * i))

theorem length_entries (data : Octets) : (entries data).length = data.length / 4 := by
  rw [entries, List.length_map, List.length_range, LabelEntry.size]

theorem entries_cons (a b c d : UInt8) (rest : Octets) : entries (a :: b :: c :: d :: rest) =
    .ofDoubleWord (Octets.doubleWord a b c d) :: entries rest := by
  have hcount : (a :: b :: c :: d :: rest).length / LabelEntry.size = rest.length / LabelEntry.size + 1 :=
    Nat.add_div_right rest.length (by decide : 0 < LabelEntry.size)
  rw [entries, hcount, List.range_succ_eq_map, List.map_cons, List.map_map]
  rfl

theorem entries_of_short (h : ∀ a b c d rest, data = a :: b :: c :: d :: rest → False) : entries data = [] := by
  have hlt : data.length < LabelEntry.size := by
    rcases data with _ | ⟨a, _ | ⟨b, _ | ⟨c, _ | ⟨d, rest⟩⟩⟩⟩
    case cons.cons.cons.cons => exact absurd rfl (h a b c d rest)
    all_goals simp [LabelEntry.size]
  rw [entries, Nat.div_eq_of_lt hlt, List.range_zero, List.map_nil]

/-- There is no stack exactly if no entry is a bottom, and the fault counts all of them. -/
theorem decodeAfter_eq_error_iff : decodeAfter found data = .error fault ↔
    (∀ e ∈ entries data, e.bottom = false) ∧
      fault = .parsing (.stackTruncated (found + (entries data).length)) := by
  induction found, data using decodeAfter.induct with
  | case1 found a b c d rest entry hbottom =>
      rw [decodeAfter, if_pos hbottom, entries_cons, List.forall_mem_cons]
      simp [entry, hbottom]
  | case2 found a b c d rest entry hbottom ih =>
      rw [decodeAfter, if_neg hbottom, Outcome.map_eq_error_iff, ih, entries_cons, List.forall_mem_cons,
        List.length_cons, and_iff_right (Bool.eq_false_iff.2 hbottom), Nat.add_right_comm, Nat.add_assoc]
  | case3 found data hshort =>
      rw [decodeAfter.eq_2 _ _ hshort, entries_of_short hshort, and_iff_right (List.forall_mem_nil _),
        Except.error.injEq, eq_comm]
      rfl

theorem decode_eq_error_iff : decode data = .error fault ↔
    (∀ e ∈ entries data, e.bottom = false) ∧ fault = .parsing (.stackTruncated (data.length / 4)) := by
  rw [decode, decodeAfter_eq_error_iff, Nat.zero_add, length_entries]

theorem exists_parsing_of_decode (h : decode data = .error fault) : ∃ cause, fault = .parsing cause :=
  ⟨_, (decode_eq_error_iff.1 h).2⟩

/-- The first entry decides: with the bottom bit it is the stack, without it the stack goes on. -/
theorem decodeAfter_of_le (h : LabelEntry.size ≤ data.length) :
    decodeAfter found data = if (LabelEntry.ofFields data).bottom then .ok [LabelEntry.ofFields data]
      else (decodeAfter (found + 1) (data.drop LabelEntry.size)).map
        fun stack => LabelEntry.ofFields data :: stack := by
  match data, h with
  | a :: b :: c :: d :: rest, _ => rw [decodeAfter]; rfl

theorem decodeAfter_of_lt (h : data.length < LabelEntry.size) :
    decodeAfter found data = .error (.parsing (.stackTruncated found)) := by
  match data, h with
  | [], _ | [_], _ | [_, _], _ | [_, _, _], _ => rfl
  | a :: b :: c :: d :: rest, h => exact absurd h (by simp [LabelEntry.size])

theorem decode_of_le (h : LabelEntry.size ≤ data.length) : decode data =
    if (LabelEntry.ofFields data).bottom then .ok [LabelEntry.ofFields data]
    else (decodeAfter 1 (data.drop LabelEntry.size)).map fun stack => LabelEntry.ofFields data :: stack :=
  decodeAfter_of_le h

theorem decode_eq_ok_singleton_iff {e : LabelEntry} : decode data = .ok [e] ↔
    LabelEntry.size ≤ data.length ∧ e = LabelEntry.ofFields data ∧ e.bottom = true := by
  by_cases hroom : LabelEntry.size ≤ data.length
  · rw [decode_of_le hroom, and_iff_right hroom]
    split
    · rename_i hbottom
      constructor
      · intro h
        cases h
        exact ⟨rfl, hbottom⟩
      · rintro ⟨rfl, -⟩
        rfl
    · rename_i hbottom
      constructor
      · intro h
        obtain ⟨tail, htail, heq⟩ := Outcome.map_eq_ok_iff.1 h
        exact absurd (List.cons.inj heq).2 (ne_nil_of_decodeAfter htail)
      · rintro ⟨rfl, hbottom'⟩
        exact absurd hbottom' hbottom
  · rw [decode, decodeAfter_of_lt (Nat.lt_of_not_le hroom)]
    simp [hroom]

end LabelStack

end LabelTunnel
