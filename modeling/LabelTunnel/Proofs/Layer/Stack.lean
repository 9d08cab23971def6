import LabelTunnel.Proofs.Packet.Guarded

/-! Label stacks printed and read. A stack ends with its bottom entry, and no entry above that is one; such a
stack is read back whatever follows it, with every entry cut to its fields. In the other direction the reader
looks at one entry after the other and stops at the first bottom: what it has read by then is a stack, printed
as the octets it was read from. It finds none exactly if no entry that the data has room for is a bottom, and
it has counted them all then. -/

namespace LabelTunnel.LabelStack

/-- The last entry is the bottom of the stack, and no entry above it is one. -/
inductive Bottomed : List LabelEntry → Prop
  | last {e : LabelEntry} (h : e.bottom = true) : Bottomed [e]
  | above {e : LabelEntry} {stack : List LabelEntry} (h : e.bottom = false) (below : Bottomed stack) :
      Bottomed (e :: stack)

variable {stack above : List LabelEntry} {last : LabelEntry} {data rest : Octets} {found : Nat}

theorem Bottomed.append_singleton (habove : ∀ e ∈ above, e.bottom = false) (hlast : last.bottom = true) :
    Bottomed (above ++ [last]) := by
  induction above with
  | nil => exact .last hlast
  | cons e above ih =>
      obtain ⟨he, habove⟩ := List.forall_mem_cons.1 habove
      exact .above he (ih habove)

/-! ### Reading what was printed -/

/-- A printed entry is the whole stack if it is a bottom, and stands above the rest if it is not. -/
theorem decodeAfter_encode_entry_append (e : LabelEntry) (found : Nat) (rest : Octets) :
    decodeAfter found (e.encode ++ rest) = if e.bottom then .ok [e.masked]
      else (decodeAfter (found + 1) rest).map fun stack => e.masked :: stack := by
  have hroom : LabelEntry.size ≤ (e.encode ++ rest).length := by
    rw [List.length_append, LabelEntry.length_encode]
    exact Nat.le_add_right _ _
  rw [decodeAfter_of_le hroom, LabelEntry.ofFields_encode, List.drop_left' e.length_encode]
  rfl

theorem decodeAfter_encode_append (h : Bottomed stack) (found : Nat) (rest : Octets) :
    decodeAfter found (encode stack ++ rest) = .ok (stack.map LabelEntry.masked) := by
  induction h generalizing found with
  | @last e h =>
      rw [encode, List.flatMap_singleton, decodeAfter_encode_entry_append, if_pos h]
      rfl
  | @above e stack h below ih =>
      rw [encode, List.flatMap_cons, ← encode, List.append_assoc, decodeAfter_encode_entry_append, h, ih]
      rfl

theorem decode_encode_append (h : Bottomed stack) (rest : Octets) :
    decode (encode stack ++ rest) = .ok (stack.map LabelEntry.masked) :=
  decodeAfter_encode_append h 0 rest

/-! ### Printing what was read -/

/-- What was read is a stack, and it was printed at the front of the data. -/
theorem bottomed_of_decodeAfter (h : decodeAfter found data = .ok stack) :
    Bottomed stack ∧ ∃ rest, data = encode stack ++ rest := by
  fun_induction decodeAfter found data generalizing stack with
  | case1 found a b c d rest entry =>
      rename_i hbottom
      cases h
      refine ⟨.last hbottom, rest, ?_⟩
      rw [encode, List.flatMap_singleton, LabelEntry.encode_ofDoubleWord]
      rfl
  | case2 found a b c d rest entry =>
      rename_i hbottom ih
      obtain ⟨tail, htail, rfl⟩ := Outcome.map_eq_ok_iff.1 h
      obtain ⟨hstack, left, hrest⟩ := ih htail
      refine ⟨.above (Bool.eq_false_iff.2 hbottom) hstack, left, ?_⟩
      rw [encode, List.flatMap_cons, ← encode, LabelEntry.encode_ofDoubleWord, hrest]
      rfl
  | case3 found data hshort => cases h

theorem encode_eq_slice_of_decode (h : decode data = .ok stack) :
    size stack ≤ data.length ∧ encode stack = data.slice 0 (size stack) := by
  obtain ⟨-, rest, rfl⟩ := bottomed_of_decodeAfter h
  constructor
  · rw [List.length_append, length_encode]
    exact Nat.le_add_right _ _
  · rw [Octets.slice, List.drop_zero, List.take_left' (length_encode stack)]

/-- **Label stacks printed and read.** A stack is read back whatever follows it, cut to its fields, and the
reader ends behind it. On any data the walk from entry to entry has a result and never leaves the data. If it
finds a stack, this is printed as exactly the octets that were walked over; and it finds none exactly if none
of the entries that the data has room for is a bottom, which it says with their number. -/
theorem stack_round_trips (stack : List LabelEntry) (rest data : Octets) :
    (Bottomed stack → decode (encode stack ++ rest) = .ok (stack.map LabelEntry.masked) ∧
      (decode? (encode stack ++ rest)).Gives (.ok (stack.map LabelEntry.masked, 4 * stack.length))) ∧
    ∃ result, (decode? data).Gives result ∧ decode data = result.map Prod.fst ∧
      (∀ read consumed, result = .ok (read, consumed) → consumed = 4 * read.length ∧
        consumed ≤ data.length ∧ encode read = data.slice 0 consumed ∧ Bottomed read) ∧
      (entries data).length = data.length / 4 ∧
      ((∃ fault, result = .error fault) ↔ ∀ e ∈ entries data, e.bottom = false) ∧
      (∀ fault, result = .error fault → fault = .parsing (.stackTruncated (data.length / 4))) := by
  constructor
  · intro hstack
    have hdecode := decode_encode_append hstack rest
    have hwalk := gives_decode (encode stack ++ rest)
    have hsize : size (stack.map LabelEntry.masked) = 4 * stack.length := by
      rw [size, List.length_map, LabelEntry.size]
    rw [hdecode] at hwalk
    exact ⟨hdecode, hsize ▸ hwalk⟩
  · have hmap : decode data = ((decode data).map fun read => (read, size read)).map Prod.fst := by
      cases decode data <;> rfl
    refine ⟨_, gives_decode data, hmap, ?_, length_entries data, ?_, ?_⟩
    · intro read consumed hresult
      obtain ⟨read', hdecode, heq⟩ := Outcome.map_eq_ok_iff.1 hresult
      cases heq
      obtain ⟨hle, hencode⟩ := encode_eq_slice_of_decode hdecode
      exact ⟨rfl, hle, hencode, (bottomed_of_decodeAfter hdecode).1⟩
    · simp only [Outcome.map_eq_error_iff, decode_eq_error_iff, exists_and_left, exists_eq, and_true]
    · intro fault hresult
      exact (decode_eq_error_iff.1 (Outcome.map_eq_error_iff.1 hresult)).2

/-- Two entries, the upper one with a label and a class that are too wide. -/
def sampleStack : List LabelEntry := [⟨0x100064, 9, false, 64⟩, ⟨200, 2, true, 32⟩]

/-- Two entries that are no bottom, and half an entry. -/
def sampleBottomless : Octets := [0, 6, 0x40, 64, 0, 0, 0x1A, 0xFF, 0, 0]

theorem stack_round_trips_samples : Bottomed sampleStack ∧
    decode (encode sampleStack ++ [0x45, 0]) = .ok (sampleStack.map LabelEntry.masked) ∧
    (decode? (encode sampleStack ++ [0x45, 0])).Gives
      (.ok (sampleStack.map LabelEntry.masked, 4 * sampleStack.length)) ∧
    ∃ result, (decode? sampleBottomless).Gives result ∧ decode sampleBottomless = result.map Prod.fst ∧
      (∀ fault, result = .error fault → fault = .parsing (.stackTruncated 2)) := by
  have hstack : Bottomed sampleStack := .above rfl (.last rfl)
  obtain ⟨hread, result, hwalk, hdecode, -, -, -, hfault⟩ :=
    stack_round_trips sampleStack [0x45, 0] sampleBottomless
  obtain ⟨hlist, hoffset⟩ := hread hstack
  exact ⟨hstack, hlist, hoffset, result, hwalk, hdecode, hfault⟩

end LabelTunnel.LabelStack
