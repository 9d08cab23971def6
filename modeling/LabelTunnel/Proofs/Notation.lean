import LabelTunnel.Traffic.Plan

/-! Numbers, addresses and flows written down and read back. A text is cut at the separator that was put
into it, if the part on the right side of the cut has none; numerals are made of digits only, so no sign,
dot or colon is ever found in one. An address is read from its dotted form and from no other text, a number
from every numeral that has its value. -/

namespace LabelTunnel

namespace Split

variable {separator : Char} {left right : List Char}

theorem atFirst?_eq_none (h : separator ∉ left) : atFirst? separator left = none := by
  induction left with
  | nil => rfl
  | cons c left ih =>
      obtain ⟨hc, hleft⟩ := not_or.1 (mt List.mem_cons.2 h)
      rw [atFirst?, if_neg (Ne.symm hc), ih hleft]
      rfl

theorem atFirst?_append (h : separator ∉ left) :
    atFirst? separator (left ++ separator :: right) = some (left, right) := by
  induction left with
  | nil => exact if_pos rfl
  | cons c left ih =>
      obtain ⟨hc, hleft⟩ := not_or.1 (mt List.mem_cons.2 h)
      rw [List.cons_append, atFirst?, if_neg (Ne.symm hc), ih hleft]
      rfl

theorem atLast?_eq_none (h : separator ∉ right) : atLast? separator right = none := by
  induction right with
  | nil => rfl
  | cons c right ih =>
      obtain ⟨hc, hright⟩ := not_or.1 (mt List.mem_cons.2 h)
      rw [atLast?, ih hright]
      exact if_neg (Ne.symm hc)

theorem atLast?_append (h : separator ∉ right) :
    atLast? separator (left ++ separator :: right) = some (left, right) := by
  induction left with
  | nil =>
      rw [List.nil_append, atLast?, atLast?_eq_none h]
      exact if_pos rfl
  | cons c left ih => rw [List.cons_append, atLast?, ih]

end Split

/-! ### Numerals -/

namespace Numeral

variable {limit n value : Nat} {beyond : Fault} {cs : List Char} {c : Char}

theorem isDigit_of_mem_digits (h : c ∈ digits n) : c.isDigit = true :=
  Nat.isDigit_of_mem_toDigits (by decide) (by decide) h

theorem not_mem_digits (h : c.isDigit = false) : c ∉ digits n := by
  intro hc
  rw [isDigit_of_mem_digits hc] at h
  cases h

/-- A numeral begins with a digit. -/
theorem digits_ne_cons (h : c.isDigit = false) : digits n ≠ c :: cs := by
  intro hdigits
  exact not_mem_digits h (n := n) (hdigits ▸ List.mem_cons_self)

theorem digits_ne_nil (n : Nat) : digits n ≠ [] := Nat.toDigits_ne_nil

theorem le_ofDigitChars (cs : List Char) (value : Nat) : value ≤ Nat.ofDigitChars 10 cs value := by
  rw [Nat.ofDigitChars_eq_ofDigitChars_zero]
  have hpower : 1 * value ≤ 10 ^ cs.length * value := Nat.mul_le_mul_right _ (Nat.pow_pos (by decide))
  omega

/-- Digits that stay within the limit are read to their value. -/
theorem readDigits_of_le (hdigits : ∀ c ∈ cs, c.isDigit = true) (hle : Nat.ofDigitChars 10 cs value ≤ limit) :
    readDigits limit beyond value cs = .ok (Nat.ofDigitChars 10 cs value) := by
  induction cs generalizing value with
  | nil => rfl
  | cons c cs ih =>
      have hdigit : digit? c = some (c.toNat - '0'.toNat) := if_pos (hdigits c List.mem_cons_self)
      rw [Nat.ofDigitChars_cons] at hle ⊢
      have hvalue := Nat.le_trans (le_ofDigitChars cs _) hle
      rw [readDigits, hdigit]
      dsimp only
      rw [if_pos hvalue]
      exact ih (fun c hc => hdigits c (List.mem_cons_of_mem _ hc)) hle

theorem readDigits_digits (h : n ≤ limit) : readDigits limit beyond 0 (digits n) = .ok n := by
  have hvalue : Nat.ofDigitChars 10 (digits n) 0 = n := Nat.ofDigitChars_ten_toDigits
  rw [readDigits_of_le (fun c => isDigit_of_mem_digits) (hvalue.symm ▸ h), hvalue]

theorem readNat_digits (h : n ≤ limit) : readNat limit (digits n) = .ok n := by
  rw [readNat.eq_4 _ _ (digits_ne_nil n) (digits_ne_cons rfl) fun _ => digits_ne_cons rfl]
  exact readDigits_digits h

/-- The text is a numeral of the number: an optional plus sign, then digits, of which there is at least one. -/
def Spells (s : List Char) (n : Nat) : Prop := ∃ cs, (s = cs ∨ s = '+' :: cs) ∧ cs ≠ [] ∧
  (∀ c ∈ cs, c.isDigit = true) ∧ Nat.ofDigitChars 10 cs 0 = n

/-- What was read is the value of the digits, and no digit took it past the limit. -/
theorem of_readDigits (hvalue : value ≤ limit) (h : readDigits limit beyond value cs = .ok n) :
    (∀ c ∈ cs, c.isDigit = true) ∧ Nat.ofDigitChars 10 cs value = n ∧ n ≤ limit := by
  induction cs generalizing value with
  | nil =>
      cases h
      exact ⟨nofun, rfl, hvalue⟩
  | cons c cs ih =>
      by_cases hc : c.isDigit = true
      · have hdigit : digit? c = some (c.toNat - '0'.toNat) := if_pos hc
        rw [readDigits, hdigit] at h
        dsimp only at h
        split at h
        · rename_i hnext
          obtain ⟨hdigits, hn, hle⟩ := ih hnext h
          exact ⟨List.forall_mem_cons.2 ⟨hc, hdigits⟩, Nat.ofDigitChars_cons.trans hn, hle⟩
        · cases h
      · have hdigit : digit? c = none := if_neg hc
        rw [readDigits, hdigit] at h
        cases h

theorem readDigits_eq_ok_iff : readDigits limit beyond 0 cs = .ok n ↔
    (∀ c ∈ cs, c.isDigit = true) ∧ Nat.ofDigitChars 10 cs 0 = n ∧ n ≤ limit := by
  constructor
  · exact of_readDigits (Nat.zero_le _)
  · rintro ⟨hdigits, rfl, hle⟩
    exact readDigits_of_le hdigits hle

/-- A number is read from exactly its numerals, if it is within the limit. -/
theorem readNat_eq_ok_iff {s : List Char} : readNat limit s = .ok n ↔ Spells s n ∧ n ≤ limit := by
  constructor
  · intro h
    unfold readNat at h
    split at h
    · cases h
    · cases h
    · rename_i cs hplus
      obtain ⟨hdigits, hn, hle⟩ := readDigits_eq_ok_iff.1 h
      exact ⟨⟨cs, .inr rfl, hplus, hdigits, hn⟩, hle⟩
    · rename_i hne _ _
      obtain ⟨hdigits, hn, hle⟩ := readDigits_eq_ok_iff.1 h
      exact ⟨⟨s, .inl rfl, hne, hdigits, hn⟩, hle⟩
  · rintro ⟨⟨cs, hs, hne, hdigits, hn⟩, hle⟩
    have hread : readDigits limit .tooLarge 0 cs = .ok n := readDigits_eq_ok_iff.2 ⟨hdigits, hn, hle⟩
    have hplus : ∀ rest, cs ≠ '+' :: rest := by
      rintro rest rfl
      cases hdigits '+' List.mem_cons_self
    rcases hs with rfl | rfl
    · rw [readNat.eq_4 _ _ hne (hplus _) fun rest => hplus rest, hread]
    · rw [readNat.eq_3 _ _ hne, hread]

theorem readInt_digits (h : n ≤ 0x7FFFFFFFFFFFFFFF) : readInt (digits n) = .ok n := by
  rw [readInt.eq_6 _ (digits_ne_nil n) (digits_ne_cons rfl) (digits_ne_cons rfl)
    (fun _ => digits_ne_cons rfl) fun _ => digits_ne_cons rfl, readDigits_digits h]
  rfl

end Numeral

/-! ### Addresses -/

namespace Address

/-- An octet is read off the front of what goes on with no digit. -/
theorem readOctet?_append (n : UInt8) {rest : List Char} (h : ∀ c ∈ rest.head?, c.isDigit = false) :
    readOctet? (Numeral.digits n.toNat ++ rest) = some (n, rest) := by
  have hdigits : ∀ c ∈ Numeral.digits n.toNat, c.isDigit = true := fun c => Numeral.isDigit_of_mem_digits
  have hlt := n.toNat_lt
  have hlength : (Numeral.digits n.toNat).length ≤ 3 :=
    (Nat.length_toDigits_le_iff (by decide) (by decide)).2 (by omega)
  have hvalue : Nat.ofDigitChars 10 (Numeral.digits n.toNat) 0 = n.toNat := Nat.ofDigitChars_ten_toDigits
  have hrest : rest.takeWhile Char.isDigit = [] ∧ rest.dropWhile Char.isDigit = rest := by
    cases rest with
    | nil => exact ⟨rfl, rfl⟩
    | cons c rest =>
        have hc : ¬c.isDigit = true := by
          rw [h c rfl]
          exact Bool.false_ne_true
        exact ⟨List.takeWhile_cons_of_neg hc, List.dropWhile_cons_of_neg hc⟩
  rw [readOctet?, List.takeWhile_append_of_pos hdigits, List.dropWhile_append_of_pos hdigits, hrest.1, hrest.2,
    List.append_nil, hvalue]
  rw [if_pos ⟨hlength, by omega, rfl⟩]
  exact congrArg (fun m => some (m, rest)) UInt8.ofNat_toNat

/-- An address is read back from its dotted form. -/
theorem read?_chars (a : Address) : read? a.chars = some a := by
  have hdot (rest : List Char) : ∀ c ∈ ('.' :: rest).head?, c.isDigit = false := by
    rintro c ⟨⟩
    rfl
  have hlast : readOctet? (Numeral.digits a.fourth.toNat) = some (a.fourth, []) := by
    rw [← List.append_nil (Numeral.digits _)]
    exact readOctet?_append a.fourth nofun
  simp only [chars, read?, readOctet?_append _ (hdot _), readDot?, hlast, Option.bind_eq_bind, Option.bind_some,
    if_true]

/-- An octet is read off exactly the texts that begin with its numeral and do not go on with a digit. -/
theorem readOctet?_eq_some_iff {s rest : List Char} {n : UInt8} : readOctet? s = some (n, rest) ↔
    s = Numeral.digits n.toNat ++ rest ∧ ∀ c ∈ rest.head?, c.isDigit = false := by
  constructor
  · intro h
    rw [readOctet?, Option.ite_none_right_eq_some, Option.some.injEq, Prod.mk.injEq] at h
    obtain ⟨⟨-, hle, hnumeral⟩, rfl, rfl⟩ := h
    refine ⟨?_, ?_⟩
    · have hnat {value : Nat} (hvalue : value ≤ 255) : value.toUInt8.toNat = value :=
        Nat.mod_eq_of_lt (by omega)
      rw [hnat hle, ← hnumeral, List.takeWhile_append_dropWhile]
    · intro c hc
      have hhead := List.head?_dropWhile_not Char.isDigit s
      rwa [hc] at hhead
  · rintro ⟨rfl, hrest⟩
    exact readOctet?_append n hrest

theorem readDot?_eq_some_iff {s rest : List Char} : readDot? s = some rest ↔ s = '.' :: rest := by
  unfold readDot?
  split
  · rw [Option.some.injEq, List.cons.injEq, and_iff_right rfl]
  · rename_i hdot
    exact iff_of_false nofun (hdot rest)

/-- An address is read from its dotted form alone. -/
theorem read?_eq_some_iff {s : List Char} {a : Address} : read? s = some a ↔ s = a.chars := by
  constructor
  · intro h
    simp only [read?, Option.bind_eq_bind, Option.bind_eq_some_iff, Prod.exists, readOctet?_eq_some_iff,
      readDot?_eq_some_iff, Option.ite_none_right_eq_some, Option.some.injEq] at h
    obtain ⟨first, _, ⟨rfl, -⟩, _, rfl, second, _, ⟨rfl, -⟩, _, rfl, third, _, ⟨rfl, -⟩, _, rfl, fourth, _,
      ⟨rfl, -⟩, rfl, rfl⟩ := h
    rw [chars, List.append_nil]
  · rintro rfl
    exact read?_chars a

theorem mem_chars {a : Address} {c : Char} (h : c ∈ a.chars) : c.isDigit = true ∨ c = '.' := by
  simp only [chars, List.mem_append, List.mem_cons] at h
  rcases h with h | rfl | h | rfl | h | rfl | h
  case inr.inl | inr.inr.inr.inl | inr.inr.inr.inr.inr.inl => exact .inr rfl
  all_goals exact .inl (Numeral.isDigit_of_mem_digits h)

theorem chars_injective {a b : Address} (h : a.chars = b.chars) : a = b := by
  have hread := read?_chars a
  rw [h, read?_chars, Option.some.injEq] at hread
  exact hread.symm

end Address

/-! ### Flows -/

/-- A flow is read back from its text. -/
theorem Flow.read_text (f : Flow) : read f.text = .ok f := by
  have hlt := f.sourcePort.toNat_lt
  have htext : f.text.toList = f.innerSource.chars ++ ':' :: Numeral.digits f.sourcePort.toNat := by
    rw [text, Address.text, Numeral.text, String.toList_append, String.toList_append, String.toList_ofList,
      String.toList_ofList, String.toList_ofList, List.append_assoc]
    rfl
  rw [read, htext, Split.atLast?_append (Numeral.not_mem_digits rfl)]
  dsimp only
  rw [Address.read?_chars, Numeral.readNat_digits (by omega)]
  exact congrArg (fun port => Except.ok (Flow.mk f.innerSource port)) UInt16.ofNat_toNat

end LabelTunnel
