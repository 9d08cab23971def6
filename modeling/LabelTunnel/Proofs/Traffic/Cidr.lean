import Mathlib.Algebra.Group.Nat.Defs
import LabelTunnel.Layer.Label
import LabelTunnel.Proofs.Notation
import LabelTunnel.Proofs.Outcome
import LabelTunnel.Traffic.Cidr

/-! Labels that stand for addresses. A label is read from exactly those texts that are an address in dotted
form, one slash, and a length: a numeral of at most 32, or a netmask in dotted form. The label then depends on
the address alone: its last four digits are those of the number that the numerals of the octets make when they
are written one after the other, so it is one of ten thousand labels, all of which fit the label field. -/

namespace LabelTunnel

namespace Address

/-- The bits of the address are ones from the top down to some place, and zeros from there on. -/
def IsNetmask (mask : Address) : Prop :=
  ∃ length ≤ 32, ∀ i < 32, mask.toDoubleWord.toNat.testBit i = decide (32 - length ≤ i)

/-- The number that is written by a number's numeral with an octet's numeral behind it. -/
def appendNumeral (n : Nat) (octet : UInt8) : Nat :=
  n * 10 ^ (Numeral.digits octet.toNat).length + octet.toNat

/-- The number that is written by the numerals of the four octets, one after the other. -/
def joinedNumerals (a : Address) : Nat := a.octets.foldl appendNumeral 0

theorem length_digits_le (octet : UInt8) : (Numeral.digits octet.toNat).length ≤ 3 := by
  have hlt := octet.toNat_lt
  exact (Nat.length_toDigits_le_iff (by decide) (by decide)).2 (by omega)

theorem appendNumeral_le (n : Nat) (octet : UInt8) : appendNumeral n octet ≤ n * 1000 + 255 := by
  have hlt := octet.toNat_lt
  have hpower : 10 ^ (Numeral.digits octet.toNat).length ≤ 10 ^ 3 :=
    Nat.pow_le_pow_right (by decide) (length_digits_le octet)
  have hproduct := Nat.mul_le_mul_left n hpower
  rw [appendNumeral]
  omega

theorem joinedNumerals_le (a : Address) : joinedNumerals a ≤ 255255255255 := by
  have hfirst := appendNumeral_le 0 a.first
  have hsecond := appendNumeral_le (appendNumeral 0 a.first) a.second
  have hthird := appendNumeral_le (appendNumeral (appendNumeral 0 a.first) a.second) a.third
  have hfourth := appendNumeral_le
    (appendNumeral (appendNumeral (appendNumeral 0 a.first) a.second) a.third) a.fourth
  simp only [joinedNumerals, octets, List.foldl_cons, List.foldl_nil]
  omega

theorem ofDigitChars_digits (n : Nat) (octet : UInt8) :
    Nat.ofDigitChars 10 (Numeral.digits octet.toNat) n = appendNumeral n octet := by
  have hvalue : Nat.ofDigitChars 10 (Numeral.digits octet.toNat) 0 = octet.toNat :=
    Nat.ofDigitChars_ten_toDigits
  rw [Nat.ofDigitChars_eq_ofDigitChars_zero, hvalue, appendNumeral, Nat.mul_comm]

/-- Without its dots, a dotted form is the four numerals one after the other. -/
theorem filter_chars (a : Address) :
    a.chars.filter (· ≠ '.') = a.octets.flatMap fun octet => Numeral.digits octet.toNat := by
  have hdigits (octet : UInt8) :
      (Numeral.digits octet.toNat).filter (· ≠ '.') = Numeral.digits octet.toNat := by
    refine List.filter_eq_self.2 ?_
    intro c hc
    refine decide_eq_true ?_
    rintro rfl
    exact Numeral.not_mem_digits rfl hc
  have hdot (rest : List Char) : ('.' :: rest).filter (· ≠ '.') = rest.filter (· ≠ '.') :=
    List.filter_cons_of_neg (by decide)
  simp only [chars, List.filter_append, hdot, hdigits, octets, List.flatMap_cons, List.flatMap_nil,
    List.append_nil]

theorem ofDigitChars_filter_chars (a : Address) :
    Nat.ofDigitChars 10 (a.chars.filter (· ≠ '.')) 0 = joinedNumerals a := by
  simp only [filter_chars, octets, List.flatMap_cons, List.flatMap_nil, List.append_nil,
    Nat.ofDigitChars_append, ofDigitChars_digits, joinedNumerals, List.foldl_cons, List.foldl_nil]

end Address

namespace Cidr

/-! ### Lengths -/

/-- The text is a length: a numeral of at most 32, or a netmask in dotted form. -/
def IsLength (s : List Char) : Prop :=
  (∃ n ≤ 32, Numeral.Spells s n) ∨ ∃ mask : Address, s = mask.chars ∧ mask.IsNetmask

theorem netmask_eq {length : Nat} (h : length ≤ 32) : netmask length = (2 ^ length - 1) <<< (32 - length) := by
  have hpower : 2 ^ length * 2 ^ (32 - length) = 0x100000000 := by
    rw [← Nat.pow_add, Nat.add_sub_cancel' h]
  rw [netmask, Nat.shiftLeft_eq, Nat.shiftLeft_eq, Nat.sub_mul, hpower]

theorem testBit_netmask {length i : Nat} (h : length ≤ 32) (hi : i < 32) :
    (netmask length).testBit i = decide (32 - length ≤ i) := by
  rw [netmask_eq h, Nat.testBit_shiftLeft, Nat.testBit_two_pow_sub_one, ← Bool.decide_and, decide_eq_decide]
  omega

/-- A netmask is told by the bits of a double word, since neither number has a bit above them. -/
theorem eq_netmask_iff {length : Nat} (h : length ≤ 32) (w : UInt32) : w.toNat = netmask length ↔
    ∀ i < 32, w.toNat.testBit i = decide (32 - length ≤ i) := by
  constructor
  · intro heq i hi
    rw [heq, testBit_netmask h hi]
  · intro hbits
    apply Nat.eq_of_testBit_eq
    intro i
    by_cases hi : i < 32
    · rw [hbits i hi, testBit_netmask h hi]
    · have hpower : 2 ^ 32 ≤ 2 ^ i := Nat.pow_le_pow_right (by decide) (Nat.le_of_not_lt hi)
      have hnetmask : netmask length < 2 ^ 32 := by
        have hpositive : 0 < 1 <<< (32 - length) := by
          rw [Nat.shiftLeft_eq, Nat.one_mul]
          exact Nat.two_pow_pos _
        rw [netmask]
        omega
      rw [Nat.testBit_lt_two_pow (Nat.lt_of_lt_of_le w.toNat_lt hpower),
        Nat.testBit_lt_two_pow (Nat.lt_of_lt_of_le hnetmask hpower)]

theorem exists_lengthOfNetmask?_iff (mask : Address) :
    (∃ length, lengthOfNetmask? mask = some length) ↔ mask.IsNetmask := by
  rw [← Option.isSome_iff_exists, lengthOfNetmask?, List.find?_isSome, Address.IsNetmask]
  refine exists_congr fun length => ?_
  rw [List.mem_range, decide_eq_true_eq, Nat.lt_succ_iff]
  exact and_congr_right fun h => eq_netmask_iff h _

theorem isDigit_or_plus_of_spells {s : List Char} {n : Nat} (h : Numeral.Spells s n) {c : Char} (hc : c ∈ s) :
    c.isDigit = true ∨ c = '+' := by
  obtain ⟨cs, rfl | rfl, -, hdigits, -⟩ := h
  · exact .inl (hdigits c hc)
  · exact (List.mem_cons.1 hc).symm.imp_left (hdigits c)

/-- No numeral is an address: it has no dots. -/
theorem not_spells_chars (a : Address) (n : Nat) : ¬Numeral.Spells a.chars n := by
  intro h
  have hdot : '.' ∈ a.chars := List.mem_append_right _ List.mem_cons_self
  rcases isDigit_or_plus_of_spells h hdot with hdigit | hplus
  · exact absurd hdigit (by decide)
  · exact absurd hplus (by decide)

theorem exists_readLength?_iff {s : List Char} : (∃ length, readLength? s = some length) ↔ IsLength s := by
  rw [readLength?]
  cases hmask : Address.read? s with
  | some mask =>
      obtain rfl := Address.read?_eq_some_iff.1 hmask
      dsimp only
      rw [exists_lengthOfNetmask?_iff]
      constructor
      · intro h
        exact .inr ⟨mask, rfl, h⟩
      · rintro (⟨n, -, hspells⟩ | ⟨mask', heq, h⟩)
        · exact absurd hspells (not_spells_chars mask n)
        · rwa [Address.chars_injective heq]
  | none =>
      have hno (mask : Address) : s ≠ mask.chars := by
        rintro rfl
        rw [Address.read?_chars] at hmask
        cases hmask
      dsimp only
      constructor
      · rintro ⟨length, h⟩
        split at h
        · rename_i n hread
          rw [Option.ite_none_right_eq_some, Option.some.injEq] at h
          exact .inl ⟨n, h.1, (Numeral.readNat_eq_ok_iff.1 hread).1⟩
        · cases h
      · rintro (⟨n, hle, hspells⟩ | ⟨mask, heq, -⟩)
        · rw [Numeral.readNat_eq_ok_iff.2 ⟨hspells, by omega⟩]
          exact ⟨n, if_pos hle⟩
        · exact absurd heq (hno mask)

/-- Neither an address nor a length has a slash in it. -/
theorem slash_not_mem_chars (a : Address) : '/' ∉ a.chars := by
  intro h
  rcases Address.mem_chars h with hdigit | hdot
  · exact absurd hdigit (by decide)
  · exact absurd hdot (by decide)

theorem slash_not_mem_of_isLength {s : List Char} (h : IsLength s) : '/' ∉ s := by
  intro hslash
  rcases h with ⟨n, -, hspells⟩ | ⟨mask, rfl, -⟩
  · rcases isDigit_or_plus_of_spells hspells hslash with hdigit | hplus
    · exact absurd hdigit (by decide)
    · exact absurd hplus (by decide)
  · exact slash_not_mem_chars mask hslash

/-! ### Addresses with a length -/

variable {text : String} {c : Cidr} {fault : Fault}

theorem readParts_eq_ok_iff {address length : List Char} : readParts text address length = .ok c ↔
    '/' ∉ length ∧ address = c.address.chars ∧ readLength? length = some c.length := by
  rw [readParts, ← Address.read?_eq_some_iff]
  by_cases hslash : '/' ∈ length
  · simp [hslash]
  · rw [if_neg hslash, and_iff_right hslash]
    obtain ⟨a, n⟩ := c
    cases Address.read? address with
    | none => simp
    | some b => cases readLength? length <;> simp

theorem read_eq_ok_iff : read text = .ok c ↔ ∃ suffix, text.toList = c.address.chars ++ '/' :: suffix ∧
    readLength? suffix = some c.length := by
  rw [read]
  constructor
  · intro h
    split at h
    · cases h
    · rename_i address suffix hcut
      obtain ⟨-, rfl, hlength⟩ := readParts_eq_ok_iff.1 (Outcome.mapError_eq_ok_iff.1 h)
      exact ⟨suffix, (Split.atFirst?_eq_some _ hcut).1, hlength⟩
  · rintro ⟨suffix, htext, hlength⟩
    have hslash : '/' ∉ suffix := slash_not_mem_of_isLength (exists_readLength?_iff.1 ⟨_, hlength⟩)
    rw [htext, Split.atFirst?_append (slash_not_mem_chars c.address)]
    exact Outcome.mapError_eq_ok_iff.2 (readParts_eq_ok_iff.2 ⟨hslash, rfl, hlength⟩)

/-- Every fault is one of the parameter that holds the text. -/
theorem exists_parameter_of_read (h : read text = .error fault) :
    ∃ cause, fault = .parameter cause ∧ cause.name = "prefix" := by
  rw [read] at h
  split at h
  · cases h
    exact ⟨_, rfl, rfl⟩
  · obtain ⟨cause, -, rfl⟩ := Outcome.mapError_eq_error_iff.1 h
    exact ⟨_, rfl, rfl⟩

/-! ### Labels -/

theorem digitsNumber_eq (c : Cidr) : c.digitsNumber = c.address.joinedNumerals :=
  Address.ofDigitChars_filter_chars c.address

theorem toNat_label (c : Cidr) : c.label.toNat = 1000000 + c.address.joinedNumerals % 10000 := by
  have hbase : labelBase.toNat = 1000000 := rfl
  have hnat {value : Nat} (hvalue : value < 10000) : value.toUInt32.toNat = value :=
    Nat.mod_eq_of_lt (by omega)
  have hmod := Nat.mod_lt c.digitsNumber (by decide : 10000 > 0)
  rw [← digitsNumber_eq, label, UInt32.toNat_add, hbase, hnat hmod]
  omega

/-- The digits of an address are a numeral that 64 bits have room for. -/
theorem readNat_filter_chars (a : Address) :
    Numeral.readNat 0xFFFFFFFFFFFFFFFF (a.chars.filter (· ≠ '.')) = .ok a.joinedNumerals := by
  have hle := a.joinedNumerals_le
  have hfilter := a.filter_chars
  refine Numeral.readNat_eq_ok_iff.2 ⟨⟨_, .inl rfl, ?_, ?_, a.ofDigitChars_filter_chars⟩, by omega⟩
  · rw [hfilter, Address.octets, List.flatMap_cons]
    exact List.append_ne_nil_of_left_ne_nil (Numeral.digits_ne_nil _) _
  · intro c hc
    rw [hfilter] at hc
    obtain ⟨octet, -, hmem⟩ := List.mem_flatMap.1 hc
    exact Numeral.isDigit_of_mem_digits hmem

theorem readLabel_eq_ok_iff {label : UInt32} : readLabel text = .ok label ↔
    ∃ (a : Address) (suffix : List Char), text.toList = a.chars ++ '/' :: suffix ∧ IsLength suffix ∧
      label.toNat = 1000000 + a.joinedNumerals % 10000 := by
  simp only [readLabel, Outcome.map_eq_ok_iff, read_eq_ok_iff, ← exists_readLength?_iff]
  constructor
  · rintro ⟨c, ⟨suffix, htext, hlength⟩, rfl⟩
    exact ⟨c.address, suffix, htext, ⟨_, hlength⟩, c.toNat_label⟩
  · rintro ⟨a, suffix, htext, ⟨n, hlength⟩, hlabel⟩
    refine ⟨⟨a, n⟩, ⟨suffix, htext, hlength⟩, ?_⟩
    rw [← UInt32.toNat_inj, toNat_label, hlabel]

theorem count_slash {a : Address} {suffix : List Char} (htext : text.toList = a.chars ++ '/' :: suffix)
    (hlength : IsLength suffix) : text.toList.count '/' = 1 := by
  rw [htext, List.count_append, List.count_cons_self, List.count_eq_zero.2 (slash_not_mem_chars a),
    List.count_eq_zero.2 (slash_not_mem_of_isLength hlength)]

/-- **Labels read from addresses.** A text gives a label exactly if it has one slash, behind a dotted address
and in front of a length; any other text is refused as the parameter that it is. The label is a million and
the last four digits of the address written without dots, which always are a number of 64 bits; so it fits the
label field, and no length makes a difference to it. -/
theorem readLabel_by_form (text : String) :
    (∀ label, readLabel text = .ok label ↔ text.toList.count '/' = 1 ∧
      ∃ (a : Address) (suffix : List Char), text.toList = a.chars ++ '/' :: suffix ∧ IsLength suffix ∧
        label.toNat = 1000000 + a.joinedNumerals % 10000) ∧
    (∀ label, readLabel text = .ok label →
      1000000 ≤ label.toNat ∧ label.toNat ≤ 1009999 ∧ label ≤ LabelEntry.maxLabel) ∧
    (∀ fault, readLabel text = .error fault → ∃ cause, fault = .parameter cause ∧ cause.name = "prefix") ∧
    (∀ c, read text = .ok c →
      Numeral.readNat 0xFFFFFFFFFFFFFFFF (c.address.chars.filter (· ≠ '.')) = .ok c.digitsNumber) ∧
    ∀ (text' : String) (a : Address) (suffix suffix' : List Char), text.toList = a.chars ++ '/' :: suffix →
      text'.toList = a.chars ++ '/' :: suffix' → IsLength suffix → IsLength suffix' →
      readLabel text = readLabel text' := by
  refine ⟨?_, ?_, ?_, ?_, ?_⟩
  · intro label
    rw [readLabel_eq_ok_iff]
    constructor
    · rintro ⟨a, suffix, htext, hlength, hlabel⟩
      exact ⟨count_slash htext hlength, a, suffix, htext, hlength, hlabel⟩
    · exact And.right
  · intro label h
    obtain ⟨a, suffix, -, -, hlabel⟩ := readLabel_eq_ok_iff.1 h
    have hmax : LabelEntry.maxLabel.toNat = 1048575 := rfl
    rw [UInt32.le_iff_toNat_le, hmax]
    omega
  · intro fault h
    exact exists_parameter_of_read (Outcome.map_eq_error_iff.1 h)
  · intro c _
    rw [readNat_filter_chars, digitsNumber_eq]
  · intro text' a suffix suffix' htext htext' hlength hlength'
    have hlabel : (Cidr.mk a 0).label.toNat = 1000000 + a.joinedNumerals % 10000 := toNat_label _
    rw [readLabel_eq_ok_iff.2 ⟨a, suffix, htext, hlength, hlabel⟩,
      readLabel_eq_ok_iff.2 ⟨a, suffix', htext', hlength', hlabel⟩]

/-- An address with a netmask. Its last four digits come from three octets. -/
def sampleMasked : String := "192.0.1.2/255.255.255.248"

def sampleSigned : String := "192.0.1.2/+029"

def sampleDoubled : String := "1.2.3.4/24/24"

theorem readLabel_by_form_samples : readLabel sampleMasked = .ok 1002012 ∧
    (1000000 ≤ (1002012 : UInt32).toNat ∧ (1002012 : UInt32).toNat ≤ 1009999 ∧
      1002012 ≤ LabelEntry.maxLabel) ∧
    (read sampleMasked = .ok ⟨⟨192, 0, 1, 2⟩, 29⟩ ∧
      Numeral.readNat 0xFFFFFFFFFFFFFFFF ((Address.chars ⟨192, 0, 1, 2⟩).filter (· ≠ '.')) =
        .ok (Cidr.mk ⟨192, 0, 1, 2⟩ 29).digitsNumber) ∧
    readLabel sampleMasked = readLabel sampleSigned ∧
    ∃ cause, readLabel sampleDoubled = .error (.parameter cause) ∧ cause.name = "prefix" := by
  have hmask : IsLength (Address.chars ⟨255, 255, 255, 248⟩) := .inr ⟨_, rfl, 29, by decide, by decide⟩
  have hnumeral : IsLength ['+', '0', '2', '9'] :=
    .inl ⟨29, by decide, ['0', '2', '9'], .inr rfl, by decide, by simp, rfl⟩
  have hmasked : sampleMasked.toList =
      Address.chars ⟨192, 0, 1, 2⟩ ++ '/' :: Address.chars ⟨255, 255, 255, 248⟩ := by decide +kernel
  have hsigned : sampleSigned.toList =
      Address.chars ⟨192, 0, 1, 2⟩ ++ '/' :: ['+', '0', '2', '9'] := by decide +kernel
  have hread : read sampleMasked = .ok ⟨⟨192, 0, 1, 2⟩, 29⟩ :=
    read_eq_ok_iff.2 ⟨_, hmasked, by decide +kernel⟩
  obtain ⟨hform, hrange, -, hdigits, hsame⟩ := readLabel_by_form sampleMasked
  have hlabel := (hform 1002012).2 ⟨count_slash hmasked hmask, _, _, hmasked, hmask, by decide⟩
  refine ⟨hlabel, hrange _ hlabel, ⟨hread, hdigits _ hread⟩,
    hsame _ _ _ _ hmasked hsigned hmask hnumeral, ?_⟩
  obtain ⟨-, -, hfault, -, -⟩ := readLabel_by_form sampleDoubled
  obtain ⟨cause, hcause, hname⟩ :=
    hfault (.parameter (.cidrMalformed sampleDoubled (.manySlashes sampleDoubled))) rfl
  exact ⟨cause, hcause ▸ rfl, hname⟩

end Cidr

end LabelTunnel
