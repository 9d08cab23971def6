import Mathlib.Algebra.Group.Nat.Defs
import LabelTunnel.Proofs.Notation
import LabelTunnel.Proofs.Outcome

/-! Texts of flows. A flow is read from exactly those texts that are an address in dotted form, a colon and a
numeral of the port, and such a text is the text of its flow if the numeral is written as numbers are printed:
without a sign, and with no zero in front of other digits. Any other text is refused for the first thing that
is wrong with it: it has no colon, what stands in front of the last colon is no address, or what stands behind
it is no numeral of a port; and a numeral is refused for the first character from the left that spoils it. -/

namespace LabelTunnel

namespace Numeral

variable {limit n value : Nat} {beyond cause : Fault} {s cs : List Char} {c : Char}

/-! ### Numerals as they are printed -/

theorem digit_lt_ten (h : c.isDigit = true) : c.toNat - '0'.toNat < 10 := by
  have hbounds : 48 ≤ c.toNat ∧ c.toNat ≤ 57 := Char.isDigit_iff_toNat.1 h
  have hzero : '0'.toNat = 48 := rfl
  omega

theorem digitChar_digit (h : c.isDigit = true) : Nat.digitChar (c.toNat - '0'.toNat) = c := by
  have hbounds : 48 ≤ c.toNat ∧ c.toNat ≤ 57 := Char.isDigit_iff_toNat.1 h
  have hzero : '0'.toNat = 48 := rfl
  apply Char.toNat_inj.1
  rw [Nat.toNat_digitChar_of_lt_ten (digit_lt_ten h)]
  omega

/-- Digits behind the numeral of a number other than 0 make the numeral of the number that they are read to. -/
theorem digits_append (hpos : 0 < value) (hdigits : ∀ c ∈ cs, c.isDigit = true) :
    digits value ++ cs = digits (Nat.ofDigitChars 10 cs value) := by
  induction cs generalizing value with
  | nil => rw [List.append_nil, Nat.ofDigitChars_nil]
  | cons c cs ih =>
      obtain ⟨hc, hcs⟩ := List.forall_mem_cons.1 hdigits
      have hlt := digit_lt_ten hc
      have hnext : digits value ++ [c] = digits (10 * value + (c.toNat - '0'.toNat)) := by
        rw [digits, digits, ← Nat.toDigits_append_toDigits (by decide) hpos hlt, Nat.toDigits_of_lt_base hlt,
          digitChar_digit hc]
      rw [Nat.ofDigitChars_cons, ← ih (by omega) hcs, ← hnext, List.append_assoc, List.singleton_append]

theorem ofDigitChars_lt (hdigits : ∀ c ∈ cs, c.isDigit = true) : Nat.ofDigitChars 10 cs 0 < 10 ^ cs.length := by
  induction cs with
  | nil => decide
  | cons c cs ih =>
      obtain ⟨hc, hcs⟩ := List.forall_mem_cons.1 hdigits
      have hdigit : 10 ^ cs.length * (c.toNat - '0'.toNat) ≤ 10 ^ cs.length * 9 :=
        Nat.mul_le_mul_left _ (Nat.le_of_lt_succ (digit_lt_ten hc))
      have hrest := ih hcs
      rw [Nat.ofDigitChars_cons, Nat.mul_zero, Nat.zero_add, Nat.ofDigitChars_eq_ofDigitChars_zero,
        List.length_cons, Nat.pow_succ]
      omega

/-- Digits are what their value is printed as, unless a zero stands in front of others: it adds nothing to the
value, and the others alone are printed shorter. -/
theorem digits_ofDigitChars_eq_iff (hne : cs ≠ []) (hdigits : ∀ c ∈ cs, c.isDigit = true) :
    digits (Nat.ofDigitChars 10 cs 0) = cs ↔ ∀ rest, cs = '0' :: rest → rest = [] := by
  constructor
  · rintro hprinted rest rfl
    refine Decidable.byContradiction fun hrest => ?_
    have hvalue : Nat.ofDigitChars 10 ('0' :: rest) 0 < 10 ^ rest.length :=
      ofDigitChars_lt fun c hc => hdigits c (List.mem_cons_of_mem _ hc)
    have hlength := (Nat.length_toDigits_le_iff (by decide) (List.length_pos_iff.2 hrest)).2 hvalue
    rw [show Nat.toDigits 10 _ = _ from hprinted, List.length_cons] at hlength
    omega
  · intro hlead
    obtain ⟨c, rest, rfl⟩ := List.exists_cons_of_ne_nil hne
    obtain ⟨hc, hcs⟩ := List.forall_mem_cons.1 hdigits
    have hfirst : digits (c.toNat - '0'.toNat) = [c] := by
      rw [digits, Nat.toDigits_of_lt_base (digit_lt_ten hc), digitChar_digit hc]
    rw [Nat.ofDigitChars_cons, Nat.mul_zero, Nat.zero_add]
    cases Nat.eq_zero_or_pos (c.toNat - '0'.toNat) with
    | inl hzero =>
        obtain rfl : c = '0' := by rw [← digitChar_digit hc, hzero]; rfl
        rw [hlead rest rfl]
        rfl
    | inr hpos => rw [← digits_append hpos hcs, hfirst, List.singleton_append]

/-- A numeral is the printed one exactly if it has no sign and no zero in front of other digits. -/
theorem Spells.digits_eq_iff (h : Spells s n) : digits n = s ↔ '+' ∉ s ∧ ∀ rest, s = '0' :: rest → rest = [] := by
  obtain ⟨cs, rfl | rfl, hne, hdigits, rfl⟩ := h
  · have hplus : '+' ∉ s := fun hmem => absurd (hdigits _ hmem) (by decide)
    rw [and_iff_right hplus]
    exact digits_ofDigitChars_eq_iff hne hdigits
  · refine iff_of_false (digits_ne_cons rfl) ?_
    exact fun hsign => hsign.1 List.mem_cons_self

/-! ### Numerals that are refused -/

/-- The first character that keeps the text from being a numeral, read onto a value: it is no digit, or it is a
digit that takes the value past the limit. -/
def Spoilt (limit : Nat) (beyond : Fault) (value : Nat) (cs : List Char) (cause : Fault) : Prop :=
  ∃ before c after, cs = before ++ c :: after ∧ (∀ d ∈ before, d.isDigit = true) ∧
    Nat.ofDigitChars 10 before value ≤ limit ∧ (c.isDigit = false ∧ cause = .badDigit ∨
      c.isDigit = true ∧ limit < Nat.ofDigitChars 10 (before ++ [c]) value ∧ cause = beyond)

theorem spoilt_cons_of_not_isDigit (hc : c.isDigit = false) (hvalue : value ≤ limit) :
    Spoilt limit beyond value (c :: cs) cause ↔ cause = .badDigit := by
  constructor
  · rintro ⟨_ | ⟨d, before⟩, e, after, hcut, hdigits, -, hspoils⟩
    · obtain ⟨rfl, -⟩ := List.cons.inj hcut
      simpa [hc] using hspoils
    · obtain ⟨rfl, -⟩ := List.cons.inj hcut
      rw [hdigits _ List.mem_cons_self] at hc
      cases hc
  · rintro rfl
    exact ⟨[], c, cs, rfl, nofun, hvalue, .inl ⟨hc, rfl⟩⟩

theorem spoilt_cons_of_lt (hc : c.isDigit = true) (hvalue : value ≤ limit)
    (hlt : limit < 10 * value + (c.toNat - '0'.toNat)) :
    Spoilt limit beyond value (c :: cs) cause ↔ cause = beyond := by
  constructor
  · rintro ⟨_ | ⟨d, before⟩, e, after, hcut, -, hle, hspoils⟩
    · obtain ⟨rfl, -⟩ := List.cons.inj hcut
      rcases hspoils with ⟨hno, -⟩ | ⟨-, -, hcause⟩
      · exact absurd (hc.symm.trans hno) (by decide)
      · exact hcause
    · obtain ⟨rfl, -⟩ := List.cons.inj hcut
      rw [Nat.ofDigitChars_cons] at hle
      exact absurd (Nat.le_trans (le_ofDigitChars before _) hle) (Nat.not_le.2 hlt)
  · rintro rfl
    refine ⟨[], c, cs, rfl, nofun, hvalue, .inr ⟨hc, ?_, rfl⟩⟩
    rwa [List.nil_append, Nat.ofDigitChars_cons, Nat.ofDigitChars_nil]

theorem spoilt_cons_of_le (hc : c.isDigit = true) (hle : 10 * value + (c.toNat - '0'.toNat) ≤ limit) :
    Spoilt limit beyond value (c :: cs) cause ↔
      Spoilt limit beyond (10 * value + (c.toNat - '0'.toNat)) cs cause := by
  constructor
  · rintro ⟨_ | ⟨d, before⟩, e, after, hcut, hdigits, hbefore, hspoils⟩
    · obtain ⟨rfl, -⟩ := List.cons.inj hcut
      rw [List.nil_append, Nat.ofDigitChars_cons, Nat.ofDigitChars_nil] at hspoils
      rcases hspoils with ⟨hno, -⟩ | ⟨-, hlt, -⟩
      · exact absurd (hc.symm.trans hno) (by decide)
      · omega
    · obtain ⟨rfl, rfl⟩ := List.cons.inj hcut
      rw [Nat.ofDigitChars_cons] at hbefore
      rw [List.cons_append, Nat.ofDigitChars_cons] at hspoils
      exact ⟨before, e, after, rfl, (List.forall_mem_cons.1 hdigits).2, hbefore, hspoils⟩
  · rintro ⟨before, e, after, rfl, hdigits, hbefore, hspoils⟩
    refine ⟨c :: before, e, after, rfl, List.forall_mem_cons.2 ⟨hc, hdigits⟩, ?_, ?_⟩
    · rwa [Nat.ofDigitChars_cons]
    · rwa [List.cons_append, Nat.ofDigitChars_cons]

theorem readDigits_eq_error_iff (hvalue : value ≤ limit) :
    readDigits limit beyond value cs = .error cause ↔ Spoilt limit beyond value cs cause := by
  induction cs generalizing value with
  | nil =>
      refine iff_of_false nofun ?_
      rintro ⟨before, c, after, hcut, -⟩
      exact List.append_ne_nil_of_right_ne_nil before (List.cons_ne_nil c after) hcut.symm
  | cons c cs ih =>
      cases hc : c.isDigit with
      | false =>
          rw [spoilt_cons_of_not_isDigit hc hvalue, readDigits, digit?, hc, if_neg Bool.false_ne_true,
            Except.error.injEq, eq_comm]
      | true =>
          rw [readDigits, digit?, if_pos hc]
          dsimp only
          split
          · rename_i hle
            rw [spoilt_cons_of_le hc hle, ih hle]
          · rename_i hlt
            rw [spoilt_cons_of_lt hc hvalue (Nat.lt_of_not_le hlt), Except.error.injEq, eq_comm]

/-- Why a text is no numeral of a number up to the limit. It is empty, it is a sign and nothing else, or there
is a first character that spoils it, behind the plus sign that it may begin with. -/
inductive Refused (limit : Nat) : List Char → Fault → Prop
  | empty : Refused limit [] .empty
  | sign : Refused limit ['+'] .badDigit
  | signed {cs : List Char} {cause : Fault} (hspoilt : Spoilt limit .tooLarge 0 cs cause) :
      Refused limit ('+' :: cs) cause
  | unsigned {cs : List Char} {cause : Fault} (hsign : cs.head? ≠ some '+')
      (hspoilt : Spoilt limit .tooLarge 0 cs cause) : Refused limit cs cause

theorem readNat_eq_error_iff : readNat limit s = .error cause ↔ Refused limit s cause := by
  constructor
  · intro h
    unfold readNat at h
    split at h
    · cases h
      exact .empty
    · cases h
      exact .sign
    · exact .signed ((readDigits_eq_error_iff (Nat.zero_le _)).1 h)
    · rename_i hplus
      refine .unsigned ?_ ((readDigits_eq_error_iff (Nat.zero_le _)).1 h)
      cases s with
      | nil => exact nofun
      | cons c cs =>
          rintro ⟨⟩
          exact hplus cs rfl
  · intro h
    cases h with
    | empty => rfl
    | sign => rfl
    | @signed cs _ hspoilt =>
        have hne : cs ≠ [] := by
          rintro rfl
          cases (readDigits_eq_error_iff (Nat.zero_le limit)).2 hspoilt
        rw [readNat.eq_3 _ _ hne]
        exact (readDigits_eq_error_iff (Nat.zero_le _)).2 hspoilt
    | unsigned hsign hspoilt =>
        have hne : s ≠ [] := by
          rintro rfl
          cases (readDigits_eq_error_iff (Nat.zero_le limit)).2 hspoilt
        have hplus (rest : List Char) : s ≠ '+' :: rest := by
          rintro rfl
          exact hsign rfl
        rw [readNat.eq_4 _ _ hne (hplus _) fun rest => hplus rest]
        exact (readDigits_eq_error_iff (Nat.zero_le _)).2 hspoilt

end Numeral

/-! ### Flows -/

theorem Split.exists_last_cut {separator : Char} {s : List Char} (h : separator ∈ s) :
    ∃ left right, s = left ++ separator :: right ∧ separator ∉ right := by
  obtain ⟨before, after, hcut, hbefore⟩ := List.eq_append_cons_of_mem (List.mem_reverse.2 h)
  refine ⟨after.reverse, before.reverse, ?_, mt List.mem_reverse.1 hbefore⟩
  rw [← List.reverse_reverse s, hcut]
  simp

namespace Flow

variable {text : String} {f : Flow}

/-- Why a text is no flow, and the words that it is told so in: the first of the three that holds. -/
inductive Refused (text : String) : ParameterFault → String → Prop
  | colon (none : ':' ∉ text.toList) : Refused text .flowWithoutPort "expected ADDR:PORT"
  | address {address port : List Char} (cut : text.toList = address ++ ':' :: port) (last : ':' ∉ port)
      (bad : ∀ a : Address, address ≠ a.chars) :
      Refused text (.flowAddress (String.ofList address))
        ("bad address '" ++ String.ofList address ++ "': " ++ "invalid IPv4 address syntax")
  | port {a : Address} {port : List Char} {cause : Numeral.Fault} (cut : text.toList = a.chars ++ ':' :: port)
      (last : ':' ∉ port) (bad : Numeral.Refused 65535 port cause) :
      Refused text (.flowPort (String.ofList port) cause)
        ("bad port '" ++ String.ofList port ++ "': " ++ cause.message)

theorem toList_text (f : Flow) : f.text.toList = f.innerSource.chars ++ ':' :: Numeral.digits f.sourcePort.toNat := by
  simp [text, Address.text, Numeral.text]

theorem colon_not_mem_of_spells {port : List Char} {n : Nat} (h : Numeral.Spells port n) : ':' ∉ port := by
  intro hmem
  obtain ⟨cs, rfl | rfl, -, hdigits, -⟩ := h
  · exact absurd (hdigits _ hmem) (by decide)
  · exact absurd (hdigits _ ((List.mem_cons.1 hmem).resolve_left (by decide))) (by decide)

theorem read_of_spells {port : List Char} (hcut : text.toList = f.innerSource.chars ++ ':' :: port)
    (hspells : Numeral.Spells port f.sourcePort.toNat) : read text = .ok f := by
  have hport : Numeral.readNat 65535 port = .ok f.sourcePort.toNat :=
    Numeral.readNat_eq_ok_iff.2 ⟨hspells, Nat.le_of_lt_succ f.sourcePort.toNat_lt⟩
  have hback : f.sourcePort.toNat.toUInt16 = f.sourcePort := UInt16.ofNat_toNat
  simp only [read, hcut, Split.atLast?_append (colon_not_mem_of_spells hspells), Address.read?_chars, hport, hback]

theorem read_of_refused {cause : ParameterFault} {reason : String} (h : Refused text cause reason) :
    read text = .error (.parameter cause) := by
  cases h with
  | colon none => rw [read, Split.atLast?_eq_none none]
  | @address address port cut last bad =>
      have hread : Address.read? address = none :=
        Option.eq_none_iff_forall_ne_some.2 fun a ha => bad a (Address.read?_eq_some_iff.1 ha)
      simp only [read, cut, Split.atLast?_append last, hread]
  | port cut last bad =>
      simp only [read, cut, Split.atLast?_append last, Address.read?_chars, Numeral.readNat_eq_error_iff.2 bad]

/-- A text is made of the parts of a flow, or it is refused. -/
theorem formed_or_refused (text : String) :
    (∃ (f : Flow) (port : List Char), text.toList = f.innerSource.chars ++ ':' :: port ∧
      Numeral.Spells port f.sourcePort.toNat) ∨ ∃ cause reason, Refused text cause reason := by
  by_cases hcolon : ':' ∈ text.toList
  · obtain ⟨address, port, hcut, hlast⟩ := Split.exists_last_cut hcolon
    cases haddress : Address.read? address with
    | none =>
        refine .inr ⟨_, _, .address hcut hlast ?_⟩
        rintro a rfl
        rw [Address.read?_chars] at haddress
        cases haddress
    | some a =>
        obtain rfl := Address.read?_eq_some_iff.1 haddress
        cases hport : Numeral.readNat 65535 port with
        | error cause => exact .inr ⟨_, _, .port hcut hlast (Numeral.readNat_eq_error_iff.1 hport)⟩
        | ok n =>
            obtain ⟨hspells, hle⟩ := Numeral.readNat_eq_ok_iff.1 hport
            have hnat : n.toUInt16.toNat = n := Nat.mod_eq_of_lt (Nat.lt_succ_of_le hle)
            refine .inl ⟨⟨a, n.toUInt16⟩, port, hcut, ?_⟩
            rwa [hnat]
  · exact .inr ⟨_, _, .colon hcolon⟩

/-- How a text is read: as the flow whose parts it is made of, or not, for the reason it is refused for. -/
theorem read_iff (text : String) :
    (∀ f : Flow, read text = .ok f ↔ ∃ port, text.toList = f.innerSource.chars ++ ':' :: port ∧
      Numeral.Spells port f.sourcePort.toNat) ∧
    ∀ fault, read text = .error fault ↔ ∃ cause reason, fault = .parameter cause ∧ Refused text cause reason := by
  apply Outcome.iff_of_cases
  · rintro f ⟨port, hcut, hspells⟩
    exact read_of_spells hcut hspells
  · rintro fault ⟨cause, reason, rfl, hrefused⟩
    exact read_of_refused hrefused
  · rcases formed_or_refused text with hformed | ⟨cause, reason, hrefused⟩
    · exact .inl hformed
    · exact .inr ⟨_, cause, reason, rfl, hrefused⟩

theorem Refused.message_eq {cause : ParameterFault} {reason : String} (h : Refused text cause reason) :
    (Fault.parameter cause).message = "Invalid parameter 'flow': " ++ reason := by
  cases h with
  | colon | address | port => rfl

/-- Of all texts of a flow, the one that it is printed as has the port without a sign and without a zero in
front of other digits. -/
theorem text_eq_iff {port : List Char} (hcut : text.toList = f.innerSource.chars ++ ':' :: port)
    (hspells : Numeral.Spells port f.sourcePort.toNat) :
    f.text = text ↔ '+' ∉ port ∧ ∀ rest, port = '0' :: rest → rest = [] := by
  rw [← hspells.digits_eq_iff, ← String.toList_inj, toList_text, hcut, List.append_cancel_left_eq, List.cons.injEq,
    and_iff_right rfl]

/-- **Flows are read from their texts.** A flow is read back from what it is printed as. A text gives a flow
exactly if it is the flow's address, a colon and a numeral of its port, and it is what the flow is printed as
exactly if that numeral has no sign and no superfluous zeros. Every other text is refused, for the colon that it
lacks, else for the address in front of the last colon, else for the port behind it. -/
theorem read_by_form (text : String) :
    (∀ f : Flow, read f.text = .ok f) ∧
    (∀ f : Flow, read text = .ok f ↔ ∃ port, text.toList = f.innerSource.chars ++ ':' :: port ∧
      Numeral.Spells port f.sourcePort.toNat) ∧
    (∀ (a : Address) (port : List Char) (n : Nat), text.toList = a.chars ++ ':' :: port → Numeral.Spells port n →
      n ≤ 65535 → ∃ f : Flow, read text = .ok f ∧ f.innerSource = a ∧ f.sourcePort.toNat = n ∧
        (f.text = text ↔ '+' ∉ port ∧ ∀ rest, port = '0' :: rest → rest = [])) ∧
    (∀ fault, read text = .error fault ↔ ∃ cause reason, fault = .parameter cause ∧ Refused text cause reason) ∧
    (∀ cause reason, Refused text cause reason →
      (Fault.parameter cause).message = "Invalid parameter 'flow': " ++ reason) := by
  refine ⟨read_text, (read_iff text).1, ?_, (read_iff text).2, ?_⟩
  · intro a port n hcut hspells hle
    have hnat : n.toUInt16.toNat = n := Nat.mod_eq_of_lt (Nat.lt_succ_of_le hle)
    have hport : Numeral.Spells port (Flow.mk a n.toUInt16).sourcePort.toNat := hnat.symm ▸ hspells
    exact ⟨⟨a, n.toUInt16⟩, read_of_spells hcut hport, rfl, hnat, text_eq_iff hcut hport⟩
  · intro cause reason hrefused
    exact hrefused.message_eq

def sampleAddress : Address := ⟨100, 64, 0, 9⟩

/-- A flow whose port has a sign and zeros in front. -/
def samplePadded : String := "100.64.0.9:+06001"

/-- A port that is too large before it comes to a character that is no digit. -/
def sampleSpoilt : String := "100.64.0.9:65536x"

theorem read_by_form_samples :
    (∃ f : Flow, read samplePadded = .ok f ∧ f.innerSource = sampleAddress ∧ f.sourcePort.toNat = 6001 ∧
      f.text ≠ samplePadded) ∧
    Refused sampleSpoilt (.flowPort "65536x" .tooLarge)
      ("bad port '" ++ "65536x" ++ "': " ++ "number too large to fit in target type") ∧
    (Fault.parameter (.flowPort "65536x" .tooLarge)).message = "Invalid parameter 'flow': " ++
      ("bad port '" ++ "65536x" ++ "': " ++ "number too large to fit in target type") := by
  have hpadded : samplePadded.toList = sampleAddress.chars ++ ':' :: ['+', '0', '6', '0', '0', '1'] := by
    decide +kernel
  have hspells : Numeral.Spells ['+', '0', '6', '0', '0', '1'] 6001 :=
    ⟨['0', '6', '0', '0', '1'], .inr rfl, by decide, by simp, rfl⟩
  obtain ⟨f, hread, haddress, hport, htext⟩ :=
    (read_by_form samplePadded).2.2.1 _ _ _ hpadded hspells (by decide)
  have hspoilt : Numeral.Spoilt 65535 .tooLarge 0 ['6', '5', '5', '3', '6', 'x'] .tooLarge :=
    ⟨['6', '5', '5', '3'], '6', ['x'], rfl, by simp, by decide, .inr ⟨rfl, by decide, rfl⟩⟩
  have hcut : sampleSpoilt.toList = sampleAddress.chars ++ ':' :: ['6', '5', '5', '3', '6', 'x'] := by
    decide +kernel
  have hrefused : Refused sampleSpoilt (.flowPort "65536x" .tooLarge) _ :=
    .port hcut (by decide) (.unsigned (by decide) hspoilt)
  refine ⟨⟨f, hread, haddress, hport, ?_⟩, hrefused, ?_⟩
  · exact fun hsame => (htext.1 hsame).1 List.mem_cons_self
  · exact (read_by_form sampleSpoilt).2.2.2.2 _ _ hrefused

end Flow

end LabelTunnel
