import LabelTunnel.Proofs.Notation

/-! What the one-line text of a packet tells. All its characters are printable, so it is one line whatever
the payload is. A field stands between two blanks and is written without one, so the line can be cut into
its fields; and a payload is written in forms of one, two or four characters that are read off one by one,
none of which begins with the quote that ends it. Hence two packets have one text only if they differ in
nothing but the two identifications, which the line leaves out. -/

namespace LabelTunnel

def Printable (c : Char) : Prop := 0x20 ≤ c.toNat ∧ c.toNat ≤ 0x7E

instance : DecidablePred Printable := fun _ => inferInstanceAs (Decidable (_ ∧ _))

def Prints (s : List Char) : Prop := ∀ c ∈ s, Printable c

instance : DecidablePred Prints := fun s => List.decidableBAll Printable s

theorem Prints.append {s t : List Char} (hs : Prints s) (ht : Prints t) : Prints (s ++ t) :=
  List.forall_mem_append.2 ⟨hs, ht⟩

theorem toNat_charOfNat {n : Nat} (h : n < 256) : (Char.ofNat n).toNat = n := by
  have hvalid : n.isValidChar := .inl (by omega)
  rw [Char.ofNat, dif_pos hvalid]
  rfl

namespace Packet

/-! ### The forms of a payload octet -/

/-- The octets that are shown by a letter or by themselves behind a backslash. -/
def letters : List (UInt8 × Char) :=
  [(9, 't'), (10, 'n'), (13, 'r'), (34, Char.ofNat 34), (39, Char.ofNat 39), (92, '\\')]

/-- The three forms in which an octet is shown. -/
inductive Form (octet : UInt8) : List Char → Prop
  | letter (c : Char) (known : (octet, c) ∈ letters) : Form octet ['\\', c]
  | itself (printable : 32 ≤ octet.toNat ∧ octet.toNat ≤ 126) (bare : octet ∉ letters.map Prod.fst) :
      Form octet [Char.ofNat octet.toNat]
  | digits : Form octet ['\\', 'x', Nat.digitChar (octet / 16).toNat, Nat.digitChar (octet % 16).toNat]

theorem form_escape (octet : UInt8) : Form octet (escape octet) := by
  unfold escape
  by_cases htab : octet = 9
  · rw [if_pos htab]
    exact .letter _ (by simp [htab, letters])
  by_cases hfeed : octet = 10
  · rw [if_neg htab, if_pos hfeed]
    exact .letter _ (by simp [hfeed, letters])
  by_cases hreturn : octet = 13
  · rw [if_neg htab, if_neg hfeed, if_pos hreturn]
    exact .letter _ (by simp [hreturn, letters])
  rw [if_neg htab, if_neg hfeed, if_neg hreturn]
  by_cases hquote : octet = 34 ∨ octet = 39 ∨ octet = 92
  · rw [if_pos hquote]
    refine .letter _ ?_
    rcases hquote with rfl | rfl | rfl <;> decide
  rw [if_neg hquote]
  by_cases hprintable : 32 ≤ octet ∧ octet ≤ 126
  · rw [if_pos hprintable]
    refine .itself ⟨UInt8.le_iff_toNat_le.1 hprintable.1, UInt8.le_iff_toNat_le.1 hprintable.2⟩ ?_
    simp only [not_or] at hquote
    simp [letters, htab, hfeed, hreturn, hquote]
  · rw [if_neg hprintable]
    exact .digits

/-- The value of a hexadecimal digit in lower case. -/
def hexValue (c : Char) : Nat := if c.isDigit then c.toNat - 48 else c.toNat - 87

/-- The octet that is shown by a character behind a backslash. -/
def ofLetter (c : Char) : UInt8 :=
  if c = 't' then 9 else if c = 'n' then 10 else if c = 'r' then 13 else c.toNat.toUInt8

/-- Reads what stands behind a backslash. -/
def unmark? : List Char → Option (UInt8 × List Char)
  | 'x' :: high :: low :: rest => some ((16 * hexValue high + hexValue low).toUInt8, rest)
  | c :: rest => if c = 'x' then none else some (ofLetter c, rest)
  | [] => none

/-- Reads one octet off the front of a text in which octets are shown. -/
def unescape? : List Char → Option (UInt8 × List Char)
  | c :: rest => if c = '\\' then unmark? rest else some (c.toNat.toUInt8, rest)
  | [] => none

theorem hexValue_digitChar {n : Nat} (h : n < 16) : hexValue (Nat.digitChar n) = n := by
  have hall : ∀ n < 16, hexValue (Nat.digitChar n) = n := by decide
  exact hall n h

theorem unmark?_letter {octet : UInt8} {c : Char} (h : (octet, c) ∈ letters) (rest : List Char) :
    unmark? (c :: rest) = some (octet, rest) := by
  have hletters : ∀ p ∈ letters, p.2 ≠ 'x' ∧ ofLetter p.2 = p.1 := by decide
  obtain ⟨hx, hoctet⟩ := hletters _ h
  rw [unmark?.eq_2 _ _ fun _ _ _ hc _ => hx hc, if_neg hx, hoctet]

theorem digits_lt (octet : UInt8) : (octet / 16).toNat < 16 ∧ (octet % 16).toNat < 16 := by
  have hlt := octet.toNat_lt
  have hhigh : (octet / 16).toNat = octet.toNat / 16 := UInt8.toNat_div _ _
  have hlow : (octet % 16).toNat = octet.toNat % 16 := UInt8.toNat_mod _ _
  omega

theorem unmark?_digits (octet : UInt8) (rest : List Char) :
    unmark? ('x' :: Nat.digitChar (octet / 16).toNat :: Nat.digitChar (octet % 16).toNat :: rest) =
      some (octet, rest) := by
  obtain ⟨hhigh, hlow⟩ := digits_lt octet
  rw [unmark?, hexValue_digitChar hhigh, hexValue_digitChar hlow, UInt8.toNat_div, UInt8.toNat_mod]
  show some ((16 * (octet.toNat / 16) + octet.toNat % 16).toUInt8, rest) = _
  rw [Nat.div_add_mod]
  exact congrArg (fun n => some (n, rest)) UInt8.ofNat_toNat

theorem charOfNat_ne {octet : UInt8} {n : Nat} (hn : n < 256) (h : octet.toNat ≠ n) :
    Char.ofNat octet.toNat ≠ Char.ofNat n := by
  intro heq
  have hnat := congrArg Char.toNat heq
  rw [toNat_charOfNat octet.toNat_lt, toNat_charOfNat hn] at hnat
  exact h hnat

/-- An octet is read back from the way it is shown, whatever stands behind it. -/
theorem unescape?_append {octet : UInt8} {shown : List Char} (h : Form octet shown) (rest : List Char) :
    unescape? (shown ++ rest) = some (octet, rest) := by
  cases h with
  | letter c known => exact unmark?_letter known rest
  | itself printable bare =>
      have hslash : Char.ofNat octet.toNat ≠ '\\' := by
        refine charOfNat_ne (by decide : 92 < 256) ?_
        intro heq
        obtain rfl : octet = 92 := UInt8.toNat_inj.1 heq
        exact bare (by decide)
      show (if Char.ofNat octet.toNat = '\\' then _ else _) = _
      rw [if_neg hslash, toNat_charOfNat octet.toNat_lt]
      exact congrArg (fun n => some (n, rest)) UInt8.ofNat_toNat
  | digits => exact unmark?_digits octet rest

/-- The character that ends a payload. -/
def quote : Char := Char.ofNat 39

theorem head_ne_quote {octet : UInt8} {shown : List Char} (h : Form octet shown) (rest s : List Char) :
    shown ++ rest ≠ quote :: s := by
  intro heq
  cases h with
  | letter c known => exact absurd (List.cons.inj heq).1 (by decide)
  | itself printable bare =>
      refine charOfNat_ne (by decide : 39 < 256) ?_ (List.cons.inj heq).1
      intro hoctet
      obtain rfl : octet = 39 := UInt8.toNat_inj.1 hoctet
      exact bare (by decide)
  | digits => exact absurd (List.cons.inj heq).1 (by decide)

/-- A payload is read back from the way it is shown, up to the quote that ends it. -/
theorem payload_eq_of_quoted {a b : Octets} {s t : List Char}
    (h : a.flatMap escape ++ quote :: s = b.flatMap escape ++ quote :: t) : a = b := by
  induction a generalizing b with
  | nil =>
      cases b with
      | nil => rfl
      | cons y b =>
          rw [List.flatMap_cons, List.append_assoc] at h
          exact absurd h.symm (head_ne_quote (form_escape y) _ _)
  | cons x a ih =>
      rw [List.flatMap_cons, List.append_assoc] at h
      cases b with
      | nil => exact absurd h (head_ne_quote (form_escape x) _ _)
      | cons y b =>
          rw [List.flatMap_cons, List.append_assoc] at h
          have hread := congrArg unescape? h
          rw [unescape?_append (form_escape x), unescape?_append (form_escape y), Option.some.injEq,
            Prod.mk.injEq] at hread
          rw [hread.1, ih hread.2]

/-! ### Fields between blanks -/

/-- The text prints and has no blanks, as the texts of all fields. -/
def Word (text : String) : Prop := Prints text.toList ∧ ' ' ∉ text.toList

instance : DecidablePred Word := fun _ => inferInstanceAs (Decidable (_ ∧ _))

/-- A line of fields, each of them with a caption behind it. -/
def captioned : List String → List String → List Char
  | text :: texts, caption :: captions => text.toList ++ (caption.toList ++ captioned texts captions)
  | _, _ => []

theorem Word.eq_of_append_blank {text text' : String} {s t : List Char} (h : Word text) (h' : Word text')
    (heq : text.toList ++ ' ' :: s = text'.toList ++ ' ' :: t) : text = text' ∧ s = t := by
  have hcut := congrArg (Split.atFirst? ' ') heq
  rw [Split.atFirst?_append h.2, Split.atFirst?_append h'.2, Option.some.injEq,
    Prod.mk.injEq] at hcut
  exact ⟨String.toList_inj.1 hcut.1, hcut.2⟩

/-- With the same captions, each of which begins with a blank, two lines of fields agree only if their
fields do. -/
theorem eq_of_captioned {texts texts' captions : List String} {s t : List Char}
    (hlength : texts.length = captions.length) (hlength' : texts'.length = captions.length)
    (hwords : ∀ text ∈ texts, Word text) (hwords' : ∀ text ∈ texts', Word text)
    (hblanks : ∀ caption ∈ captions, caption.toList.head? = some ' ')
    (h : captioned texts captions ++ s = captioned texts' captions ++ t) : texts = texts' ∧ s = t := by
  induction captions generalizing texts texts' with
  | nil =>
      obtain rfl := List.length_eq_zero_iff.1 hlength
      obtain rfl := List.length_eq_zero_iff.1 hlength'
      exact ⟨rfl, h⟩
  | cons caption captions ih =>
      obtain ⟨text, texts, rfl⟩ := List.exists_cons_of_length_eq_add_one hlength
      obtain ⟨text', texts', rfl⟩ := List.exists_cons_of_length_eq_add_one hlength'
      obtain ⟨hword, hmore⟩ := List.forall_mem_cons.1 hwords
      obtain ⟨hword', hmore'⟩ := List.forall_mem_cons.1 hwords'
      obtain ⟨hblank, hblanks⟩ := List.forall_mem_cons.1 hblanks
      obtain ⟨tail, htail⟩ := List.head?_eq_some_iff.1 hblank
      simp only [captioned, htail, List.append_assoc, List.cons_append] at h
      obtain ⟨rfl, hrest⟩ := hword.eq_of_append_blank hword' h
      obtain ⟨rfl, hst⟩ := ih (Nat.succ.inj hlength) (Nat.succ.inj hlength') hmore hmore' hblanks
        (List.append_cancel_left hrest)
      exact ⟨rfl, hst⟩

/-! ### The texts of the fields -/

theorem printable_of_isDigit {c : Char} (h : c.isDigit = true) : Printable c := by
  have hrange := Char.isDigit_iff_toNat.1 h
  have hzero : '0'.toNat = 48 := rfl
  have hnine : '9'.toNat = 57 := rfl
  exact ⟨by omega, by omega⟩

theorem word_numeral (n : Nat) : Word (Numeral.text n) := by
  rw [Word, Numeral.text, String.toList_ofList]
  exact ⟨fun c hc => printable_of_isDigit (Numeral.isDigit_of_mem_digits hc), Numeral.not_mem_digits rfl⟩

theorem word_address (a : Address) : Word a.text := by
  rw [Word, Address.text, String.toList_ofList]
  constructor
  · intro c hc
    rcases Address.mem_chars hc with hdigit | rfl
    · exact printable_of_isDigit hdigit
    · decide
  · intro hblank
    rcases Address.mem_chars hblank with hdigit | hdot
    · exact absurd hdigit (by decide)
    · exact absurd hdot (by decide)

theorem Word.append {text text' : String} (h : Word text) (h' : Word text') : Word (text ++ text') := by
  rw [Word, String.toList_append]
  exact ⟨h.1.append h'.1, fun hblank => (List.mem_append.1 hblank).elim h.2 h'.2⟩

theorem word_kind (kind : EchoKind) : Word kind.text := by
  cases kind with
  | reply => decide
  | request => decide
  | other n => exact .append (by decide) (word_numeral n.toNat)

end Packet

theorem Numeral.text_inj {n m : Nat} : Numeral.text n = Numeral.text m ↔ n = m := by
  constructor
  · intro h
    have hvalue := congrArg (fun text => Nat.ofDigitChars 10 text.toList 0) h
    simpa only [Numeral.text, Numeral.digits, String.toList_ofList, Nat.ofDigitChars_ten_toDigits] using hvalue
  · rintro rfl
    rfl

theorem Address.text_inj {a b : Address} : a.text = b.text ↔ a = b := by
  constructor
  · intro h
    exact Address.chars_injective (String.ofList_injective h)
  · rintro rfl
    rfl

/-- The text of a numbered kind begins with another letter than that of a named one. -/
theorem EchoKind.text_inj {a b : EchoKind} : a.text = b.text ↔ a = b := by
  have hnamed {n : UInt8} {name : String} (hhead : name.toList.head? = some 'e') :
      (EchoKind.other n).text ≠ name := by
    rintro rfl
    rw [text, String.toList_append] at hhead
    exact absurd hhead (by simp)
  constructor
  · intro h
    cases a with
    | reply =>
        cases b with
        | reply => rfl
        | request => exact absurd h (by decide)
        | other n => exact absurd h.symm (hnamed rfl)
    | request =>
        cases b with
        | reply => exact absurd h (by decide)
        | request => rfl
        | other n => exact absurd h.symm (hnamed rfl)
    | other n =>
        cases b with
        | reply => exact absurd h (hnamed rfl)
        | request => exact absurd h (hnamed rfl)
        | other m =>
            have hnumber := Numeral.text_inj.1 ((String.append_right_inj _).1 h)
            rw [UInt8.toNat_inj.1 hnumber]
  · rintro rfl
    rfl

namespace Packet

variable {p q : Packet}

/-- The fields in front of the payload, as the line shows them. -/
def texts (p : Packet) : List String :=
  [p.outer.source.text, p.outer.destination.text, Numeral.text p.outer.ttl.toNat,
    Numeral.text p.ports.source.toNat, Numeral.text p.ports.destination.toNat,
    Numeral.text p.label.label.toNat, Numeral.text p.label.trafficClass.toNat,
    Numeral.text p.label.bottom.toNat, Numeral.text p.label.ttl.toNat,
    p.inner.source.text, p.inner.destination.text, Numeral.text p.inner.ttl.toNat,
    p.echo.kind.text, Numeral.text p.echo.code.toNat, Numeral.text p.echo.identifier.toNat,
    Numeral.text p.echo.sequence.toNat]

/-- What the line has behind each of these fields. -/
def captions : List String :=
  [" dst=", " proto=udp ttl=", " |<UDP sport=", " dport=", " |<MPLS label=", " exp=", " s=", " ttl=",
    " |<IP src=", " dst=", " proto=icmp ttl=", " |<ICMP type=", " code=", " id=", " seq=", " |<Raw load="]

/-- What stands behind a payload of so many octets. -/
def closing (length : Nat) : List Char :=
  " (".toList ++ ((Numeral.text length).toList ++ " bytes) |>>>>>>".toList)

theorem toList_summary (p : Packet) : p.summary.toList =
    "<IP src=".toList ++ (captioned p.texts captions ++
      quote :: (p.payload.flatMap escape ++ quote :: closing p.payload.length)) := by
  have hload : " |<Raw load='".toList = " |<Raw load=".toList ++ [quote] := by decide
  have hmpls : " |<MPLS label=".toList = " |<".toList ++ "MPLS label=".toList := by decide
  have hclose : "' (".toList = quote :: " (".toList := by decide
  unfold summary LabelEntry.text payloadText closing
  simp only [String.toList_append, String.toList_ofList, hload, hmpls, hclose, captioned, captions, texts,
    List.append_assoc, List.cons_append, List.nil_append]

theorem length_texts (p : Packet) : p.texts.length = captions.length := rfl

theorem words_texts (p : Packet) : ∀ text ∈ p.texts, Word text := by
  simp [texts, word_numeral, word_address, word_kind]

/-- The packet with other identifications. -/
def identified (p : Packet) (outer inner : UInt16) : Packet :=
  { p with
    outer := { p.outer with identification := outer }
    inner := { p.inner with identification := inner } }

theorem eq_identified_of_texts (h : p.texts = q.texts) (hpayload : p.payload = q.payload) :
    q = p.identified q.outer.identification q.inner.identification := by
  have hbit {a b : Bool} : a.toNat = b.toNat ↔ a = b := by cases a <;> cases b <;> decide
  obtain ⟨outer, ⟨source, destination⟩, ⟨label, trafficClass, bottom, ttl⟩, inner,
    ⟨kind, code, identifier, sequence⟩, payload⟩ := p
  simp only [texts, List.cons.injEq, Numeral.text_inj, Address.text_inj, EchoKind.text_inj, UInt8.toNat_inj,
    UInt16.toNat_inj, UInt32.toNat_inj, hbit, and_true] at h
  obtain rfl : payload = q.payload := hpayload
  simp only [identified, h]

/-- The texts of two packets agree exactly if the packets do, their identifications apart. -/
theorem summary_eq_iff : p.summary = q.summary ↔ ∃ outer inner, q = p.identified outer inner := by
  have hblanks : ∀ caption ∈ captions, caption.toList.head? = some ' ' := by decide
  constructor
  · intro h
    have hline := congrArg String.toList h
    rw [toList_summary, toList_summary] at hline
    obtain ⟨htexts, hrest⟩ := eq_of_captioned p.length_texts q.length_texts p.words_texts q.words_texts hblanks
      (List.append_cancel_left hline)
    have hpayload := payload_eq_of_quoted (List.cons.inj hrest).2
    exact ⟨_, _, eq_identified_of_texts htexts hpayload⟩
  · rintro ⟨outer, inner, rfl⟩
    rfl

/-! ### Printable characters -/

theorem prints_of_form {octet : UInt8} {shown : List Char} (h : Form octet shown) : Prints shown := by
  cases h with
  | letter c known =>
      have hletters : ∀ p ∈ letters, Prints ['\\', p.2] := by decide
      exact hletters _ known
  | itself printable bare =>
      intro c hc
      obtain rfl := List.mem_singleton.1 hc
      rwa [Printable, toNat_charOfNat octet.toNat_lt]
  | digits =>
      have hdigits : ∀ n < 16, Printable (Nat.digitChar n) := by decide
      obtain ⟨hhigh, hlow⟩ := digits_lt octet
      exact List.forall_mem_cons.2 ⟨by decide, List.forall_mem_cons.2 ⟨by decide, List.forall_mem_cons.2
        ⟨hdigits _ hhigh, List.forall_mem_singleton.2 (hdigits _ hlow)⟩⟩⟩

theorem prints_captioned {texts captions : List String} (hwords : ∀ text ∈ texts, Word text)
    (hcaptions : ∀ caption ∈ captions, Prints caption.toList) : Prints (captioned texts captions) := by
  induction captions generalizing texts with
  | nil => cases texts <;> exact nofun
  | cons caption captions ih =>
      cases texts with
      | nil => exact nofun
      | cons text texts =>
          obtain ⟨hword, hmore⟩ := List.forall_mem_cons.1 hwords
          obtain ⟨hcaption, hcaptions⟩ := List.forall_mem_cons.1 hcaptions
          exact hword.1.append (hcaption.append (ih hmore hcaptions))

theorem prints_summary (p : Packet) : Prints p.summary.toList := by
  have hcaptions : ∀ caption ∈ captions, Prints caption.toList := by decide
  have hquote : Prints [quote] := by decide
  have hpayload : Prints (p.payload.flatMap escape) := by
    intro c hc
    obtain ⟨octet, -, hshown⟩ := List.mem_flatMap.1 hc
    exact prints_of_form (form_escape octet) c hshown
  have hclosing : Prints (closing p.payload.length) :=
    .append (by decide) ((word_numeral _).1.append (by decide))
  rw [toList_summary]
  exact .append (by decide) ((prints_captioned p.words_texts hcaptions).append
    (hquote.append (hpayload.append (hquote.append hclosing))))

/-- **The text of a packet tells all but its identifications.** It is one line of printable characters, and
two packets have the same line exactly if one is the other with other identifications; so payloads that
differ, in whatever octets, never look alike. -/
theorem summary_faithful (p q : Packet) :
    (∀ c ∈ p.summary.toList, 0x20 ≤ c.toNat ∧ c.toNat ≤ 0x7E) ∧
    (p.summary = q.summary ↔ ∃ outer inner, q = p.identified outer inner) ∧
    (p.payload ≠ q.payload → p.summary ≠ q.summary) := by
  refine ⟨p.prints_summary, summary_eq_iff, ?_⟩
  intro hpayload hsummary
  obtain ⟨outer, inner, rfl⟩ := summary_eq_iff.1 hsummary
  exact hpayload rfl

/-- A packet that carries these octets. -/
def sampleCarrying (payload : Octets) : Packet where
  outer := { source := ⟨192, 168, 57, 30⟩, destination := ⟨192, 168, 57, 10⟩ }
  ports := ⟨5001, 6635⟩
  label := ⟨1004051, 9, false, 64⟩
  inner := { source := ⟨100, 64, 0, 1⟩, destination := ⟨1, 1, 1, 1⟩ }
  echo := { kind := .other 8 }
  payload

/-- An octet that is shown by its digits, and four octets that spell these digits. -/
theorem summary_faithful_lookAlikes :
    let p := sampleCarrying [0]
    let q := sampleCarrying [92, 120, 48, 48]
    ('\\' ∈ p.summary.toList ∧ 0x20 ≤ '\\'.toNat ∧ '\\'.toNat ≤ 0x7E) ∧
    p.summary = (p.identified 7 8).summary ∧
    (p.payload ≠ q.payload ∧ p.summary ≠ q.summary) := by
  intro p q
  have hmem : '\\' ∈ p.summary.toList := by
    rw [toList_summary]
    exact List.mem_append_right _ (List.mem_append_right _ (List.mem_cons_of_mem _
      (List.mem_append_left _ (by decide))))
  have hpayload : p.payload ≠ q.payload := by decide
  obtain ⟨hprintable, -, hdiffer⟩ := summary_faithful p q
  exact ⟨⟨hmem, hprintable _ hmem⟩, (summary_faithful p (p.identified 7 8)).2.1.2 ⟨7, 8, rfl⟩,
    hpayload, hdiffer hpayload⟩

end Packet

end LabelTunnel
