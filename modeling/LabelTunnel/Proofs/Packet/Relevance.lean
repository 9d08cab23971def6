import LabelTunnel.Proofs.Packet.Acceptance

/-! Which octets count. A reader's fault depends on the length of its data and on the few octets that it
checks, and its result on the fields that it takes. So of a whole packet only those octets count that state
a version, a length, a protocol or a field of the result, each inside the layer around it; two strings
that agree in these are read alike, with the same packet or with the same fault. -/

namespace LabelTunnel

open InternetDatagram (headerLengthAt totalLengthAt HeadedAt)

variable {data other : Octets} {start stop : Nat}

/-! ### What the faults depend on -/

namespace Octets

/-- Parts of two strings have the same octet at an offset if the strings have, or the offset is outside. -/
theorem byteAt_slice_eq {offset : Nat} (h : stop ≤ data.length) (h' : stop ≤ other.length)
    (heq : start + offset < stop → data.byteAt (start + offset) = other.byteAt (start + offset)) :
    byteAt (data.slice start stop) offset = byteAt (other.slice start stop) offset := by
  by_cases hlt : start + offset < stop
  · rw [byteAt_slice data hlt, byteAt_slice other hlt, heq hlt]
  · have hend : (data.slice start stop).length ≤ offset := by
      rw [length_slice_of_le h]
      omega
    have hend' : (other.slice start stop).length ≤ offset := by
      rw [length_slice_of_le h']
      omega
    rw [byteAt_of_le hend, byteAt_of_le hend']

theorem length_slice_eq (h : stop ≤ data.length) (h' : stop ≤ other.length) :
    (data.slice start stop).length = (other.slice start stop).length := by
  rw [length_slice_of_le h, length_slice_of_le h']

theorem slice_eq_of_byteAt (h : stop ≤ data.length) (h' : stop ≤ other.length)
    (heq : ∀ offset, start ≤ offset → offset < stop → data.byteAt offset = other.byteAt offset) :
    data.slice start stop = other.slice start stop :=
  eq_of_byteAt (length_slice_eq h h') fun offset =>
    byteAt_slice_eq h h' fun hlt => heq _ (Nat.le_add_right start offset) hlt

end Octets

variable {a b : Octets} {fault : Fault}

theorem InternetDatagram.decode_eq_error_congr (hlength : a.length = b.length) (hfirst : a.byteAt 0 = b.byteAt 0)
    (htotal : a.wordAt 2 = b.wordAt 2) : decode a = .error fault ↔ decode b = .error fault := by
  simp only [decode, hlength, hfirst, htotal]
  split
  · rfl
  split
  · rfl
  split
  · rfl
  split
  · rfl
  · simp

theorem UserDatagram.decode_eq_error_congr (hlength : a.length = b.length) (hfield : a.wordAt 4 = b.wordAt 4) :
    decode a = .error fault ↔ decode b = .error fault := by
  simp only [decode, hlength, hfield]
  split
  · rfl
  split
  · rfl
  · simp

theorem EchoMessage.decode_eq_error_congr (hlength : a.length = b.length) :
    decode a = .error fault ↔ decode b = .error fault := by
  simp only [decode, hlength]
  split
  · rfl
  · simp

/-- Behind a first entry with the bottom bit nothing is read. -/
theorem LabelStack.decode_congr (hlength : a.length = b.length) (hfirst : ∀ i < 4, a.byteAt i = b.byteAt i)
    (hrest : a.byteAt 2 % 2 = 0 → a = b) : decode a = decode b := by
  by_cases hbottom : (LabelEntry.ofFieldsAt a 0).bottom = true
  · have hfields : LabelEntry.ofFields a = LabelEntry.ofFields b := by
      rw [LabelEntry.ofFields, LabelEntry.ofFields, hfirst 0 (by decide), hfirst 1 (by decide),
        hfirst 2 (by decide), hfirst 3 (by decide)]
    by_cases hroom : LabelEntry.size ≤ a.length
    · have hbottom' : (LabelEntry.ofFields a).bottom = true := hbottom
      rw [decode_of_le hroom, decode_of_le (hlength ▸ hroom), ← hfields, if_pos hbottom', if_pos hbottom']
    · rw [decode, decode, decodeAfter_of_lt (by omega), decodeAfter_of_lt (by omega)]
  · rw [LabelEntry.bottom_ofFieldsAt, ← UInt8.toNat_inj] at hbottom
    rw [hrest ?_]
    rw [← UInt8.toNat_inj]
    simp only [Nat.zero_add, UInt8.toNat_mod, UInt8.reduceToNat] at hbottom ⊢
    omega

/-! ### The octets that count -/

/-- The octets of an internet header that count: its version and length, the total length and the
identification, the time to live and the protocol, and the addresses. -/
def InternetDatagram.HeaderCounts (offset : Nat) : Prop :=
  offset = 0 ∨ (2 ≤ offset ∧ offset < 6) ∨ offset = 8 ∨ offset = 9 ∨ (12 ≤ offset ∧ offset < 20)

open InternetDatagram (HeaderCounts)

theorem InternetDatagram.headerLengthAt_congr (h : data.byteAt start = other.byteAt start) :
    headerLengthAt data start = headerLengthAt other start := by
  rw [headerLengthAt, headerLengthAt, h]

theorem InternetDatagram.totalLengthAt_congr
    (h : ∀ i, HeaderCounts i → data.byteAt (start + i) = other.byteAt (start + i)) :
    totalLengthAt data start = totalLengthAt other start := by
  rw [totalLengthAt, totalLengthAt, Octets.wordAt_eq_of_byteAt (h 2 (.inr (.inl (by decide))))
    (h 3 (.inr (.inl (by decide))))]

namespace Packet

theorem envelopeAt_congr (h : ∀ i, HeaderCounts i → data.byteAt (start + i) = other.byteAt (start + i)) :
    envelopeAt data start = envelopeAt other start := by
  have haddress (i : Nat) (hi : 12 ≤ i ∧ i ≤ 16) :
      Address.ofOctetsAt data (start + i) = .ofOctetsAt other (start + i) := by
    have hbyte (k : Nat) (hk : k < 4) : data.byteAt (start + i + k) = other.byteAt (start + i + k) := by
      rw [Nat.add_assoc]
      exact h _ (.inr (.inr (.inr (.inr (by omega)))))
    rw [Address.ofOctetsAt, Address.ofOctetsAt, hbyte 1 (by decide), hbyte 2 (by decide), hbyte 3 (by decide)]
    exact congrArg (Address.mk · _ _ _) (hbyte 0 (by decide))
  have hid : data.wordAt (start + 4) = other.wordAt (start + 4) :=
    Octets.wordAt_eq_of_byteAt (h 4 (.inr (.inl (by decide)))) (h 5 (.inr (.inl (by decide))))
  rw [envelopeAt, envelopeAt, haddress 12 (by decide), haddress 16 (by decide), hid,
    h 8 (.inr (.inr (.inl rfl)))]

/-- The octets of a packet that count, each only inside the part that the layer around it holds. What stands
behind a first label counts as labels only if that label is not the last one. -/
inductive Counts (data : Octets) : Nat → Prop
  | outer {i : Nat} : HeaderCounts i → Counts data i
  | tunnel {i : Nat} : i < 6 → tunnelAt data + i < totalLengthAt data 0 → Counts data (tunnelAt data + i)
  | label {i : Nat} : i < 4 → tunnelAt data + 8 + i < tunnelAt data + tunnelLength data →
      Counts data (tunnelAt data + 8 + i)
  | moreLabels {offset : Nat} : data.byteAt (tunnelAt data + 10) % 2 = 0 → innerAt data ≤ offset →
      offset < tunnelAt data + tunnelLength data → Counts data offset
  | inner {i : Nat} : HeaderCounts i → innerAt data + i < tunnelAt data + tunnelLength data →
      Counts data (innerAt data + i)
  | message {i : Nat} : i < 8 → i ≠ 2 → i ≠ 3 → messageAt data + i < messageEnd data →
      Counts data (messageAt data + i)
  | payload {offset : Nat} : messageAt data + 8 ≤ offset → offset < messageEnd data → Counts data offset

/-- Two strings agree in the octets that count, and both are as long as the outer total length states if
they differ in length. -/
structure Alike (data other : Octets) : Prop where
  length : data.length = other.length ∨ HeadedAt data 0 data.length ∧ totalLengthAt data 0 ≤ other.length
  bytes : ∀ offset, Counts data offset → data.byteAt offset = other.byteAt offset

namespace Alike

/-! The layers of two strings that are alike stand at the same places. -/

theorem byteAt_outer (h : Alike data other) (i : Nat) (hi : HeaderCounts i) :
    data.byteAt (0 + i) = other.byteAt (0 + i) := by
  rw [Nat.zero_add]
  exact h.bytes i (.outer hi)

theorem byteAt_zero (h : Alike data other) : data.byteAt 0 = other.byteAt 0 := h.byteAt_outer 0 (.inl rfl)

theorem tunnelAt_eq (h : Alike data other) : tunnelAt other = tunnelAt data :=
  (InternetDatagram.headerLengthAt_congr h.byteAt_zero).symm

theorem totalLengthAt_eq (h : Alike data other) : totalLengthAt other 0 = totalLengthAt data 0 :=
  (InternetDatagram.totalLengthAt_congr h.byteAt_outer).symm

theorem headed (h : Alike data other) (hhead : HeadedAt data 0 data.length)
    (hend : totalLengthAt data 0 ≤ other.length) : HeadedAt other 0 other.length := by
  obtain ⟨-, hversion, hheader, htotal, -⟩ := hhead
  have hlength : headerLengthAt other 0 = headerLengthAt data 0 := h.tunnelAt_eq
  refine ⟨by omega, ?_, ?_, ?_, ?_⟩
  · rw [← h.byteAt_zero, hversion]
  · rwa [hlength]
  · rwa [hlength, h.totalLengthAt_eq]
  · rwa [h.totalLengthAt_eq, Nat.zero_add]

theorem totalLengthAt_le (h : Alike data other) (hhead : HeadedAt data 0 data.length) :
    totalLengthAt data 0 ≤ other.length := by
  obtain hlength | ⟨-, hend⟩ := h.length
  · have hend := hhead.available
    omega
  · exact hend

theorem wordAt_tunnel (h : Alike data other) (hroom : tunnelAt data + 8 ≤ totalLengthAt data 0) {i : Nat}
    (hi : i + 1 < 6) : data.wordAt (tunnelAt data + i) = other.wordAt (tunnelAt data + i) :=
  Octets.wordAt_eq_of_byteAt (h.bytes _ (.tunnel (by omega) (by omega))) (h.bytes _ (.tunnel hi (by omega)))

theorem ports_eq (h : Alike data other) (hroom : tunnelAt data + 8 ≤ totalLengthAt data 0) :
    portsAt data (tunnelAt data) = portsAt other (tunnelAt data) := by
  have hsource : data.wordAt (tunnelAt data) = other.wordAt (tunnelAt data) :=
    h.wordAt_tunnel hroom (i := 0) (by decide)
  rw [portsAt, portsAt, hsource, h.wordAt_tunnel hroom (i := 2) (by decide)]

theorem payload_tunnel (h : Alike data other) (hroom : tunnelAt data + 8 ≤ totalLengthAt data 0) :
    (UserDatagram.ofFieldsAt other (tunnelAt data)).payload =
      other.slice (tunnelAt data + 8) (tunnelAt data + tunnelLength data) := by
  rw [UserDatagram.ofFieldsAt, tunnelLength, UserDatagram.lengthAt, UserDatagram.lengthAt,
    h.wordAt_tunnel hroom (i := 4) (by decide)]

theorem byteAt_inner (h : Alike data other) (hroom : innerAt data + 20 ≤ tunnelAt data + tunnelLength data)
    (i : Nat) (hi : HeaderCounts i) : data.byteAt (innerAt data + i) = other.byteAt (innerAt data + i) := by
  have hlt : i < 20 := by
    rw [HeaderCounts] at hi
    omega
  exact h.bytes _ (.inner hi (by omega))

theorem payload_inner (h : Alike data other) (hroom : innerAt data + 20 ≤ tunnelAt data + tunnelLength data) :
    (InternetDatagram.ofFieldsAt other (innerAt data)).payload = other.slice (messageAt data) (messageEnd data) := by
  have hfirst : data.byteAt (innerAt data) = other.byteAt (innerAt data) := h.byteAt_inner hroom 0 (.inl rfl)
  rw [InternetDatagram.ofFieldsAt, ← InternetDatagram.headerLengthAt_congr hfirst,
    ← InternetDatagram.totalLengthAt_congr (h.byteAt_inner hroom), messageAt, messageEnd]

theorem echo_eq (h : Alike data other) (hroom : messageAt data + 8 ≤ messageEnd data) :
    echoAt data (messageAt data) = echoAt other (messageAt data) := by
  have hbyte (i : Nat) (hi : i < 8) (hne : i ≠ 2 ∧ i ≠ 3) :
      data.byteAt (messageAt data + i) = other.byteAt (messageAt data + i) :=
    h.bytes _ (.message hi hne.1 hne.2 (by omega))
  have hkind : data.byteAt (messageAt data) = other.byteAt (messageAt data) := hbyte 0 (by decide) (by decide)
  rw [echoAt, echoAt, hkind, hbyte 1 (by decide) (by decide),
    Octets.wordAt_eq_of_byteAt (hbyte 4 (by decide) (by decide)) (hbyte 5 (by decide) (by decide)),
    Octets.wordAt_eq_of_byteAt (hbyte 6 (by decide) (by decide)) (hbyte 7 (by decide) (by decide))]

theorem payload_eq (h : Alike data other) (hpart : messageEnd data ≤ data.length)
    (hpart' : messageEnd data ≤ other.length) :
    data.slice (messageAt data + 8) (messageEnd data) = other.slice (messageAt data + 8) (messageEnd data) :=
  Octets.slice_eq_of_byteAt hpart hpart' fun _ hle hlt => h.bytes _ (.payload hle hlt)

/-! Each layer's reader fails alike on its parts of the two strings, or goes on with the fields at the same
places. -/

section

variable {β : Type}

theorem bind_outer (h : Alike data other) {f g : InternetDatagram → Except Fault β}
    (hnext : totalLengthAt data 0 ≤ data.length → totalLengthAt data 0 ≤ other.length →
      f (.ofFieldsAt data 0) = g (.ofFieldsAt other 0)) :
    (InternetDatagram.decode data >>= f) = (InternetDatagram.decode other >>= g) := by
  refine Outcome.bind_eq_bind (fun fault => ?_) ?_
  · obtain hlength | ⟨hhead, hend⟩ := h.length
    · refine InternetDatagram.decode_eq_error_congr hlength h.byteAt_zero ?_
      exact Octets.wordAt_eq_of_byteAt (h.byteAt_outer 2 (.inr (.inl (by decide))))
        (h.byteAt_outer 3 (.inr (.inl (by decide))))
    · rw [(decode_outer_iff data).2 ⟨hhead, rfl⟩, (decode_outer_iff other).2 ⟨h.headed hhead hend, rfl⟩]
      exact ⟨nofun, nofun⟩
  · intro outer outer' houter houter'
    obtain ⟨hhead, rfl⟩ := (decode_outer_iff data).1 houter
    obtain ⟨-, rfl⟩ := (decode_outer_iff other).1 houter'
    have hend : 0 + totalLengthAt data 0 ≤ data.length := hhead.available
    rw [Nat.zero_add] at hend
    exact hnext hend (h.totalLengthAt_le hhead)

theorem bind_tunnel (h : Alike data other) (hend : totalLengthAt data 0 ≤ data.length)
    (hend' : totalLengthAt data 0 ≤ other.length) {f g : UserDatagram → Except Fault β}
    (hnext : tunnelAt data + 8 ≤ totalLengthAt data 0 →
      tunnelAt data + tunnelLength data ≤ totalLengthAt data 0 →
      f (.ofFieldsAt data (tunnelAt data)) = g (.ofFieldsAt other (tunnelAt data))) :
    (UserDatagram.decode (data.slice (tunnelAt data) (totalLengthAt data 0)) >>= f) =
      (UserDatagram.decode (other.slice (tunnelAt data) (totalLengthAt data 0)) >>= g) := by
  have hbyte (i : Nat) (hi : i < 6) := Octets.byteAt_slice_eq hend hend' fun hlt => h.bytes _ (.tunnel hi hlt)
  refine Outcome.bind_eq_bind (fun fault => ?_) ?_
  · exact UserDatagram.decode_eq_error_congr (Octets.length_slice_eq hend hend')
      (Octets.wordAt_eq_of_byteAt (hbyte 4 (by decide)) (hbyte 5 (by decide)))
  · intro tunnel tunnel' htunnel htunnel'
    obtain ⟨⟨hroom, -, hfit⟩, rfl⟩ := (UserDatagram.decode_slice_eq_ok_iff hend).1 htunnel
    obtain ⟨-, rfl⟩ := (UserDatagram.decode_slice_eq_ok_iff hend').1 htunnel'
    exact hnext hroom hfit

/-- With the bottom bit clear all that is left of the tunnel counts. -/
theorem stack_eq (h : Alike data other) (hpart : tunnelAt data + tunnelLength data ≤ data.length)
    (hpart' : tunnelAt data + tunnelLength data ≤ other.length) :
    LabelStack.decode (data.slice (tunnelAt data + 8) (tunnelAt data + tunnelLength data)) =
      LabelStack.decode (other.slice (tunnelAt data + 8) (tunnelAt data + tunnelLength data)) := by
  refine LabelStack.decode_congr (Octets.length_slice_eq hpart hpart') ?_ ?_
  · intro i hi
    exact Octets.byteAt_slice_eq hpart hpart' fun hlt => h.bytes _ (.label hi hlt)
  · intro hmore
    refine Octets.slice_eq_of_byteAt hpart hpart' ?_
    intro offset hle hlt
    by_cases hfirst : offset < tunnelAt data + 12
    · obtain ⟨i, rfl⟩ := Nat.exists_eq_add_of_le hle
      exact h.bytes _ (.label (by omega) hlt)
    · rw [Octets.byteAt_slice data (by omega)] at hmore
      exact h.bytes _ (.moreLabels hmore (Nat.le_of_not_lt hfirst) hlt)

theorem bind_inner (h : Alike data other) (hpart : tunnelAt data + tunnelLength data ≤ data.length)
    (hpart' : tunnelAt data + tunnelLength data ≤ other.length) {f g : InternetDatagram → Except Fault β}
    (hnext : innerAt data + 20 ≤ tunnelAt data + tunnelLength data →
      messageEnd data ≤ tunnelAt data + tunnelLength data →
      f (.ofFieldsAt data (innerAt data)) = g (.ofFieldsAt other (innerAt data))) :
    (InternetDatagram.decode (data.slice (innerAt data) (tunnelAt data + tunnelLength data)) >>= f) =
      (InternetDatagram.decode (other.slice (innerAt data) (tunnelAt data + tunnelLength data)) >>= g) := by
  have hbyte (i : Nat) (hi : HeaderCounts i) :=
    Octets.byteAt_slice_eq hpart hpart' fun hlt => h.bytes _ (.inner hi hlt)
  refine Outcome.bind_eq_bind (fun fault => ?_) ?_
  · exact InternetDatagram.decode_eq_error_congr (Octets.length_slice_eq hpart hpart') (hbyte 0 (.inl rfl))
      (Octets.wordAt_eq_of_byteAt (hbyte 2 (.inr (.inl (by decide)))) (hbyte 3 (.inr (.inl (by decide)))))
  · intro inner inner' hinner hinner'
    obtain ⟨hhead, rfl⟩ := (InternetDatagram.decode_slice_eq_ok_iff hpart).1 hinner
    obtain ⟨-, rfl⟩ := (InternetDatagram.decode_slice_eq_ok_iff hpart').1 hinner'
    exact hnext hhead.room hhead.available

theorem bind_message (hend : messageEnd data ≤ data.length) (hend' : messageEnd data ≤ other.length)
    {f g : EchoMessage → Except Fault β}
    (hnext : messageAt data + 8 ≤ messageEnd data → f (.ofFieldsAt data (messageAt data) (messageEnd data)) =
      g (.ofFieldsAt other (messageAt data) (messageEnd data))) :
    (EchoMessage.decode (data.slice (messageAt data) (messageEnd data)) >>= f) =
      (EchoMessage.decode (other.slice (messageAt data) (messageEnd data)) >>= g) := by
  refine Outcome.bind_eq_bind (fun fault => ?_) ?_
  · exact EchoMessage.decode_eq_error_congr (Octets.length_slice_eq hend hend')
  · intro message message' hmessage hmessage'
    obtain ⟨hroom, rfl⟩ := (EchoMessage.decode_slice_eq_ok_iff hend).1 hmessage
    obtain ⟨-, rfl⟩ := (EchoMessage.decode_slice_eq_ok_iff hend').1 hmessage'
    exact hnext hroom

end

end Alike

/-- Strings that are alike are read alike: as the same packet, or with the same fault. They have the same stack,
and only behind a stack of one label is anything read. -/
theorem decode_eq_of_alike (h : Alike data other) : decode data = decode other := by
  unfold decode
  refine h.bind_outer fun hend hend' => ?_
  have hprotocol : (InternetDatagram.ofFieldsAt data 0).protocol = (InternetDatagram.ofFieldsAt other 0).protocol :=
    congrArg Protocol.ofNumber (h.byteAt_outer 9 (.inr (.inr (.inr (.inl rfl)))))
  rw [hprotocol]
  refine ite_congr rfl (fun _ => rfl) fun _ => ?_
  rw [payload_outer, payload_outer, h.tunnelAt_eq, h.totalLengthAt_eq]
  refine h.bind_tunnel hend hend' fun hroom hfit => ?_
  have hpart : tunnelAt data + tunnelLength data ≤ data.length := Nat.le_trans hfit hend
  have hpart' : tunnelAt data + tunnelLength data ≤ other.length := Nat.le_trans hfit hend'
  rw [payload_tunnel, h.payload_tunnel hroom, h.stack_eq hpart hpart']
  match LabelStack.decode (other.slice (tunnelAt data + 8) (tunnelAt data + tunnelLength data)) with
  | .error fault => rfl
  | .ok [] => rfl
  | .ok (_ :: _ :: _) => rfl
  | .ok [label] =>
      have hsize : LabelStack.size [label] = LabelEntry.size := rfl
      rw [Outcome.ok_bind, Outcome.ok_bind]
      dsimp only
      rw [hsize, drop_label, drop_label]
      refine h.bind_inner hpart hpart' fun hroom' hfit' => ?_
      have hprotocol' : (InternetDatagram.ofFieldsAt data (innerAt data)).protocol =
          (InternetDatagram.ofFieldsAt other (innerAt data)).protocol :=
        congrArg Protocol.ofNumber (h.byteAt_inner hroom' 9 (.inr (.inr (.inr (.inl rfl)))))
      rw [hprotocol']
      refine ite_congr rfl (fun _ => rfl) fun _ => ?_
      have hlast : messageEnd data ≤ data.length := Nat.le_trans hfit' hpart
      have hlast' : messageEnd data ≤ other.length := Nat.le_trans hfit' hpart'
      rw [payload_inner, h.payload_inner hroom']
      refine Alike.bind_message hlast hlast' fun hroom'' => ?_
      show Except.ok (Packet.mk (envelopeAt data 0) (portsAt data (tunnelAt data)) label
        (envelopeAt data (innerAt data)) (echoAt data (messageAt data))
        (data.slice (messageAt data + 8) (messageEnd data))) = _
      rw [envelopeAt_congr h.byteAt_outer, h.ports_eq hroom, envelopeAt_congr (h.byteAt_inner hroom'),
        h.echo_eq hroom'', h.payload_eq hlast hlast']
      rfl

/-- **Reading octets.** The reader never reads out of range and fails only because the octets are no packet.
It succeeds exactly if the layers fit in each other, with every field from its place, and no octet but those
that count has any influence on what it gives. -/
theorem decode_by_places (data : Octets) : (decode? data).Gives (decode data) ∧
    (∀ fault, decode data = .error fault → ∃ cause, fault = .parsing cause) ∧
    (∀ p, decode data = .ok p ↔ Accepted data ∧ p = ofFieldsAt data) ∧
    ∀ other, Alike data other → decode other = decode data := by
  refine ⟨gives_decode data, ?_, ?_, ?_⟩
  · intro fault h
    exact exists_parsing_of_decode h
  · intro p
    exact decode_eq_ok_iff_accepted
  · intro other h
    exact (decode_eq_of_alike h).symm

/-- The padded sample with other service types, fragment words, options and checksums, and more behind its
end. -/
def sampleAltered : Octets :=
  [0x46, 7, 0, 66, 0, 1, 0x21, 9, 64, 17, 3, 4, 10, 0, 0, 1, 10, 0, 0, 2, 9, 9, 9, 9,
    0x13, 0x88, 0x19, 0xEB, 0, 42, 5, 6, 0, 0x06, 0x41, 64,
    0x45, 8, 0, 30, 0, 1, 0x3F, 1, 64, 1, 7, 8, 192, 168, 0, 1, 192, 168, 0, 2,
    8, 0, 5, 6, 0, 1, 0, 1, 0x68, 0x69, 1, 2, 3]

theorem alike_sampleAltered : Alike samplePadded sampleAltered := by
  have htunnel : tunnelAt samplePadded = 24 := rfl
  have hend : tunnelAt samplePadded + tunnelLength samplePadded = 66 := rfl
  have hinner : innerAt samplePadded = 36 := rfl
  have hmessage : messageAt samplePadded = 56 := rfl
  have hlast : messageEnd samplePadded = 66 := rfl
  have hsame : ∀ i < 66, i ∉ [1, 6, 7, 10, 11, 20, 21, 22, 23, 30, 31, 37, 42, 43, 46, 47, 58, 59] →
      samplePadded.byteAt i = sampleAltered.byteAt i := by decide
  refine ⟨.inr ⟨⟨by decide, by decide, by decide, by decide, by decide⟩, by decide⟩, ?_⟩
  intro offset hcounts
  suffices hplace : offset < 66 ∧ offset ∉ [1, 6, 7, 10, 11, 20, 21, 22, 23, 30, 31, 37, 42, 43, 46, 47, 58, 59] from
    hsame offset hplace.1 hplace.2
  simp only [List.mem_cons, List.not_mem_nil, or_false]
  cases hcounts with
  | outer hi =>
      rw [HeaderCounts] at hi
      omega
  | tunnel => omega
  | label => omega
  | moreLabels hmore => exact absurd hmore (by decide)
  | inner hi =>
      rw [HeaderCounts] at hi
      omega
  | message => omega
  | payload => omega

theorem decode_by_places_sampleAltered : Alike samplePadded sampleAltered ∧
    decode sampleAltered = decode samplePadded :=
  ⟨alike_sampleAltered, (decode_by_places samplePadded).2.2.2 _ alike_sampleAltered⟩

end Packet

end LabelTunnel
