import LabelTunnel.Proofs.Packet.RoundTrip
import LabelTunnel.Traffic.Plan

/-! Drafts and the packets they become. Whatever the edits of a draft are, and in whatever order, only the last
one of each kind counts, where all layers that are given for a flow at once count as one edit of every kind. A
packet comes out exactly if every layer was given and the last label fits its field, and is then read back from
its octets as it is; otherwise the first layer from the outside in that was not given is reported, and a label
that does not fit only if none is missing. -/

namespace LabelTunnel

/-- How many layers there are around a layer. -/
def Layer.depth : Layer → Nat
  | .outer => 0
  | .udp => 1
  | .label => 2
  | .inner => 3
  | .echo => 4

namespace Draft

/-- The layer that an edit gives. The payload is none. -/
def Edit.layer? : Edit → Option Layer
  | .outer _ _ => some .outer
  | .ports _ _ => some .udp
  | .label _ _ => some .label
  | .inner _ _ => some .inner
  | .echoRequest => some .echo
  | .payload _ => none

/-- What a draft is begun with: nothing, or all layers for a flow of a plan. -/
inductive Beginning where
  | empty
  | layers (plan : Plan) (flow : Flow)

namespace Beginning

def draft : Beginning → Draft
  | .empty => {}
  | .layers plan flow => plan.draft flow

/-- The edits that a beginning stands for. -/
def edits : Beginning → List Edit
  | .empty => []
  | .layers plan flow => plan.edits flow

end Beginning

/-- A draft with edits made to its beginning. -/
def begun (start : Beginning) (edits : List Edit) : Draft := edits.foldl edit start.draft

variable {d : Draft} {e e' : Edit} {edits : List Edit} {layer : Layer} {kind : Option Layer} {q : Packet}
  {cause : ConstructionFault}

theorem begun_eq_ofEdits (start : Beginning) (edits : List Edit) :
    begun start edits = ofEdits (start.edits ++ edits) := by
  rw [ofEdits, List.foldl_append, begun]
  cases start with
  | empty | layers plan flow => rfl

/-! ### The last edit of a kind -/

/-- The last edit of a kind. -/
def last? (edits : List Edit) (kind : Option Layer) : Option Edit := (edits.filter fun e => e.layer? = kind).getLast?

/-- The layer is given by an edit. -/
def Gives (edits : List Edit) (layer : Layer) : Prop := ∃ e ∈ edits, e.layer? = some layer

theorem last?_append_singleton : last? (edits ++ [e]) kind = if e.layer? = kind then some e else last? edits kind := by
  rw [last?, List.filter_append, last?]
  by_cases h : e.layer? = kind
  · simp [h]
  · simp [h]

theorem layer?_of_last? (h : last? edits kind = some e) : e.layer? = kind :=
  of_decide_eq_true (List.mem_filter.1 (List.mem_of_getLast? h)).2

theorem exists_last?_iff : (∃ e, last? edits (some layer) = some e) ↔ Gives edits layer := by
  rw [← Option.isSome_iff_exists, last?, List.getLast?_isSome, ← List.length_pos_iff, List.length_pos_iff_exists_mem,
    Gives]
  simp

/-- The draft that these edits make, one of each kind at most. -/
def ofLast (last : Option Layer → Option Edit) : Draft where
  outer := (last (some .outer)).bind fun e => (edit {} e).outer
  ports := (last (some .udp)).bind fun e => (edit {} e).ports
  label := (last (some .label)).bind fun e => (edit {} e).label
  inner := (last (some .inner)).bind fun e => (edit {} e).inner
  echo := (last (some .echo)).bind fun e => (edit {} e).echo
  payload := ((last none).map fun e => (edit {} e).payload).getD []

/-- One more edit is the last one of its kind, and no other kind takes notice of it. -/
theorem edit_ofLast (edits : List Edit) (e : Edit) :
    (ofLast (last? edits)).edit e = ofLast (last? (edits ++ [e])) := by
  cases e <;> simp [edit, ofLast, last?_append_singleton, Edit.layer?]

/-- Of all edits, only the last one of each kind counts. -/
theorem ofEdits_eq_ofLast (edits : List Edit) : ofEdits edits = ofLast (last? edits) := by
  rw [← List.reverse_reverse edits]
  induction edits.reverse with
  | nil => rfl
  | cons e edits ih =>
      rw [List.reverse_cons, ofEdits, List.foldl_append, ← ofEdits, ih]
      exact edit_ofLast edits.reverse e

/-- Edits of different kinds write to different places of a draft. -/
theorem edit_comm (h : e.layer? ≠ e'.layer?) : (d.edit e).edit e' = (d.edit e').edit e := by
  cases e <;> cases e' <;> first | rfl | exact absurd rfl h

/-! ### What a draft is built to -/

/-- The packet has in every layer what the last edit of this layer gave, and the fixed values of a request. -/
structure Assembled (edits : List Edit) (q : Packet) : Prop where
  outer : ∃ source destination, last? edits (some .outer) = some (.outer source destination) ∧
    q.outer = { source, destination, ttl := 64, identification := 1 }
  ports : ∃ source destination, last? edits (some .udp) = some (.ports source destination) ∧
    q.ports = ⟨source, destination⟩
  label : ∃ label ttl, last? edits (some .label) = some (.label label ttl) ∧
    q.label = { label, trafficClass := 0, bottom := true, ttl }
  inner : ∃ source destination, last? edits (some .inner) = some (.inner source destination) ∧
    q.inner = { source, destination, ttl := 64, identification := 1 }
  echo : last? edits (some .echo) = some .echoRequest ∧
    q.echo = { kind := .request, code := 0, identifier := 0, sequence := 0 }
  payload : (∃ octets, last? edits none = some (.payload octets) ∧ q.payload = octets) ∨
    last? edits none = none ∧ q.payload = []

/-- Why no packet comes out: a layer is missing, and none around it is, or no layer is missing, and the last
label is too wide. -/
inductive FirstFault (edits : List Edit) : ConstructionFault → Prop
  | missing {layer : Layer} (around : ∀ l : Layer, l.depth < layer.depth → Gives edits l)
      (absent : ¬Gives edits layer) : FirstFault edits (.missing layer)
  | labelTooWide {label : UInt32} {ttl : UInt8} (complete : ∀ layer, Gives edits layer)
      (last : last? edits (some .label) = some (.label label ttl)) (wide : 0xFFFFF < label) :
      FirstFault edits (.labelTooWide label)

/-- Whether the layer of a draft is there. -/
def has (d : Draft) : Layer → Bool
  | .outer => d.outer.isSome
  | .udp => d.ports.isSome
  | .label => d.label.isSome
  | .inner => d.inner.isSome
  | .echo => d.echo.isSome

theorem has_edit (d : Draft) (e : Edit) (layer : Layer) :
    (d.edit e).has layer = (decide (e.layer? = some layer) || d.has layer) := by
  cases e <;> cases layer <;> rfl

theorem has_foldl_edit (edits : List Edit) (d : Draft) :
    (edits.foldl edit d).has layer = true ↔ d.has layer = true ∨ Gives edits layer := by
  induction edits generalizing d with
  | nil => simp [Gives]
  | cons e edits ih =>
      rw [List.foldl_cons, ih, has_edit, Bool.or_eq_true, decide_eq_true_iff]
      simp only [Gives, List.mem_cons, exists_eq_or_imp]
      rw [or_comm (a := e.layer? = some layer), or_assoc]

theorem has_ofEdits_iff : (ofEdits edits).has layer = true ↔ Gives edits layer := by
  rw [ofEdits, has_foldl_edit]
  have hempty : Draft.has {} layer = false := by cases layer <;> rfl
  simp [hempty]

/-- The first missing layer from the outside in stops the construction. -/
theorem build_of_missing (around : ∀ l : Layer, l.depth < layer.depth → d.has l = true)
    (absent : d.has layer = false) : d.build = .error (.construction (.missing layer)) := by
  obtain ⟨outer, ports, label, inner, echo, payload⟩ := d
  have none_of {α : Type} {slot : Option α} (h : slot.isSome = false) : slot = none :=
    Option.not_isSome_iff_eq_none.1 (ne_true_of_eq_false h)
  cases layer with
  | outer =>
      obtain rfl := none_of absent
      rfl
  | udp =>
      obtain ⟨outer, rfl⟩ := Option.isSome_iff_exists.1 (around .outer (by decide))
      obtain rfl := none_of absent
      rfl
  | label =>
      obtain ⟨outer, rfl⟩ := Option.isSome_iff_exists.1 (around .outer (by decide))
      obtain ⟨ports, rfl⟩ := Option.isSome_iff_exists.1 (around .udp (by decide))
      obtain rfl := none_of absent
      rfl
  | inner =>
      obtain ⟨outer, rfl⟩ := Option.isSome_iff_exists.1 (around .outer (by decide))
      obtain ⟨ports, rfl⟩ := Option.isSome_iff_exists.1 (around .udp (by decide))
      obtain ⟨label, rfl⟩ := Option.isSome_iff_exists.1 (around .label (by decide))
      obtain rfl := none_of absent
      rfl
  | echo =>
      obtain ⟨outer, rfl⟩ := Option.isSome_iff_exists.1 (around .outer (by decide))
      obtain ⟨ports, rfl⟩ := Option.isSome_iff_exists.1 (around .udp (by decide))
      obtain ⟨label, rfl⟩ := Option.isSome_iff_exists.1 (around .label (by decide))
      obtain ⟨inner, rfl⟩ := Option.isSome_iff_exists.1 (around .inner (by decide))
      obtain rfl := none_of absent
      rfl

/-- If every layer was given, the last edits put a packet together. -/
theorem exists_assembled (h : ∀ layer, Gives edits layer) : ∃ q, Assembled edits q := by
  have last_of (layer : Layer) : ∃ e, last? edits (some layer) = some e ∧ e.layer? = some layer := by
    obtain ⟨e, he⟩ := exists_last?_iff.2 (h layer)
    exact ⟨e, he, layer?_of_last? he⟩
  obtain ⟨source, destination, houter⟩ :
      ∃ source destination, last? edits (some .outer) = some (.outer source destination) := by
    obtain ⟨e, he, hkind⟩ := last_of .outer
    cases e with
    | outer source destination => exact ⟨source, destination, he⟩
    | _ => cases hkind
  obtain ⟨ports, hports⟩ :
      ∃ ports : Ports, last? edits (some .udp) = some (.ports ports.source ports.destination) := by
    obtain ⟨e, he, hkind⟩ := last_of .udp
    cases e with
    | ports source destination => exact ⟨⟨source, destination⟩, he⟩
    | _ => cases hkind
  obtain ⟨label, ttl, hlabel⟩ : ∃ label ttl, last? edits (some .label) = some (.label label ttl) := by
    obtain ⟨e, he, hkind⟩ := last_of .label
    cases e with
    | label label ttl => exact ⟨label, ttl, he⟩
    | _ => cases hkind
  obtain ⟨innerSource, innerDestination, hinner⟩ :
      ∃ source destination, last? edits (some .inner) = some (.inner source destination) := by
    obtain ⟨e, he, hkind⟩ := last_of .inner
    cases e with
    | inner source destination => exact ⟨source, destination, he⟩
    | _ => cases hkind
  have hecho : last? edits (some .echo) = some .echoRequest := by
    obtain ⟨e, he, hkind⟩ := last_of .echo
    cases e with
    | echoRequest => exact he
    | _ => cases hkind
  obtain ⟨octets, hpayload⟩ : ∃ octets, (∃ sent, last? edits none = some (.payload sent) ∧ octets = sent) ∨
      last? edits none = none ∧ octets = [] := by
    cases hlast : last? edits none with
    | none => exact ⟨[], .inr ⟨rfl, rfl⟩⟩
    | some e =>
        have hkind := layer?_of_last? hlast
        cases e with
        | payload sent => exact ⟨sent, .inl ⟨sent, rfl, rfl⟩⟩
        | _ => cases hkind
  exact ⟨⟨{ source, destination }, ports, ⟨label, 0, true, ttl⟩,
    { source := innerSource, destination := innerDestination }, {}, octets⟩, ⟨source, destination, houter, rfl⟩,
    ⟨_, _, hports, rfl⟩, ⟨label, ttl, hlabel, rfl⟩, ⟨innerSource, innerDestination, hinner, rfl⟩, ⟨hecho, rfl⟩,
    hpayload⟩

theorem Assembled.gives (h : Assembled edits q) (layer : Layer) : Gives edits layer := by
  rw [← exists_last?_iff]
  cases layer with
  | outer =>
      obtain ⟨_, _, hlast, -⟩ := h.outer
      exact ⟨_, hlast⟩
  | udp =>
      obtain ⟨_, _, hlast, -⟩ := h.ports
      exact ⟨_, hlast⟩
  | label =>
      obtain ⟨_, _, hlast, -⟩ := h.label
      exact ⟨_, hlast⟩
  | inner =>
      obtain ⟨_, _, hlast, -⟩ := h.inner
      exact ⟨_, hlast⟩
  | echo => exact ⟨_, h.echo.1⟩

/-- The draft of a packet that was put together. -/
theorem Assembled.ofEdits_eq (h : Assembled edits q) :
    ofEdits edits = ⟨some q.outer, some q.ports, some (q.label.label, q.label.ttl), some q.inner, some q.echo,
      q.payload⟩ := by
  obtain ⟨⟨_, _, houter, hqouter⟩, ⟨_, _, hports, hqports⟩, ⟨_, _, hlabel, hqlabel⟩, ⟨_, _, hinner, hqinner⟩,
    ⟨hecho, hqecho⟩, hpayload⟩ := h
  rw [ofEdits_eq_ofLast]
  rcases hpayload with ⟨_, hpayload, hqpayload⟩ | ⟨hpayload, hqpayload⟩ <;>
    simp [ofLast, houter, hqouter, hports, hqports, hlabel, hqlabel, hinner, hqinner, hecho, hqecho, hpayload,
      hqpayload, edit]

theorem single_eq_of_le {label : UInt32} (h : label ≤ 0xFFFFF) (ttl : UInt8) :
    LabelEntry.single label ttl = ⟨label, 0, true, ttl⟩ := by
  have hclass : (0 : UInt8) < 8 := by decide
  exact (LabelEntry.masked_eq_self_iff _).2 ⟨UInt32.lt_of_le_of_lt h (by decide), hclass⟩

theorem Assembled.build_eq (h : Assembled edits q) : (ofEdits edits).build =
    if 0xFFFFF < q.label.label then .error (.construction (.labelTooWide q.label.label)) else .ok q := by
  obtain ⟨label, ttl, -, hlabel⟩ := h.label
  rw [h.ofEdits_eq]
  show (if 0xFFFFF < q.label.label then _ else _) = _
  by_cases hwide : 0xFFFFF < q.label.label
  · rw [if_pos hwide, if_pos hwide]
    rfl
  · have hmasked : LabelEntry.single q.label.label q.label.ttl = q.label := by
      rw [single_eq_of_le (UInt32.not_lt.1 hwide), hlabel]
    rw [if_neg hwide, if_neg hwide, hmasked]
    rfl

/-- If a layer was not given, there is one that was not given while all around it were. -/
theorem exists_first_missing (h : ¬Gives edits layer) :
    ∃ first : Layer, (∀ l : Layer, l.depth < first.depth → Gives edits l) ∧ ¬Gives edits first := by
  induction hdepth : layer.depth using Nat.strongRecOn generalizing layer with
  | ind depth ih =>
      by_cases haround : ∀ l : Layer, l.depth < layer.depth → Gives edits l
      · exact ⟨layer, haround, h⟩
      · simp only [Classical.not_forall] at haround
        obtain ⟨l, hl, habsent⟩ := haround
        exact ih l.depth (hdepth ▸ hl) habsent rfl

theorem FirstFault.build_eq (h : FirstFault edits cause) : (ofEdits edits).build = .error (.construction cause) := by
  cases h with
  | missing around absent =>
      refine build_of_missing (fun l hl => has_ofEdits_iff.2 (around l hl)) ?_
      rwa [← Bool.not_eq_true, has_ofEdits_iff]
  | labelTooWide complete last wide =>
      obtain ⟨q, hq⟩ := exists_assembled complete
      obtain ⟨label, ttl, hlast, hlabel⟩ := hq.label
      cases hlast.symm.trans last
      rw [hq.build_eq, hlabel]
      exact if_pos wide

/-- How a draft is built: to the packet that the last edits put together, or not, for the first reason. -/
theorem build_ofEdits_iff (edits : List Edit) :
    (∀ q, (ofEdits edits).build = .ok q ↔ Assembled edits q ∧ q.label.label ≤ 0xFFFFF) ∧
    ∀ fault, (ofEdits edits).build = .error fault ↔ ∃ cause, fault = .construction cause ∧ FirstFault edits cause := by
  apply Outcome.iff_of_cases
  · rintro q ⟨hq, hfits⟩
    rw [hq.build_eq, if_neg (UInt32.not_lt.2 hfits)]
  · rintro fault ⟨cause, rfl, hfirst⟩
    exact hfirst.build_eq
  · by_cases hcomplete : ∀ layer, Gives edits layer
    · obtain ⟨q, hq⟩ := exists_assembled hcomplete
      by_cases hwide : 0xFFFFF < q.label.label
      · obtain ⟨label, ttl, hlast, hlabel⟩ := hq.label
        rw [hlabel] at hwide
        exact .inr ⟨_, _, rfl, .labelTooWide hcomplete hlast hwide⟩
      · exact .inl ⟨q, hq, UInt32.not_lt.1 hwide⟩
    · obtain ⟨layer, hlayer⟩ := Classical.not_forall.1 hcomplete
      obtain ⟨first, haround, habsent⟩ := exists_first_missing hlayer
      exact .inr ⟨_, _, rfl, .missing haround habsent⟩

theorem Assembled.exact (h : Assembled edits q) (hfits : q.label.label ≤ 0xFFFFF) : q.Exact := by
  obtain ⟨label, ttl, -, hlabel⟩ := h.label
  obtain ⟨-, hecho⟩ := h.echo
  refine ⟨UInt32.lt_of_le_of_lt hfits (by decide), ?_, ?_, ?_⟩
  · rw [hlabel]
    exact (by decide : (0 : UInt8) < 8)
  · rw [hlabel]
  · rw [hecho]
    exact ⟨nofun, nofun⟩

theorem exists_filter_edits (plan : Plan) (flow : Flow) (kind : Option Layer) :
    ∃ e, (plan.edits flow).filter (fun e => e.layer? = kind) = [e] := by
  rcases kind with _ | _ | _ | _ | _ | _ <;> exact ⟨_, rfl⟩

/-- **Only the last edit of each kind counts.** However a draft is begun and whatever edits follow, what it is
built to depends only on the last edit of each kind, where all layers for a flow are one edit of every kind;
neighbouring edits of different kinds can change places. It is built exactly if all layers were given and the
last label fits, and else the first missing layer is reported, or the label if none is missing. The packet has
the last values, its label uncut, and as far as it fits its length fields it is read back unchanged. -/
theorem build_by_last_edits (start : Beginning) (edits : List Edit) :
    (∀ (start' : Beginning) (edits' : List Edit), (∀ kind,
        last? (start.edits ++ edits) kind = last? (start'.edits ++ edits') kind) →
      (begun start edits).build = (begun start' edits').build) ∧
    (∀ (plan : Plan) (flow : Flow), start = .layers plan flow →
      ∀ kind, ∃ e, start.edits.filter (fun e => e.layer? = kind) = [e]) ∧
    (∀ (before after : List Edit) (e e' : Edit), edits = before ++ e :: e' :: after → e.layer? ≠ e'.layer? →
      begun start edits = begun start (before ++ e' :: e :: after)) ∧
    (∀ q, (begun start edits).build = .ok q ↔ Assembled (start.edits ++ edits) q ∧ q.label.label ≤ 0xFFFFF) ∧
    ((∃ q, (begun start edits).build = .ok q) ↔ (∀ layer, Gives (start.edits ++ edits) layer) ∧
      ∃ label ttl, last? (start.edits ++ edits) (some .label) = some (.label label ttl) ∧ label ≤ 0xFFFFF) ∧
    (∀ fault, (begun start edits).build = .error fault ↔
      ∃ cause, fault = .construction cause ∧ FirstFault (start.edits ++ edits) cause) ∧
    ∀ q, (begun start edits).build = .ok q → q.label.trafficClass = 0 ∧ q.label.bottom = true ∧
      (∃ ttl, last? (start.edits ++ edits) (some .label) = some (.label q.label.label ttl)) ∧
      (q.payload.length ≤ 65475 → ∃ bytes, q.encode = .ok bytes ∧ Packet.decode bytes = .ok q) := by
  have hbegun := begun_eq_ofEdits start edits
  obtain ⟨hok, herror⟩ := build_ofEdits_iff (start.edits ++ edits)
  rw [hbegun]
  refine ⟨?_, ?_, ?_, hok, ?_, herror, ?_⟩
  · intro start' edits' hlast
    rw [begun_eq_ofEdits, ofEdits_eq_ofLast, ofEdits_eq_ofLast, funext hlast]
  · rintro plan flow rfl kind
    exact exists_filter_edits plan flow kind
  · rintro before after e e' rfl hkinds
    rw [← hbegun, begun, begun, List.foldl_append, List.foldl_append, List.foldl_cons, List.foldl_cons,
      List.foldl_cons, List.foldl_cons, edit_comm hkinds]
  · constructor
    · rintro ⟨q, hq⟩
      obtain ⟨hassembled, hfits⟩ := (hok q).1 hq
      obtain ⟨label, ttl, hlast, hlabel⟩ := hassembled.label
      rw [hlabel] at hfits
      exact ⟨hassembled.gives, label, ttl, hlast, hfits⟩
    · rintro ⟨hcomplete, label, ttl, hlast, hfits⟩
      obtain ⟨q, hq⟩ := exists_assembled hcomplete
      obtain ⟨label', ttl', hlast', hlabel⟩ := hq.label
      cases hlast.symm.trans hlast'
      refine ⟨q, (hok q).2 ⟨hq, ?_⟩⟩
      rwa [hlabel]
  · intro q hq
    obtain ⟨hassembled, hfits⟩ := (hok q).1 hq
    obtain ⟨label, ttl, hlast, hlabel⟩ := hassembled.label
    have hexact := hassembled.exact hfits
    refine ⟨by rw [hlabel], by rw [hlabel], ⟨ttl, by rw [hlabel, hlast]⟩, ?_⟩
    intro hpayload
    obtain ⟨bytes, hencode⟩ := Packet.exists_encode hpayload
    exact ⟨bytes, hencode, (Packet.decode_encode_eq_ok_self_iff hencode).2 hexact⟩

def sampleStart : Beginning := .layers {} ⟨⟨100, 64, 0, 1⟩, 5001⟩

/-- A label that does not fit is given, and then one that does. -/
def sampleEdits : List Edit := [.label 0x100000 9, .payload [1, 2], .label 0xFFFFF 7]

def samplePacket : Packet where
  outer := { source := ⟨192, 168, 57, 30⟩, destination := ⟨192, 168, 57, 10⟩ }
  ports := ⟨5001, 6635⟩
  label := ⟨0xFFFFF, 0, true, 7⟩
  inner := { source := ⟨100, 64, 0, 1⟩, destination := ⟨1, 1, 1, 1⟩ }
  echo := {}
  payload := [1, 2]

theorem build_by_last_edits_sampleEdits :
    (begun sampleStart sampleEdits).build = (begun sampleStart [.label 0xFFFFF 7, .payload [1, 2]]).build ∧
    (∀ kind, ∃ e, sampleStart.edits.filter (fun e => e.layer? = kind) = [e]) ∧
    begun sampleStart sampleEdits = begun sampleStart [.payload [1, 2], .label 0x100000 9, .label 0xFFFFF 7] ∧
    (begun sampleStart sampleEdits).build = .ok samplePacket ∧
    (∃ bytes, samplePacket.encode = .ok bytes ∧ Packet.decode bytes = .ok samplePacket) ∧
    (begun sampleStart [.label 0x100000 9]).build = .error (.construction (.labelTooWide 0x100000)) ∧
    (begun .empty [.label 0x100000 9, .echoRequest]).build = .error (.construction (.missing .outer)) := by
  obtain ⟨hsame, hone, hswap, -, -, -, hbuilt⟩ := build_by_last_edits sampleStart sampleEdits
  obtain ⟨-, -, -, -, -, hwide, -⟩ := build_by_last_edits sampleStart [.label 0x100000 9]
  obtain ⟨-, -, -, -, -, hmissing, -⟩ := build_by_last_edits .empty [.label 0x100000 9, .echoRequest]
  have hbuild : (begun sampleStart sampleEdits).build = .ok samplePacket := rfl
  refine ⟨hsame _ _ ?_, hone _ _ rfl, hswap [] _ _ _ rfl (by decide), hbuild, (hbuilt _ hbuild).2.2.2 (by decide),
    (hwide _).2 ⟨_, rfl, .labelTooWide ?_ rfl (by decide)⟩, (hmissing _).2 ⟨_, rfl, .missing nofun ?_⟩⟩
  · rintro (_ | _ | _ | _ | _ | _) <;> rfl
  · intro layer
    rw [← exists_last?_iff]
    cases layer <;> exact ⟨_, rfl⟩
  · rintro ⟨e, he, hlayer⟩
    simp only [Beginning.edits, List.nil_append, List.mem_cons, List.not_mem_nil, or_false] at he
    rcases he with rfl | rfl <;> cases hlayer

end Draft

end LabelTunnel
