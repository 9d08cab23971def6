import LabelTunnel.Proofs.Emission.Calls
import LabelTunnel.Proofs.Traffic.Plan

/-! Sweeps: the calls of one cycle. Each packet has its passage of up to three calls, line, flush and
send; the first one that fails ends the passage and with it the sweep. A sweep goes over the packets in
order until one fails or the emission is found stopped. So it is a number of packets that were taken,
the first ones of the cycle, and behind them at most one passage that failed. -/

namespace LabelTunnel

variable {destination : Address} {time sent : Nat} {packets rest : List Packet} {p : Packet}
  {calls more : List Call} {fault : Fault}

/-- The calls for one packet, `flow` being its number in the cycle, and what they come to. -/
inductive Passage (destination : Address) (time flow : Nat) (p : Packet) :
    List Call → Except Fault Unit → Prop
  | unwritten (reason : String) (a : Bool) : Passage destination time flow p
      [⟨.wrote p.traceLine (.error reason), a⟩] (.error (.io reason))
  | unflushed (reason : String) (a b : Bool) : Passage destination time flow p
      [⟨.wrote p.traceLine (.ok ()), a⟩, ⟨.flushed (.error reason), b⟩] (.error (.io reason))
  | refused (reason : String) (a b c : Bool) : Passage destination time flow p
      [⟨.wrote p.traceLine (.ok ()), a⟩, ⟨.flushed (.ok ()), b⟩,
        ⟨.sent ⟨time, destination, p.octets⟩ (.error reason), c⟩]
      (.error (.transmission flow destination reason))
  | taken (accepted : UInt64) (a b c : Bool) : Passage destination time flow p
      [⟨.wrote p.traceLine (.ok ()), a⟩, ⟨.flushed (.ok ()), b⟩,
        ⟨.sent ⟨time, destination, p.octets⟩ (.ok accepted), c⟩] (.ok ())

/-- The calls for the packets that are left of a cycle, `sent` of them being out already, and what they
come to. Behind a passage that asked for a stop there is nothing more. -/
inductive Sweep (destination : Address) (time : Nat) :
    Nat → List Packet → List Call → Except Fault Nat → Prop
  | full (sent : Nat) : Sweep destination time sent [] [] (.ok sent)
  | cut (sent : Nat) (p : Packet) (rest : List Packet) : Sweep destination time sent (p :: rest) [] (.ok sent)
  | broken {sent : Nat} {p : Packet} {calls : List Call} {fault : Fault}
      (passage : Passage destination time (sent + 1) p calls (.error fault)) (rest : List Packet) :
      Sweep destination time sent (p :: rest) calls (.error fault)
  | next {sent : Nat} {p : Packet} {rest : List Packet} {calls more : List Call} {result : Except Fault Nat}
      (passage : Passage destination time (sent + 1) p calls (.ok ()))
      (sweep : Sweep destination time (sent + 1) rest more result)
      (stopped : calls.any Call.stops = true → more = []) :
      Sweep destination time sent (p :: rest) (calls ++ more) result

/-! ### What a sweep is made of -/

/-- A packet that was taken, with the transmitter's answer and with who asked for a stop meanwhile. -/
structure Delivery where
  time : Nat
  packet : Packet
  accepted : UInt64
  lineStops : Bool
  flushStops : Bool
  sendStops : Bool

namespace Delivery

def log (destination : Address) (d : Delivery) : List Call :=
  [⟨.wrote d.packet.traceLine (.ok ()), d.lineStops⟩, ⟨.flushed (.ok ()), d.flushStops⟩,
    ⟨.sent ⟨d.time, destination, d.packet.octets⟩ (.ok d.accepted), d.sendStops⟩]

def slot (d : Delivery) : Nat × Packet := (d.time, d.packet)

/-- What is picked from the calls of deliveries, one item from each delivery. -/
theorem filterMap_log {β : Type} {f : Call → Option β} {g : Delivery → β}
    (h : ∀ d : Delivery, (d.log destination).filterMap f = [g d]) (taken : List Delivery) :
    (taken.flatMap (log destination)).filterMap f = taken.map g := by
  induction taken with
  | nil => rfl
  | cons d taken ih => rw [List.flatMap_cons, List.filterMap_append, h, ih, List.map_cons, List.singleton_append]

theorem failed_of_mem_log (taken : List Delivery) :
    ∀ c ∈ taken.flatMap (log destination), c.entry.failed = false := by
  intro c hc
  obtain ⟨d, -, hc⟩ := List.mem_flatMap.1 hc
  simp only [log, List.mem_cons, List.not_mem_nil, or_false] at hc
  rcases hc with rfl | rfl | rfl <;> rfl

variable (taken : List Delivery)

@[simp] theorem accepted_log : Call.accepted (taken.flatMap (log destination)) = taken.map accepted :=
  filterMap_log (fun _ => rfl) taken

@[simp] theorem parcels_log : Call.parcels (taken.flatMap (log destination)) =
    taken.map fun d => ⟨d.time, destination, d.packet.octets⟩ :=
  filterMap_log (fun _ => rfl) taken

@[simp] theorem lines_log : Call.lines (taken.flatMap (log destination)) =
    taken.map fun d => d.packet.traceLine :=
  filterMap_log (fun _ => rfl) taken

@[simp] theorem refusals_log : Call.refusals (taken.flatMap (log destination)) = [] := by
  induction taken with
  | nil => rfl
  | cons d taken ih =>
      rw [List.flatMap_cons, Call.refusals_append, ih, List.append_nil]
      rfl

end Delivery

/-- What is left of the calls of a sweep, and its result, behind the packets that were taken. -/
inductive Sweep.Ending (destination : Address) (time sent : Nat) (rest : List Packet)
    (taken : List Delivery) : List Call → Except Fault Nat → Prop
  | ok (slots : taken.map Delivery.slot <+: rest.map (Prod.mk time)) :
      Ending destination time sent rest taken [] (.ok (sent + taken.length))
  | error {p : Packet} {tail : List Call} {fault : Fault}
      (slots : taken.map Delivery.slot ++ [(time, p)] <+: rest.map (Prod.mk time))
      (passage : Passage destination time (sent + taken.length + 1) p tail (.error fault)) :
      Ending destination time sent rest taken tail (.error fault)

namespace Passage

theorem exists_delivery (h : Passage destination time sent p calls (.ok ())) :
    ∃ d : Delivery, d.slot = (time, p) ∧ calls = d.log destination := by
  cases h with
  | taken accepted a b c => exact ⟨⟨time, p, accepted, a, b, c⟩, rfl, rfl⟩

theorem accepted_eq_nil (h : Passage destination time sent p calls (.error fault)) : Call.accepted calls = [] := by
  cases h <;> rfl

theorem exists_failed (h : Passage destination time sent p calls (.error fault)) :
    ∃ c ∈ calls, c.entry.failed = true := by
  cases h with
  | unwritten reason a => exact ⟨_, List.mem_singleton_self _, rfl⟩
  | unflushed reason a b => exact ⟨_, List.mem_cons_of_mem _ (List.mem_singleton_self _), rfl⟩
  | refused reason a b c =>
      exact ⟨_, List.mem_cons_of_mem _ (List.mem_cons_of_mem _ (List.mem_singleton_self _)), rfl⟩

/-- A passage that failed has handed over its packet, or has handed over nothing. -/
theorem prefix_times (h : Passage destination time sent p calls (.error fault)) :
    (Call.parcels calls).map Parcel.time <+: [time] := by
  cases h with
  | unwritten reason a | unflushed reason a b => exact List.nil_prefix
  | refused reason a b c => exact List.prefix_rfl

theorem length_parcels_le (h : Passage destination time sent p calls (.error fault)) :
    (Call.parcels calls).length ≤ 1 := by
  have hlength := h.prefix_times.length_le
  rwa [List.length_map] at hlength

end Passage

namespace Sweep

theorem exists_taken {result : Except Fault Nat} (h : Sweep destination time sent rest calls result) :
    ∃ (taken : List Delivery) (tail : List Call), calls = taken.flatMap (Delivery.log destination) ++ tail ∧
      Ending destination time sent rest taken tail result := by
  induction h with
  | full sent => exact ⟨[], [], rfl, .ok List.prefix_rfl⟩
  | cut sent p rest => exact ⟨[], [], rfl, .ok List.nil_prefix⟩
  | broken passage rest => exact ⟨[], _, rfl, .error (List.prefix_append [_] _) passage⟩
  | @next sent p rest calls more result passage _ _ ih =>
      obtain ⟨d, hslot, rfl⟩ := passage.exists_delivery
      obtain ⟨taken, tail, rfl, hending⟩ := ih
      refine ⟨d :: taken, tail, ?_, ?_⟩
      · rw [List.flatMap_cons, List.append_assoc]
      · have hcount : sent + 1 + taken.length = sent + (d :: taken).length := by
          rw [List.length_cons]
          omega
        cases hending with
        | ok slots =>
            rw [hcount]
            exact .ok (List.cons_prefix_cons.2 ⟨hslot, slots⟩)
        | error slots passage =>
            rw [hcount] at passage
            exact .error (List.cons_prefix_cons.2 ⟨hslot, slots⟩) passage

theorem exists_taken_of_ok {n : Nat} (h : Sweep destination time sent rest calls (.ok n)) :
    ∃ taken : List Delivery, calls = taken.flatMap (Delivery.log destination) ∧
      taken.map Delivery.slot <+: rest.map (Prod.mk time) ∧ n = sent + taken.length := by
  obtain ⟨taken, tail, rfl, hending⟩ := h.exists_taken
  cases hending with
  | ok slots => exact ⟨taken, List.append_nil _, slots, rfl⟩

theorem exists_taken_of_error (h : Sweep destination time sent rest calls (.error fault)) :
    ∃ (taken : List Delivery) (tail : List Call) (p : Packet),
      calls = taken.flatMap (Delivery.log destination) ++ tail ∧
      taken.map Delivery.slot ++ [(time, p)] <+: rest.map (Prod.mk time) ∧
      Passage destination time (sent + taken.length + 1) p tail (.error fault) := by
  obtain ⟨taken, tail, rfl, hending⟩ := h.exists_taken
  cases hending with
  | error slots passage => exact ⟨taken, tail, _, rfl, slots, passage⟩

/-- A full sweep has taken all packets, in their order. -/
theorem exists_taken_of_full (h : Sweep destination time 0 rest calls (.ok rest.length)) :
    ∃ taken : List Delivery, calls = taken.flatMap (Delivery.log destination) ∧
      taken.map Delivery.slot = rest.map (Prod.mk time) := by
  obtain ⟨taken, hcalls, hslots, hcount⟩ := h.exists_taken_of_ok
  refine ⟨taken, hcalls, hslots.eq_of_length ?_⟩
  rw [List.length_map, List.length_map, hcount, Nat.zero_add]

theorem le_of_ok {n : Nat} (h : Sweep destination time sent rest calls (.ok n)) : n ≤ sent + rest.length := by
  obtain ⟨taken, -, hslots, hcount⟩ := h.exists_taken_of_ok
  have hlength := hslots.length_le
  rw [List.length_map, List.length_map] at hlength
  omega

theorem exists_failed (h : Sweep destination time sent rest calls (.error fault)) :
    ∃ c ∈ calls, c.entry.failed = true := by
  obtain ⟨taken, tail, p, rfl, -, hpassage⟩ := h.exists_taken_of_error
  obtain ⟨c, hc, hfailed⟩ := hpassage.exists_failed
  exact ⟨c, List.mem_append_right _ hc, hfailed⟩

/-- A sweep hands over no packet twice, whether it is taken or refused. -/
theorem length_parcels_le {result : Except Fault Nat} (h : Sweep destination time sent rest calls result) :
    (Call.parcels calls).length ≤ rest.length := by
  cases result with
  | ok n =>
      obtain ⟨taken, rfl, hslots, -⟩ := h.exists_taken_of_ok
      have hlength := hslots.length_le
      simpa using hlength
  | error fault =>
      obtain ⟨taken, tail, p, rfl, hslots, hpassage⟩ := h.exists_taken_of_error
      have hlength := hslots.length_le
      have htail := hpassage.length_parcels_le
      simp only [List.length_append, List.length_map, List.length_singleton] at hlength
      rw [Call.parcels_append, Delivery.parcels_log, List.length_append, List.length_map]
      omega

end Sweep

/-! ### The last call -/

namespace Call

def NoneCloses (calls : List Call) : Prop := ∀ c ∈ calls, c.closes = false

def OnlyLastCloses (calls : List Call) : Prop := NoneCloses calls.dropLast

theorem NoneCloses.append (h : NoneCloses calls) (h' : NoneCloses more) : NoneCloses (calls ++ more) := by
  intro c hc
  exact (List.mem_append.1 hc).elim (h c) (h' c)

theorem NoneCloses.onlyLast (h : NoneCloses calls) : OnlyLastCloses calls :=
  fun c hc => h c (List.dropLast_subset _ hc)

theorem OnlyLastCloses.append (h : NoneCloses calls) (h' : OnlyLastCloses more) :
    OnlyLastCloses (calls ++ more) := by
  cases more with
  | nil =>
      rw [List.append_nil]
      exact h.onlyLast
  | cons c more =>
      unfold OnlyLastCloses
      rw [List.dropLast_append_of_ne_nil (List.cons_ne_nil c more)]
      exact h.append h'

end Call

theorem Passage.onlyLastCloses {result : Except Fault Unit} (h : Passage destination time sent p calls result) :
    Call.OnlyLastCloses calls := by
  intro c hc
  cases h with
  | unwritten reason a => cases hc
  | unflushed reason a b =>
      cases List.mem_singleton.1 hc
      rfl
  | refused reason a b _ | taken accepted a b _ =>
      simp only [List.dropLast, List.mem_cons, List.not_mem_nil, or_false] at hc
      rcases hc with rfl | rfl <;> rfl

theorem Passage.noneCloses (h : Passage destination time sent p calls (.ok ()))
    (hstops : calls.any Call.stops = false) : Call.NoneCloses calls := by
  cases h with
  | taken accepted a b c =>
      simp only [List.any_cons, List.any_nil, Bool.or_eq_false_iff] at hstops
      intro c' hc
      simp only [List.mem_cons, List.not_mem_nil, or_false] at hc
      rcases hc with rfl | rfl | rfl
      · rfl
      · rfl
      · exact hstops.2.2.1

/-- A sweep does nothing behind a call that failed, or behind a packet during which a stop was asked for. -/
theorem Sweep.onlyLastCloses {result : Except Fault Nat} (h : Sweep destination time sent rest calls result) :
    Call.OnlyLastCloses calls := by
  induction h with
  | full sent | cut sent p rest => exact nofun
  | broken passage rest => exact passage.onlyLastCloses
  | @next sent p rest calls more result passage _ stopped ih =>
      cases hstops : calls.any Call.stops with
      | true =>
          rw [stopped hstops, List.append_nil]
          exact passage.onlyLastCloses
      | false => exact .append (passage.noneCloses hstops) ih

/-- After a sweep that did not fail and without a request to stop, nothing is closed. -/
theorem Sweep.noneCloses {n : Nat} (h : Sweep destination time sent rest calls (.ok n))
    (hstops : calls.any Call.stops = false) : Call.NoneCloses calls := by
  obtain ⟨taken, rfl, -, -⟩ := h.exists_taken_of_ok
  intro c hc
  have hquiet : c.stops = false := eq_false_of_ne_true (List.any_eq_false.1 hstops c hc)
  rw [Call.closes, Delivery.failed_of_mem_log taken c hc, hquiet, Bool.and_false]
  rfl

end LabelTunnel
