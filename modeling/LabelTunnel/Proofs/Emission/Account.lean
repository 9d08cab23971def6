import LabelTunnel.Proofs.Emission.Content
import LabelTunnel.Proofs.Emission.Settlement

/-! The account of one cycle. Whatever the counters were, whether the flag was set or not and whatever the
devices answer, a cycle takes the first packets of its plan and ends in one of four ways behind them: with all
of them taken, with the flag found cleared, with a line that could not be traced, or with a packet that was
refused. Each way has its own result and its own entries in the counters, and none of them clears the flag. -/

namespace LabelTunnel

variable {ω : Type} {e : Emitter ω} {destination : Address} {time sent : Nat} {p : Packet} {rest : List Packet}
  {taken before : List Delivery} {calls more tail : List Call} {result : Except Fault Nat} {fault : Fault}

/-- The running flag behind these calls, if nobody else touches it. -/
def Session.flagAfter (s : Session ω) (calls : List Call) : Bool := s.running && !calls.any Call.stops

/-- Counts the packets that the transmitter took, with what it said it took of them. -/
def Tally.countTaken (t : Tally) (taken : List Delivery) : Tally :=
  { t with
    packets := t.packets + taken.length.toUInt64
    bytes := t.bytes + (taken.map Delivery.accepted).sum }

theorem Tally.foldl_note_taken (t : Tally) (taken : List Delivery) (tail : List Call) :
    (taken.flatMap (Delivery.log destination) ++ tail).foldl Tally.note t =
      tail.foldl Tally.note (t.countTaken taken) := by
  rw [List.foldl_append, Tally.foldl_note t, Delivery.accepted_log, Delivery.refusals_log, List.length_map]
  congr 1
  exact congrArg (fun n => Tally.mk t.cycles _ _ n) (UInt64.add_zero t.errors)

/-! ### Packets are begun with the flag set -/

theorem Delivery.length_log (d : Delivery) : (d.log destination).length = 3 := rfl

theorem Passage.length_le {outcome : Except Fault Unit} (h : Passage destination time sent p calls outcome) :
    calls.length ≤ 3 := by
  cases h <;> simp

/-- A passage that failed does not begin like the passage of a packet that was taken. -/
theorem Passage.taken_eq_nil (h : Passage destination time sent p calls (.error fault))
    (hcalls : calls = before.flatMap (Delivery.log destination) ++ more) : before = [] := by
  cases before with
  | nil => rfl
  | cons d before =>
      rw [List.flatMap_cons, List.append_assoc] at hcalls
      have hlength := h.length_le
      rw [hcalls, List.length_append, Delivery.length_log] at hlength
      have hnil := List.length_eq_zero_iff.1 (Nat.le_zero.1 (Nat.le_of_add_le_add_left hlength))
      rw [hnil, List.append_nil] at hcalls
      obtain ⟨c, hc, hfailed⟩ := h.exists_failed
      have hquiet : c ∈ [d].flatMap (Delivery.log destination) → c.entry.failed = false :=
        Delivery.failed_of_mem_log [d] c
      rw [List.flatMap_singleton, ← hcalls] at hquiet
      cases (hquiet hc).symm.trans hfailed

/-- If calls came behind the packets taken, no stop was asked for during these packets. -/
theorem Sweep.quiet (h : Sweep destination time sent rest calls result) (before : List Delivery)
    (hcalls : calls = before.flatMap (Delivery.log destination) ++ more) (hmore : more ≠ []) :
    (before.flatMap (Delivery.log destination)).any Call.stops = false := by
  induction h generalizing before with
  | full sent | cut sent p rest => exact absurd (List.append_eq_nil_iff.1 hcalls.symm).2 hmore
  | broken passage rest =>
      rw [passage.taken_eq_nil hcalls]
      rfl
  | @next sent p rest first others result passage _ stopped ih =>
      cases before with
      | nil => rfl
      | cons d before =>
          obtain ⟨d', -, rfl⟩ := passage.exists_delivery
          rw [List.flatMap_cons, List.append_assoc] at hcalls
          have hlength : (d'.log destination).length = (d.log destination).length := by
            rw [Delivery.length_log, Delivery.length_log]
          obtain ⟨hfirst, hothers⟩ := List.append_inj hcalls hlength
          rw [List.flatMap_cons, List.any_append, ih before hothers, Bool.or_false, ← hfirst]
          refine eq_false_of_ne_true ?_
          intro hstops
          exact hmore (List.append_eq_nil_iff.1 (hothers.symm.trans (stopped hstops))).2

namespace Emitter

/-- If calls came behind the packets taken, the flag was still set then. -/
theorem Swept.flagAfter_eq_true {s : Session ω} {s' : Session (Logged ω)}
    {outcome : Except Fault Nat × Session (Logged ω)} (h : Swept e time sent (s.logged []) rest calls s' outcome)
    (hcalls : calls = before.flatMap (Delivery.log e.plan.outerDestination) ++ more) (hmore : more ≠ []) :
    s.flagAfter (before.flatMap (Delivery.log e.plan.outerDestination)) = true := by
  have hrunning : s.running = true := by
    refine eq_true_of_ne_false ?_
    intro hstopped
    exact hmore (List.append_eq_nil_iff.1 (hcalls.symm.trans (h.silent hstopped))).2
  rw [Session.flagAfter, hrunning, h.sweep.quiet before hcalls hmore]
  rfl

/-! ### How a cycle ends -/

/-- How a cycle ends behind the packets that it took: with which calls, which result and which counters. -/
inductive Close (e : Emitter ω) (time : Nat) (s : Session ω) (taken : List Delivery) :
    List Call → Except Fault Nat → Tally → Prop
  | full (all : taken.length = e.plan.flows.length) :
      Close e time s taken [] (.ok taken.length) (s.tally.countTaken taken).countCycle
  | cut (short : taken.length < e.plan.flows.length)
      (cleared : s.flagAfter (taken.flatMap (Delivery.log e.plan.outerDestination)) = false) :
      Close e time s taken [] (.ok taken.length) (s.tally.countTaken taken)
  | unwritten {flow : Flow} (next : e.plan.flows[taken.length]? = some flow) (reason : String) (a : Bool) :
      Close e time s taken [⟨.wrote (e.plan.packet flow).traceLine (.error reason), a⟩]
        (.error (.io reason)) (s.tally.countTaken taken)
  | unflushed {flow : Flow} (next : e.plan.flows[taken.length]? = some flow) (reason : String) (a b : Bool) :
      Close e time s taken
        [⟨.wrote (e.plan.packet flow).traceLine (.ok ()), a⟩, ⟨.flushed (.error reason), b⟩]
        (.error (.io reason)) (s.tally.countTaken taken)
  | refused {flow : Flow} (next : e.plan.flows[taken.length]? = some flow) (reason : String) (a b c : Bool) :
      Close e time s taken
        [⟨.wrote (e.plan.packet flow).traceLine (.ok ()), a⟩, ⟨.flushed (.ok ()), b⟩,
          ⟨.sent ⟨time, e.plan.outerDestination, (e.plan.packet flow).octets⟩ (.error reason), c⟩]
        (.error (.transmission (taken.length + 1) e.plan.outerDestination reason))
        (s.tally.countTaken taken).countError

/-- What a cycle did to a session, by the packets that it took and the calls behind them. -/
structure Account (e : Emitter ω) (time : Nat) (s : Session ω) (calls : List Call) (taken : List Delivery)
    (tail : List Call) (outcome : Except Fault Nat × Session ω) : Prop where
  calls_eq : calls = taken.flatMap (Delivery.log e.plan.outerDestination) ++ tail
  slots_eq : taken.map Delivery.slot =
    (e.plan.flows.take taken.length).map fun flow => (time, e.plan.packet flow)
  /-- The flag was found set before each packet that was begun. -/
  begun : ∀ before after, taken = before ++ after → after ≠ [] ∨ tail ≠ [] →
    s.flagAfter (before.flatMap (Delivery.log e.plan.outerDestination)) = true
  /-- The flag is as the calls have left it. -/
  flag_eq : outcome.2.running = s.flagAfter calls
  answers : ∀ c ∈ calls, e.Answers c
  close : Close e time s taken tail outcome.1 outcome.2.tally

theorem slots_eq_take (h : taken.map Delivery.slot <+: (e.plan.flows.map e.plan.packet).map (Prod.mk time)) :
    taken.map Delivery.slot = (e.plan.flows.take taken.length).map fun flow => (time, e.plan.packet flow) := by
  have htake := List.prefix_iff_eq_take.1 h
  rwa [List.length_map, List.map_map, ← List.map_take] at htake

theorem slots_of_ending
    (h : Sweep.Ending destination time 0 (e.plan.flows.map e.plan.packet) taken tail result) :
    taken.map Delivery.slot = (e.plan.flows.take taken.length).map fun flow => (time, e.plan.packet flow) := by
  cases h with
  | ok slots => exact slots_eq_take slots
  | error slots _ => exact slots_eq_take ((List.prefix_append _ _).trans slots)

theorem exists_next_flow
    (h : taken.map Delivery.slot ++ [(time, p)] <+: (e.plan.flows.map e.plan.packet).map (Prod.mk time)) :
    ∃ flow, e.plan.flows[taken.length]? = some flow ∧ e.plan.packet flow = p := by
  obtain ⟨rest, hrest⟩ := h
  have hget := congrArg (fun slots => slots[taken.length]?) hrest
  simp only [List.append_assoc, List.map_map, List.getElem?_map] at hget
  rw [List.getElem?_append_right (Nat.le_of_eq (List.length_map _)), List.length_map, Nat.sub_self] at hget
  obtain ⟨flow, hflow, hslot⟩ := Option.map_eq_some_iff.1 hget.symm
  exact ⟨flow, hflow, congrArg Prod.snd hslot⟩

theorem close_of_ending {s : Session ω} (h : Sweep.Ending e.plan.outerDestination time 0
      (e.plan.flows.map e.plan.packet) taken tail result)
    (hcut : ∀ n, result = .ok n → n < e.plan.flows.length →
      s.flagAfter (taken.flatMap (Delivery.log e.plan.outerDestination) ++ tail) = false) :
    Close e time s taken tail result (if fills e.plan.flows.length result
      then (tail.foldl Tally.note (s.tally.countTaken taken)).countCycle
      else tail.foldl Tally.note (s.tally.countTaken taken)) := by
  cases h with
  | ok slots =>
      have hle := slots.length_le
      simp only [List.length_map] at hle
      rw [Nat.zero_add] at hcut ⊢
      rcases Nat.lt_or_eq_of_le hle with hshort | hall
      · have hfills : ¬fills e.plan.flows.length (.ok taken.length) = true :=
          mt of_decide_eq_true (Nat.not_le_of_lt hshort)
        have hcleared := hcut _ rfl hshort
        rw [List.append_nil] at hcleared
        rw [if_neg hfills]
        exact .cut hshort hcleared
      · have hfills : fills e.plan.flows.length (.ok taken.length) = true :=
          decide_eq_true (Nat.le_of_eq hall.symm)
        rw [if_pos hfills]
        exact .full hall
  | @error p tail fault slots passage =>
      obtain ⟨flow, hflow, rfl⟩ := exists_next_flow slots
      rw [Nat.zero_add] at passage
      have hfills : ¬fills e.plan.flows.length (.error fault) = true := Bool.false_ne_true
      rw [if_neg hfills]
      cases passage with
      | unwritten reason a => exact .unwritten hflow reason a
      | unflushed reason a b => exact .unflushed hflow reason a b
      | refused reason a b c => exact .refused hflow reason a b c

theorem Close.cut_of_lt {s : Session ω} {tally : Tally} {k : Nat} (h : Close e time s taken tail (.ok k) tally)
    (hk : k < e.plan.flows.length) :
    tail = [] ∧ s.flagAfter (taken.flatMap (Delivery.log e.plan.outerDestination)) = false := by
  cases h with
  | full all => exact absurd all (Nat.ne_of_lt hk)
  | cut _ cleared => exact ⟨rfl, cleared⟩

/-! ### The account -/

theorem session_cycle (e : Emitter ω) (time : Nat) (s : Session ω) :
    (e.cycle time s).2 = (e.logged.cycle time (s.logged [])).2.map Logged.world :=
  congrArg Prod.snd (e.logged_shows.cycle_map time (s.logged []))

/-- Every cycle has an account, the one of its sweep with a log: result, flag and counters are the same without. -/
theorem exists_account (hcheck : e.plan.check = .ok ()) (time : Nat) (s : Session ω) :
    ∃ taken tail, Account e time s (e.cycleCalls time s) taken tail (e.cycle time s) := by
  have hplan := Plan.carries_of_check hcheck
  obtain ⟨calls, s', hswept⟩ := exists_swept_cycle hplan time (s.logged [])
  obtain ⟨taken, tail, hsplit, hending⟩ := hswept.sweep.exists_taken
  have hfollows := hswept.follows
  have hresult : (e.logged.cycle time (s.logged [])).1 = (e.cycle time s).1 := e.cycle_logged time s
  have htotal : 0 + (e.plan.flows.map e.plan.packet).length = e.plan.flows.length := by
    rw [List.length_map, Nat.zero_add]
  have hsession : (e.cycle time s).2 =
      (if fills e.plan.flows.length (e.cycle time s).1 then s'.countCycle else s').map Logged.world := by
    rw [session_cycle, hswept.session_eq, hresult, htotal]
  have hcalls : e.cycleCalls time s = calls := cycleCalls_of_swept hswept
  have hflag : s'.running = s.flagAfter calls := hfollows.running
  have htally : s'.tally = tail.foldl Tally.note (s.tally.countTaken taken) := by
    rw [hfollows.tally, hsplit, Tally.foldl_note_taken]
    rfl
  have hcut := hswept.stopped_of_cut
  rw [hresult] at hending hcut
  rw [htotal, hflag, hsplit] at hcut
  refine ⟨taken, tail, hcalls.trans hsplit, slots_of_ending hending, ?_, ?_,
    hcalls ▸ hfollows.answers, ?_⟩
  · rintro before after rfl hbegun
    have hmore : after.flatMap (Delivery.log e.plan.outerDestination) ++ tail ≠ [] := by
      intro hnil
      obtain ⟨hafter, htail⟩ := List.append_eq_nil_iff.1 hnil
      cases after with
      | nil => exact hbegun.elim (fun h => h rfl) (fun h => h htail)
      | cons d after => cases hafter
    rw [List.flatMap_append, List.append_assoc] at hsplit
    exact hswept.flagAfter_eq_true hsplit hmore
  · rw [hcalls, ← hflag, hsession]
    split <;> rfl
  · have hclose := close_of_ending hending hcut
    rw [← htally] at hclose
    rw [hsession]
    convert hclose using 1
    split <;> rfl

/-- **A cycle is accounted for, however it ends.** From any counters and with the flag set or not, it takes the
first packets of the plan, each of them begun with the flag set, and then closes in one of the ways there are:
the counters grow by the packets taken and by what the transmitter said it took of them, by one cycle if these
are all, and by one error if the next packet was refused. A cycle that is cut short has found the flag cleared,
and it was a device that cleared it, or it was clear before. -/
theorem account_of_cycle (hcheck : e.plan.check = .ok ()) (time : Nat) (s : Session ω) :
    (∃ taken tail, Account e time s (e.cycleCalls time s) taken tail (e.cycle time s)) ∧
    ∀ k, (e.cycle time s).1 = .ok k → (k < e.plan.flows.length ↔
      ∃ flow, e.plan.flows[k]? = some flow ∧ s.flagAfter (e.cycleCalls time s) = false) := by
  obtain ⟨taken, tail, haccount⟩ := exists_account hcheck time s
  refine ⟨⟨taken, tail, haccount⟩, ?_⟩
  intro k hk
  constructor
  · intro hshort
    obtain ⟨rfl, hcleared⟩ := (hk ▸ haccount.close).cut_of_lt hshort
    rw [haccount.calls_eq, List.append_nil]
    exact ⟨_, List.getElem?_eq_getElem hshort, hcleared⟩
  · rintro ⟨flow, hflow, -⟩
    exact (List.getElem?_eq_some_iff.1 hflow).1

/-- The second packet of a cycle is refused, and two of the counters wrap around. In a session that was stopped
before, the cycle is over at once. -/
theorem account_of_cycle_failing :
    let e := Emitter.failing
    let s : Session Nat := { world := 2, tally := ⟨7, 0xFFFFFFFFFFFFFFFF, 5, 0xFFFFFFFFFFFFFFFF⟩ }
    e.plan.check = .ok () ∧
    (e.cycle 0 s).1 = .error (.transmission 2 ⟨192, 168, 57, 10⟩ "network is down") ∧
    (e.cycle 0 s).2.tally = ⟨7, 0, 67, 0⟩ ∧
    (∃ taken tail, Account e 0 s (e.cycleCalls 0 s) taken tail (e.cycle 0 s)) ∧
    (e.cycle 0 s.stop).1 = .ok 0 ∧ (0 < e.plan.flows.length ↔
      ∃ flow, e.plan.flows[0]? = some flow ∧ s.stop.flagAfter (e.cycleCalls 0 s.stop) = false) := by
  intro e s
  have hcheck : e.plan.check = .ok () := by rfl
  have hresult : (e.cycle 0 s).1 = .error (.transmission 2 ⟨192, 168, 57, 10⟩ "network is down") := by
    decide +kernel
  have htally : (e.cycle 0 s).2.tally = ⟨7, 0, 67, 0⟩ := by decide +kernel
  have hstopped : (e.cycle 0 s.stop).1 = .ok 0 := by decide +kernel
  exact ⟨hcheck, hresult, htally, (account_of_cycle hcheck 0 s).1, hstopped,
    (account_of_cycle hcheck 0 s.stop).2 0 hstopped⟩

end Emitter

end LabelTunnel
