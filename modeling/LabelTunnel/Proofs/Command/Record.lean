import Mathlib.Data.List.Forall2
import LabelTunnel.Proofs.Command.Conflict

/-! What is recorded of a line. Without a conflict the options hold every use, in the order of the line where a
name repeats, and leave the rest at its standard. So nothing that a user gave is lost, and the label has one
origin at most. -/

namespace LabelTunnel.Command

open Choice (textsFor)

variable {uses : List Use} {s : Setting} {words : List String} {o o' : Options}

namespace Use

/-- What is left of the texts that a setting for one value was given: its standard, or what the only one of them
is read as. -/
inductive Taken {α β : Type} (read : String → Except ValueFault β) (value : β → α) (standard : α) :
    List String → α → Prop
  | absent : Taken read value standard [] standard
  | given {text : String} {b : β} (h : read text = .ok b) : Taken read value standard [text] (value b)

/-- The options hold what was used, all of it, and the standard of everything else. -/
structure Records (uses : List Use) (o : Options) : Prop where
  outerSource : Taken Setting.readAddress some none (textsFor (choices uses) .outerSource) o.outerSource
  outerDestination : Taken Setting.readAddress some none (textsFor (choices uses) .outerDestination) o.outerDestination
  innerDestination : Taken Setting.readAddress some none (textsFor (choices uses) .innerDestination) o.innerDestination
  destinationPort : Taken (Setting.readField 65535) (fun n => some n.toUInt16) none
    (textsFor (choices uses) .destinationPort) o.destinationPort
  flows : List.Forall₂ (fun text flow => Flow.read text = .ok flow) (textsFor (choices uses) .flow) o.flows
  label : Taken (Setting.readField 4294967295) (fun n => some n.toUInt32) none (textsFor (choices uses) .label) o.label
  labelCidr : Taken Except.ok some none (textsFor (choices uses) .labelCidr) o.labelCidr
  labelTtl : Taken (Setting.readField 255) (fun n => some n.toUInt8) none (textsFor (choices uses) .labelTtl) o.labelTtl
  payload : Taken Except.ok some none (textsFor (choices uses) .payload) o.payload
  interval : Taken Setting.readCount id 2000 (textsFor (choices uses) .interval) o.interval
  count : Taken Setting.readCount id 0 (textsFor (choices uses) .count) o.count
  timeout : Taken Setting.readCount id 0 (textsFor (choices uses) .timeout) o.timeout
  dryRun : o.dryRun = true ↔ .switch .dryRun ∈ uses
  verbosity : o.verbosity.toNat = min (uses.count (.switch .verbose)) 255

theorem Taken.unique {α β : Type} {parse : String → Except ValueFault β} {value : β → α} {standard a a' : α}
    {texts : List String} (h : Taken parse value standard texts a) (h' : Taken parse value standard texts a') :
    a = a' := by
  cases h with
  | absent =>
      cases h'
      rfl
  | given hread =>
      cases h' with
      | given hread' => rw [Except.ok.inj (hread.symm.trans hread')]

theorem Taken.eq_of_nil {α β : Type} {parse : String → Except ValueFault β} {value : β → α} {standard a : α}
    (h : Taken parse value standard [] a) : a = standard := by
  cases h
  rfl

/-- The records leave nothing of the options open. -/
theorem Records.unique (h : Records uses o) (h' : Records uses o') : o = o' := by
  have hflows : o.flows = o'.flows :=
    List.right_unique_forall₂' (fun _ _ _ hread hread' => Except.ok.inj (hread.symm.trans hread')) h.flows h'.flows
  have hdryRun : o.dryRun = o'.dryRun := Bool.eq_iff_iff.2 (h.dryRun.trans h'.dryRun.symm)
  have hverbosity : o.verbosity = o'.verbosity := UInt8.toNat_inj.1 (h.verbosity.trans h'.verbosity.symm)
  cases o
  cases o'
  simp only [Options.mk.injEq]
  exact ⟨h.outerSource.unique h'.outerSource, h.outerDestination.unique h'.outerDestination,
    h.innerDestination.unique h'.innerDestination, h.destinationPort.unique h'.destinationPort, hflows,
    h.label.unique h'.label, h.labelCidr.unique h'.labelCidr, h.labelTtl.unique h'.labelTtl,
    h.payload.unique h'.payload, h.interval.unique h'.interval, h.count.unique h'.count,
    h.timeout.unique h'.timeout, hdryRun, hverbosity⟩

/-- A setting for one value leaves what is read of its text, in its own part of the options. -/
theorem taken_ofTexts {α β : Type} {parse : String → Except ValueFault β} {lay : β → Options} {value : β → α}
    {standard : α} {texts : List String} (part : Options → α) (hstore : ∀ t, s.store t {} = (parse t).map lay)
    (hnil : part (.ofTexts fun _ => []) = standard)
    (hsingleton : ∀ t b, parse t = .ok b → part (.ofTexts fun _ => [t]) = value b)
    (haccepts : ∀ t ∈ texts, s.Accepts t) (hle : texts.length ≤ 1) :
    Taken parse value standard texts (part (.ofTexts fun _ => texts)) := by
  rcases texts with _ | ⟨t, _ | ⟨t', texts⟩⟩
  · rw [hnil]
    exact .absent
  · obtain ⟨o, ho⟩ := haccepts t List.mem_cons_self
    rw [hstore] at ho
    obtain ⟨b, hb, -⟩ := Outcome.map_eq_ok_iff.1 ho
    rw [hsingleton t b hb]
    exact .given hb
  · exact absurd hle (by simp)

theorem forall₂_flows {texts : List String} (haccepts : ∀ t ∈ texts, Setting.flow.Accepts t) :
    List.Forall₂ (fun t flow => Flow.read t = .ok flow) texts (texts.filterMap fun t => (Flow.read t).toOption) := by
  induction texts with
  | nil => exact .nil
  | cons t texts ih =>
      obtain ⟨o, ho⟩ := haccepts t List.mem_cons_self
      obtain ⟨flow, hflow, -⟩ := Outcome.map_eq_ok_iff.1 ho
      have hread := Outcome.mapError_eq_ok_iff.1 hflow
      rw [List.filterMap_cons, hread]
      exact .cons hread (ih fun t ht => haccepts t (List.mem_cons_of_mem _ ht))

theorem records_ofUses (hvalid : ∀ u ∈ uses, u.Valid) (hdistinct : Distinct uses) : Records uses (.ofUses uses) := by
  have haccepts (s : Setting) : ∀ t ∈ textsFor (choices uses) s, s.Accepts t := fun t ht => hvalid _ (mem_textsFor.1 ht)
  have hle (s : Setting) (honce : s.repeats = false) : (textsFor (choices uses) s).length ≤ 1 := by
    rw [length_textsFor]
    exact distinct_iff.1 hdistinct (.setting s) honce
  have hread {β : Type} {parse : String → Except ValueFault β} {t : String} {b : β} (h : parse t = .ok b) :
      (parse t).toOption = some b := by rw [h, Outcome.toOption_ok]
  exact {
    outerSource := taken_ofTexts Options.outerSource (fun _ => rfl) rfl (fun _ _ => hread) (haccepts _) (hle _ rfl)
    outerDestination := taken_ofTexts Options.outerDestination (fun _ => rfl) rfl
        (fun _ _ => hread) (haccepts _) (hle _ rfl)
    innerDestination := taken_ofTexts Options.innerDestination (fun _ => rfl) rfl
        (fun _ _ => hread) (haccepts _) (hle _ rfl)
    destinationPort := taken_ofTexts Options.destinationPort (fun _ => rfl) rfl
        (fun _ _ h => congrArg (Option.map Nat.toUInt16) (hread h)) (haccepts _) (hle _ rfl)
    flows := forall₂_flows (haccepts _)
    label := taken_ofTexts Options.label (fun _ => rfl) rfl
        (fun _ _ h => congrArg (Option.map Nat.toUInt32) (hread h)) (haccepts _) (hle _ rfl)
    labelCidr := taken_ofTexts Options.labelCidr (fun _ => rfl) rfl (fun _ _ => hread) (haccepts _) (hle _ rfl)
    labelTtl := taken_ofTexts Options.labelTtl (fun _ => rfl) rfl
        (fun _ _ h => congrArg (Option.map Nat.toUInt8) (hread h)) (haccepts _) (hle _ rfl)
    payload := taken_ofTexts Options.payload (fun _ => rfl) rfl (fun _ _ => hread) (haccepts _) (hle _ rfl)
    interval := taken_ofTexts Options.interval (fun _ => rfl) rfl
        (fun _ _ h => congrArg (Option.getD · 2000) (hread h)) (haccepts _) (hle _ rfl)
    count := taken_ofTexts Options.count (fun _ => rfl) rfl
        (fun _ _ h => congrArg (Option.getD · 0) (hread h)) (haccepts _) (hle _ rfl)
    timeout := taken_ofTexts Options.timeout (fun _ => rfl) rfl
        (fun _ _ h => congrArg (Option.getD · 0) (hread h)) (haccepts _) (hle _ rfl)
    dryRun := decide_eq_true_iff
    verbosity := Line.verbosity_ofUses uses }

end Use

/-- How a line of valid uses ends: in options that record the uses, or in the conflict among them. -/
theorem Line.read_iff (hspelled : Use.Spelled uses words) (hvalid : ∀ u ∈ uses, u.Valid) :
    (∀ o, Line.read words = .ok o ↔ ¬Use.Clash uses ∧ Use.Records uses o) ∧
    ∀ refusal, Line.read words = .error refusal ↔ Use.Conflict uses refusal := by
  apply Outcome.iff_of_cases
  · rintro o ⟨hclash, hrecords⟩
    rw [Line.read_of_not_clash hspelled hvalid hclash]
    have hown := Use.records_ofUses hvalid (Use.distinct_of_not_clash hclash)
    exact congrArg Except.ok (hown.unique hrecords)
  · exact fun refusal => Line.read_of_conflict hspelled hvalid
  · by_cases hclash : Use.Clash uses
    · exact .inr (Use.exists_conflict_iff.2 hclash)
    · exact .inl ⟨_, hclash, Use.records_ofUses hvalid (Use.distinct_of_not_clash hclash)⟩

/-- **Lines of valid uses.** A line that spells uses, each of them valid by itself, is refused exactly if they do
not go together: if a name other than those of flows and of verbosity is used twice, or the label is given both
ways. The refusal names the first name that is used again, else both ways to give the label in their order.
Otherwise the options record the uses and nothing else, so no value that was given is lost, and there is never a
choice between two labels. -/
theorem Line.read_by_uses (hspelled : Use.Spelled uses words) (hvalid : ∀ u ∈ uses, u.Valid) :
    ((∃ refusal, Line.read words = .error refusal) ↔ Use.Clash uses) ∧
    (∀ refusal, Line.read words = .error refusal ↔ Use.Conflict uses refusal) ∧
    (∀ o, Line.read words = .ok o ↔ ¬Use.Clash uses ∧ Use.Records uses o) ∧
    ∀ o, Line.read words = .ok o → o.label = none ∨ o.labelCidr = none := by
  obtain ⟨hok, herror⟩ := Line.read_iff hspelled hvalid
  refine ⟨?_, herror, hok, ?_⟩
  · rw [← Use.exists_conflict_iff]
    exact exists_congr herror
  · intro o ho
    obtain ⟨hclash, hrecords⟩ := (hok o).1 ho
    by_cases hlabel : .setting .label ∈ uses.map Use.name
    · refine .inr (Use.Taken.eq_of_nil (Use.textsFor_eq_nil_iff.2 ?_ ▸ hrecords.labelCidr))
      exact fun hcidr => hclash (.inr ⟨hlabel, hcidr⟩)
    · exact .inl (Use.Taken.eq_of_nil (Use.textsFor_eq_nil_iff.2 hlabel ▸ hrecords.label))

/-- Switches bundled in front of a flow, a payload that is a lone dash, and names used once with a letter, once
without. -/
def sampleUses : List Use :=
  [.switch .dryRun, .switch .verbose, .setting .flow "1.2.3.4:5", .setting .payload "-", .setting .count "3",
    .switch .verbose, .setting .flow "1.2.3.4:5", .setting .label "7"]

theorem Line.read_by_uses_sampleUses :
    let words := ["-nvf", "1.2.3.4:5", "--payload", "-", "-c=3", "--verbose", "--flow=1.2.3.4:5", "-l7"]
    let flow : Flow := ⟨⟨1, 2, 3, 4⟩, 5⟩
    let o : Options :=
      { flows := [flow, flow], label := some 7, payload := some "-", count := 3, dryRun := true, verbosity := 2 }
    (Use.Spelled sampleUses words ∧ (∀ u ∈ sampleUses, u.Valid) ∧ Line.read words = .ok o) ∧
    Line.read (words ++ ["--dry-run"]) = .error (.repeated (.switch .dryRun)) ∧
    Line.read (words ++ ["--label-from-prefix", ""]) = .error (.excluded .label .labelCidr) := by
  intro words flow o
  have hspelled (more : List Use) (rest : List String) (h : Use.Spelled more rest) :
      Use.Spelled (sampleUses ++ more) (words ++ rest) := by
    have hbundle : Use.Letters [.switch .dryRun, .switch .verbose, .setting .flow "1.2.3.4:5"] ['n', 'v', 'f']
        ["1.2.3.4:5"] := .switch (.switch (.apart rfl (.inl (by decide))))
    have hlabel : Use.Spelled (.setting .label "7" :: more) ("-l7" :: rest) :=
      .letters (@Use.Letters.attached .label "7" 'l' rfl (by decide) (by decide)) h
    have hcount : Use.Spelled (.setting .count "3" :: .switch .verbose :: .setting .flow "1.2.3.4:5" ::
        .setting .label "7" :: more) ("-c=3" :: "--verbose" :: "--flow=1.2.3.4:5" :: "-l7" :: rest) :=
      .letters (@Use.Letters.equals .count "3" 'c' rfl) (.longSwitch (.longAttached hlabel))
    have hall := Use.Spelled.letters hbundle (@Use.Spelled.longApart .payload "-" _ _ (.inr rfl) hcount)
    exact hall
  have hvalid : ∀ u ∈ sampleUses, u.Valid := by
    simp only [sampleUses, List.forall_mem_cons]
    exact ⟨⟨nofun, nofun⟩, ⟨nofun, nofun⟩, ⟨_, rfl⟩, ⟨_, rfl⟩, ⟨_, rfl⟩, ⟨nofun, nofun⟩, ⟨_, rfl⟩, ⟨_, rfl⟩, nofun⟩
  have hplain := hspelled [] [] .nil
  have hrecords : Use.Records sampleUses o := Use.records_ofUses hvalid (by decide)
  have hread := ((read_by_uses hplain hvalid).2.2.1 o).2 ⟨by decide, hrecords⟩
  refine ⟨⟨hplain, hvalid, hread⟩, ?_, ?_⟩
  · have hmore : ∀ u ∈ sampleUses ++ [Use.switch .dryRun], u.Valid :=
      List.forall_mem_append.2 ⟨hvalid, by simp [Use.Valid]⟩
    refine ((read_by_uses (hspelled _ _ (.longSwitch .nil)) hmore).2.1 _).2 ?_
    exact .repeated (u := .switch .dryRun) rfl (by decide) rfl (by decide)
  · have hmore : ∀ u ∈ sampleUses ++ [Use.setting .labelCidr ""], u.Valid :=
      List.forall_mem_append.2 ⟨hvalid, by simp [Use.Valid, Setting.Accepts, Setting.store]⟩
    refine ((read_by_uses (hspelled _ _ (.longApart (.inl (by decide)) .nil)) hmore).2.1 _).2 ?_
    exact .excluded (by decide) (.refl _) (by decide)

end LabelTunnel.Command
