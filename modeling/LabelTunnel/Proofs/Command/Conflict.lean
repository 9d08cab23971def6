import Mathlib.Data.List.Induction
import Mathlib.Data.List.Nodup
import Mathlib.Data.List.Perm.Subperm
import LabelTunnel.Proofs.Command.Usage

/-! Lines of uses that are valid one by one. Taken up together they fail only for a conflict among them: a name
that is for one use is used again, or the label is given as a number and by an address. The first is found where
the name is used again, the second behind the last use. -/

namespace LabelTunnel.Command

open Choice (textsFor textsFor_cons)

variable {uses : List Use} {u : Use} {s : Setting} {text : String} {words : List String}

/-- Whether the name may be used more than once. -/
def Name.repeats : Name → Bool
  | .setting s => s.repeats
  | .switch sw => sw = .verbose

theorem Name.repeats_iff {n : Name} : n.repeats = true ↔ n = .setting .flow ∨ n = .switch .verbose := by
  rcases n with s | sw
  · cases s <;> simp [repeats, Setting.repeats]
  · cases sw <;> simp [repeats]

namespace Use

def choice? : Use → Option Choice
  | .setting s text => some (s, text)
  | .switch _ => none

/-- The settings among the uses, with their texts. -/
def choices (uses : List Use) : List Choice := uses.filterMap choice?

/-- No name that is for one use is used twice. -/
def Distinct (uses : List Use) : Prop := ((uses.map name).filter fun n => !n.repeats).Nodup

/-- Uses that do not go together: a name that does not repeat is there twice, or both ways to give a label are. -/
def Clash (uses : List Use) : Prop :=
  (∃ n, n ≠ .setting .flow ∧ n ≠ .switch .verbose ∧ 2 ≤ (uses.map name).count n) ∨
    (.setting .label ∈ uses.map name ∧ .setting .labelCidr ∈ uses.map name)

/-- What is reported of uses that do not go together: the first name that is used again, else the ways to give
a label, in their order. -/
inductive Conflict (uses : List Use) : Refusal → Prop
  | repeated {before after : List Use} {u : Use} (split : uses = before ++ u :: after) (distinct : Distinct before)
      (once : u.name.repeats = false) (again : u.name ∈ before.map name) : Conflict uses (.repeated u.name)
  | excluded {first second : Setting} (distinct : Distinct uses)
      (labels : [first, second].Perm [.label, .labelCidr])
      (order : [first, second].Sublist ((choices uses).map Prod.fst)) : Conflict uses (.excluded first second)

/-! ### Names and texts -/

theorem choices_append (more : List Use) : choices (uses ++ more) = choices uses ++ choices more :=
  List.filterMap_append

theorem mem_choices : (s, text) ∈ choices uses ↔ .setting s text ∈ uses := by
  rw [choices, List.mem_filterMap]
  constructor
  · rintro ⟨_ | _, hu, h⟩
    · cases h
      exact hu
    · cases h
  · exact fun hu => ⟨_, hu, rfl⟩

theorem mem_map_name_setting : .setting s ∈ uses.map name ↔ ∃ text, .setting s text ∈ uses := by
  rw [List.mem_map]
  constructor
  · rintro ⟨_ | _, hu, h⟩
    · cases h
      exact ⟨_, hu⟩
    · cases h
  · rintro ⟨text, hu⟩
    exact ⟨_, hu, rfl⟩

theorem mem_map_name_switch {sw : Switch} : .switch sw ∈ uses.map name ↔ .switch sw ∈ uses := by
  rw [List.mem_map]
  constructor
  · rintro ⟨_ | _, hu, h⟩
    · cases h
    · cases h
      exact hu
  · exact fun hu => ⟨_, hu, rfl⟩

theorem mem_settings : s ∈ (choices uses).map Prod.fst ↔ .setting s ∈ uses.map name := by
  rw [mem_map_name_setting, List.mem_map]
  constructor
  · rintro ⟨⟨s, text⟩, h, rfl⟩
    exact ⟨text, mem_choices.1 h⟩
  · rintro ⟨text, h⟩
    exact ⟨(s, text), mem_choices.2 h, rfl⟩

theorem map_setting_sublist (uses : List Use) :
    (((choices uses).map Prod.fst).map Name.setting).Sublist (uses.map name) := by
  induction uses with
  | nil => exact .slnil
  | cons u uses ih =>
      cases u with
      | setting s text => exact ih.cons_cons _
      | switch sw => exact ih.cons _

theorem mem_textsFor : text ∈ textsFor (choices uses) s ↔ .setting s text ∈ uses := by
  rw [← mem_choices, textsFor, List.mem_map]
  constructor
  · rintro ⟨⟨s', text'⟩, h, rfl⟩
    obtain ⟨hmem, hs⟩ := List.mem_filter.1 h
    rwa [← of_decide_eq_true hs]
  · exact fun h => ⟨(s, text), List.mem_filter.2 ⟨h, decide_eq_true rfl⟩, rfl⟩

theorem length_textsFor (uses : List Use) (s : Setting) :
    (textsFor (choices uses) s).length = (uses.map name).count (.setting s) := by
  induction uses with
  | nil => rfl
  | cons u uses ih =>
      rw [List.map_cons, List.count_cons, ← ih]
      rcases u with ⟨s', text⟩ | sw
      · show (textsFor ((s', text) :: choices uses) s).length = _
        rw [textsFor_cons, List.length_append]
        by_cases hs : s' = s
        · simp [name, hs, Nat.add_comm]
        · simp [name, hs]
      · show (textsFor (choices uses) s).length = _
        simp [name]

theorem textsFor_eq_nil_iff : textsFor (choices uses) s = [] ↔ .setting s ∉ uses.map name := by
  rw [← List.length_eq_zero_iff, length_textsFor, List.count_eq_zero]

/-! ### Uses without a repetition -/

theorem distinct_iff : Distinct uses ↔ ∀ n : Name, n.repeats = false → (uses.map name).count n ≤ 1 := by
  rw [Distinct, List.nodup_iff_count_le_one]
  refine forall_congr' fun n => ?_
  cases hrepeats : n.repeats with
  | true =>
      have hout : n ∉ (uses.map name).filter fun n => !n.repeats := by simp [hrepeats]
      simp [List.count_eq_zero.2 hout]
  | false => simp [List.count_filter, hrepeats]

theorem distinct_append_singleton :
    Distinct (uses ++ [u]) ↔ Distinct uses ∧ (u.name.repeats = true ∨ u.name ∉ uses.map name) := by
  rw [Distinct, List.map_append, List.filter_append]
  cases hrepeats : u.name.repeats with
  | true => simp [Distinct, hrepeats]
  | false =>
      have hlast : ([u].map name).filter (fun n => !n.repeats) = [u.name] := by simp [hrepeats]
      have hmem : u.name ∈ uses.map name ↔ u.name ∈ (uses.map name).filter fun n => !n.repeats := by
        rw [List.mem_filter, hrepeats]
        exact (and_iff_left rfl).symm
      rw [hlast, hmem, ← List.concat_eq_append, List.nodup_concat, Distinct]
      simp [and_comm]

theorem Distinct.of_append {more : List Use} (h : Distinct (uses ++ more)) : Distinct uses := by
  rw [Distinct, List.map_append, List.filter_append] at h
  exact (List.nodup_append.1 h).1

/-- A name that is used again is used again for the first time. -/
theorem exists_repeated (h : ¬Distinct uses) : ∃ refusal, Conflict uses refusal := by
  have hsplit : ∃ before u after, uses = before ++ u :: after ∧ Distinct before ∧ u.name.repeats = false ∧
      u.name ∈ before.map name := by
    induction uses using List.reverseRecOn with
    | nil => exact absurd List.nodup_nil h
    | append_singleton uses u ih =>
        by_cases hdistinct : Distinct uses
        · obtain ⟨honce, hagain⟩ := not_or.1 fun hnew => h (distinct_append_singleton.2 ⟨hdistinct, hnew⟩)
          exact ⟨uses, u, [], rfl, hdistinct, Bool.eq_false_iff.2 honce, not_not.1 hagain⟩
        · obtain ⟨before, u', after, rfl, hrest⟩ := ih hdistinct
          exact ⟨before, u', after ++ [u], List.append_assoc .., hrest⟩
  obtain ⟨before, u, after, hsplit, hdistinct, honce, hagain⟩ := hsplit
  exact ⟨_, .repeated hsplit hdistinct honce hagain⟩

/-- Of two settings that are used, one is used in front of the other. -/
theorem exists_excluded (h : Distinct uses) (hlabel : .setting .label ∈ uses.map name)
    (hcidr : .setting .labelCidr ∈ uses.map name) : ∃ refusal, Conflict uses refusal := by
  obtain ⟨front, rear, hsplit⟩ := List.append_of_mem (mem_settings.2 hlabel)
  have hmem := mem_settings.2 hcidr
  rw [hsplit, List.mem_append, List.mem_cons] at hmem
  rcases hmem with hfront | hsame | hrear
  · refine ⟨_, @Conflict.excluded _ .labelCidr .label h (List.Perm.swap ..) ?_⟩
    rw [hsplit]
    exact (List.singleton_sublist.2 hfront).append (List.singleton_sublist.2 List.mem_cons_self)
  · cases hsame
  · refine ⟨_, @Conflict.excluded _ .label .labelCidr h (List.Perm.refl _) ?_⟩
    rw [hsplit]
    exact ((List.singleton_sublist.2 hrear).cons_cons _).trans (List.sublist_append_right ..)

instance decidableDistinct (uses : List Use) : Decidable (Distinct uses) := inferInstanceAs (Decidable (List.Nodup _))

theorem clash_iff : Clash uses ↔
    ¬Distinct uses ∨ (.setting .label ∈ uses.map name ∧ .setting .labelCidr ∈ uses.map name) := by
  rw [Clash, distinct_iff]
  refine or_congr_left ?_
  simp [← Bool.not_eq_true, Name.repeats_iff, Nat.lt_iff_add_one_le]

instance decidableClash (uses : List Use) : Decidable (Clash uses) := decidable_of_iff' _ clash_iff

theorem distinct_of_not_clash (h : ¬Clash uses) : Distinct uses :=
  not_not.1 fun hdistinct => h (clash_iff.2 (.inl hdistinct))

theorem Conflict.clash {refusal : Refusal} (h : Conflict uses refusal) : Clash uses := by
  rw [clash_iff]
  cases h with
  | @repeated before after u split distinct once again =>
      refine .inl fun hdistinct => ?_
      rw [split, List.append_cons] at hdistinct
      rcases (distinct_append_singleton.1 hdistinct.of_append).2 with hrepeats | hnew
      · exact Bool.false_ne_true (once.symm.trans hrepeats)
      · exact hnew again
  | excluded distinct labels order =>
      have hmem (s : Setting) (hs : s ∈ [Setting.label, .labelCidr]) : .setting s ∈ uses.map name :=
        mem_settings.1 (order.subset (labels.mem_iff.2 hs))
      exact .inr ⟨hmem _ (by decide), hmem _ (by decide)⟩

theorem exists_conflict_iff : (∃ refusal, Conflict uses refusal) ↔ Clash uses := by
  refine ⟨fun ⟨_, h⟩ => h.clash, fun hclash => ?_⟩
  by_cases hdistinct : Distinct uses
  · obtain ⟨hlabel, hcidr⟩ := (clash_iff.1 hclash).resolve_left (not_not.2 hdistinct)
    exact exists_excluded hdistinct hlabel hcidr
  · exact exists_repeated hdistinct

end Use

/-! ### Lines with uses taken up -/

/-- The options with all of the uses laid down. -/
def Options.ofUses (uses : List Use) : Options :=
  { Options.ofTexts (textsFor (Use.choices uses)) with
    dryRun := .switch .dryRun ∈ uses
    verbosity := (min (uses.count (.switch .verbose)) 255).toUInt8 }

/-- Whether and how loudly to run dry makes no difference to a setting. -/
theorem Setting.store_switched (s : Setting) (text : String) (o : Options) (dryRun : Bool) (verbosity : UInt8) :
    s.store text { o with dryRun, verbosity } = (s.store text o).map fun o => { o with dryRun, verbosity } := by
  cases s with
  | outerSource | outerDestination | innerDestination => cases h : readAddress text <;> simp [store, h, Except.map]
  | destinationPort => cases h : readField 65535 text <;> simp [store, h, Except.map]
  | flow => cases h : Flow.read text <;> simp [store, h, Except.map]
  | label => cases h : readField 4294967295 text <;> simp [store, h, Except.map]
  | labelTtl => cases h : readField 255 text <;> simp [store, h, Except.map]
  | interval | count | timeout => cases h : readCount text <;> simp [store, h, Except.map]
  | labelCidr | payload => rfl

theorem Setting.store_ofUses (h : s.Accepts text) (uses : List Use) :
    s.store text (.ofUses uses) = .ok (.ofUses (uses ++ [.setting s text])) := by
  have hchoices : Use.choices (uses ++ [.setting s text]) = Use.choices uses ++ [(s, text)] := Use.choices_append _
  have hdryRun : Use.switch .dryRun ∈ uses ++ [Use.setting s text] ↔ Use.switch .dryRun ∈ uses := by simp
  have hverbose : (uses ++ [Use.setting s text]).count (Use.switch .verbose) = uses.count (Use.switch .verbose) := by
    simp
  rw [Options.ofUses, Setting.store_switched, Setting.store_ofTexts h, Options.ofUses, hchoices, hverbose]
  simp only [hdryRun, Except.map]

/-- A count that stays at its maximum counts one more. -/
theorem toUInt8_min_succ (n : Nat) : (min (n + 1) 255).toUInt8 =
    if (min n 255).toUInt8 = 255 then 255 else (min n 255).toUInt8 + 1 := by
  by_cases hn : n < 255
  · have hne : n.toUInt8 ≠ 255 := by
      intro h
      have hvalue : n.toUInt8.toNat = n := Nat.mod_eq_of_lt (Nat.lt_succ_of_lt hn)
      rw [h] at hvalue
      exact Nat.ne_of_gt hn hvalue
    rw [Nat.min_eq_left (Nat.le_of_lt hn), Nat.min_eq_left hn, if_neg hne]
    exact UInt8.ofNat_add n 1
  · rw [Nat.min_eq_right (Nat.le_of_not_lt hn), Nat.min_eq_right (Nat.le_succ_of_le (Nat.le_of_not_lt hn))]
    rfl

theorem Use.choices_append_switch (uses : List Use) (sw : Switch) : choices (uses ++ [.switch sw]) = choices uses :=
  (choices_append _).trans (List.append_nil _)

theorem Options.ofUses_dryRun (uses : List Use) :
    Options.ofUses (uses ++ [.switch .dryRun]) = { Options.ofUses uses with dryRun := true } := by
  rw [ofUses, Use.choices_append_switch, List.count_append]
  simp [ofUses]

theorem Options.ofUses_verbose (uses : List Use) : Options.ofUses (uses ++ [.switch .verbose]) =
    { Options.ofUses uses with
      verbosity := if (ofUses uses).verbosity = 255 then 255 else (ofUses uses).verbosity + 1 } := by
  have hverbosity : (ofUses uses).verbosity = (min (uses.count (.switch .verbose)) 255).toUInt8 := rfl
  rw [hverbosity, ← toUInt8_min_succ, ofUses, Use.choices_append_switch, List.count_append]
  simp [ofUses]

namespace Line

/-- The line on which these uses were taken up. -/
def ofUses (uses : List Use) : Line where
  options := .ofUses uses
  given := (ofChoices (Use.choices uses)).given

theorem mem_given_ofUses : s ∈ (ofUses uses).given ↔ s.repeats = false ∧ .setting s ∈ uses.map Use.name := by
  show s ∈ ((Use.choices uses).map Prod.fst).filter (fun s => !s.repeats) ↔ _
  rw [List.mem_filter, Use.mem_settings, Bool.not_eq_true', and_comm]

theorem verbosity_ofUses (uses : List Use) :
    (ofUses uses).options.verbosity.toNat = min (uses.count (.switch .verbose)) 255 :=
  Nat.mod_eq_of_lt (Nat.lt_of_le_of_lt (Nat.min_le_right ..) (by decide))

theorem attach_ofUses (haccepts : s.Accepts text) (hnew : s ∉ (ofUses uses).given) :
    (ofUses uses).attach s text = .ok (ofUses (uses ++ [.setting s text])) := by
  have hstore : s.store text (ofUses uses).options = .ok (ofUses (uses ++ [.setting s text])).options :=
    Setting.store_ofUses haccepts uses
  have hgiven : (if s.repeats then (ofUses uses).given else (ofUses uses).given ++ [s]) =
      (ofUses (uses ++ [.setting s text])).given := by
    have hchoices : Use.choices (uses ++ [.setting s text]) = Use.choices uses ++ [(s, text)] := Use.choices_append _
    show _ = (ofChoices (Use.choices (uses ++ [.setting s text]))).given
    rw [hchoices, given_ofChoices_append_singleton]
    rfl
  rw [attach, settle_of_none rfl, Outcome.ok_bind, store, if_neg hnew, hstore]
  dsimp only
  rw [hgiven]
  rfl

/-- What one use does to a line, if it is not one too many. -/
theorem take_ofUses (hvalid : u.Valid) (hnew : u.name.repeats = true ∨ u.name ∉ uses.map Use.name) :
    (ofUses uses).take u = .ok (ofUses (uses ++ [u])) := by
  rcases u with ⟨s, text⟩ | sw
  · refine attach_ofUses hvalid ?_
    rw [mem_given_ofUses]
    rintro ⟨hrepeats, hmem⟩
    rcases hnew with hnew | hnew
    · exact Bool.false_ne_true (hrepeats.symm.trans hnew)
    · exact hnew hmem
  · rw [take, turn, settle_of_none rfl, Outcome.ok_bind, ofUses, ofUses, Use.choices_append_switch]
    cases sw with
    | help => exact absurd rfl hvalid.1
    | version => exact absurd rfl hvalid.2
    | dryRun =>
        have hmem : Use.switch .dryRun ∉ uses := mt Use.mem_map_name_switch.2 (hnew.resolve_left Bool.false_ne_true)
        have hdry : (Options.ofUses uses).dryRun = false := decide_eq_false hmem
        dsimp only
        rw [if_neg (Bool.eq_false_iff.1 hdry), Options.ofUses_dryRun]
        rfl
    | verbose =>
        rw [Options.ofUses_verbose]
        rfl

theorem take_ofUses_again (hvalid : u.Valid) (honce : u.name.repeats = false) (hagain : u.name ∈ uses.map Use.name) :
    (ofUses uses).take u = .error (.repeated u.name) := by
  rcases u with ⟨s, text⟩ | sw
  · have hgiven : s ∈ (ofUses uses).given := mem_given_ofUses.2 ⟨honce, hagain⟩
    rw [take, attach, settle_of_none rfl, Outcome.ok_bind, store, if_pos hgiven]
    rfl
  · cases sw with
    | help => exact absurd rfl hvalid.1
    | version => exact absurd rfl hvalid.2
    | dryRun =>
        have hdry : (ofUses uses).options.dryRun = true := decide_eq_true (Use.mem_map_name_switch.1 hagain)
        rw [take, turn, settle_of_none rfl, Outcome.ok_bind]
        dsimp only
        rw [if_pos hdry]
        rfl
    | verbose => cases honce

theorem takeAll_ofUses {more : List Use} (hvalid : ∀ u ∈ more, u.Valid) (hdistinct : Use.Distinct (uses ++ more)) :
    (ofUses uses).takeAll more = .ok (ofUses (uses ++ more)) := by
  induction more generalizing uses with
  | nil => rw [takeAll, settle_of_none rfl, List.append_nil]
  | cons u more ih =>
      rw [List.append_cons] at hdistinct ⊢
      have hnew := (Use.distinct_append_singleton.1 hdistinct.of_append).2
      rw [takeAll, take_ofUses (hvalid u List.mem_cons_self) hnew, Outcome.ok_bind]
      exact ih (fun u hu => hvalid u (List.mem_cons_of_mem _ hu)) hdistinct

/-- What is taken up behind other uses finds the line that they left. -/
theorem takeAll_append (l : Line) (uses more : List Use) :
    l.takeAll (uses ++ more) = (l.takeAll uses >>= fun l => l.takeAll more) := by
  induction uses generalizing l with
  | nil => exact (settle_bind_takeAll l more).symm
  | cons u uses ih =>
      rw [List.cons_append, takeAll, takeAll]
      cases l.take u with
      | error refusal => rfl
      | ok taken => exact ih taken

/-! ### Labels given in two ways -/

section

variable {l : Line} (hgiven : l.given.Nodup)

include hgiven

/-- The settings that exclude each other are there once each at most. -/
theorem length_filter_le :
    (l.given.filter fun s => s = .label ∨ s = .labelCidr).length ≤ [Setting.label, .labelCidr].length := by
  refine ((hgiven.filter _).subperm fun s hs => ?_).length_le
  have hs := of_decide_eq_true (List.mem_filter.1 hs).2
  simpa using hs

theorem checkExcluded_of_order {first second : Setting} (hlabels : [first, second].Perm [.label, .labelCidr])
    (horder : [first, second].Sublist l.given) : l.checkExcluded = .error (.excluded first second) := by
  have hself : [first, second].filter (fun s => s = .label ∨ s = .labelCidr) = [first, second] := by
    refine List.filter_eq_self.2 fun s hs => decide_eq_true ?_
    simpa using hlabels.mem_iff.1 hs
  have hfilter := (hself ▸ horder.filter _).eq_of_length_le (length_filter_le hgiven)
  rw [checkExcluded, ← hfilter]

theorem checkExcluded_of_not_both (h : ¬(.label ∈ l.given ∧ .labelCidr ∈ l.given)) : l.checkExcluded = .ok () := by
  unfold checkExcluded
  split
  case h_1 first second tail hfilter =>
      have hnodup := hgiven.filter fun s => decide (s = .label ∨ s = .labelCidr)
      rw [hfilter] at hnodup
      have hne : first ≠ second := fun hsame => (List.nodup_cons.1 hnodup).1 (hsame ▸ List.mem_cons_self)
      have hmem (s : Setting) (hs : s ∈ first :: second :: tail) : s ∈ l.given ∧ (s = .label ∨ s = .labelCidr) := by
        rw [← hfilter] at hs
        exact ⟨(List.mem_filter.1 hs).1, of_decide_eq_true (List.mem_filter.1 hs).2⟩
      obtain ⟨hfirst, rfl | rfl⟩ := hmem first List.mem_cons_self
      all_goals obtain ⟨hsecond, rfl | rfl⟩ := hmem second (List.mem_cons_of_mem _ List.mem_cons_self)
      · exact absurd rfl hne
      · exact absurd ⟨hfirst, hsecond⟩ h
      · exact absurd ⟨hsecond, hfirst⟩ h
      · exact absurd rfl hne
  case h_2 => rfl

end

/-! ### Lines that are read -/

theorem nodup_given_ofUses (h : Use.Distinct uses) : (ofUses uses).given.Nodup := by
  have hnames := (Use.map_setting_sublist uses).filter fun n => !n.repeats
  rw [List.filter_map] at hnames
  exact (h.sublist hnames).of_map

theorem read_of_takeAll (hspelled : Use.Spelled uses words) :
    read words = ((ofUses []).takeAll uses >>= fun l => l.checkExcluded.map fun _ => l.options) := by
  have hempty : ofUses [] = {} := rfl
  rw [read, readWords_of_uses hspelled, hempty]
  cases takeAll {} uses with
  | error refusal => rfl
  | ok l =>
      rw [Outcome.ok_bind, Outcome.ok_bind]
      cases l.checkExcluded with
      | error refusal => rfl
      | ok passed => rfl

theorem read_of_not_clash (hspelled : Use.Spelled uses words) (hvalid : ∀ u ∈ uses, u.Valid) (h : ¬Use.Clash uses) :
    read words = .ok (.ofUses uses) := by
  have hdistinct := Use.distinct_of_not_clash h
  have hlabels : ¬(.label ∈ (ofUses uses).given ∧ .labelCidr ∈ (ofUses uses).given) := by
    rintro ⟨hlabel, hcidr⟩
    exact h (.inr ⟨(mem_given_ofUses.1 hlabel).2, (mem_given_ofUses.1 hcidr).2⟩)
  have htaken : (ofUses []).takeAll uses = .ok (ofUses uses) := takeAll_ofUses hvalid hdistinct
  rw [read_of_takeAll hspelled, htaken, Outcome.ok_bind,
    checkExcluded_of_not_both (nodup_given_ofUses hdistinct) hlabels]
  rfl

theorem read_of_conflict (hspelled : Use.Spelled uses words) (hvalid : ∀ u ∈ uses, u.Valid) {refusal : Refusal}
    (h : Use.Conflict uses refusal) : read words = .error refusal := by
  rw [read_of_takeAll hspelled]
  cases h with
  | @repeated before after u split distinct once again =>
      have hbefore : (ofUses []).takeAll before = .ok (ofUses before) :=
        takeAll_ofUses (fun u hu => hvalid u (split ▸ List.mem_append_left _ hu)) distinct
      have hu : u.Valid := hvalid u (split ▸ List.mem_append_right _ List.mem_cons_self)
      rw [split, takeAll_append, hbefore, Outcome.ok_bind, takeAll, take_ofUses_again hu once again]
      rfl
  | @excluded first second distinct labels order =>
      have htaken : (ofUses []).takeAll uses = .ok (ofUses uses) := takeAll_ofUses hvalid distinct
      have honce : [first, second].filter (fun s => !s.repeats) = [first, second] := by
        refine List.filter_eq_self.2 fun s hs => ?_
        rcases List.mem_pair.1 (labels.mem_iff.1 hs) with rfl | rfl
        · rfl
        · rfl
      have horder : [first, second].Sublist (ofUses uses).given := honce ▸ order.filter _
      rw [htaken, Outcome.ok_bind, checkExcluded_of_order (nodup_given_ofUses distinct) labels horder]
      rfl

end Line

end LabelTunnel.Command
