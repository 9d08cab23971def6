import LabelTunnel.Proofs.Command.Conflict

/-! How choices are spelled on a line. A line of choices is a line of uses without a switch, so it is read as
the options that are laid down for the choices. -/

namespace LabelTunnel.Command

variable {choices : List Choice} {s : Setting} {text : String} {words : List String}

/-- The words that give a setting a value. A value that begins with a dash has no word of its own, and one
that is empty or begins with an equals sign does not follow a letter immediately. -/
inductive Setting.Spelled (s : Setting) (text : String) : List String → Prop
  | longAttached : Spelled s text ["--" ++ s.longName ++ "=" ++ text]
  | longApart (hdash : text.toList.head? ≠ some '-') : Spelled s text ["--" ++ s.longName, text]
  | shortApart {c : Char} (hletter : s.letter? = some c) (hdash : text.toList.head? ≠ some '-') :
      Spelled s text [String.ofList ['-', c], text]
  | shortAttached {c : Char} (hletter : s.letter? = some c) (hne : text ≠ "")
      (hequals : text.toList.head? ≠ some '=') : Spelled s text [String.ofList ('-' :: c :: text.toList)]
  | shortEquals {c : Char} (hletter : s.letter? = some c) :
      Spelled s text [String.ofList ('-' :: c :: '=' :: text.toList)]

/-- The words spell the choices one after the other. -/
inductive Choice.Spelled : List Choice → List String → Prop
  | nil : Spelled [] []
  | cons {s : Setting} {text : String} {choices : List Choice} {words more : List String}
      (first : s.Spelled text words) (rest : Spelled choices more) :
      Spelled ((s, text) :: choices) (words ++ more)

namespace Use

/-- A choice is the use of a setting. -/
def ofChoice (c : Choice) : Use := .setting c.1 c.2

theorem spelled_cons {uses : List Use} {more : List String} (first : s.Spelled text words) (rest : Spelled uses more) :
    Spelled (.setting s text :: uses) (words ++ more) := by
  cases first with
  | longAttached => exact .longAttached rest
  | longApart hdash => exact .longApart (.inl hdash) rest
  | shortApart hletter hdash => exact .letters (.apart hletter (.inl hdash)) rest
  | shortAttached hletter hne hequals => exact .letters (.attached hletter hne hequals) rest
  | shortEquals hletter => exact .letters (.equals hletter) rest

theorem spelled_of_choices (h : Choice.Spelled choices words) : Spelled (choices.map ofChoice) words := by
  induction h with
  | nil => exact .nil
  | cons first _ ih => exact spelled_cons first ih

theorem choices_map_ofChoice (choices : List Choice) : Use.choices (choices.map ofChoice) = choices := by
  rw [Use.choices, List.filterMap_map]
  exact List.filterMap_some

/-- Choices go together if no setting comes twice that does not repeat, and no label is given by an address. -/
theorem not_clash_of_choices (honce : (Line.ofChoices choices).given.Nodup)
    (hcidr : .labelCidr ∉ (Line.ofChoices choices).given) : ¬Clash (choices.map ofChoice) := by
  rw [clash_iff, not_or, not_not]
  constructor
  · have hnames : ((choices.map ofChoice).map name).filter (fun n => !n.repeats) =
        (Line.ofChoices choices).given.map Name.setting := by
      have hmap : (choices.map ofChoice).map name = (choices.map Prod.fst).map Name.setting := by
        rw [List.map_map, List.map_map]
        rfl
      rw [hmap, List.filter_map]
      rfl
    rw [Distinct, hnames]
    exact honce.map fun _ _ => Name.setting.inj
  · rintro ⟨-, hmem⟩
    rw [← mem_settings, choices_map_ofChoice] at hmem
    exact hcidr (List.mem_filter.2 ⟨hmem, rfl⟩)

end Use

theorem Options.ofUses_map_ofChoice (choices : List Choice) :
    Options.ofUses (choices.map Use.ofChoice) = .ofTexts (Choice.textsFor choices) := by
  have hswitch (sw : Switch) : Use.switch sw ∉ choices.map Use.ofChoice := by simp [Use.ofChoice]
  rw [ofUses, Use.choices_map_ofChoice, List.count_eq_zero.2 (hswitch .verbose), decide_eq_false (hswitch .dryRun)]
  rfl

/-- Spelled choices that are accepted one by one are accepted together, if no setting comes twice that does
not repeat, and no label is given by an address. The options are those that are laid down for the choices. -/
theorem Line.read_of_choices (h : Choice.Spelled choices words) (haccepts : ∀ c ∈ choices, c.1.Accepts c.2)
    (honce : (ofChoices choices).given.Nodup) (hcidr : .labelCidr ∉ (ofChoices choices).given) :
    read words = .ok (.ofTexts (Choice.textsFor choices)) := by
  rw [read_of_not_clash (Use.spelled_of_choices h) (List.forall_mem_map.2 haccepts)
    (Use.not_clash_of_choices honce hcidr), Options.ofUses_map_ofChoice]

end LabelTunnel.Command
