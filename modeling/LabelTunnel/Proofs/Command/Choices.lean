import LabelTunnel.Command.Line
import LabelTunnel.Proofs.Outcome

/-! What a list of choices comes to. The options that are laid down for a list depend only on the texts that
every setting was given: the last one decides, flows are collected, and what was given no text keeps its
standard. So the order of the choices matters for the flows alone. -/

namespace LabelTunnel.Command

/-- A setting with the text of a value for it. -/
abbrev Choice : Type := Setting × String

namespace Choice

variable {choices : List Choice}

/-- The texts that are given for a setting, in order. -/
def textsFor (choices : List Choice) (s : Setting) : List String := (choices.filter (·.1 = s)).map Prod.snd

@[simp] theorem textsFor_nil (s : Setting) : textsFor [] s = [] := rfl

theorem textsFor_append (more : List Choice) (s : Setting) :
    textsFor (choices ++ more) s = textsFor choices s ++ textsFor more s := by
  rw [textsFor, List.filter_append, List.map_append, textsFor, textsFor]

theorem textsFor_singleton (s s' : Setting) (text : String) :
    textsFor [(s, text)] s' = if s = s' then [text] else [] := by
  by_cases hs : s = s'
  · simp [textsFor, hs]
  · simp [textsFor, hs]

theorem textsFor_cons (s s' : Setting) (text : String) :
    textsFor ((s, text) :: choices) s' = (if s = s' then [text] else []) ++ textsFor choices s' := by
  rw [← List.singleton_append, textsFor_append, textsFor_singleton]

theorem textsFor_map {α : Type} (s s' : Setting) (f : α → String) (l : List α) :
    textsFor (l.map fun a => (s, f a)) s' = if s = s' then l.map f else [] := by
  induction l with
  | nil => simp [textsFor]
  | cons a l ih =>
      rw [List.map_cons, textsFor_cons, ih]
      split <;> rfl

/-- The order of choices matters only where a setting has several. -/
theorem textsFor_eq_of_perm {given : List Choice} {s : Setting} (hperm : given.Perm choices)
    (hle : (textsFor choices s).length ≤ 1) : textsFor given s = textsFor choices s := by
  have htexts : (textsFor given s).Perm (textsFor choices s) := (hperm.filter _).map _
  cases hchoices : textsFor choices s with
  | nil => exact List.perm_nil.1 (hchoices ▸ htexts)
  | cons text more =>
      rw [hchoices] at htexts hle
      obtain rfl : more = [] := List.length_eq_zero_iff.1 (by simpa using hle)
      exact List.perm_singleton.1 htexts

end Choice

open Choice (textsFor textsFor_append textsFor_singleton)

/-- The options for the texts of all settings. -/
def Options.ofTexts (texts : Setting → List String) : Options where
  outerSource := (texts .outerSource).getLast?.bind fun t => (Setting.readAddress t).toOption
  outerDestination := (texts .outerDestination).getLast?.bind fun t => (Setting.readAddress t).toOption
  innerDestination := (texts .innerDestination).getLast?.bind fun t => (Setting.readAddress t).toOption
  destinationPort := (texts .destinationPort).getLast?.bind fun t =>
    (Setting.readField 65535 t).toOption.map Nat.toUInt16
  flows := (texts .flow).filterMap fun t => (Flow.read t).toOption
  label := (texts .label).getLast?.bind fun t => (Setting.readField 4294967295 t).toOption.map Nat.toUInt32
  labelCidr := (texts .labelCidr).getLast?
  labelTtl := (texts .labelTtl).getLast?.bind fun t => (Setting.readField 255 t).toOption.map Nat.toUInt8
  payload := (texts .payload).getLast?
  interval := ((texts .interval).getLast?.bind fun t => (Setting.readCount t).toOption).getD 2000
  count := ((texts .count).getLast?.bind fun t => (Setting.readCount t).toOption).getD 0
  timeout := ((texts .timeout).getLast?.bind fun t => (Setting.readCount t).toOption).getD 0

/-- The text can be read as a value of the setting, whatever else was chosen. -/
def Setting.Accepts (s : Setting) (text : String) : Prop := ∃ o, s.store text {} = .ok o

theorem Setting.accepts_of_map {α : Type} {s : Setting} {text : String} {x : Except ValueFault α}
    {f : α → Options} {a : α} (hstore : s.store text {} = x.map f) (hx : x = .ok a) : s.Accepts text := by
  refine ⟨f a, ?_⟩
  rw [hstore, hx]
  rfl

/-- Storing an accepted text is laying down one more choice. -/
theorem Setting.store_ofTexts {s : Setting} {text : String} (h : s.Accepts text) (choices : List Choice) :
    s.store text (.ofTexts (textsFor choices)) = .ok (.ofTexts (textsFor (choices ++ [(s, text)]))) := by
  obtain ⟨o, ho⟩ := h
  cases s with
  | outerSource | outerDestination | innerDestination | destinationPort | label | labelTtl | interval | count
  | timeout =>
      obtain ⟨value, hvalue, -⟩ := Outcome.map_eq_ok_iff.1 ho
      simp [store, hvalue, Options.ofTexts, textsFor_append, textsFor_singleton, Except.map]
  | flow =>
      obtain ⟨value, hvalue, -⟩ := Outcome.map_eq_ok_iff.1 ho
      cases hread : Flow.read text with
      | error fault =>
          rw [hread] at hvalue
          cases hvalue
      | ok flow => simp [store, hread, Options.ofTexts, textsFor_append, textsFor_singleton, Except.map]
  | labelCidr | payload => simp [store, Options.ofTexts, textsFor_append, textsFor_singleton]

/-! ### Lines with choices stored -/

namespace Line

variable {choices more : List Choice} {s : Setting} {text : String}

/-- The line on which these choices were stored. -/
def ofChoices (choices : List Choice) : Line where
  options := .ofTexts (textsFor choices)
  given := (choices.map Prod.fst).filter fun s => !s.repeats

theorem given_ofChoices_map {α : Type} (f : α → String) (l : List α) (hrepeats : s.repeats = true) :
    (ofChoices (l.map fun a => (s, f a))).given = [] := by
  simp [ofChoices, hrepeats]

theorem given_ofChoices_append : (ofChoices (choices ++ more)).given =
    (ofChoices choices).given ++ (ofChoices more).given := by
  rw [ofChoices, List.map_append, List.filter_append, ofChoices, ofChoices]

theorem given_ofChoices_append_singleton : (ofChoices (choices ++ [(s, text)])).given =
    if s.repeats then (ofChoices choices).given else (ofChoices choices).given ++ [s] := by
  rw [given_ofChoices_append]
  cases hrepeats : s.repeats with
  | true => simp [ofChoices, hrepeats]
  | false => simp [ofChoices, hrepeats]

end Line

end LabelTunnel.Command
