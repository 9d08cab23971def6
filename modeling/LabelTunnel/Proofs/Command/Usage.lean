import LabelTunnel.Proofs.Command.Choices
import LabelTunnel.Proofs.Notation

/-! Uses of settings and switches on a line. A value stands in the word of its name or in the next one, some
names have a letter, and letters of switches may be bundled in front of one more use. A value in a word of its
own is held back until the next name, yet a line of legally spelled uses is read as if each was taken up at
once, in the order of the line. -/

namespace LabelTunnel.Command

/-- A setting with the text of its value, or a switch. -/
inductive Use where
  | setting (setting : Setting) (text : String)
  | switch (switch : Switch)
  deriving DecidableEq

/-- A word that is no name: it does not begin with a dash, or it is a lone one. -/
def IsPlain (word : String) : Prop := word.toList.head? ≠ some '-' ∨ word = "-"

namespace Use

def name : Use → Name
  | .setting s _ => .setting s
  | .switch sw => .switch sw

/-- The use is accepted by itself, and does not ask for information. -/
def Valid : Use → Prop
  | .setting s text => s.Accepts text
  | .switch sw => sw ≠ .help ∧ sw ≠ .version

/-- What the letters behind a dash stand for, with the words that follow theirs. A value that is empty or begins
with an equals sign does not follow its letter immediately. -/
inductive Letters : List Use → List Char → List String → Prop
  | nil : Letters [] [] []
  | switch {sw : Switch} {uses : List Use} {letters : List Char} {words : List String}
      (rest : Letters uses letters words) : Letters (.switch sw :: uses) (sw.letter :: letters) words
  | apart {s : Setting} {text : String} {c : Char} (hletter : s.letter? = some c) (hplain : IsPlain text) :
      Letters [.setting s text] [c] [text]
  | attached {s : Setting} {text : String} {c : Char} (hletter : s.letter? = some c) (hne : text ≠ "")
      (hequals : text.toList.head? ≠ some '=') : Letters [.setting s text] (c :: text.toList) []
  | equals {s : Setting} {text : String} {c : Char} (hletter : s.letter? = some c) :
      Letters [.setting s text] (c :: '=' :: text.toList) []

/-- The words spell the uses one after the other. -/
inductive Spelled : List Use → List String → Prop
  | nil : Spelled [] []
  | longAttached {s : Setting} {text : String} {uses : List Use} {words : List String} (rest : Spelled uses words) :
      Spelled (.setting s text :: uses) (("--" ++ s.longName ++ "=" ++ text) :: words)
  | longApart {s : Setting} {text : String} {uses : List Use} {words : List String} (hplain : IsPlain text)
      (rest : Spelled uses words) : Spelled (.setting s text :: uses) (("--" ++ s.longName) :: text :: words)
  | longSwitch {sw : Switch} {uses : List Use} {words : List String} (rest : Spelled uses words) :
      Spelled (.switch sw :: uses) (("--" ++ sw.longName) :: words)
  | letters {u : Use} {bundle uses : List Use} {letters : List Char} {more words : List String}
      (first : Letters (u :: bundle) letters more) (rest : Spelled uses words) :
      Spelled (u :: bundle ++ uses) (String.ofList ('-' :: letters) :: (more ++ words))

end Use

/-! ### Names -/

theorem Setting.longName_ne_nil (s : Setting) : s.longName.toList ≠ [] := by cases s <;> decide

theorem Setting.not_mem_longName (s : Setting) : '=' ∉ s.longName.toList := by cases s <;> decide

theorem Setting.ne_dash_of_letter? {s : Setting} {c : Char} (h : s.letter? = some c) : c ≠ '-' := by
  cases s <;> cases h <;> decide

theorem Switch.longName_ne_nil (sw : Switch) : sw.longName.toList ≠ [] := by cases sw <;> decide

theorem Switch.not_mem_longName (sw : Switch) : '=' ∉ sw.longName.toList := by cases sw <;> decide

theorem Switch.letter_ne_dash (sw : Switch) : sw.letter ≠ '-' := by cases sw <;> decide

theorem Name.ofLong?_longName (n : Name) : ofLong? n.longName = some n := by
  rcases n with s | sw
  · cases s <;> decide
  · cases sw <;> decide

theorem Name.ofLetter?_of_letter? {n : Name} {c : Char} (h : n.letter? = some c) : ofLetter? c = some n := by
  rcases n with s | sw
  · cases s <;> cases h <;> decide
  · cases sw <;> cases h <;> decide

theorem Use.Letters.exists_cons {u : Use} {bundle : List Use} {letters : List Char} {more : List String}
    (h : Letters (u :: bundle) letters more) : ∃ c rest, letters = c :: rest ∧ c ≠ '-' := by
  cases h with
  | switch rest => exact ⟨_, _, rfl, Switch.letter_ne_dash _⟩
  | apart hletter | attached hletter | equals hletter => exact ⟨_, _, rfl, Setting.ne_dash_of_letter? hletter⟩

namespace Line

variable {l : Line} {s : Setting} {text word : String} {rest words : List String} {uses : List Use}

/-! ### Words -/

theorem readWords_long {spelling : List Char} (hword : word.toList = '-' :: '-' :: spelling)
    (hne : spelling ≠ []) : l.readWords (word :: rest) = (l.readLong spelling >>= fun l => l.readWords rest) := by
  obtain ⟨c, spelling, rfl⟩ := List.exists_cons_of_ne_nil hne
  rw [readWords.eq_def]
  simp only [hword]

theorem readWords_letters {c : Char} {letters : List Char} (hword : word.toList = '-' :: c :: letters)
    (hc : c ≠ '-') : l.readWords (word :: rest) = (l.readLetters (c :: letters) >>= fun l => l.readWords rest) := by
  rw [readWords.eq_def]
  simp only [hword]
  split
  case h_1 h => exact absurd (List.cons.inj (List.cons.inj h).2).1 hc
  case h_2 h => exact absurd (List.cons.inj (List.cons.inj h).2).1 hc
  case h_3 h => exact absurd (List.cons.inj h).2 (List.cons_ne_nil _ _)
  case h_4 h => rw [← (List.cons.inj h).2]
  case h_5 h => exact absurd rfl (h _)

theorem readWords_plain (hplain : IsPlain word) :
    l.readWords (word :: rest) = (l.readPlain word >>= fun l => l.readWords rest) := by
  rcases hplain with hdash | rfl
  · rw [readWords.eq_def]
    dsimp only
    split
    case h_1 h | h_2 h | h_3 h | h_4 h => exact absurd (congrArg List.head? h) hdash
    case h_5 => rfl
  · rfl

theorem readLong_attached (s : Setting) (text : String) :
    l.readLong (s.longName.toList ++ '=' :: text.toList) = l.attach s text := by
  have hname : Name.ofLong? s.longName = some (.setting s) := Name.ofLong?_longName (.setting s)
  rw [readLong, Split.atFirst?_append s.not_mem_longName]
  dsimp only
  rw [String.ofList_toList, String.ofList_toList, hname]

theorem readLong_apart (s : Setting) : l.readLong s.longName.toList = l.await s := by
  have hname : Name.ofLong? s.longName = some (.setting s) := Name.ofLong?_longName (.setting s)
  rw [readLong, Split.atFirst?_eq_none s.not_mem_longName]
  dsimp only
  rw [String.ofList_toList, hname]

theorem readLong_switch (sw : Switch) : l.readLong sw.longName.toList = l.turn sw := by
  have hname : Name.ofLong? sw.longName = some (.switch sw) := Name.ofLong?_longName (.switch sw)
  rw [readLong, Split.atFirst?_eq_none sw.not_mem_longName]
  dsimp only
  rw [String.ofList_toList, hname]

theorem readLetters_switch (sw : Switch) (letters : List Char) :
    l.readLetters (sw.letter :: letters) = (l.turn sw >>= fun l => l.readLetters letters) := by
  rw [readLetters, Name.ofLetter?_of_letter? (n := .switch sw) rfl]

theorem readLetters_apart {c : Char} (hletter : s.letter? = some c) : l.readLetters [c] = l.await s := by
  rw [readLetters, Name.ofLetter?_of_letter? (n := .setting s) hletter]

theorem readLetters_equals {c : Char} (hletter : s.letter? = some c) (value : List Char) :
    l.readLetters (c :: '=' :: value) = l.attach s (String.ofList value) := by
  rw [readLetters, Name.ofLetter?_of_letter? (n := .setting s) hletter]
  rfl

theorem readLetters_attached {c : Char} (hletter : s.letter? = some c) {value : List Char} (hne : value ≠ [])
    (hequals : value.head? ≠ some '=') : l.readLetters (c :: value) = l.attach s (String.ofList value) := by
  rw [readLetters, Name.ofLetter?_of_letter? (n := .setting s) hletter]
  dsimp only
  split
  case h_1 => exact absurd rfl hne
  case h_2 => exact absurd rfl hequals
  case h_3 => rfl

/-! ### Values that are held back -/

/-- Takes up a use as a whole, behind what was held back. -/
def take (l : Line) : Use → Except Refusal Line
  | .setting s text => l.attach s text
  | .switch sw => l.turn sw

/-- Takes up uses one after the other. -/
def takeAll (l : Line) : List Use → Except Refusal Line
  | [] => l.settle
  | u :: rest => do (← l.take u).takeAll rest

theorem settle_of_none (h : l.pending = .none) : l.settle = .ok l := by rw [settle, h]

theorem pending_of_store {l' : Line} (h : l.store s text = .ok l') : l'.pending = l.pending := by
  unfold store at h
  split at h
  · cases h
  · split at h
    · cases h
    · cases h
      rfl

/-- Behind a settlement nothing is held back. -/
theorem pending_of_settle {l' : Line} (h : l.settle = .ok l') : l'.pending = .none := by
  unfold settle at h
  split at h
  case h_1 hpending =>
      cases h
      exact hpending
  case h_2 => cases h
  case h_3 => exact pending_of_store h

/-- Every step settles first, so it makes no difference what settled before. -/
theorem settle_bind_takeAll (l : Line) (uses : List Use) :
    (l.settle >>= fun l => l.takeAll uses) = l.takeAll uses := by
  cases hsettle : l.settle with
  | error refusal =>
      rcases uses with _ | ⟨s, text⟩ | sw
      · exact hsettle.symm
      · rw [takeAll, take, attach, hsettle]
        rfl
      · rw [takeAll, take, turn, hsettle]
        rfl
  | ok settled =>
      have hagain : settled.settle = .ok settled := settle_of_none (pending_of_settle hsettle)
      rw [Outcome.ok_bind]
      rcases uses with _ | ⟨s, text⟩ | sw
      · rw [takeAll, takeAll, hagain, hsettle]
      · rw [takeAll, takeAll, take, take, attach, attach, hagain, hsettle]
      · rw [takeAll, takeAll, take, take, turn, turn, hagain, hsettle]

section

variable (hrest : ∀ l : Line, l.readWords rest = l.takeAll uses) (l : Line)

include hrest

/-- A value in a word of its own is stored when what follows is taken up, which is as good as at once. -/
theorem await_bind_readWords (hplain : IsPlain text) :
    (l.await s >>= fun l => l.readWords (text :: rest)) = (l.attach s text >>= fun l => l.takeAll uses) := by
  rw [await, attach]
  cases hsettle : l.settle with
  | error refusal => rfl
  | ok settled =>
      have hsame : { settled with pending := .none } = settled := by
        rw [← pending_of_settle hsettle]
      have hplain' : readPlain { settled with pending := .awaiting s } text =
          .ok { settled with pending := .holding s text } := rfl
      have hheld : settle { settled with pending := .holding s text } = settled.store s text := by
        rw [settle, hsame]
      show readWords { settled with pending := .awaiting s } (text :: rest) = _
      rw [readWords_plain hplain, hplain', Outcome.ok_bind, hrest, ← settle_bind_takeAll, hheld, Outcome.ok_bind]

/-- The letters of a bundle, read on any line: each switch of the bundle leaves another one. -/
theorem readLetters_bind_readWords {bundle : List Use} {letters : List Char} {more : List String}
    (h : Use.Letters bundle letters more) :
    (l.readLetters letters >>= fun l => l.readWords (more ++ rest)) = l.takeAll (bundle ++ uses) := by
  induction h generalizing l with
  | nil => exact hrest l
  | @switch sw _ _ _ _ ih =>
      rw [readLetters_switch, List.cons_append, takeAll, take]
      cases l.turn sw with
      | error refusal => rfl
      | ok turned => exact ih turned
  | apart hletter hplain =>
      rw [readLetters_apart hletter]
      exact await_bind_readWords hrest l hplain
  | attached hletter hne hequals =>
      rw [readLetters_attached hletter (mt String.toList_eq_nil_iff.1 hne) hequals, String.ofList_toList]
      exact congrArg _ (funext hrest)
  | equals hletter =>
      rw [readLetters_equals hletter, String.ofList_toList]
      exact congrArg _ (funext hrest)

end

/-- A line of spelled uses is read as if they were taken up one after the other, whatever value the line still
holds back when the first one begins. -/
theorem readWords_of_uses (h : Use.Spelled uses words) (l : Line) : l.readWords words = l.takeAll uses := by
  induction h generalizing l with
  | nil => rw [readWords, takeAll]
  | @longAttached s text _ _ _ ih =>
      have hword : ("--" ++ s.longName ++ "=" ++ text).toList =
          '-' :: '-' :: (s.longName.toList ++ '=' :: text.toList) := by
        simp only [String.toList_append, List.append_assoc]
        rfl
      rw [readWords_long hword (by simp), readLong_attached, funext ih]
      rfl
  | @longApart s text _ _ hplain _ ih =>
      have hword : ("--" ++ s.longName).toList = '-' :: '-' :: s.longName.toList := String.toList_append
      rw [readWords_long hword s.longName_ne_nil, readLong_apart]
      exact await_bind_readWords ih l hplain
  | @longSwitch sw _ _ _ ih =>
      have hword : ("--" ++ sw.longName).toList = '-' :: '-' :: sw.longName.toList := String.toList_append
      rw [readWords_long hword sw.longName_ne_nil, readLong_switch, funext ih]
      rfl
  | letters first _ ih =>
      obtain ⟨c, letters, rfl, hc⟩ := first.exists_cons
      rw [readWords_letters (String.toList_ofList ..) hc]
      exact readLetters_bind_readWords ih l first

end Line

end LabelTunnel.Command
