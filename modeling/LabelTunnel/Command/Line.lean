import LabelTunnel.Command.Terminal
import LabelTunnel.Command.Vocabulary

/-! Reading a command line word by word, from the left. A value given in a word of its own is kept
back, and looked at only when the next name is taken up or the words end; a word that is no name at all
is therefore reported before a bad value in front of it. -/

namespace LabelTunnel.Command

/-- Why a command line is not carried out. -/
inductive Refusal where
  | help
  | version
  /-- A word, or the part of a word, that is no name and no value. -/
  | unknown (text : String)
  | valueMissing (setting : Setting)
  | valueRefused (setting : Setting) (value : String) (fault : ValueFault)
  | valueUnexpected (switch : Switch) (value : String)
  | repeated (name : Name)
  /-- Two settings that exclude each other, the one given first in front. -/
  | excluded (first second : Setting)
  deriving DecidableEq

namespace Refusal

def firstLine (text : List Char) : List Char :=
  match text with
  | [] => []
  | '\n' :: _ => []
  | '\r' :: '\n' :: _ => []
  | c :: rest => c :: firstLine rest

/-- What the refusal says, unless it only stands for a request for information. Names and words of the
user are set off; a text that a value was read into is not. -/
def reason? : Refusal → Option String
  | .help | .version => none
  | .unknown text => some ("unexpected argument '" ++ Terminal.setOff text ++ "' found")
  | .valueMissing setting =>
    some ("a value is required for '" ++ Terminal.setOff setting.text ++ "' but none was supplied")
  | .valueRefused setting value fault =>
    some ("invalid value '" ++ Terminal.setOff value ++ "' for '" ++ Terminal.setOff setting.text ++
      "': " ++ fault.message)
  | .valueUnexpected switch value =>
    some ("unexpected value '" ++ Terminal.setOff value ++ "' for '" ++ Terminal.setOff switch.text ++
      "' found; no more were expected")
  | .repeated name =>
    some ("the argument '" ++ Terminal.setOff name.text ++ "' cannot be used multiple times")
  | .excluded first second =>
    some ("the argument '" ++ Terminal.setOff first.text ++ "' cannot be used with '" ++
      Terminal.setOff second.text ++ "'")

def report? (r : Refusal) : Option String :=
  r.reason?.map fun reason =>
    Terminal.setOff "error:" ++ " " ++ reason ++ "\n\nFor more information, try '" ++
      Terminal.setOff "--help" ++ "'.\n"

def message? (r : Refusal) : Option String :=
  r.report?.map fun report => String.ofList (firstLine (Terminal.plain report).toList)

end Refusal

/-- A setting whose value comes, or came, in a word of its own. -/
inductive Pending where
  | none
  | awaiting (setting : Setting)
  | holding (setting : Setting) (value : String)
  deriving DecidableEq

structure Line where
  options : Options := {}
  /-- The settings stored so far that may not be stored again, in order. -/
  given : List Setting := []
  pending : Pending := .none
  deriving DecidableEq

namespace Line

/-- Stores the value of a setting. A second use is reported before the value is looked at. -/
def store (setting : Setting) (value : String) (l : Line) : Except Refusal Line :=
  if setting ∈ l.given then .error (.repeated (.setting setting))
  else
    match setting.store value l.options with
    | .error fault => .error (.valueRefused setting value fault)
    | .ok options =>
      .ok { l with options, given := if setting.repeats then l.given else l.given ++ [setting] }

def settle (l : Line) : Except Refusal Line :=
  match l.pending with
  | .none => .ok l
  | .awaiting setting => .error (.valueMissing setting)
  | .holding setting value => { l with pending := .none }.store setting value

def attach (setting : Setting) (value : String) (l : Line) : Except Refusal Line := do
  (← l.settle).store setting value

def await (setting : Setting) (l : Line) : Except Refusal Line := do
  return { (← l.settle) with pending := .awaiting setting }

/-- Takes up a switch. The count of `verbose` stays at its maximum. -/
def turn (switch : Switch) (l : Line) : Except Refusal Line := do
  let l ← l.settle
  match switch with
  | .help => throw .help
  | .version => throw .version
  | .dryRun =>
    if l.options.dryRun then throw (.repeated (.switch .dryRun))
    else return { l with options := { l.options with dryRun := true } }
  | .verbose =>
    let verbosity := if l.options.verbosity = 255 then 255 else l.options.verbosity + 1
    return { l with options := { l.options with verbosity } }

/-- Reads the letters behind a single dash. The first setting among them takes what is left of the
word as its value, less an equals sign in front, or awaits its value if nothing is left. -/
def readLetters (l : Line) : List Char → Except Refusal Line
  | [] => .ok l
  | c :: rest =>
    match Name.ofLetter? c with
    | none => .error (.unknown (String.ofList ['-', c]))
    | some (.switch switch) => do (← l.turn switch).readLetters rest
    | some (.setting setting) =>
      match rest with
      | [] => l.await setting
      | '=' :: value => l.attach setting (String.ofList value)
      | value => l.attach setting (String.ofList value)

/-- Reads what stands behind two dashes: a long name, with or without an attached value. -/
def readLong (l : Line) (text : List Char) : Except Refusal Line :=
  let (spelling, value?) :=
    match Split.atFirst? '=' text with
    | none => (text, none)
    | some (spelling, value) => (spelling, some (String.ofList value))
  match Name.ofLong? (String.ofList spelling), value? with
  | none, _ => .error (.unknown (String.ofList ('-' :: '-' :: spelling)))
  | some (.setting setting), none => l.await setting
  | some (.setting setting), some value => l.attach setting value
  | some (.switch switch), none => l.turn switch
  | some (.switch switch), some value => .error (.valueUnexpected switch value)

/-- Reads a word that is no name: the value that is awaited, or nothing known. -/
def readPlain (l : Line) (word : String) : Except Refusal Line :=
  match l.pending with
  | .awaiting setting => .ok { l with pending := .holding setting word }
  | _ => .error (.unknown word)

/-- Reads the words of a line. Behind a word of two dashes no further word is accepted. -/
def readWords (l : Line) : List String → Except Refusal Line
  | [] => l.settle
  | word :: rest =>
    match word.toList with
    | ['-', '-'] =>
      match rest with
      | [] => l.settle
      | extra :: _ => .error (.unknown extra)
    | '-' :: '-' :: text => do (← l.readLong text).readWords rest
    | ['-'] => do (← l.readPlain word).readWords rest
    | '-' :: letters => do (← l.readLetters letters).readWords rest
    | _ => do (← l.readPlain word).readWords rest

/-- A label can be given as a number or by an address, but not both. -/
def checkExcluded (l : Line) : Except Refusal Unit :=
  match l.given.filter fun s => s = .label ∨ s = .labelCidr with
  | first :: second :: _ => .error (.excluded first second)
  | _ => .ok ()

/-- Reads a command line, the program's name left out. -/
def read (words : List String) : Except Refusal Options := do
  let l ← ({} : Line).readWords words
  l.checkExcluded
  return l.options

end Line

end LabelTunnel.Command
