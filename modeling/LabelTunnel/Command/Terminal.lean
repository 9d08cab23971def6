/-! Text for a terminal, and what is left of it as plain text. A terminal takes some runs of characters
as control functions: escape sequences, control sequences, and control strings with all they hold. Plain
text leaves these out, whether the program wrote them or they came in a word of the user, and it leaves
out control characters that are no white space. -/

namespace LabelTunnel.Command.Terminal

def escape : Char := Char.ofNat 27

/-- The two characters that break off a control function. -/
def breaksOff (c : Char) : Bool := c.toNat == 24 || c.toNat == 26

def isLayout (c : Char) : Bool := c.toNat == 9 || c.toNat == 10 || c.toNat == 12 || c.toNat == 13

def isControl (c : Char) : Bool := decide (c.toNat < 32) || c.toNat == 127

/-- What the characters up to some point have begun. -/
inductive Mode where
  | text
  /-- An escape sequence, of which the escape character has been read. -/
  | escape
  /-- An escape sequence, behind its first intermediate character. -/
  | escapeTail
  | control
  | command
  /-- A device control string, up to its first parameter. -/
  | device
  | deviceParameters
  /-- A device control string, behind its first intermediate character. -/
  | deviceTail
  | skipped
  deriving DecidableEq

namespace Mode

/-- Whether a character stays in plain text. White space does, even where it breaks off a sequence. -/
def keeps : Mode → Char → Bool
  | .text, c => isLayout c || !isControl c
  | .escape, c | .escapeTail, c | .control, c => isLayout c
  | _, _ => false

/-- Whether a control function takes no notice of a character: it is a control character or no ASCII. -/
def ignores (c : Char) : Bool := decide (c.toNat < 32) || decide (127 ≤ c.toNat)

/-- Whether an octet of a character is the terminator of control strings. -/
def terminates (c : Char) : Bool := (String.utf8EncodeChar c).contains 0x9C

/-- How a control function goes on with a character that neither begins nor breaks off one. -/
def next (m : Mode) (c : Char) : Mode :=
  match m with
  | .text => .text
  | .escape =>
    if ignores c then .escape
    else if c < '0' then .escapeTail
    else if c = '[' then .control
    else if c = ']' then .command
    else if c = 'P' then .device
    else if c = 'X' ∨ c = '^' ∨ c = '_' then .skipped
    else .text
  | .escapeTail => if ignores c || decide (c < '0') then .escapeTail else .text
  | .control => if ignores c || decide (c < '@') then .control else .text
  | .command => if c.toNat = 7 then .text else .command
  | .device =>
    if ignores c then .device
    else if c < '0' then .deviceTail
    else if c < '@' then .deviceParameters
    else .skipped
  | .deviceParameters =>
    if ignores c then .deviceParameters
    else if c < '0' then .deviceTail
    else if c < '<' then .deviceParameters
    else .skipped
  | .deviceTail => if ignores c || decide (c < '0') then .deviceTail else .skipped
  | .skipped => if terminates c then .text else .skipped

def step (m : Mode) (c : Char) : Mode :=
  if c = Terminal.escape then .escape
  else if breaksOff c || m.keeps c then .text
  else m.next c

end Mode

/-- The plain text of characters that stand in a mode. -/
def plainFrom (m : Mode) : List Char → List Char
  | [] => []
  | c :: rest => if m.keeps c then c :: plainFrom (m.step c) rest else plainFrom (m.step c) rest

def plain (text : String) : String := String.ofList (plainFrom .text text.toList)

/-- A text set off from what stands around it. The sequence behind it also breaks off a control function
that the text leaves open. -/
def setOff (text : String) : String :=
  String.singleton escape ++ "[1m" ++ text ++ String.singleton escape ++ "[0m"

end LabelTunnel.Command.Terminal
