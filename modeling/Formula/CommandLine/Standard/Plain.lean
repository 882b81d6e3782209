/-!
Texts for a place that is no terminal: control characters and the control sequences of terminals are
taken out, and the characters that lay out lines stay. A sequence begins with the escape character;
how far it goes depends on what follows. A layout character interrupts some sequences: it stays, and
so does the plain text after it, until the next control character takes the sequence up again.
-/

namespace Formula.CommandLine.Standard

/-- Where in a control sequence the reading is: behind the escape character, in a short sequence, in
one with parameters, in a command to the operating system, in a device control, or in a string. -/
inductive Sequence where
  | escape
  | intermediate
  | control
  | command
  | device
  | deviceParameter
  | deviceIntermediate
  | string
  deriving DecidableEq

inductive Mode where
  /-- Outside, perhaps with a sequence that was interrupted. -/
  | outside (interrupted : Option Sequence)
  | inside (s : Sequence)
  deriving DecidableEq

def isLayout (c : Char) : Bool :=
  c == '\t' || c == '\n' || c == '\x0c' || c == '\r'

def isForeign (c : Char) : Bool :=
  c.toNat < 0x20 || 0x7f ≤ c.toNat

def hasTerminator (c : Char) : Bool :=
  (String.utf8EncodeChar c).contains 0x9c

namespace Sequence

def isInterruptible : Sequence → Bool
  | .escape | .intermediate | .control => true
  | _ => false

def afterEscape (c : Char) : Mode :=
  if c.toNat < 0x30 then .inside .intermediate
  else if c = '[' then .inside .control
  else if c = ']' then .inside .command
  else if c = 'P' then .inside .device
  else if c = 'X' ∨ c = '^' ∨ c = '_' then .inside .string
  else .outside none

def next (s : Sequence) (c : Char) : Mode :=
  match s with
  | .escape => if isForeign c then .inside .escape else afterEscape c
  | .intermediate =>
    if isForeign c ∨ c.toNat < 0x30 then .inside .intermediate else .outside none
  | .control => if isForeign c ∨ c.toNat < 0x40 then .inside .control else .outside none
  | .command => if c = '\x07' then .outside none else .inside .command
  | .device =>
    if isForeign c then .inside .device
    else if c.toNat < 0x30 then .inside .deviceIntermediate
    else if c.toNat < 0x40 then .inside .deviceParameter
    else .inside .string
  | .deviceParameter =>
    if isForeign c then .inside .deviceParameter
    else if c.toNat < 0x30 then .inside .deviceIntermediate
    else if c.toNat < 0x3c then .inside .deviceParameter
    else .inside .string
  | .deviceIntermediate =>
    if isForeign c ∨ c.toNat < 0x30 then .inside .deviceIntermediate else .inside .string
  | .string => if hasTerminator c then .outside none else .inside .string

end Sequence

namespace Mode

/-- Outside of sequences. A control character takes an interrupted sequence up again; a character
beyond ASCII drops it. The first part tells whether the character stays. -/
def stepOutside (interrupted : Option Sequence) (c : Char) : Bool × Mode :=
  if isLayout c then (true, .outside interrupted)
  else if 0x7f < c.toNat then (true, .outside none)
  else if isForeign c then
    match interrupted with
    | some s => (false, s.next c)
    | none => (false, .outside none)
  else (true, .outside interrupted)

def step (mode : Mode) (c : Char) : Bool × Mode :=
  if c = '\x18' ∨ c = '\x1a' then (false, .outside none)
  else if c = '\x1b' then (false, .inside .escape)
  else
    match mode with
    | .outside interrupted => stepOutside interrupted c
    | .inside s =>
      if s.isInterruptible && isLayout c then (true, .outside (some s)) else (false, s.next c)

end Mode

def plainFrom (mode : Mode) : List Char → List Char
  | [] => []
  | c :: rest =>
    let (stays, next) := mode.step c
    if stays then c :: plainFrom next rest else plainFrom next rest

def plain (text : String) : String :=
  String.ofList (plainFrom (.outside none) text.toList)

end Formula.CommandLine.Standard
