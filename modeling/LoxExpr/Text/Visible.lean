/-!
# Visible text

A terminal shows some characters and takes others as orders.  An order is a
control character, or a sequence that the escape character opens.  What
remains of a text without its orders is its visible part; line breaks, tabs
and form feeds belong to it although they are control characters.
-/

namespace LoxExpr

namespace Text

/-- Where a character stands: in plain text, or how far into a sequence. -/
inductive Sequence where
  | outside
  | opened
  | designated
  | parameters
  | command
  | string
deriving DecidableEq, Repr

namespace Sequence

/-- Control characters that move the cursor as blanks do. -/
def isLayout (c : Char) : Bool :=
  c == '\t' || c == '\n' || c == '\r' || c == '\x0c'

/-- Whether a character belongs to the string terminator.  A terminal looks
for its byte in the encoded text. -/
def isTerminator (c : Char) : Bool :=
  c.toString.toUTF8.toList.contains 0x9C

def isBetween (low high : Nat) (c : Char) : Bool :=
  low ≤ c.toNat && c.toNat ≤ high

/-- The place behind a character of an opened sequence. -/
def opening (c : Char) : Sequence :=
  if c = '[' then .parameters
  else if c = ']' then .command
  else if c = 'P' || c = 'X' || c = '^' || c = '_' then .string
  else if isBetween 0x20 0x2F c then .designated
  else if isBetween 0x30 0x7E c then .outside
  else .opened

/-- The place behind a character. -/
def after (place : Sequence) (c : Char) : Sequence :=
  if c = '\x1b' then .opened
  else if c = '\x18' || c = '\x1a' then .outside
  else
    match place with
    | .outside => .outside
    | .opened => if isLayout c then .outside else opening c
    | .designated =>
        if isLayout c || isBetween 0x30 0x7E c then .outside else .designated
    | .parameters =>
        if isLayout c || isBetween 0x40 0x7E c then .outside else .parameters
    | .command => if c = '\x07' then .outside else .command
    | .string => if isTerminator c then .outside else .string

/-- Whether a character is shown where it stands.  Layout is shown in every
sequence but those that hold a string, and breaks it off. -/
def shows (place : Sequence) (c : Char) : Bool :=
  match place with
  | .outside => isLayout c || (0x20 ≤ c.toNat && c != '\x7f')
  | .command => false
  | .string => false
  | _ => isLayout c

end Sequence

/-- The visible part of a text that begins at a place. -/
def visibleFrom (place : Sequence) : List Char → List Char
  | [] => []
  | c :: rest =>
      let later := visibleFrom (place.after c) rest
      if place.shows c then c :: later else later

/-- The visible part of a text. -/
def visible (text : String) : String :=
  String.ofList (visibleFrom .outside text.toList)

end Text

end LoxExpr
