import NibbleMachine.Field

namespace NibbleMachine

/-!
# Faults

A fault stops a pass over the source lines.  Three of them mean that a pass met
a line which an earlier pass has not prepared.  Two come from the limit on
decimal digits: a line number too long to be read, and an immediate too long to
be shown in the message that refuses it.  The last two would stop the encoding:
no first line to stand in for a target, and a value that does not fit into the
field it is placed in.
-/

/-- Why a pass stops. -/
inductive Fault where
  | untokenized
  | missingToken
  | unresolved
  | unreadable (digits : Nat)
  | unwritable
  | noLine
  | field (error : Field.Error)
deriving DecidableEq, Repr

def Fault.message : Fault -> String
  | .untokenized => "a line has not been cut into tokens"
  | .missingToken => "a line has too few tokens"
  | .unresolved => "a line has no command"
  | .unreadable digits => (Numeral.Error.tooManyDigits digits).message
  | .unwritable => Numeral.unwritableMessage
  | .noLine => "there is no line"
  | .field error => error.message

end NibbleMachine
