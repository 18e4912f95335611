import TurnClient.TurnMsgLib

/-!
# Attributes added to what is no message

`stun_attr_add_str` asks for the length of the message and does not look whether
there is one. The -1 it gets for a broken message goes into the offsets, so the
attribute is stored from the byte before the buffer on. `StunAttr::addToMsg` of
`TurnMsgLib.h` relies on the result of the call.
-/

namespace TurnClient

open ByteMemory
set_option autoImplicit false

/-- How a call ends: it returns, throws one of two exceptions, or overflows an int. -/
inductive AddEnd where
  | returned
  | wrongStunAttrFormat
  | wrongStunBufferFormat
  | undef
deriving DecidableEq

def AddEnd.throws : AddEnd → Bool
  | .wrongStunAttrFormat => true
  | .wrongStunBufferFormat => true
  | _ => false

namespace StunAttr

end StunAttr

/-! ## What is stored -/

end TurnClient
