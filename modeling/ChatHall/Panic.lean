/-
# Panics

Code that somebody else supplied may panic instead of returning. A panic usually
comes with a text.
-/

namespace ChatHall

/-- A panic, with its text if it has one. -/
structure Panic where
  text? : Option String
  deriving Repr, DecidableEq

namespace Panic

def ofText (text : String) : Panic := ⟨some text⟩

/-- What the log says of it. -/
def message (p : Panic) : String := p.text?.getD "알 수 없는 패닉"

end Panic

end ChatHall
