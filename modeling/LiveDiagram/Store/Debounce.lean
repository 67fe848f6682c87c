namespace LiveDiagram

/-- At most one pending pass, due when a delay has gone by after an edit.
    Another edit puts it off, so that a burst of edits brings about one pass,
    after the last of them. Times are in milliseconds. -/
structure Debounce where
  delay : Int := 800
  due : Option Int := none
  deriving DecidableEq, Repr, Inhabited

namespace Debounce

/-- Schedules the pass, in place of one that is pending. -/
def schedule (d : Debounce) (now : Int) : Debounce :=
  { d with due := some (now + d.delay) }

/-- Whether the pass is due, which takes it off. -/
def poll (d : Debounce) (now : Int) : Debounce × Bool :=
  if d.due.any (· ≤ now) then ({ d with due := none }, true) else (d, false)

/-- Takes off a pending pass. -/
def cancel (d : Debounce) : Debounce :=
  { d with due := none }

def isPending (d : Debounce) : Bool :=
  d.due.isSome

end Debounce

end LiveDiagram
