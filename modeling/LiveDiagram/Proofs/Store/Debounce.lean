import Mathlib.Data.List.DropRight
import Mathlib.Data.List.Induction
import LiveDiagram.Store.Debounce

namespace LiveDiagram

namespace Debounce

/-- Something that is asked of a debounce. -/
inductive Call where
  | schedule (now : Int)
  | poll (now : Int)
  | cancel
  deriving DecidableEq, Repr

namespace Call

def isPoll : Call → Bool
  | poll _ => true
  | schedule _ | cancel => false

/-- When the pass is due that a call schedules. -/
def due? (delay : Int) : Call → Option Int
  | schedule now => some (now + delay)
  | poll _ | cancel => none

end Call

/-- What a call does, and whether it brings about the pass. -/
def call (d : Debounce) : Call → Debounce × Bool
  | .schedule now => (d.schedule now, false)
  | .poll now => d.poll now
  | .cancel => (d.cancel, false)

/-- The debounce after some calls. -/
def after (d : Debounce) (calls : List Call) : Debounce :=
  calls.foldl (fun d c => (d.call c).1) d

/-- Each of some calls, with whether it brought about the pass. A debounce
    remembers no more than one due time, but what it does can be told by this
    history. -/
def history (d : Debounce) : List Call → List (Call × Bool)
  | [] => []
  | c :: rest => (c, (d.call c).2) :: (d.call c).1.history rest

/-- The calls since the last one that brought about the pass, or all calls if
    none did. -/
def sinceFired (history : List (Call × Bool)) : List Call :=
  (history.rtakeWhile fun entry => !entry.2).map Prod.fst

/-- The last of some calls that is no poll. -/
def lastChange? (calls : List Call) : Option Call :=
  (calls.filter fun c => !c.isPoll).getLast?

/-- The call that decides what the next poll does: of the calls since the pass
    was brought about last, the last one that is no poll. -/
def deciding? (history : List (Call × Bool)) : Option Call :=
  lastChange? (sinceFired history)

/-- A debounce of that delay without a pass. -/
def start (delay : Int) : Debounce where
  delay := delay

section History

variable {c : Call} {fired : Bool} {calls : List Call} {earlier later : List (Call × Bool)} {d : Debounce}

/-- One more call is made of the debounce that the calls before it left. -/
theorem after_append_singleton (d : Debounce) (calls : List Call) (c : Call) :
    d.after (calls ++ [c]) = ((d.after calls).call c).1 := by
  rw [after, List.foldl_append, List.foldl_cons, List.foldl_nil, after]

/-- One more call adds one entry to the history, with what it answers after the
    calls before it. -/
theorem history_append_singleton (d : Debounce) (calls : List Call) (c : Call) :
    d.history (calls ++ [c]) = d.history calls ++ [(c, ((d.after calls).call c).2)] := by
  induction calls generalizing d with
  | nil => rfl
  | cons first calls ih => exact congrArg _ (ih _)

/-- What a call in the history answered is what it answers after the calls
    before it. The history before it is theirs, so nothing that comes later has
    any say in the answer. -/
theorem exists_of_history_eq_append_cons (h : d.history calls = earlier ++ (c, fired) :: later) :
    ∃ before, d.history before = earlier ∧ ((d.after before).call c).2 = fired := by
  induction earlier generalizing d calls with
  | nil =>
    cases calls with
    | nil => cases h
    | cons first calls =>
      obtain ⟨hfirst, -⟩ := List.cons.inj h
      obtain ⟨rfl, hfired⟩ := Prod.mk.inj hfirst
      exact ⟨[], rfl, hfired⟩
  | cons entry earlier ih =>
    cases calls with
    | nil => cases h
    | cons first calls =>
      obtain ⟨rfl, hrest⟩ := List.cons.inj h
      obtain ⟨before, rfl, hfired⟩ := ih hrest
      exact ⟨first :: before, rfl, hfired⟩

/-- One more call is one since the pass was brought about last, unless it brings
    about the pass itself. -/
theorem sinceFired_append_singleton (history : List (Call × Bool)) (c : Call) (fired : Bool) :
    sinceFired (history ++ [(c, fired)]) = if fired then [] else sinceFired history ++ [c] := by
  rw [sinceFired, List.rtakeWhile_concat]
  cases fired with
  | true => rfl
  | false => rw [Bool.not_false, if_pos rfl, List.map_append, List.map_singleton]; rfl

/-- What came before a call that brought about the pass is forgotten, however
    the history goes on. -/
theorem sinceFired_append_cons (earlier later : List (Call × Bool)) (c : Call) :
    sinceFired (earlier ++ (c, true) :: later) = sinceFired later := by
  induction later using List.reverseRecOn with
  | nil => rw [sinceFired_append_singleton, if_pos rfl]; rfl
  | append_singleton later entry ih =>
    rw [← List.cons_append, ← List.append_assoc, sinceFired_append_singleton, ih, sinceFired_append_singleton]

/-- One more call is the last one that counts, unless it is a poll. -/
theorem lastChange?_append_singleton (calls : List Call) (c : Call) :
    lastChange? (calls ++ [c]) = if c.isPoll then lastChange? calls else some c := by
  rw [lastChange?, List.filter_append, List.filter_singleton]
  cases c.isPoll with
  | true => rw [Bool.not_true, cond_false, List.append_nil]; rfl
  | false => rw [Bool.not_false, cond_true, List.getLast?_concat]; rfl

theorem mem_of_lastChange? (h : lastChange? calls = some c) : c ∈ calls :=
  (List.mem_filter.mp (List.mem_of_getLast? h)).1

/-- The calls since the pass was brought about last are calls of the history. -/
theorem mem_of_mem_sinceFired (h : c ∈ sinceFired earlier) : c ∈ earlier.map Prod.fst :=
  ((List.rtakeWhile_suffix _ earlier).map Prod.fst).subset h

/-- One more call decides what comes next, unless it is a poll; one that brings
    about the pass leaves nothing to be decided. -/
theorem deciding?_append_singleton (history : List (Call × Bool)) (c : Call) (fired : Bool) :
    deciding? (history ++ [(c, fired)]) =
      if fired then none else if c.isPoll then deciding? history else some c := by
  rw [deciding?, sinceFired_append_singleton]
  cases fired with
  | true => rfl
  | false => rw [if_neg Bool.false_ne_true, if_neg Bool.false_ne_true, lastChange?_append_singleton]; rfl

end History

section Due

theorem call_delay (d : Debounce) (c : Call) : (d.call c).1.delay = d.delay := by
  cases c with
  | schedule now => rfl
  | cancel => rfl
  | poll now =>
    simp only [call, poll]
    split <;> rfl

/-- What one call does to the due time: it is gone once the pass was brought
    about, a poll that did not do so leaves it, and every other call sets it or
    takes it off. -/
theorem call_due (d : Debounce) (c : Call) :
    (d.call c).1.due =
      if (d.call c).2 then none else if c.isPoll then d.due else c.due? d.delay := by
  cases c with
  | schedule now => rfl
  | cancel => rfl
  | poll now =>
    simp only [call, poll]
    split <;> rfl

theorem after_delay (delay : Int) (calls : List Call) : ((start delay).after calls).delay = delay := by
  induction calls using List.reverseRecOn with
  | nil => rfl
  | append_singleton calls c ih => rw [after_append_singleton, call_delay, ih]

/-- The due time is that of the call that decides. The induction is on the calls
    from the end, because each call looks only at what the ones before it have
    left. -/
theorem after_due (delay : Int) (calls : List Call) :
    ((start delay).after calls).due = (deciding? ((start delay).history calls)).bind (Call.due? delay) := by
  induction calls using List.reverseRecOn with
  | nil => rfl
  | append_singleton calls c ih =>
    rw [after_append_singleton, history_append_singleton, deciding?_append_singleton, call_due, after_delay, ih]
    split
    · rfl
    · split <;> rfl

/-- Only a schedule sets a due time, its own time and the delay after it. -/
theorem due?_eq_some_iff {delay due : Int} {c : Call} :
    c.due? delay = some due ↔ ∃ s, c = .schedule s ∧ s + delay = due := by
  cases c <;> simp [Call.due?]

/-- When a pass is due after some calls: the call that decides is a schedule,
    and the delay runs from there. -/
theorem after_due_eq_some_iff {delay due : Int} {calls : List Call} :
    ((start delay).after calls).due = some due ↔
      ∃ s, deciding? ((start delay).history calls) = some (.schedule s) ∧ s + delay = due := by
  rw [after_due, Option.bind_eq_some_iff]
  constructor
  · rintro ⟨c, hc, hdue⟩
    obtain ⟨s, rfl, hs⟩ := due?_eq_some_iff.mp hdue
    exact ⟨s, hc, hs⟩
  · rintro ⟨s, hdeciding, hs⟩
    exact ⟨.schedule s, hdeciding, due?_eq_some_iff.mpr ⟨s, rfl, hs⟩⟩

/-- A poll brings about the pass just if one is due and its time has come. -/
theorem poll_snd (d : Debounce) (now : Int) :
    (d.poll now).2 = true ↔ ∃ due, d.due = some due ∧ due ≤ now := by
  rw [poll]
  cases hdue : d.due with
  | none => simp
  | some due => by_cases hle : due ≤ now <;> simp [hle]

/-- A poll after some calls brings about the pass just if the call that decides
    is a schedule whose delay has gone by. The times of the calls may be in any
    order. -/
theorem poll_after_iff (delay t : Int) (calls : List Call) :
    (((start delay).after calls).poll t).2 = true ↔
      ∃ s, deciding? ((start delay).history calls) = some (.schedule s) ∧ s + delay ≤ t := by
  rw [poll_snd]
  constructor
  · rintro ⟨due, hdue, hle⟩
    obtain ⟨s, hs, rfl⟩ := after_due_eq_some_iff.mp hdue
    exact ⟨s, hs, hle⟩
  · rintro ⟨s, hs, hle⟩
    exact ⟨s + delay, after_due_eq_some_iff.mpr ⟨s, hs, rfl⟩, hle⟩

/-- A pass is pending after some calls just if the call that decides is a
    schedule. -/
theorem isPending_after_iff (delay : Int) (calls : List Call) :
    ((start delay).after calls).isPending = true ↔
      ∃ s, deciding? ((start delay).history calls) = some (.schedule s) := by
  rw [isPending, Option.isSome_iff_exists]
  constructor
  · rintro ⟨due, hdue⟩
    obtain ⟨s, hs, -⟩ := after_due_eq_some_iff.mp hdue
    exact ⟨s, hs⟩
  · rintro ⟨s, hs⟩
    exact ⟨s + delay, after_due_eq_some_iff.mpr ⟨s, hs, rfl⟩⟩

end Due

section Firing

variable {delay : Int} {calls : List Call} {c c' : Call} {earlier between later : List (Call × Bool)}

/-- Only a poll brings about the pass, and not before the delay has gone by
    since the schedule that decides. This is about every entry of the history,
    not just its last one. -/
theorem exists_of_fired (h : (start delay).history calls = earlier ++ (c, true) :: later) :
    ∃ t s, c = .poll t ∧ deciding? earlier = some (.schedule s) ∧ s + delay ≤ t := by
  obtain ⟨before, rfl, hfired⟩ := exists_of_history_eq_append_cons h
  cases c with
  | schedule now => cases hfired
  | cancel => cases hfired
  | poll t =>
    obtain ⟨s, hs, hle⟩ := (poll_after_iff delay t before).mp hfired
    exact ⟨t, s, rfl, hs, hle⟩

/-- The pass is not brought about twice without a schedule in between, since
    what came before the first time is forgotten at the second. -/
theorem exists_schedule_between
    (h : (start delay).history calls = earlier ++ (c, true) :: (between ++ (c', true) :: later)) :
    ∃ s, .schedule s ∈ between.map Prod.fst := by
  rw [← List.cons_append, ← List.append_assoc] at h
  obtain ⟨-, s, -, hs, -⟩ := exists_of_fired h
  rw [deciding?, sinceFired_append_cons] at hs
  exact ⟨s, mem_of_mem_sinceFired (mem_of_lastChange? hs)⟩

end Firing

/-- What a debounce does, told by the history of its calls. -/
structure FollowsHistory (delay : Int) (calls : List Call) : Prop where
  poll : ∀ t, (((start delay).after calls).poll t).2 = true ↔
    ∃ s, deciding? ((start delay).history calls) = some (.schedule s) ∧ s + delay ≤ t
  pending : ((start delay).after calls).isPending = true ↔
    ∃ s, deciding? ((start delay).history calls) = some (.schedule s)
  /-- The pass is brought about by a poll, after the delay has gone by since the
      last schedule before it. -/
  quiet : ∀ earlier c later, (start delay).history calls = earlier ++ (c, true) :: later →
    ∃ t s, c = .poll t ∧ deciding? earlier = some (.schedule s) ∧ s + delay ≤ t
  /-- Between two times that the pass is brought about, it is scheduled. -/
  once : ∀ earlier c between c' later,
    (start delay).history calls = earlier ++ (c, true) :: (between ++ (c', true) :: later) →
      ∃ s, .schedule s ∈ between.map Prod.fst

/-- After any calls at any times, a debounce does what their history says. The
    times need not grow, so a clock that is set back does not break it. -/
theorem followsHistory (delay : Int) (calls : List Call) : FollowsHistory delay calls where
  poll t := poll_after_iff delay t calls
  pending := isPending_after_iff delay calls
  quiet _ _ _ h := exists_of_fired h
  once _ _ _ _ _ h := exists_schedule_between h

/-- A burst of two edits, of which the clock of the second is behind. The pass
    waits for the second one only. -/
example : ((start 800).history [.schedule 500, .schedule 100, .poll 899, .poll 900, .poll 2000]).map Prod.snd =
    [false, false, false, true, false] := by decide

end Debounce

end LiveDiagram
