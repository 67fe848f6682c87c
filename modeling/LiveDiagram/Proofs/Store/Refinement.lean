import LiveDiagram.Proofs.Store.Calls

namespace LiveDiagram

variable {α : Type}

namespace PlainMap

theorem ofPositions_empty : ofPositions ({} : Positions α) = empty := by
  ext <;> simp [ofPositions, empty]

/-- Recording a node does to the positions what the plain map does to its
    entries. -/
theorem ofPositions_setNode (p : Positions α) (id : String) (r : Rect α) :
    ofPositions (p.setNode id r) = ((ofPositions p).call (.setNode id r)).1 := by
  ext other
  · simp only [ofPositions, Positions.setNode, call]
    grind
  · rfl

/-- An update is merged with a recorded shape as it is with the entry of the
    plain map, field by field. -/
theorem mergedEdge_ofPositions (p : Positions α) (key : String) (u : EdgeUpdate α) :
    (ofPositions p).mergedEdge key u = (p.edges.getD key {}).update u := by
  unfold mergedEdge ofPositions EdgeShape.update
  simp only [Std.ExtTreeMap.getD_eq_getD_getElem?, Option.orElse_eq_orElse, Option.orElse_eq_or]

/-- Recording an edge does to the positions what the plain map does to its
    entries. -/
theorem ofPositions_updateEdge (p : Positions α) (e : Edge) (u : EdgeUpdate α) :
    ofPositions (p.updateEdge e.key u) = ((ofPositions p).call (.updateEdge e u)).1 := by
  ext other
  · rfl
  · dsimp only [call]
    rw [mergedEdge_ofPositions]
    simp only [ofPositions, Positions.updateEdge]
    grind

end PlainMap

/-- The last change of some trials is the first one only if no later one changes
    anything. -/
theorem Trial.lastChange?_cons (t : Trial α) (trials : List (Trial α)) :
    Trial.lastChange? (t :: trials) =
      (Trial.lastChange? trials).or (if t.call.changes then some t else none) := by
  unfold lastChange?
  rw [List.filter_cons]
  split
  · rw [List.getLast?_cons]
    cases (trials.filter fun t => t.call.changes).getLast? <;> rfl
  · rw [Option.or_none]

/-- The memory after positions were sent to it. -/
def Memory.sent (m : Memory α) (p : Positions α) : Memory α :=
  { m with saves := m.saves + 1, saved := if m.failSaves then m.saved else p }

namespace Store

/-- The store has these positions, over that memory. -/
structure Holds (s : Store α) (q : Positions α) (m : Memory α) : Prop where
  loaded : s.loaded = some q
  backend : s.backend = .memory m

variable {s : Store α} {q : Positions α} {m : Memory α}

/-- That the backend fails from now on does not change what the store holds. -/
theorem Holds.facing (h : s.Holds q m) (t : Trial α) : (s.facing t).Holds q (m.facing t) where
  loaded := h.loaded
  backend := congrArg (Backend.facing t) h.backend

/-- The store over a memory that holds some positions, once it was accessed for
    the first of some trials. -/
def opened (p : Positions α) (trials : List (Trial α)) : Store α where
  backend := .memory { saved := p, loads := if Trial.loadsFirst trials then 1 else 0 }
  loaded := some (if Trial.loadFails trials then {} else p)

/-- The store that was accessed for the first trial holds what the memory had,
    or nothing if that could not be loaded. -/
theorem holds_opened (p : Positions α) (trials : List (Trial α)) :
    (opened p trials).Holds (if Trial.loadFails trials then {} else p)
      { saved := p, loads := if Trial.loadsFirst trials then 1 else 0 } :=
  ⟨rfl, rfl⟩

/-- What an opened store holds is what the plain map starts from. -/
theorem ofPositions_opened (p : Positions α) (trials : List (Trial α)) :
    PlainMap.ofPositions (if Trial.loadFails trials then {} else p) = PlainMap.start p trials := by
  unfold PlainMap.start
  split
  · exact PlainMap.ofPositions_empty
  · rfl

variable [Scalar α]

theorem Holds.load_eq (h : s.Holds q m) : s.load = s := by
  unfold load
  rw [h.loaded]

theorem Holds.positions_eq (h : s.Holds q m) : s.positions = q := by
  unfold positions
  rw [h.load_eq, h.loaded]
  rfl

/-- Replacing the positions sends them to the memory once, and the store tells
    whether the memory took them. -/
theorem Holds.replace (h : s.Holds q m) (p : Positions α) :
    (s.replace p).Holds p (m.sent p) ∧ (s.replace p).lastSaveOk = !m.failSaves := by
  have hsave : s.backend.save p = (.memory (m.sent p), some (!m.failSaves)) := by
    rw [h.backend]
    unfold Backend.save Memory.sent
    cases hfail : m.failSaves <;> simp [hfail]
  unfold Store.replace
  rw [hsave]
  exact ⟨⟨rfl, rfl⟩, rfl⟩

/-- A call that changes nothing is answered from the positions that are there,
    in the way of the plain map, and leaves the store as it is. -/
theorem Holds.call_of_not_changes (h : s.Holds q m) {c : StoreCall α} (hc : c.changes = false) :
    (s.call c).1 = s ∧
      (PlainMap.ofPositions q).call c = (PlainMap.ofPositions q, (s.call c).2.plain) := by
  cases c with
  | node id =>
    refine ⟨h.load_eq, ?_⟩
    simp only [Store.call, node?, h.positions_eq]
    rfl
  | edge e =>
    refine ⟨h.load_eq, ?_⟩
    simp only [Store.call, edge?, h.positions_eq]
    rfl
  | positions =>
    refine ⟨h.load_eq, ?_⟩
    simp only [Store.call, h.positions_eq]
    rfl
  | setNode id r => cases hc
  | updateEdge e u => cases hc
  | clear => cases hc
  | replace p => cases hc

/-- A call that changes the positions replaces them by what the plain map says.
    All four kinds of changes are thereby the one case of a replacement. -/
theorem Holds.call_of_changes (h : s.Holds q m) {c : StoreCall α} (hc : c.changes = true) :
    ∃ p, (s.call c).1 = s.replace p ∧
      (PlainMap.ofPositions q).call c = (PlainMap.ofPositions p, (s.call c).2.plain) := by
  cases c with
  | setNode id r =>
    refine ⟨q.setNode id r, ?_, ?_⟩
    · simp only [Store.call, setNode, h.load_eq, h.positions_eq]
    · rw [PlainMap.ofPositions_setNode]
      rfl
  | updateEdge e u =>
    refine ⟨q.updateEdge e.key u, ?_, ?_⟩
    · simp only [Store.call, updateEdge, h.load_eq, h.positions_eq]
    · rw [PlainMap.ofPositions_updateEdge]
      rfl
  | clear => exact ⟨{}, rfl, by rw [PlainMap.ofPositions_empty]; rfl⟩
  | replace p => exact ⟨p, rfl, rfl⟩
  | node id => cases hc
  | edge e => cases hc
  | positions => cases hc

/-- A trial that changes nothing leaves the positions, and the memory is not
    written to, whatever would fail just now. -/
theorem Holds.attempt_of_not_changes (h : s.Holds q m) {t : Trial α} (ht : t.call.changes = false) :
    (s.attempt t).1.Holds q (m.facing t) ∧ (s.attempt t).1.lastSaveOk = s.lastSaveOk ∧
      (PlainMap.ofPositions q).call t.call = (PlainMap.ofPositions q, (s.attempt t).2.plain) := by
  have hfacing := h.facing t
  obtain ⟨hsame, hreply⟩ := hfacing.call_of_not_changes ht
  unfold attempt
  rw [hsame]
  exact ⟨hfacing, rfl, hreply⟩

/-- A trial that changes the positions sends the new ones to the memory, and the
    store tells whether that failed. -/
theorem Holds.attempt_of_changes (h : s.Holds q m) {t : Trial α} (ht : t.call.changes = true) :
    ∃ p, (s.attempt t).1.Holds p ((m.facing t).sent p) ∧ (s.attempt t).1.lastSaveOk = !t.failSaves ∧
      (PlainMap.ofPositions q).call t.call = (PlainMap.ofPositions p, (s.attempt t).2.plain) := by
  have hfacing := h.facing t
  obtain ⟨p, hreplace, hreply⟩ := hfacing.call_of_changes ht
  obtain ⟨hholds, hok⟩ := hfacing.replace p
  refine ⟨p, ?_⟩
  unfold attempt
  rw [hreplace]
  exact ⟨hholds, hok, hreply⟩

/-- What some trials leave of a store with these positions over that memory:
    positions and a memory that the answers of a plain map account for. -/
structure Ran (s : Store α) (q : Positions α) (m : Memory α) (trials : List (Trial α))
    (q' : Positions α) (m' : Memory α) : Prop where
  holds : (s.attempts trials).1.Holds q' m'
  replies : (PlainMap.ofPositions q).calls (trials.map Trial.call) =
    (PlainMap.ofPositions q', (s.attempts trials).2.map StoreReply.plain)
  loads : m'.loads = m.loads
  saves : m'.saves = m.saves + trials.countP fun t => t.call.changes
  lastSaveOk : (s.attempts trials).1.lastSaveOk =
    ((Trial.lastChange? trials).map fun t => !t.failSaves).getD s.lastSaveOk
  saved : ∀ t, Trial.lastChange? trials = some t → t.failSaves = false → m'.saved = q'
  kept : Trial.lastChange? trials = none → m'.saved = m.saved ∧ q' = q

namespace Ran

variable {p q' : Positions α} {m' : Memory α} {t : Trial α} {trials : List (Trial α)}

/-- The replies of a plain map to one more trial, put in front of those to the
    others. -/
theorem replies_cons (hran : (s.attempt t).1.Ran p m trials q' m')
    (hreply : (PlainMap.ofPositions q).call t.call = (PlainMap.ofPositions p, (s.attempt t).2.plain)) :
    (PlainMap.ofPositions q).calls ((t :: trials).map Trial.call) =
      (PlainMap.ofPositions q', (s.attempts (t :: trials)).2.map StoreReply.plain) := by
  simp only [List.map_cons, PlainMap.calls, attempts, hreply]
  rw [hran.replies]

/-- A trial that changes nothing comes in front of a run: nothing is saved, and
    the last change is that of the run. -/
theorem cons_of_not_changes (ht : t.call.changes = false)
    (hok : (s.attempt t).1.lastSaveOk = s.lastSaveOk)
    (hreply : (PlainMap.ofPositions q).call t.call = (PlainMap.ofPositions q, (s.attempt t).2.plain))
    (hran : (s.attempt t).1.Ran q (m.facing t) trials q' m') : s.Ran q m (t :: trials) q' m' := by
  have hlast : Trial.lastChange? (t :: trials) = Trial.lastChange? trials := by
    simp [Trial.lastChange?_cons, ht]
  have hcount : (t :: trials).countP (fun t => t.call.changes) =
      trials.countP fun t => t.call.changes :=
    List.countP_cons_of_neg (by simp [ht])
  refine ⟨hran.holds, hran.replies_cons hreply, hran.loads, ?_, ?_, ?_, ?_⟩
  · rw [hcount]
    exact hran.saves
  · rw [hlast, ← hok]
    exact hran.lastSaveOk
  · rw [hlast]
    exact hran.saved
  · rw [hlast]
    exact hran.kept

/-- A trial that changes the positions comes in front of a run and is one save
    more. If no later trial changes anything, it is the last change, and what it
    saved is what there is. -/
theorem cons_of_changes (ht : t.call.changes = true) (hok : (s.attempt t).1.lastSaveOk = !t.failSaves)
    (hreply : (PlainMap.ofPositions q).call t.call = (PlainMap.ofPositions p, (s.attempt t).2.plain))
    (hran : (s.attempt t).1.Ran p ((m.facing t).sent p) trials q' m') :
    s.Ran q m (t :: trials) q' m' := by
  have hlast : Trial.lastChange? (t :: trials) = (Trial.lastChange? trials).or (some t) := by
    simp [Trial.lastChange?_cons, ht]
  have hcount : (t :: trials).countP (fun t => t.call.changes) =
      (trials.countP fun t => t.call.changes) + 1 :=
    List.countP_cons_of_pos (by simp [ht])
  refine ⟨hran.holds, hran.replies_cons hreply, hran.loads, ?_, ?_, fun last hsome hgood => ?_, fun hnone => ?_⟩
  · rw [hran.saves, hcount]
    simp only [Memory.sent, Memory.facing]
    omega
  · refine hran.lastSaveOk.trans ?_
    rw [hlast, hok]
    cases Trial.lastChange? trials <;> rfl
  · rw [hlast] at hsome
    cases hrest : Trial.lastChange? trials with
    | some other =>
      rw [hrest] at hsome
      cases hsome
      exact hran.saved _ hrest hgood
    | none =>
      rw [hrest] at hsome
      cases hsome
      obtain ⟨hsaved, rfl⟩ := hran.kept hrest
      rw [hsaved]
      simp [Memory.sent, Memory.facing, hgood]
  · rw [hlast] at hnone
    cases hrest : Trial.lastChange? trials <;> simp [hrest] at hnone

end Ran

/-- Every run of trials is accounted for by a plain map. The induction is on the
    trials, each of which leaves a store that holds some positions again. -/
theorem Holds.ran (h : s.Holds q m) (trials : List (Trial α)) : ∃ q' m', s.Ran q m trials q' m' := by
  induction trials generalizing s q m with
  | nil => exact ⟨q, m, h, rfl, rfl, rfl, rfl, by simp [Trial.lastChange?], fun _ => ⟨rfl, rfl⟩⟩
  | cons t trials ih =>
    cases ht : t.call.changes with
    | false =>
      obtain ⟨hfirst, hok, hreply⟩ := h.attempt_of_not_changes ht
      obtain ⟨q', m', hran⟩ := ih hfirst
      exact ⟨q', m', hran.cons_of_not_changes ht hok hreply⟩
    | true =>
      obtain ⟨p, hfirst, hok, hreply⟩ := h.attempt_of_changes ht
      obtain ⟨q', m', hran⟩ := ih hfirst
      exact ⟨q', m', hran.cons_of_changes ht hok hreply⟩

/-- What there is after some trials of a store over a memory that held some
    positions, all of it told by the plain map: `m` is the memory that the
    trials leave. -/
structure RefinesPlainMap (p : Positions α) (trials : List (Trial α)) (m : Memory α) : Prop where
  /-- Every read is answered as the plain map answers it. -/
  replies : ((overMemory p).attempts trials).2.map StoreReply.plain =
    ((PlainMap.start p trials).calls (trials.map Trial.call)).2
  /-- The memory is read once, and never if the first call gives all positions
      itself. -/
  loads : m.loads = if Trial.loadsFirst trials then 1 else 0
  /-- Every change is saved once, and nothing else is. -/
  saves : m.saves = trials.countP fun t => t.call.changes
  /-- The store tells whether the last change could be saved. -/
  lastSaveOk : ((overMemory p).attempts trials).1.lastSaveOk =
    ((Trial.lastChange? trials).map fun t => !t.failSaves).getD true
  /-- If it could, the memory holds the plain map, whatever failed before. -/
  saved : ∀ t, Trial.lastChange? trials = some t → t.failSaves = false →
    PlainMap.ofPositions m.saved = ((PlainMap.start p trials).calls (trials.map Trial.call)).1
  /-- A new store over that memory goes on as the plain map does. -/
  reopened : ∀ t, Trial.lastChange? trials = some t → t.failSaves = false →
    ∀ later, Trial.loadFails later = false →
      ((overMemory m.saved).attempts later).2.map StoreReply.plain =
        (((PlainMap.start p trials).calls (trials.map Trial.call)).1.calls (later.map Trial.call)).2

/-- The first trial may as well find the store accessed: it loads the positions,
    or it does not look at them. So every run starts from a store that holds
    positions. -/
theorem attempts_opened (p : Positions α) (t : Trial α) (trials : List (Trial α)) :
    (overMemory p).attempts (t :: trials) = (opened p (t :: trials)).attempts (t :: trials) := by
  have hfirst : (overMemory p).attempt t = (opened p (t :: trials)).attempt t := by
    obtain ⟨call, failLoads, failSaves⟩ := t
    cases call <;> cases failLoads <;> cases failSaves <;> rfl
  unfold attempts
  rw [hfirst]

/-- A store over a memory answers every call as the plain map does, also with no
    call to answer. -/
theorem replies_overMemory (p : Positions α) (trials : List (Trial α)) :
    ((overMemory p).attempts trials).2.map StoreReply.plain =
      ((PlainMap.start p trials).calls (trials.map Trial.call)).2 := by
  cases trials with
  | nil => rfl
  | cons t trials =>
    obtain ⟨q, m, hran⟩ := (holds_opened p (t :: trials)).ran (t :: trials)
    rw [attempts_opened, ← ofPositions_opened, hran.replies]

/-- A store over a memory answers as the plain map does, whatever is asked of it
    and whenever the memory fails to load or to save. The backend is read at
    most once and written at every change, and after a change that could be
    saved it holds all that the store holds. -/
theorem refinesPlainMap_overMemory (p : Positions α) (trials : List (Trial α)) :
    ∃ m, ((overMemory p).attempts trials).1.backend = .memory m ∧ RefinesPlainMap p trials m := by
  cases trials with
  | nil =>
    refine ⟨{ saved := p }, rfl, rfl, rfl, rfl, rfl, ?_, ?_⟩
    · intro t ht
      cases ht
    · intro t ht
      cases ht
  | cons t trials =>
    obtain ⟨q, m, hran⟩ := (holds_opened p (t :: trials)).ran (t :: trials)
    have hreplies := hran.replies
    rw [ofPositions_opened] at hreplies
    have hsaved : ∀ last, Trial.lastChange? (t :: trials) = some last → last.failSaves = false →
        PlainMap.ofPositions m.saved =
          ((PlainMap.start p (t :: trials)).calls ((t :: trials).map Trial.call)).1 := by
      intro last hlast hgood
      rw [hreplies, hran.saved last hlast hgood]
    refine ⟨m, ?_, replies_overMemory p _, hran.loads, ?_, ?_, hsaved, ?_⟩
    · rw [attempts_opened]
      exact hran.holds.backend
    · exact hran.saves.trans (Nat.zero_add _)
    · rw [attempts_opened]
      exact hran.lastSaveOk
    · intro last hlast hgood later hlater
      have hstart : PlainMap.start m.saved later = PlainMap.ofPositions m.saved := by
        unfold PlainMap.start
        rw [hlater]
        rfl
      rw [replies_overMemory, hstart, hsaved last hlast hgood]

end Store

end LiveDiagram
