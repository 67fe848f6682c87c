import Mathlib.Data.List.Induction
import Mathlib.Data.List.Nodup

namespace LiveDiagram

section Distinct

variable {α : Type} [BEq α] [LawfulBEq α]

/-- The distinct values with one more value behind them: it counts only if it is
    new, and then it comes last. -/
theorem eraseDups_append_singleton (l : List α) (a : α) :
    (l ++ [a]).eraseDups = if a ∈ l then l.eraseDups else l.eraseDups ++ [a] := by
  rw [List.eraseDups_append]
  split
  · simp [List.removeAll, *]
  · simp [List.removeAll, *, List.eraseDups_cons]

/-- The distinct values of a list are distinct. -/
theorem nodup_eraseDups (l : List α) : l.eraseDups.Nodup := by
  induction l using List.reverseRecOn with
  | nil => exact List.nodup_nil
  | append_singleton l a ih =>
    rw [eraseDups_append_singleton]
    split
    · exact ih
    · rename_i ha
      refine List.nodup_append.mpr ⟨ih, List.nodup_singleton a, fun b hb c hc heq => ha ?_⟩
      rw [← List.mem_singleton.mp hc, ← heq]
      exact List.mem_eraseDups.mp hb

theorem eraseDups_eq_self {l : List α} (h : l.Nodup) : l.eraseDups = l := by
  induction l with
  | nil => rfl
  | cons a l ih =>
    obtain ⟨ha, hl⟩ := List.nodup_cons.mp h
    have hfilter : l.filter (fun b => !b == a) = l :=
      List.filter_eq_self.mpr fun b hb => by simpa using ne_of_mem_of_not_mem hb ha
    rw [List.eraseDups_cons, hfilter, ih hl]

end Distinct

/-- A name as it appears in a text, with the label that it is given there, if it
    is given one. A text gives labels to names, and it mentions names without a
    label. -/
abbrev Naming := String × Option String

namespace Naming

/-- A name that is given a label. -/
abbrev labelled (entry : String × String) : Naming :=
  (entry.1, some entry.2)

/-- A name that is mentioned without a label. -/
abbrev unlabelled (name : String) : Naming :=
  (name, none)

/-- The known names with their labels, after one more has appeared. -/
def appear (known : List (String × String)) (n : Naming) : List (String × String) :=
  if n.1 ∈ known.map Prod.fst then
    known.map fun entry => if entry.1 = n.1 then (entry.1, n.2.getD entry.2) else entry
  else
    known ++ [(n.1, n.2.getD n.1)]

/-- The label that was given last to the name. -/
def lastLabel? (namings : List Naming) (name : String) : Option String :=
  namings.reverse.findSome? fun n => if n.1 = name then n.2 else none

/-- The distinct names in the order of their first appearance, with the labels
    that were given to them last. -/
def known (namings : List Naming) : List (String × String) :=
  (namings.map Prod.fst).eraseDups.map fun name => (name, (lastLabel? namings name).getD name)

variable {namings : List Naming} {name : String}

/-- A label that is given later counts, and one that was given earlier counts
    where none is. -/
theorem lastLabel?_append (namings later : List Naming) (name : String) :
    lastLabel? (namings ++ later) name = (lastLabel? later name).or (lastLabel? namings name) := by
  rw [lastLabel?, List.reverse_append, List.findSome?_append, ← lastLabel?, ← lastLabel?]

theorem lastLabel?_singleton (n : Naming) (name : String) :
    lastLabel? [n] name = if n.1 = name then n.2 else none := by
  rw [lastLabel?, List.reverse_singleton, List.findSome?_singleton]

/-- A name that is never given a label has none. -/
theorem lastLabel?_eq_none (h : ∀ n ∈ namings, n.1 = name → n.2 = none) : lastLabel? namings name = none := by
  refine List.findSome?_eq_none_iff.mpr fun n hn => ?_
  split
  · exact h n (List.mem_reverse.mp hn) ‹_›
  · rfl

/-- Among parts of a text, the last one that gives a label counts, whatever it
    gives besides. -/
theorem lastLabel?_flatMap {α : Type} (parts : List α) (f : α → List Naming) (name : String) :
    lastLabel? (parts.flatMap f) name = parts.reverse.findSome? fun part => lastLabel? (f part) name := by
  induction parts using List.reverseRecOn with
  | nil => rfl
  | append_singleton parts part ih =>
    rw [List.flatMap_append, List.flatMap_singleton, lastLabel?_append, ih, List.reverse_concat,
      List.findSome?_cons]
    cases lastLabel? (f part) name <;> rfl

/-- Known are the distinct names in the order of their first appearance. -/
theorem map_fst_known (namings : List Naming) :
    (known namings).map Prod.fst = (namings.map Prod.fst).eraseDups := by
  rw [known, List.map_map]
  exact List.map_id' _

/-- One more name that appears does to the known ones what `appear` says. If the
    name is known already, the order stays as it is, and so do the labels of the
    other names. -/
theorem known_append_singleton (namings : List Naming) (n : Naming) :
    known (namings ++ [n]) = appear (known namings) n := by
  have hlabel : ∀ other, n.1 ≠ other → lastLabel? (namings ++ [n]) other = lastLabel? namings other := by
    intro other hne
    rw [lastLabel?_append, lastLabel?_singleton, if_neg hne, Option.none_or]
  have hmem : n.1 ∈ (known namings).map Prod.fst ↔ n.1 ∈ namings.map Prod.fst := by
    rw [map_fst_known, List.mem_eraseDups]
  rw [known, List.map_append, List.map_singleton, eraseDups_append_singleton]
  by_cases hknown : n.1 ∈ namings.map Prod.fst
  · rw [if_pos hknown, appear, if_pos (hmem.mpr hknown), known, List.map_map]
    refine List.map_congr_left fun other _ => ?_
    by_cases hother : other = n.1
    · subst hother
      cases hgiven : n.2 with
      | none => simp [lastLabel?_append, lastLabel?_singleton, hgiven]
      | some label => simp [lastLabel?_append, lastLabel?_singleton, hgiven]
    · simp [hlabel other (Ne.symm hother), hother]
  · rw [if_neg hknown, appear, if_neg (hmem.not.mpr hknown), List.map_append, List.map_singleton, known]
    congr 1
    · refine List.map_congr_left fun other hother => ?_
      have hne : n.1 ≠ other := by
        rintro rfl
        exact hknown (List.mem_eraseDups.mp hother)
      rw [hlabel other hne]
    · have hnone : lastLabel? namings n.1 = none :=
        lastLabel?_eq_none fun other hother heq => absurd (heq ▸ List.mem_map_of_mem hother) hknown
      rw [lastLabel?_append, lastLabel?_singleton, if_pos rfl, hnone, Option.or_none]

/-- What is known after all names have appeared one after another can be told at
    once, the induction being on the names from the end. -/
theorem foldl_appear (namings : List Naming) : namings.foldl appear [] = known namings := by
  induction namings using List.reverseRecOn with
  | nil => rfl
  | append_singleton namings n ih =>
    rw [List.foldl_append, ih, List.foldl_cons, List.foldl_nil, known_append_singleton]

/-- A name that appears only once has the label that it is given there. -/
theorem lastLabel?_eq_some {label : String} (hnodup : (namings.map Prod.fst).Nodup)
    (h : (name, some label) ∈ namings) : lastLabel? namings name = some label := by
  obtain ⟨before, after, rfl⟩ := List.append_of_mem h
  have hnew : name ∉ after.map Prod.fst := by
    rw [List.map_append, List.map_cons] at hnodup
    exact (List.nodup_cons.mp (List.nodup_append.mp hnodup).2.1).1
  have hafter : lastLabel? after name = none :=
    lastLabel?_eq_none fun n hn heq => absurd (List.mem_map.mpr ⟨n, hn, heq⟩) hnew
  rw [List.append_cons, lastLabel?_append, lastLabel?_append, lastLabel?_singleton, if_pos rfl, hafter,
    Option.none_or, Option.some_or]

theorem map_fst_labelled (given : List (String × String)) :
    (given.map labelled).map Prod.fst = given.map Prod.fst :=
  List.map_map

theorem map_fst_unlabelled (names : List String) : (names.map unlabelled).map Prod.fst = names :=
  List.map_map.trans (List.map_id' names)

theorem lastLabel?_unlabelled (names : List String) (name : String) :
    lastLabel? (names.map unlabelled) name = none :=
  lastLabel?_eq_none fun n hn _ => by
    obtain ⟨_, -, rfl⟩ := List.mem_map.mp hn
    rfl

/-- Where each name is given one label, and then only such names are mentioned,
    the names stand as they were given. No name may be given two labels, since
    the second would replace the first. -/
theorem known_of_nodup {given : List (String × String)} {names : List String} (hnodup : (given.map Prod.fst).Nodup)
    (hnames : ∀ name ∈ names, name ∈ given.map Prod.fst) :
    known (given.map labelled ++ names.map unlabelled) = given := by
  have hold : names.removeAll (given.map Prod.fst) = [] := by
    rw [List.removeAll, List.filter_eq_nil_iff]
    exact fun name hname => by simpa using hnames name hname
  rw [known, List.map_append, map_fst_labelled, map_fst_unlabelled, List.eraseDups_append, hold, List.eraseDups_nil,
    List.append_nil, eraseDups_eq_self hnodup, List.map_map]
  refine (List.map_congr_left fun entry hentry => ?_).trans (List.map_id given)
  have hlast : lastLabel? (given.map labelled) entry.1 = some entry.2 :=
    lastLabel?_eq_some ((map_fst_labelled given).symm ▸ hnodup) (List.mem_map_of_mem (f := labelled) hentry)
  rw [Function.comp_apply, lastLabel?_append, hlast, lastLabel?_unlabelled]
  rfl

section Records

variable {β : Type} (ofEntry : String × String → β) (nameOf : β → String)
  (hname : ∀ entry, nameOf (ofEntry entry) = entry.1)

include hname

theorem any_map_ofEntry (known : List (String × String)) (name : String) :
    ((known.map ofEntry).any fun b => nameOf b == name) = true ↔ name ∈ known.map Prod.fst := by
  simp [hname]

/-- Where known names are kept as records, a label is put into the record of its
    name, or into a new one. Both kinds of diagrams keep their names in this
    way, each with records of its own. -/
theorem map_appear_labelled (relabel : β → β) (known : List (String × String)) (name label : String)
    (hrelabel : ∀ entry, relabel (ofEntry entry) = ofEntry (entry.1, label)) :
    (appear known (labelled (name, label))).map ofEntry =
      if (known.map ofEntry).any fun b => nameOf b == name then
        (known.map ofEntry).map fun b => if nameOf b = name then relabel b else b
      else known.map ofEntry ++ [ofEntry (name, label)] := by
  simp only [appear, any_map_ofEntry ofEntry nameOf hname]
  split
  · rw [List.map_map, List.map_map]
    refine List.map_congr_left fun entry _ => ?_
    by_cases hentry : entry.1 = name
    · simp [hname, hrelabel, hentry]
    · simp [hname, hentry]
  · rw [List.map_append]
    rfl

/-- Where known names are kept as records, a name that is mentioned gets one if
    it has none, and is its own label there. -/
theorem map_appear_unlabelled (known : List (String × String)) (name : String) :
    (appear known (unlabelled name)).map ofEntry =
      if (known.map ofEntry).any fun b => nameOf b == name then known.map ofEntry
      else known.map ofEntry ++ [ofEntry (name, name)] := by
  simp only [appear, any_map_ofEntry ofEntry nameOf hname]
  split
  · congr 1
    refine (List.map_congr_left fun entry _ => ?_).trans (List.map_id known)
    simp
  · rw [List.map_append]
    rfl

end Records

end Naming

end LiveDiagram
