import LiveDiagram.Proofs.Flowchart.Reading
import LiveDiagram.Proofs.Flowchart.Written
import LiveDiagram.Proofs.Json.Objects

namespace LiveDiagram

open Text

namespace Flowchart

variable {s : List Char}

section Properties

/-- A text that can follow the name of a class as its properties. It does not
    start with white space, does not end in a blank and does not break. -/
structure IsPropertyList (s : List Char) : Prop where
  chars : ∀ c ∈ s, isPlainChar c ∨ c = ':' ∨ c = ','
  headerFree : HeaderFree s
  head : ∃ c ∈ s.head?, isSpace c = false
  last : ∀ c ∈ s.getLast?, isBlank c = false

namespace IsPropertyList

variable {t : List Char}

theorem ne_nil (h : IsPropertyList s) : s ≠ [] := by
  obtain ⟨c, hc, -⟩ := h.head
  rintro rfl
  cases hc

theorem head?_isSpace (h : IsPropertyList s) : ∀ c ∈ s.head?, isSpace c = false := by
  obtain ⟨c, hc, hspace⟩ := h.head
  intro d hd
  rwa [Option.mem_unique hd hc]

theorem not_isLineBreak (h : IsPropertyList s) : ∀ c ∈ s, isLineBreak c = false := by
  intro c hc
  rw [← Bool.not_eq_true]
  intro hbreak
  rw [isLineBreak, Bool.or_eq_true, beq_iff_eq, beq_iff_eq] at hbreak
  rcases hbreak with rfl | rfl
  all_goals exact absurd (h.chars _ hc) (by decide)

/-- Two lists of properties are one with a comma between them. -/
theorem join (hs : IsPropertyList s) (ht : IsPropertyList t) : IsPropertyList (s ++ [','] ++ t) where
  chars c hc := by
    rcases List.mem_append.mp hc with hc | hc
    · rcases List.mem_append.mp hc with hc | hc
      · exact hs.chars c hc
      · exact .inr (.inr (List.mem_singleton.mp hc))
    · exact ht.chars c hc
  headerFree := by
    rw [List.append_assoc, List.singleton_append, headerFree_append_cons (by decide)]
    exact ⟨hs.headerFree, ht.headerFree⟩
  head := by
    obtain ⟨c, hc, hspace⟩ := hs.head
    obtain ⟨rest, rfl⟩ := List.head?_eq_some_iff.mp hc
    exact ⟨c, rfl, hspace⟩
  last := by
    rw [List.getLast?_append_of_ne_nil _ ht.ne_nil]
    exact ht.last

end IsPropertyList

variable {property : String × String}

/-- The key of a plain property starts with no white space. -/
theorem exists_cons_of_key (h : IsPlainProperty property) :
    ∃ c rest, property.1.toList = c :: rest ∧ isSpace c = false := by
  have hne : property.1.toList ≠ [] := fun hnil => h.key_ne_empty (String.toList_eq_nil_iff.mp hnil)
  obtain ⟨c, rest, hcons⟩ := List.exists_cons_of_ne_nil hne
  have hc : isPlainChar c := h.key.chars c (hcons ▸ List.mem_cons_self)
  have hblank : isBlank c = false := head?_of_trim_eq_self h.key_trimmed c (hcons ▸ rfl)
  exact ⟨c, rest, hcons, isSpace_eq_false_of_isPlainChar hc hblank⟩

/-- A written property does not end in a blank, be its value empty or not. -/
theorem getLast?_propertyText (h : IsPlainProperty property) :
    ∀ c ∈ (propertyText property).getLast?, isBlank c = false := by
  rw [propertyText, List.getLast?_append_of_ne_nil _ (List.cons_ne_nil _ _)]
  by_cases hvalue : property.2.toList = []
  · rw [hvalue]
    rintro c ⟨⟩
    rfl
  · rw [← List.singleton_append, List.getLast?_append_of_ne_nil _ hvalue]
    exact getLast?_of_trim_eq_self h.value_trimmed

/-- A written property is a list of properties. -/
theorem isPropertyList_propertyText (h : IsPlainProperty property) : IsPropertyList (propertyText property) where
  chars c hc := by
    rw [propertyText, List.mem_append, List.mem_cons] at hc
    rcases hc with hc | rfl | hc
    · exact .inl (h.key.chars c hc)
    · exact .inr (.inl rfl)
    · exact .inl (h.value.chars c hc)
  headerFree := by
    rw [propertyText, headerFree_append_cons (by decide)]
    exact ⟨h.key.headerFree, h.value.headerFree⟩
  head := by
    obtain ⟨c, rest, hcons, hspace⟩ := exists_cons_of_key h
    exact ⟨c, by rw [propertyText, hcons]; rfl, hspace⟩
  last := getLast?_propertyText h

/-- A written property is read back, because no colon stands in its key and
    nothing is trimmed. -/
theorem entry?_propertyText (h : IsPlainProperty property) :
    Properties.entry? (propertyText property) = some property := by
  obtain ⟨c, rest, hcons, hspace⟩ := exists_cons_of_key h
  have htrim : trim (propertyText property) = propertyText property := by
    refine trim_eq_self ?_ (getLast?_propertyText h)
    rw [propertyText, hcons]
    exact forall_mem_head?_cons (isBlank_eq_false_of_isSpace hspace) _
  have hcolon : ':' ∉ property.1.toList := h.key.not_mem (by decide)
  have hkey : (propertyText property).takeWhile (· != ':') = property.1.toList :=
    takeWhile_append_of_head? hcolon (by simp)
  have hvalue : (propertyText property).dropWhile (· != ':') = ':' :: property.2.toList :=
    dropWhile_append_of_head? hcolon (by simp)
  have hended : dropTrailing (· == ';') property.2.toList = property.2.toList := by
    refine dropTrailing_eq_self fun d hd => beq_eq_false_iff_ne.mpr ?_
    exact ne_of_mem_of_not_mem (List.mem_of_mem_getLast? hd) (h.value.not_mem (by decide))
  simp only [Properties.entry?, htrim, hkey, hvalue, h.key_trimmed, h.value_trimmed, hended]
  rw [hcons]
  dsimp only
  rw [← hcons, String.ofList_toList, String.ofList_toList]

variable {properties : Properties}

/-- Written properties are a list of properties, if there are any. -/
theorem isPropertyList_propertiesText (hne : properties.toList ≠ [])
    (hproperties : ∀ property ∈ properties.toList, IsPlainProperty property) :
    IsPropertyList (propertiesText properties) := by
  refine intercalate_induction (by simpa using hne) (fun part hpart => ?_) fun s t => IsPropertyList.join
  obtain ⟨property, hmem, rfl⟩ := List.mem_map.mp hpart
  exact isPropertyList_propertyText (hproperties property hmem)

/-- The properties that are written are read back one by one, because no comma
    stands in a key or a value. -/
theorem ofText_propertiesText (hne : properties.toList ≠ [])
    (hproperties : ∀ property ∈ properties.toList, IsPlainProperty property) :
    Properties.ofText (propertiesText properties) = properties := by
  have hcomma : ∀ part ∈ properties.toList.map propertyText, ',' ∉ part := by
    intro part hpart
    obtain ⟨property, hmem, rfl⟩ := List.mem_map.mp hpart
    have h := hproperties property hmem
    simp [propertyText, h.key.not_mem (c := ',') (by decide), h.value.not_mem (c := ',') (by decide)]
  have hentries : (properties.toList.map propertyText).filterMap Properties.entry? = properties.toList := by
    rw [List.filterMap_map]
    refine (List.filterMap_congr fun property hmem => ?_).trans List.filterMap_some
    exact entry?_propertyText (hproperties property hmem)
  rw [Properties.ofText, propertiesText, splitOn_eq, List.splitOn_intercalate ',' hcomma (by simpa using hne),
    hentries]
  exact Json.foldl_insert_toList properties

end Properties

section StyleLine

variable {name : String} {list : List Char}

/-- The line of a style is a statement as it stands. -/
theorem isStatement_styleLine (hname : IsName name) (hlist : IsPropertyList list) :
    IsStatement (styleLine name list) where
  noBreak := by
    have hbreak : '\n' ∉ list := fun h => absurd (hlist.not_isLineBreak _ h) (by decide)
    unfold styleLine
    simp [hname.not_mem (c := '\n') (by decide), hbreak]
  head := rfl
  last := by
    have hline : styleLine name list = ("classDef".toList ++ ' ' :: (name.toList ++ [' '])) ++ list := by
      unfold styleLine
      simp
    rw [hline, List.getLast?_append_of_ne_nil _ hlist.ne_nil]
    exact hlist.last

theorem directionIn?_styleLine (hname : IsName name) (hlist : IsPropertyList list) :
    directionIn? false (styleLine name list) = none := by
  refine HeaderFree.directionIn?_eq_none ?_
  unfold styleLine
  rw [headerFree_append_cons (by decide), headerFree_append_cons (by decide)]
  exact ⟨by decide, hname.isPlain.headerFree, hlist.headerFree⟩

/-- The line of a style is read as the name of the class and its properties. -/
theorem style?_styleLine (hname : IsName name) (hlist : IsPropertyList list) :
    style? (styleLine name list) = some (name, Properties.ofText list) := by
  have hskip : skipSpaces? (' ' :: (name.toList ++ ' ' :: list)) = some (name.toList ++ ' ' :: list) :=
    skipSpaces?_cons (by decide) (hname.head?_append _)
  have hword : word? (name.toList ++ ' ' :: list) = some (name.toList, ' ' :: list) :=
    word?_append hname.toList_ne_nil hname.chars (forall_mem_head?_cons (by decide) _)
  have hfilled : isFilledLine list = true := by
    have hbreak : list.any isLineBreak = false := by simpa using hlist.not_isLineBreak
    simpa [isFilledLine, hbreak] using hlist.ne_nil
  have hrest : restOfLine 1 (' ' :: list) = some list :=
    afterSpaces_cons (by decide) hlist.head?_isSpace hfilled
  unfold styleLine
  rw [style?, after?_append]
  simp [hskip, hword, hrest]

theorem definition_styleLine (hname : IsName name) (hlist : IsPropertyList list) :
    Definition.ofLine (styleLine name list) = .style name (Properties.ofText list) := by
  rw [Definition.ofLine, directionIn?_styleLine hname hlist, style?_styleLine hname hlist]

theorem statement_styleLine (hname : IsName name) (hlist : IsPropertyList list) :
    Statement.ofLine? (styleLine name list) = none := by
  rw [Statement.ofLine?, style?_styleLine hname hlist, if_pos (by simp)]

end StyleLine

end Flowchart

end LiveDiagram
