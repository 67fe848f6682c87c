import LiveDiagram.Flowchart.Line
import LiveDiagram.Proofs.Text.Reading

namespace LiveDiagram

open Text

variable {c : Char} {s t rest : List Char}

namespace NodeRef

variable {r : NodeRef} {label : List Char}

/-- What is left behind a label between two marks is a suffix of the text. -/
theorem suffix_of_label {opening closing : List Char} {mark : Char}
    (h : ((after? opening s).bind fun s => (after? closing (s.dropWhile (· != mark))).bind fun rest =>
      some (s.takeWhile (· != mark), rest)) = some (label, rest)) : rest <:+ s := by
  simp only [Option.bind_eq_some_iff, Option.some.injEq, Prod.mk.injEq] at h
  obtain ⟨opened, hopened, closed, hclosed, -, rfl⟩ := h
  exact (suffix_of_after? hclosed).trans ((List.dropWhile_suffix _).trans (suffix_of_after? hopened))

/-- Whichever way a reference is read, what is left is a suffix of the text. -/
theorem suffix_of_mem_readings (h : (r, rest) ∈ readings s) : rest <:+ s := by
  unfold readings at h
  split at h
  · cases h
  · rename_i id after hword
    have hsuffix : after <:+ s := suffix_of_word? hword
    simp only [List.mem_append, Option.mem_toList, Option.map_eq_some_iff, List.mem_singleton,
      Prod.mk.injEq] at h
    obtain (⟨⟨label, left⟩, hlabel, -, rfl⟩ | ⟨⟨label, left⟩, hlabel, -, rfl⟩) | ⟨-, rfl⟩ := h
    · exact (suffix_of_label hlabel).trans hsuffix
    · exact (suffix_of_label hlabel).trans hsuffix
    · exact hsuffix

/-- A quoted label is what stands between the quotes, if a closing bracket
    follows the second one. -/
theorem quotedLabel?_append {label : List Char} (hlabel : '"' ∉ label) (rest : List Char) :
    quotedLabel? ('[' :: '"' :: (label ++ '"' :: ']' :: rest)) = some (label, rest) := by
  have hopened : after? ['[', '"'] ('[' :: '"' :: (label ++ '"' :: ']' :: rest)) =
      some (label ++ '"' :: ']' :: rest) := after?_append ['[', '"'] _
  have hclosed : after? ['"', ']'] ('"' :: ']' :: rest) = some rest := after?_append ['"', ']'] rest
  rw [quotedLabel?, hopened, Option.bind_eq_bind, Option.bind_some,
    dropWhile_append_of_head? hlabel (by simp), takeWhile_append_of_head? hlabel (by simp), hclosed]
  rfl

/-- A word that no bracket follows is read as a reference in one way only. -/
theorem readings_append (hne : s ≠ []) (hs : ∀ d ∈ s, isWordChar d)
    (ht : ∀ d ∈ t.head?, isWordChar d = false ∧ d ≠ '[') : readings (s ++ t) = [(⟨s, none⟩, t)] := by
  have hbracket : ∀ start : List Char, after? ('[' :: start) t = none := by
    intro start
    cases t with
    | nil => rfl
    | cons d t => rw [after?, if_neg (ht d rfl).2.symm]
  have hquoted : quotedLabel? t = none := by rw [quotedLabel?, hbracket, Option.bind_eq_bind, Option.bind_none]
  have hplain : bracketLabel? t = none := by rw [bracketLabel?, hbracket, Option.bind_eq_bind, Option.bind_none]
  simp [readings, word?_append hne hs fun d hd => (ht d hd).1, hquoted, hplain]

theorem read?_word (hne : s ≠ []) (hs : ∀ d ∈ s, isWordChar d) : read? s = some (⟨s, none⟩, []) := by
  have hreadings := readings_append (t := []) hne hs (by simp)
  rw [List.append_nil] at hreadings
  rw [read?, hreadings, List.head?_cons]

end NodeRef

namespace Flowchart

namespace Statement

section Arrows

/-- An arrow with two heads needs each of its characters, wherever the reading
    is started. -/
theorem afterTwoHeaded?_eq_none (hc : c ∈ ['<', '-', '-', '>']) (hs : c ∉ s) : afterTwoHeaded? s = none := by
  have hskip : c ∉ skipSpaces s := fun h => hs ((skipSpaces_suffix s).subset h)
  rw [afterTwoHeaded?, after?_eq_none hc hskip, Option.bind_eq_bind, Option.bind_none]

theorem afterArrow?_eq_none (hs : '-' ∉ s) : afterArrow? s = none := by
  have hskip : '-' ∉ skipSpaces s := fun h => hs ((skipSpaces_suffix s).subset h)
  rw [afterArrow?, after?_eq_none List.mem_cons_self hskip, Option.bind_eq_bind, Option.bind_none]

/-- What is left behind an arrow is a suffix of the text. -/
theorem suffix_of_afterArrow? (h : afterArrow? s = some rest) : rest <:+ s := by
  unfold afterArrow? at h
  simp only [Option.bind_eq_bind, Option.bind_eq_some_iff, Option.pure_def, Option.some.injEq] at h
  obtain ⟨after, hafter, rfl⟩ := h
  exact (skipSpaces_suffix after).trans ((suffix_of_after? hafter).trans (skipSpaces_suffix s))

/-- An arrow with a label between its strokes has four hyphens, so a text with
    fewer holds none. -/
theorem strokeArrow?_eq_none (hs : s.count '-' < 4) : strokeArrow? s = none := by
  cases hread : strokeArrow? s with
  | none => rfl
  | some read =>
    unfold strokeArrow? at hread
    simp only [Option.bind_eq_bind, Option.bind_eq_some_iff] at hread
    obtain ⟨first, hfirst, second, hsecond, -⟩ := hread
    have htwo : 2 + first.count '-' ≤ s.count '-' := by
      have hskip := (skipSpaces_suffix s).sublist.count_le '-'
      rw [← append_of_after? hfirst, List.count_append] at hskip
      exact hskip
    have hmore : 2 ≤ first.count '-' := by
      have hdrop := (List.dropWhile_suffix (l := first) (· != '-')).sublist.count_le '-'
      rw [← append_of_after? hsecond, List.count_append] at hdrop
      exact Nat.le_trans (Nat.le_add_right _ _) hdrop
    omega

/-- An arrow with a label between bars needs a hyphen and a bar. -/
theorem barArrow?_eq_none (hc : c ∈ ['-', '|']) (hs : c ∉ s) : barArrow? s = none := by
  simp only [List.mem_cons, List.not_mem_nil, or_false] at hc
  cases harrow : afterArrow? s with
  | none => rw [barArrow?, harrow, Option.bind_eq_bind, Option.bind_none]
  | some after =>
    have hafter : c ∉ after := fun h => hs ((suffix_of_afterArrow? harrow).subset h)
    rcases hc with rfl | rfl
    · rw [afterArrow?_eq_none hs] at harrow
      cases harrow
    · rw [barArrow?, harrow, Option.bind_eq_bind, Option.bind_some, after?_eq_none List.mem_cons_self hafter,
        Option.bind_none]

variable (hs : ∀ d ∈ s.head?, isSpace d = false)

include hs in
/-- An arrow with two heads is read together with the spaces around it. -/
theorem afterTwoHeaded?_spaced : afterTwoHeaded? (' ' :: (['<', '-', '-', '>'] ++ ' ' :: s)) = some s := by
  have hskip : skipSpaces (' ' :: (['<', '-', '-', '>'] ++ ' ' :: s)) = ['<', '-', '-', '>'] ++ ' ' :: s := rfl
  rw [afterTwoHeaded?, hskip, after?_append, Option.bind_eq_bind, Option.bind_some,
    skipSpaces_cons (by decide) hs]
  rfl

/-- An arrow is read together with the white space around it. -/
theorem afterArrow?_spaced (t : List Char) :
    afterArrow? (' ' :: (['-', '-', '>'] ++ t)) = some (skipSpaces t) := by
  have hskip : skipSpaces (' ' :: (['-', '-', '>'] ++ t)) = ['-', '-', '>'] ++ t := rfl
  rw [afterArrow?, hskip, after?_append, Option.bind_eq_bind, Option.bind_some]
  rfl

include hs in
/-- A label between bars is read without the blanks at its ends. -/
theorem barArrow?_spaced {label : List Char} (hlabel : '|' ∉ label) :
    barArrow? (' ' :: (['-', '-', '>'] ++ '|' :: (label ++ '|' :: ' ' :: s))) = some (trim label, s) := by
  have hopened : after? ['|'] ('|' :: (label ++ '|' :: ' ' :: s)) = some (label ++ '|' :: ' ' :: s) :=
    after?_append ['|'] _
  have hclosed : after? ['|'] ('|' :: ' ' :: s) = some (' ' :: s) := after?_append ['|'] _
  rw [barArrow?, afterArrow?_spaced, skipSpaces_of_head? (forall_mem_head?_cons (by decide) _),
    Option.bind_eq_bind, Option.bind_some, hopened, Option.bind_some,
    dropWhile_append_of_head? hlabel (by simp), takeWhile_append_of_head? hlabel (by simp), hclosed,
      Option.bind_some,
    skipSpaces_cons (by decide) hs]
  rfl

omit hs in
/-- Between strokes with spaces around it, a label is read without the white
    space at its ends. -/
theorem trim_strokeLabel (label : List Char) :
    trim (strokeLabel (' ' :: (label ++ [' ']))) = strip isSpace label := by
  have hstrip : strip isSpace (' ' :: (label ++ [' '])) = strip isSpace label := by
    rw [← List.cons_append, strip_append_singleton (by decide)]
    rfl
  have htrim := trim_strip_isSpace label
  rw [strokeLabel, hstrip]
  split
  · rename_i hempty
    rw [hempty, ← List.cons_append, List.getLast?_concat]
    rfl
  · exact htrim

include hs in
/-- A label between strokes with spaces around it is read without the white
    space at its ends. -/
theorem strokeArrow?_spaced {label : List Char} (hlabel : '-' ∉ label) :
    strokeArrow? (' ' :: (['-', '-'] ++ ' ' :: (label ++ ' ' :: (['-', '-', '>'] ++ ' ' :: s)))) =
      some (strip isSpace label, s) := by
  have hbetween : ' ' :: (label ++ ' ' :: (['-', '-', '>'] ++ ' ' :: s)) =
      (' ' :: (label ++ [' '])) ++ '-' :: (['-', '>'] ++ ' ' :: s) := by simp
  have hskip : skipSpaces (' ' :: (['-', '-'] ++ ' ' :: (label ++ ' ' :: (['-', '-', '>'] ++ ' ' :: s)))) =
      ['-', '-'] ++ ' ' :: (label ++ ' ' :: (['-', '-', '>'] ++ ' ' :: s)) := rfl
  have hclosed : after? ['-', '-', '>'] ('-' :: (['-', '>'] ++ ' ' :: s)) = some (' ' :: s) :=
    after?_append ['-', '-', '>'] _
  have hnone : '-' ∉ ' ' :: (label ++ [' ']) := by simp [hlabel]
  rw [strokeArrow?, hskip, after?_append, Option.bind_eq_bind, Option.bind_some, hbetween,
    dropWhile_append_of_head? hnone (by simp), takeWhile_append_of_head? hnone (by simp), hclosed, Option.bind_some,
    skipSpaces_cons (by decide) hs, trim_strokeLabel]
  rfl

end Arrows

section Links

variable {kind : EdgeKind} {arrow : List Char → Option (List Char × List Char)}

/-- Without an arrow there is no edge, wherever its source is looked for. -/
theorem search_linkAt?_eq_none (h : ∀ t, t <:+ s → arrow t = none) :
    search (linkAt? kind arrow) s = none := by
  refine search_eq_none fun t ht => List.findSome?_eq_none_iff.mpr ?_
  rintro ⟨source, rest⟩ hsource
  have hrest : rest <:+ s := (NodeRef.suffix_of_mem_readings hsource).trans ht
  simp only [h rest hrest, Option.bind_eq_bind, Option.bind_none]

/-- No edge with two heads is found in a text without one of the characters of
    its arrow. -/
theorem search_twoHeaded_eq_none (hc : c ∈ ['<', '-', '-', '>']) (hs : c ∉ s) :
    search (linkAt? kind fun s => (afterTwoHeaded? s).map ([], ·)) s = none :=
  search_linkAt?_eq_none fun t ht => by
    rw [afterTwoHeaded?_eq_none hc fun h => hs (ht.subset h), Option.map_none]

/-- No edge with a label between strokes is found in a text with fewer than four
    hyphens. -/
theorem search_strokeArrow_eq_none (hs : s.count '-' < 4) : search (linkAt? kind strokeArrow?) s = none :=
  search_linkAt?_eq_none fun _ ht =>
    strokeArrow?_eq_none (Nat.lt_of_le_of_lt (ht.sublist.count_le '-') hs)

/-- No edge with a label between bars is found in a text without a hyphen or
    without a bar. -/
theorem search_barArrow_eq_none (hc : c ∈ ['-', '|']) (hs : c ∉ s) :
    search (linkAt? kind barArrow?) s = none :=
  search_linkAt?_eq_none fun _ ht => barArrow?_eq_none hc fun h => hs (ht.subset h)

theorem search_arrow_eq_none (hs : '-' ∉ s) :
    search (linkAt? kind fun s => (afterArrow? s).map ([], ·)) s = none :=
  search_linkAt?_eq_none fun t ht => by rw [afterArrow?_eq_none fun h => hs (ht.subset h), Option.map_none]

/-- An edge between two words, of which no bracket follows the first, so that it
    is read in one way. -/
theorem linkAt?_append {source target label : List Char} (hne : source ≠ [])
    (hsource : ∀ d ∈ source, isWordChar d) (ht : ∀ d ∈ t.head?, isWordChar d = false ∧ d ≠ '[')
    (harrow : arrow t = some (label, target)) (hne' : target ≠ []) (htarget : ∀ d ∈ target, isWordChar d) :
    linkAt? kind arrow (source ++ t) = some (.link ⟨source, none⟩ label kind ⟨target, none⟩) := by
  rw [linkAt?, NodeRef.readings_append hne hsource ht]
  simp [harrow, NodeRef.read?_word hne' htarget]

/-- Without an ampersand there are no arrows to several nodes. -/
theorem fan?_eq_none (hs : '&' ∉ s) : fan? s = none := by
  refine List.findSome?_eq_none_iff.mpr ?_
  rintro ⟨source, rest⟩ hsource
  have hrest : rest <:+ s := NodeRef.suffix_of_mem_readings hsource
  rw [← Option.not_isSome_iff_eq_none]
  intro hfan
  obtain ⟨statement, hfan⟩ := Option.isSome_iff_exists.mp hfan
  simp only [Option.bind_eq_bind, Option.bind_eq_some_iff] at hfan
  obtain ⟨after, hafter, targets, htargets, -⟩ := hfan
  obtain ⟨hfan, hsuffix⟩ := of_afterSpaces htargets
  have hamp : '&' ∈ targets := by
    rw [isFanTargets, Bool.and_eq_true, List.any_eq_true] at hfan
    obtain ⟨⟨c, hc, heq⟩, -⟩ := hfan
    obtain rfl := beq_iff_eq.mp heq
    exact List.mem_of_mem_tail (List.dropLast_subset _ hc)
  exact hs ((hsuffix.trans ((suffix_of_after? hafter).trans ((skipSpaces_suffix rest).trans hrest))).subset hamp)

end Links

/-- Without a hyphen and an ampersand a statement can only declare a node. -/
theorem read?_of_not_mem (harrow : '-' ∉ s) (hfan : '&' ∉ s) :
    read? s = (search quotedNodeAt? s <|> search bracketNodeAt? s) := by
  have hstroke : s.count '-' < 4 := by
    rw [List.count_eq_zero_of_not_mem harrow]
    decide
  rw [read?, fan?_eq_none hfan, search_twoHeaded_eq_none (c := '-') (by decide) harrow,
    search_strokeArrow_eq_none hstroke, search_barArrow_eq_none (by decide) harrow, search_arrow_eq_none harrow]
  rfl

/-- An arrow between two references that hold nothing of an arrow themselves.
    None of the forms that are tried before can be read then, each lacking one
    of its characters. -/
theorem read?_arrow {front back rest : List Char} {source target : NodeRef}
    (hsource : NodeRef.read? (front ++ ' ' :: (['-', '-', '>'] ++ ' ' :: back)) =
      some (source, ' ' :: (['-', '-', '>'] ++ ' ' :: back)))
    (htarget : NodeRef.read? back = some (target, rest)) (hspace : ∀ d ∈ back.head?, isSpace d = false)
    (hfront : ∀ c ∈ ['-', '<', '|', '&'], c ∉ front) (hback : ∀ c ∈ ['-', '<', '|', '&'], c ∉ back) :
    read? (front ++ ' ' :: (['-', '-', '>'] ++ ' ' :: back)) = some (.link source [] .arrow target) := by
  generalize hs : front ++ ' ' :: (['-', '-', '>'] ++ ' ' :: back) = s at hsource ⊢
  have hstroke : s.count '-' < 4 := by
    rw [← hs]
    simp [List.count_eq_zero_of_not_mem (hfront '-' (by decide)),
      List.count_eq_zero_of_not_mem (hback '-' (by decide))]
  have hnot : ∀ c ∈ ['<', '|', '&'], c ∉ s := by
    have hmarks : ∀ c ∈ ['<', '|', '&'], c ≠ ' ' ∧ c ≠ '-' ∧ c ≠ '>' := by simp
    intro c hc
    rw [← hs]
    simp [hfront c (List.mem_cons_of_mem _ hc), hback c (List.mem_cons_of_mem _ hc), hmarks c hc]
  have hlink : linkAt? .arrow (fun s => (afterArrow? s).map ([], ·)) s = some (.link source [] .arrow target) := by
    obtain ⟨others, hreadings⟩ := List.head?_eq_some_iff.mp hsource
    rw [linkAt?, hreadings, List.findSome?_cons]
    simp only [afterArrow?_spaced, skipSpaces_cons (show isSpace ' ' from rfl) hspace, Option.map_some,
      Option.bind_eq_bind, Option.bind_some, htarget, Option.pure_def]
  rw [read?, fan?_eq_none (hnot '&' (by decide)), search_twoHeaded_eq_none (by decide) (hnot '<' (by decide)),
    search_strokeArrow_eq_none hstroke, search_barArrow_eq_none (by decide) (hnot '|' (by decide)),
    search_eq_some hlink]
  rfl

end Statement

section Marks

theorem classMark?_eq_none (hs : ':' ∉ s) : classMark? s = none := by
  rw [classMark?, after?_eq_none List.mem_cons_self hs, Option.bind_eq_bind, Option.bind_none]

theorem markedRef?_eq_none (hs : ':' ∉ s) : markedRef? s = none := by
  refine List.findSome?_eq_none_iff.mpr ?_
  rintro ⟨r, rest⟩ hr
  have hrest : ':' ∉ rest := fun h => hs ((NodeRef.suffix_of_mem_readings hr).subset h)
  simp only [classMark?_eq_none hrest, Option.bind_eq_bind, Option.bind_none]

theorem findAll_markedRef? (hs : ':' ∉ s) : findAll markedRef? s = [] :=
  findAll_eq_nil fun _ ht => markedRef?_eq_none fun h => hs (ht.subset h)

/-- A trimmed line without class marks and without a semicolon at its end is its
    own statement. -/
theorem statementText_eq_self (hs : ':' ∉ s) (htrim : trim s = s)
    (hlast : ∀ d ∈ s.getLast?, (d == ';') = false) : statementText s = s := by
  have herase : eraseAll classMark? s = s :=
    eraseAll_eq_self fun t ht => classMark?_eq_none fun h => hs (ht.subset h)
  rw [statementText, herase, htrim, dropTrailing_eq_self hlast, htrim]

end Marks

section ClassLines

/-- Every character of a line that lists the members of a class may stand in a
    list of words, or is the semicolon at its end. So a line with any other
    character is no such line. -/
theorem isWordListChar_of_membership? (h : (membership? s).isSome) :
    ∀ d ∈ s, isWordListChar d ∨ d = ';' := by
  obtain ⟨⟨ids, name⟩, h⟩ := Option.isSome_iff_exists.mp h
  unfold membership? at h
  simp only [Option.bind_eq_bind, Option.bind_eq_some_iff] at h
  obtain ⟨listed, hlisted, h⟩ := h
  generalize hbody : (if listed.getLast? = some ';' then listed.dropLast else listed) = body at h
  split at h
  · cases h
  · rename_i hwords
    have hall : ∀ d ∈ dropTrailing isSpace body, isWordListChar d := by
      rw [Bool.or_eq_true, not_or] at hwords
      simpa using hwords.2
    intro d hd
    rw [← append_of_after? hlisted, List.mem_append] at hd
    rcases hd with hkeyword | hlist
    · have hclass : "class".toList.all isWordListChar := by decide
      exact .inl (List.all_eq_true.mp hclass d hkeyword)
    · have hkept : d ∈ body ∨ d = ';' := by
        rw [← hbody]
        split
        · rename_i hlast
          rw [← List.dropLast_append_getLast? _ hlast, List.mem_append, List.mem_singleton] at hlist
          exact hlist
        · exact .inl hlist
      refine hkept.imp_left fun hmem => ?_
      rcases mem_dropTrailing_or hmem with hword | hspace
      · exact hall d hword
      · simp [isWordListChar, hspace]

theorem isWordListChar_of_isWordChar (hc : isWordChar c) : isWordListChar c := by
  simp [isWordListChar, hc]

/-- A list between two spaces is taken without them. -/
theorem memberList?_spaced (hne : s ≠ []) (hhead : ∀ d ∈ s.head?, isSpace d = false)
    (hlast : ∀ d ∈ s.getLast?, isSpace d = false) : memberList? (' ' :: (s ++ [' '])) = some s := by
  obtain ⟨c, rest, rfl⟩ := List.exists_cons_of_ne_nil hne
  have hc : isSpace c = false := hhead c rfl
  have hblank : (' ' :: ((c :: rest) ++ [' '])).all isSpace = false := by simp [hc]
  have hends : ((' ' :: ((c :: rest) ++ [' '])).head?.any isSpace &&
      (' ' :: ((c :: rest) ++ [' '])).getLast?.any isSpace) = true := by
    rw [← List.cons_append, List.getLast?_concat]
    rfl
  have hskip : (' ' :: ((c :: rest) ++ [' '])).dropWhile isSpace = (c :: rest) ++ [' '] :=
    skipSpaces_cons (by decide) (forall_mem_head?_cons hc _)
  have hstrip : strip isSpace (' ' :: ((c :: rest) ++ [' '])) = c :: rest := by
    rw [strip, hskip, dropTrailing_append hlast (List.forall_mem_singleton.mpr (by decide))]
  rw [memberList?, hblank, hends, hstrip]
  rfl

/-- The last word of a line that lists the members of a class is the class. What
    stands before it does not end in a word character, so the word cannot be
    longer. -/
theorem membership?_append {listed name : List Char} (hlisted : ∀ d ∈ listed, isWordListChar d)
    (hend : ∀ d ∈ listed.getLast?, isWordChar d = false) (hne : name ≠ [])
    (hname : ∀ d ∈ name, isWordChar d) :
    membership? ("class".toList ++ (listed ++ name)) = (memberList? listed).map fun ids =>
      ((((splitOn ',' ids).map trim).filter fun id => !id.isEmpty).map String.ofList, String.ofList name) := by
  have hlast : ∀ d ∈ (listed ++ name).getLast?, isWordChar d := fun d hd => by
    rw [List.getLast?_append_of_ne_nil listed hne] at hd
    exact hname d (List.mem_of_mem_getLast? hd)
  have hended : (listed ++ name).getLast? ≠ some ';' := fun h => absurd (hlast ';' h) (by decide)
  have hspace : dropTrailing isSpace (listed ++ name) = listed ++ name :=
    dropTrailing_eq_self fun d hd => isSpace_eq_false_of_isWordChar (hlast d hd)
  have hword : ((listed ++ name).reverse.takeWhile isWordChar).reverse = name := by
    rw [List.reverse_append, takeWhile_append_eq_left (by simpa using hname) (by simpa using hend),
      List.reverse_reverse]
  have hrest : dropTrailing isWordChar (listed ++ name) = listed := dropTrailing_append hend hname
  have hall : ∀ d ∈ listed ++ name, isWordListChar d :=
    List.forall_mem_append.mpr ⟨hlisted, fun d hd => isWordListChar_of_isWordChar (hname d hd)⟩
  have hcond : ¬(name.isEmpty || !(listed ++ name).all isWordListChar) = true := by
    rw [List.all_eq_true.mpr hall]
    simpa using hne
  rw [membership?, after?_append]
  simp only [Option.bind_eq_bind, Option.bind_some, if_neg hended, hspace, hword, hrest, if_neg hcond]
  cases memberList? listed <;> rfl

/-- A line that starts with a word states no style where no white space follows
    the word, or no other word follows the white space. -/
theorem style?_append_cons (hs : ∀ d ∈ s, isWordChar d) (hc : isWordChar c = false)
    (hrest : isSpace c → word? (skipSpaces t) = none) : style? (s ++ c :: t) = none := by
  have hkeyword : c ∉ "classDef".toList := by
    have hall : "classDef".toList.all isWordChar := by decide
    exact fun h => Bool.false_ne_true (hc.symm.trans (List.all_eq_true.mp hall c h))
  rw [style?, after?_append_cons hkeyword]
  cases hafter : after? "classDef".toList s with
  | none => rw [Option.map_none, Option.bind_eq_bind, Option.bind_none]
  | some word =>
    rw [Option.map_some, Option.bind_eq_bind, Option.bind_some]
    cases word with
    | nil =>
      rw [List.nil_append, skipSpaces?]
      split
      · rename_i hspace
        rw [Option.bind_some, hrest hspace, Option.bind_eq_bind, Option.bind_none]
      · rfl
    | cons d word =>
      have hd : isWordChar d := hs d ((suffix_of_after? hafter).subset List.mem_cons_self)
      rw [List.cons_append, skipSpaces?, if_neg (by simp [isSpace_eq_false_of_isWordChar hd]), Option.bind_none]

end ClassLines

end Flowchart

end LiveDiagram
