import LiveDiagram.Proofs.Source.FrontMatter
import LiveDiagram.Proofs.Source.Statements

namespace LiveDiagram

open Text FrontMatter

/-- A line that is neither blank nor opens or closes a block of settings. -/
structure IsOrdinary (line : List Char) : Prop where
  visible : isBlankLine line = false
  within : isDelimiter line = false

/-- A line that is a statement once it is trimmed is ordinary, since blank lines
    and delimiters are told after trimming. -/
theorem isOrdinary_of_isStatement {line : List Char} (h : IsStatement (trim line)) : IsOrdinary line := by
  obtain ⟨c, rest, hline, hc⟩ := h.exists_cons
  constructor
  · rw [isBlankLine, hline]
    rfl
  · rw [isDelimiter, hline, beq_eq_false_iff_ne]
    rintro heq
    obtain ⟨rfl, -⟩ := List.cons.inj heq
    exact absurd hc (by decide)

section Block

variable {ls rest : List (List Char)} {opening : List Char}

theorem bodyLines_eq_self (h : ofLines? ls = none) : bodyLines ls = ls := by
  rw [bodyLines, h]
  rfl

theorem Config.ofLines_eq_empty [YamlReader] (h : ofLines? ls = none) : Config.ofLines ls = ∅ := by
  rw [Config.ofLines, h]
  rfl

/-- No block is found if the first line that is not blank opens none, or no
    later line closes it. -/
theorem ofLines?_eq_none_of_dropWhile (hls : ls.dropWhile isBlankLine = opening :: rest)
    (hnone : isDelimiter opening = false ∨ ∀ line ∈ rest, isDelimiter line = false) : ofLines? ls = none := by
  simp only [ofLines?, hls]
  split
  · rename_i hopening
    have hrest : ∀ line ∈ rest, isDelimiter line = false :=
      hnone.resolve_left fun hnot => Bool.false_ne_true (hnot.symm.trans hopening)
    have hnothing : rest.dropWhile (fun line => !isDelimiter line) = [] :=
      List.dropWhile_eq_nil_iff.mpr fun line hline => by simp [hrest line hline]
    rw [hnothing]
  · rfl

/-- Lines that are added at the end stand behind a block that is closed before
    them, and its settings stay as they are. What these lines are does not
    matter. -/
theorem bodyLines_append_of_closed [YamlReader] {m : FrontMatter} (hm : m.Closed) (more : List (List Char)) :
    bodyLines (m.toLines ++ more) = m.body ++ more ∧ Config.ofLines (m.toLines ++ more) = m.config := by
  have hlonger : ({ m with body := m.body ++ more } : FrontMatter).Closed :=
    ⟨hm.before, hm.opening, hm.settings, hm.closing⟩
  have hlines : ({ m with body := m.body ++ more } : FrontMatter).toLines = m.toLines ++ more := by
    simp [toLines]
  rw [← hlines, bodyLines_of_closed hlonger, Config.ofLines_of_closed hlonger]
  exact ⟨rfl, rfl⟩

/-- Lines between an opening line and what closes it are settings, and what is
    left of the text is behind the closing line. -/
theorem bodyLines_of_unclosed {before after : List (List Char)} {closing : List Char} {body : List (List Char)}
    (hbefore : ∀ line ∈ before, isBlankLine line) (hopening : isDelimiter opening)
    (hrest : ∀ line ∈ rest, isDelimiter line = false)
    (hafter : (after.dropWhile fun line => !isDelimiter line) = closing :: body) :
    bodyLines (before ++ opening :: (rest ++ after)) = body := by
  have hsplit := List.takeWhile_append_dropWhile (p := fun line => !isDelimiter line) (l := after)
  have hclosing := List.head?_dropWhile_not (fun line => !isDelimiter line) after
  rw [hafter] at hsplit hclosing
  let m : FrontMatter :=
    ⟨before, opening, rest ++ after.takeWhile fun line => !isDelimiter line, closing, body⟩
  have hm : m.Closed := by
    refine ⟨hbefore, hopening, List.forall_mem_append.mpr ⟨hrest, fun line hline => ?_⟩,
      by simpa using hclosing⟩
    simpa using List.mem_takeWhile_imp hline
  have hlines : m.toLines = before ++ opening :: (rest ++ after) := by
    rw [← hsplit]
    simp [m, toLines]
  rw [← hlines, bodyLines_of_closed hm]

/-- Why some lines hold no block: they are all blank, or the first that is not
    opens none, or none closes it. -/
inductive Unclosed (ls : List (List Char)) : Prop where
  | blank (hblank : ls.dropWhile isBlankLine = [])
  | unopened {line : List Char} {rest : List (List Char)} (hls : ls.dropWhile isBlankLine = line :: rest)
      (hline : isDelimiter line = false)
  | opened {opening : List Char} {rest : List (List Char)} (hls : ls.dropWhile isBlankLine = opening :: rest)
      (hopening : isDelimiter opening) (hrest : ∀ line ∈ rest, isDelimiter line = false)

/-- Lines that hold no block do so for one of three reasons, each of which leads
    elsewhere once more lines follow. -/
theorem unclosed_of_ofLines?_eq_none (h : ofLines? ls = none) : Unclosed ls := by
  cases hls : ls.dropWhile isBlankLine with
  | nil => exact .blank hls
  | cons opening rest =>
    cases hopening : isDelimiter opening with
    | false => exact .unopened hls hopening
    | true =>
      refine .opened hls hopening ?_
      simp only [ofLines?, hls, hopening, if_true] at h
      split at h
      · rename_i hnothing
        simpa using List.dropWhile_eq_nil_iff.mp hnothing
      · cases h

section Replacing

variable {before : List (List Char)}

/-- The first line that is not blank stays the first one when more lines
    follow. -/
theorem dropWhile_isBlankLine_append (hbefore : before.dropWhile isBlankLine = opening :: rest)
    (more : List (List Char)) : (before ++ more).dropWhile isBlankLine = opening :: (rest ++ more) := by
  rw [List.dropWhile_append, hbefore]
  rfl

/-- Behind blank lines, an ordinary line is the first that is not blank, and
    opens no block. -/
theorem ofLines?_append_of_blank {mid : List (List Char)} (hbefore : before.dropWhile isBlankLine = [])
    (hne : mid ≠ []) (hmid : ∀ line ∈ mid, IsOrdinary line) (after : List (List Char)) :
    ofLines? (before ++ (mid ++ after)) = none := by
  obtain ⟨line, mid, rfl⟩ := List.exists_cons_of_ne_nil hne
  have hline := hmid line List.mem_cons_self
  have hskipped : (before ++ (line :: mid ++ after)).dropWhile isBlankLine = line :: (mid ++ after) := by
    rw [List.dropWhile_append, hbefore, List.cons_append]
    exact List.dropWhile_cons_of_neg (by simp [hline.visible])
  exact ofLines?_eq_none_of_dropWhile hskipped (.inl hline.within)

/-- Ordinary lines stand either behind the block, and all that follows them does
    too, or nowhere behind it, where they are settings. Which it is does not
    depend on the lines. In the first case the settings do not depend on them
    either. -/
theorem bodyLines_replace [YamlReader] (before after : List (List Char)) :
    (∃ front config, ∀ mid, mid ≠ [] → (∀ line ∈ mid, IsOrdinary line) →
      bodyLines (before ++ (mid ++ after)) = front ++ (mid ++ after) ∧
        Config.ofLines (before ++ (mid ++ after)) = config) ∨
    ∃ body, body <:+ after ∧ ∀ mid, mid ≠ [] → (∀ line ∈ mid, IsOrdinary line) →
      bodyLines (before ++ (mid ++ after)) = body := by
  have hwhole {mid : List (List Char)} (hnone : ofLines? (before ++ (mid ++ after)) = none) :
      bodyLines (before ++ (mid ++ after)) = before ++ (mid ++ after) ∧
        Config.ofLines (before ++ (mid ++ after)) = ∅ :=
    ⟨bodyLines_eq_self hnone, Config.ofLines_eq_empty hnone⟩
  cases hblock : ofLines? before with
  | some m =>
    obtain ⟨hm, hlines⟩ := closed_of_ofLines? hblock
    refine .inl ⟨m.body, m.config, fun mid _ _ => ?_⟩
    rw [← hlines]
    exact bodyLines_append_of_closed hm _
  | none =>
    cases unclosed_of_ofLines?_eq_none hblock with
    | blank hblank =>
      exact .inl ⟨before, ∅, fun mid hne hmid => hwhole (ofLines?_append_of_blank hblank hne hmid after)⟩
    | unopened hbefore hline =>
      refine .inl ⟨before, ∅, fun mid _ _ => hwhole ?_⟩
      exact ofLines?_eq_none_of_dropWhile (dropWhile_isBlankLine_append hbefore (mid ++ after)) (.inl hline)
    | opened hbefore hopening hrest =>
      rename_i opening rest
      have hwithin : ∀ mid : List (List Char), (∀ line ∈ mid, IsOrdinary line) →
          ∀ line ∈ rest ++ mid, isDelimiter line = false := fun mid hmid =>
        List.forall_mem_append.mpr ⟨hrest, fun line hline => (hmid line hline).within⟩
      cases hclosed : after.dropWhile (fun line => !isDelimiter line) with
      | nil =>
        refine .inl ⟨before, ∅, fun mid _ hmid => hwhole ?_⟩
        refine ofLines?_eq_none_of_dropWhile (dropWhile_isBlankLine_append hbefore (mid ++ after)) (.inr ?_)
        rw [← List.append_assoc]
        exact List.forall_mem_append.mpr ⟨hwithin mid hmid, by simpa using List.dropWhile_eq_nil_iff.mp hclosed⟩
      | cons closing body =>
        have hbehind : closing :: body <:+ after := hclosed ▸ List.dropWhile_suffix _
        refine .inr ⟨body, (List.suffix_cons closing body).trans hbehind, fun mid _ hmid => ?_⟩
        have hblank : ∀ line ∈ before.takeWhile isBlankLine, isBlankLine line :=
          fun _ h => List.mem_takeWhile_imp h
        have hlines : before ++ (mid ++ after) =
            before.takeWhile isBlankLine ++ opening :: ((rest ++ mid) ++ after) := by
          conv_lhs => rw [← List.takeWhile_append_dropWhile (p := isBlankLine) (l := before), hbefore]
          simp
        rw [hlines, bodyLines_of_unclosed hblank hopening (hwithin mid hmid) hclosed]

end Replacing

end Block

section Statements

variable {mid mid' : List (List Char)}

theorem statements_append (ls ls' : List (List Char)) :
    statements (ls ++ ls') = statements ls ++ statements ls' := by
  rw [statements, List.map_append, List.filter_append]
  rfl

/-- Lines that are statements when they are trimmed state just that. -/
theorem statements_of_isStatement_trim {ls : List (List Char)} (hls : ∀ line ∈ ls, IsStatement (trim line)) :
    statements ls = ls.map trim := by
  have hmap : ∀ line ∈ ls.map trim, IsStatement line := List.forall_mem_map.mpr hls
  have htrim : (ls.map trim).map trim = ls.map trim := by
    rw [List.map_congr_left fun line hline => (hmap line hline).trim_eq_self]
    exact List.map_id' _
  have hstated := statements_of_isStatement hmap
  rw [statements, htrim] at hstated
  exact hstated

/-- If lines are replaced by others, and each of them is a statement, either
    they are settings and what the text states stays the same, or what they
    state is replaced and the settings stay the same. -/
theorem statements_replace [YamlReader] (before after : List (List Char)) (hne : mid ≠ []) (hne' : mid' ≠ [])
    (hmid : ∀ line ∈ mid, IsStatement (trim line)) (hmid' : ∀ line ∈ mid', IsStatement (trim line)) :
    (bodyLines (before ++ (mid ++ after)) <:+ after ∧
      statements (bodyLines (before ++ (mid' ++ after))) = statements (bodyLines (before ++ (mid ++ after)))) ∨
    Config.ofLines (before ++ (mid' ++ after)) = Config.ofLines (before ++ (mid ++ after)) ∧
      ∃ front, statements (bodyLines (before ++ (mid ++ after))) = front ++ (mid.map trim ++ statements after) ∧
        statements (bodyLines (before ++ (mid' ++ after))) = front ++ (mid'.map trim ++ statements after) := by
  have hordinary : ∀ line ∈ mid, IsOrdinary line := fun line hline => isOrdinary_of_isStatement (hmid line hline)
  have hordinary' : ∀ line ∈ mid', IsOrdinary line :=
    fun line hline => isOrdinary_of_isStatement (hmid' line hline)
  rcases bodyLines_replace before after with ⟨front, config, hbehind⟩ | ⟨body, hbody, hwithin⟩
  · obtain ⟨hlines, hconfig⟩ := hbehind mid hne hordinary
    obtain ⟨hlines', hconfig'⟩ := hbehind mid' hne' hordinary'
    refine .inr ⟨hconfig'.trans hconfig.symm, statements front, ?_, ?_⟩
    · rw [hlines, statements_append, statements_append, statements_of_isStatement_trim hmid]
    · rw [hlines', statements_append, statements_append, statements_of_isStatement_trim hmid']
  · rw [hwithin mid hne hordinary, hwithin mid' hne' hordinary']
    exact .inl ⟨hbody, rfl⟩

end Statements

end LiveDiagram
