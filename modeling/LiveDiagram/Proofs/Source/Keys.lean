import LiveDiagram.Flowchart.Basic
import LiveDiagram.Proofs.Text.Separators
import LiveDiagram.Timeline.Basic

namespace LiveDiagram

/-- Neither end of the edge has a bar in its id. -/
def Edge.BarFree (e : Edge) : Prop :=
  '|' ∉ e.source.toList ∧ '|' ∉ e.target.toList

instance (e : Edge) : Decidable e.BarFree :=
  inferInstanceAs (Decidable (_ ∧ _))

theorem EdgeKind.not_mem_name (k : EdgeKind) : '|' ∉ k.name.toList := by
  cases k <;> decide

theorem EdgeKind.name_injective {k k' : EdgeKind} (h : k.name = k'.name) : k = k' := by
  revert h
  cases k <;> cases k' <;> decide

/-- The characters of a key: source, target, label and kind with bars between
    them. -/
theorem Edge.toList_key (e : Edge) :
    e.key.toList = e.source.toList ++ '|' :: (e.target.toList ++ '|' ::
      (e.label.toList ++ '|' :: e.kind.name.toList)) := by
  simp [Edge.key]

/-- Two edges whose ends have no bar in their ids are the same once their keys
    are. The ids come before the first two bars, and the name of the kind, which
    holds none, after the last one; so the label may hold bars. -/
theorem Edge.eq_of_key_eq {e f : Edge} (he : e.BarFree) (hf : f.BarFree) (hkey : e.key = f.key) :
    e = f := by
  have hlists : e.key.toList = f.key.toList := congrArg String.toList hkey
  rw [e.toList_key, f.toList_key] at hlists
  obtain ⟨hsource, hlists⟩ := Text.append_cons_inj he.1 hf.1 hlists
  obtain ⟨htarget, hlists⟩ := Text.append_cons_inj he.2 hf.2 hlists
  obtain ⟨hlabel, hkind⟩ :=
    Text.append_cons_inj_last e.kind.not_mem_name f.kind.not_mem_name hlists
  rw [String.toList_inj] at hsource htarget hlabel hkind
  cases e
  cases f
  rw [Edge.mk.injEq]
  exact ⟨hsource, htarget, hlabel, EdgeKind.name_injective hkind⟩

/-- Edges whose ends have no bar in their ids have the same key just when they
    have the same source, target, label and kind. With a bar in an id the two
    can be divided differently and agree nevertheless. -/
theorem Edge.key_inj {e f : Edge} (he : e.BarFree) (hf : f.BarFree) : e.key = f.key ↔ e = f :=
  ⟨Edge.eq_of_key_eq he hf, congrArg Edge.key⟩

/-- An arrow whose label looks like the end of a key. -/
def Edge.namedLikeKind : Edge :=
  { source := "a", target := "b", label := "|arrow" }

/-- A label that looks like the end of a key is told from an end of a key. -/
theorem Edge.key_inj_namedLikeKind :
    namedLikeKind.BarFree ∧ Edge.BarFree ⟨"a", "b", "", .arrow⟩ ∧
      namedLikeKind.key ≠ Edge.key ⟨"a", "b", "", .arrow⟩ :=
  ⟨by decide, by decide, fun h => absurd ((Edge.key_inj (by decide) (by decide)).mp h) (by decide)⟩

/-- A bar in an id can be taken for the one behind it. -/
example : Edge.key ⟨"a|b", "c", "", .arrow⟩ = Edge.key ⟨"a", "b|c", "", .arrow⟩ := by decide

theorem not_mem_toString (n : Nat) : '|' ∉ (toString n).toList := by
  intro hmem
  rw [Nat.toString_eq_repr, Nat.toList_repr] at hmem
  have hdigit := Nat.isDigit_of_mem_toDigits (by decide) (by decide) hmem
  exact absurd hdigit (by decide)

/-- Two texts that start with a number and a bar start with the same number once
    they are the same, and go on in the same way. -/
theorem index_eq_of_append_eq {i j : Nat} {rest rest' : List Char}
    (h : (toString i).toList ++ '|' :: rest = (toString j).toList ++ '|' :: rest') :
    i = j ∧ rest = rest' := by
  obtain ⟨hnumeral, hrest⟩ := Text.append_cons_inj (not_mem_toString i) (not_mem_toString j) h
  simp only [Nat.toString_eq_repr, Nat.toList_repr] at hnumeral
  have hvalue := congrArg (fun digits => Nat.ofDigitChars 10 digits 0) hnumeral
  exact ⟨by simpa using hvalue, hrest⟩

theorem MessageStyle.not_mem_name (style : MessageStyle) : '|' ∉ style.name.toList := by
  cases style <;> decide

theorem MessageStyle.name_injective {style style' : MessageStyle} (h : style.name = style'.name) :
    style = style' := by
  revert h
  cases style <;> cases style' <;> decide

namespace Message

/-- Neither end of the message has a bar in its id. -/
def BarFree (m : Message) : Prop :=
  '|' ∉ m.source.toList ∧ '|' ∉ m.target.toList

instance (m : Message) : Decidable m.BarFree :=
  inferInstanceAs (Decidable (_ ∧ _))

theorem toList_key (m : Message) (index : Nat) :
    (m.key index).toList = (toString index).toList ++ '|' :: (m.source.toList ++ '|' ::
      (m.target.toList ++ '|' :: (m.text.toList ++ '|' :: m.style.name.toList))) := by
  simp [key]

/-- The index of a message can be read off every key, since it is a numeral and
    a bar follows it. -/
theorem index_eq_of_key_eq {m m' : Message} {i j : Nat} (hkey : m.key i = m'.key j) : i = j := by
  have hlists := congrArg String.toList hkey
  rw [m.toList_key, m'.toList_key] at hlists
  exact (index_eq_of_append_eq hlists).1

/-- Two messages whose ends have no bar in their ids are the same once their
    keys are, at any indices. Their texts may hold bars. -/
theorem eq_of_key_eq {m m' : Message} {i j : Nat} (hm : m.BarFree) (hm' : m'.BarFree)
    (hkey : m.key i = m'.key j) : m = m' := by
  have hlists := congrArg String.toList hkey
  rw [m.toList_key, m'.toList_key] at hlists
  obtain ⟨-, hlists⟩ := index_eq_of_append_eq hlists
  obtain ⟨hsource, hlists⟩ := Text.append_cons_inj hm.1 hm'.1 hlists
  obtain ⟨htarget, hlists⟩ := Text.append_cons_inj hm.2 hm'.2 hlists
  obtain ⟨htext, hstyle⟩ :=
    Text.append_cons_inj_last m.style.not_mem_name m'.style.not_mem_name hlists
  rw [String.toList_inj] at hsource htarget htext hstyle
  cases m
  cases m'
  rw [mk.injEq]
  exact ⟨hsource, htarget, htext, MessageStyle.name_injective hstyle⟩

end Message

namespace Note

theorem toList_key (n : Note) (index : Nat) : ∃ rest,
    (n.key index).toList = (toString index).toList ++ '|' :: rest := by
  refine ⟨("&".intercalate (n.participants.mergeSort fun a b => a ≤ b) ++ "|" ++ n.text).toList, ?_⟩
  simp [key, List.append_assoc]

/-- A key that starts with another one has the same index, whatever the notes
    are. -/
theorem index_eq_of_key_eq_append {n n' : Note} {i j : Nat} {e : String}
    (hkey : n.key i = n'.key j ++ e) : i = j := by
  obtain ⟨rest, hrest⟩ := n.toList_key i
  obtain ⟨rest', hrest'⟩ := n'.toList_key j
  have hlists := congrArg String.toList hkey
  rw [String.toList_append, hrest, hrest', List.append_assoc, List.cons_append] at hlists
  exact (index_eq_of_append_eq hlists).1

/-- The index of a note can be read off every key. The rest of a note cannot,
    since the key lists its participants in another order. -/
theorem index_eq_of_key_eq {n n' : Note} {i j : Nat} (hkey : n.key i = n'.key j) : i = j :=
  index_eq_of_key_eq_append (e := "") (by rw [hkey, String.append_empty])

end Note

end LiveDiagram
