import EmulateComputer.Hostnet.Dns

/-!
# DnsNames — the labels of a question and the text handed to the resolver

On the wire a name is a list of labels, each of 1 to 63 arbitrary bytes.  The resolver is given one
text with the labels joined by dots, so a label that itself holds the byte of a dot reads as two.
-/

namespace EmulateComputer

namespace Dns

/-- Every label is non-empty and leaves the upper bits of its length byte clear. -/
def IsName (labels : List (List U8)) : Prop :=
  ∀ label ∈ labels, 1 ≤ label.length ∧ label.length ≤ 63

/-- A name on the wire: each label behind its length, then the root. -/
def wireName (labels : List (List U8)) : List U8 :=
  labels.flatMap (fun label => BitVec.ofNat 8 label.length :: label) ++ [0]

def labelText (label : List U8) : List Char :=
  label.map fun b => (Char.ofNat b.toNat).toLower

/-- The text of a name, behind the part that has been read already. -/
def joined (name : List Char) (labels : List (List U8)) : List Char :=
  ['.'].intercalate ((if name.isEmpty then [] else [name]) ++ labels.map labelText)

theorem wireName_cons (label : List U8) (labels : List (List U8)) :
    wireName (label :: labels) = BitVec.ofNat 8 label.length :: label ++ wireName labels := by
  simp [wireName]

theorem joined_cons (name : List Char) {label : List U8} (h : 1 ≤ label.length)
    (labels : List (List U8)) :
    joined ((if name.isEmpty then name else name ++ ['.']) ++ labelText label) labels =
      joined name (label :: labels) := by
  have hne : labelText label ≠ [] := by
    rw [labelText, Ne, List.map_eq_nil_iff]
    rintro rfl
    exact absurd h (by decide)
  cases name with
  | nil => simp [joined, hne]
  | cons c name => cases labels <;> simp [joined]

/-- A length byte that is no compression pointer. -/
theorem toNat_le_of_label : ∀ len : U8, len &&& 0xc0 = 0 → len.toNat ≤ 63 := by
  decide +kernel

/-- What the reader accepts is a name on the wire, and its text is that of the labels. -/
theorem readLabels_eq_some {turns : Nat} {bytes rest : List U8} {name name' : List Char}
    (h : readLabels turns bytes name = some (name', rest)) :
    ∃ labels, IsName labels ∧ bytes = wireName labels ++ rest ∧ name' = joined name labels := by
  induction turns generalizing bytes name with
  | zero => exact nomatch h
  | succ turns ih =>
    cases bytes with
    | nil => exact nomatch h
    | cons len bytes =>
      rw [readLabels, Option.ite_none_left_eq_some] at h
      obtain ⟨hpointer, h⟩ := h
      by_cases hroot : len = 0
      · -- The root ends the name.
        rw [if_pos hroot] at h
        obtain ⟨rfl, rfl⟩ := Prod.mk.inj (Option.some.inj h)
        refine ⟨[], nofun, by rw [hroot]; rfl, ?_⟩
        cases name <;> simp [joined]
      · rw [if_neg hroot, Option.ite_none_left_eq_some] at h
        rw [Option.ite_none_left_eq_some] at h
        obtain ⟨hshort, -, h⟩ := h
        obtain ⟨labels, hlabels, hbytes, hname⟩ := ih h
        have hlen : (bytes.take len.toNat).length = len.toNat :=
          List.length_take_of_le (Nat.not_lt.1 hshort)
        have hlabel : 1 ≤ (bytes.take len.toNat).length := by
          rw [hlen]
          exact Nat.one_le_iff_ne_zero.2 fun hzero => hroot (BitVec.eq_of_toNat_eq hzero)
        refine ⟨bytes.take len.toNat :: labels, List.forall_mem_cons.2 ⟨⟨hlabel, ?_⟩, hlabels⟩, ?_,
          hname.trans (joined_cons name hlabel labels)⟩
        · rw [hlen]
          exact toNat_le_of_label len (not_not.1 hpointer)
        · rw [wireName_cons, hlen, BitVec.ofNat_toNat, BitVec.setWidth_eq, List.cons_append,
            List.cons_append, List.append_assoc, ← hbytes, List.take_append_drop]

/-- Only the byte of a dot becomes a dot. -/
theorem toLower_eq_dot : ∀ b : U8, (Char.ofNat b.toNat).toLower = '.' ↔ b = 0x2e := by
  decide +kernel

theorem dot_mem_labelText {label : List U8} : '.' ∈ labelText label ↔ 0x2e ∈ label := by
  simp [labelText, toLower_eq_dot]

/-- No part of a split text holds the separator. -/
theorem not_mem_of_mem_splitOn {c : Char} {text part : List Char} (h : part ∈ text.splitOn c) :
    c ∉ part := by
  induction text generalizing part with
  | nil =>
    rw [List.mem_singleton.1 h]
    exact List.not_mem_nil
  | cons d text ih =>
    rw [List.splitOn, List.splitOnP_cons_eq_if_modifyHead] at h
    split at h
    · rcases List.mem_cons.1 h with rfl | hrest
      · exact List.not_mem_nil
      · exact ih hrest
    · next hne =>
      obtain ⟨first, rest, hsplit⟩ :=
        List.exists_cons_of_ne_nil (List.splitOnP_ne_nil (· == c) text)
      have hparts : ∀ part ∈ first :: rest, c ∉ part := hsplit ▸ fun _ => ih
      rw [List.forall_mem_cons] at hparts
      rw [hsplit, List.modifyHead_cons] at h
      rcases List.mem_cons.1 h with rfl | hrest
      · exact fun hmem => (List.mem_cons.1 hmem).elim (fun heq => hne (by simp [heq])) hparts.1
      · exact hparts.2 part hrest

/-- The text splits into the labels, none of them empty, unless a label holds the byte of a dot. -/
theorem splitOn_joined_iff {labels : List (List U8)} (hname : IsName labels) (hne : labels ≠ []) :
    (joined [] labels).splitOn '.' = labels.map labelText ∧
        [] ∉ (joined [] labels).splitOn '.' ↔ ∀ label ∈ labels, 0x2e ∉ label := by
  have hnonempty : [] ∉ labels.map labelText := by
    intro hmem
    obtain ⟨label, hlabel, htext⟩ := List.mem_map.1 hmem
    have hlen := (hname label hlabel).1
    rw [List.map_eq_nil_iff.1 htext] at hlen
    exact absurd hlen (by decide)
  constructor
  · rintro ⟨hsplit, -⟩ label hlabel
    rw [← dot_mem_labelText]
    exact not_mem_of_mem_splitOn (hsplit ▸ List.mem_map_of_mem hlabel)
  · intro hdots
    have hsplit : (joined [] labels).splitOn '.' = labels.map labelText := by
      refine List.splitOn_intercalate '.' (List.forall_mem_map.2 fun label hlabel => ?_) (by simpa)
      rw [dot_mem_labelText]
      exact hdots label hlabel
    rw [hsplit]
    exact ⟨rfl, hnonempty⟩

/-- The name handed to the resolver denotes the question's exactly when no label holds a dot. -/
theorem parseQuery_name_iff {buf : List U8} {query : Query} (h : parseQuery buf = some query) :
    ∃ labels rest, IsName labels ∧ buf.drop 12 = wireName labels ++ rest ∧
      (labels ≠ [] → ((query.name.splitOn '.' = labels.map labelText ∧
        [] ∉ query.name.splitOn '.') ↔ ∀ label ∈ labels, 0x2e ∉ label)) := by
  unfold parseQuery at h
  split at h
  · rw [Option.ite_none_left_eq_some] at h
    obtain ⟨-, h⟩ := h
    split at h
    · next hread =>
      obtain ⟨labels, hname, hbuf, rfl⟩ := readLabels_eq_some hread
      refine ⟨labels, _, hname, hbuf, fun hne => ?_⟩
      rw [← Option.some.inj h]
      exact splitOn_joined_iff hname hne
    · exact nomatch h
  · exact nomatch h

def queryFor (labels : List (List U8)) : List U8 :=
  [0, 7, 1, 0, 0, 1, 0, 0, 0, 0, 0, 0] ++ wireName labels ++ [0, 1, 0, 1]

/-- One label `a.b` reads as two. -/
theorem parseQuery_dot_in_label :
    (parseQuery (queryFor [[0x61, 0x2e, 0x62]])).map (fun query => query.name.splitOn '.') =
      some [['a'], ['b']] := by
  decide +kernel

/-- No byte of `A.b` is a dot, so its name denotes what was asked. -/
theorem parseQuery_name_iff_two : ∃ query labels,
    parseQuery (queryFor [[0x41], [0x62]]) = some query ∧ IsName labels ∧ labels ≠ [] ∧
      query.name.splitOn '.' = labels.map labelText ∧ [] ∉ query.name.splitOn '.' := by
  obtain ⟨query, hquery⟩ : ∃ query, parseQuery (queryFor [[0x41], [0x62]]) = some query :=
    Option.isSome_iff_exists.1 (by decide +kernel)
  obtain ⟨labels, rest, hname, hbuf, hiff⟩ := parseQuery_name_iff hquery
  have hne : labels ≠ [] := by
    rintro rfl
    have hfirst : some (1 : U8) = some 0 := congrArg List.head? hbuf
    exact absurd hfirst (by decide)
  refine ⟨query, labels, hquery, hname, hne, (hiff hne).2 fun label hlabel hdot => ?_⟩
  have hmem : (0x2e : U8) ∈ (queryFor [[0x41], [0x62]]).drop 12 := by
    rw [hbuf, wireName]
    simp only [List.mem_append, List.mem_flatMap]
    exact .inl (.inl ⟨label, hlabel, List.mem_cons_of_mem _ hdot⟩)
  exact absurd hmem (by decide)

end Dns

end EmulateComputer
