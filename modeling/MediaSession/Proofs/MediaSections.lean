import MediaSession.Proofs.PayloadOrder
import MediaSession.Proofs.TextLines

namespace MediaSession

/-- The attributes of the medium above the given lines, which reach to the next medium. -/
def attributesIn (below : List (List Char)) : List (List Char) :=
  below.takeWhile fun line => !beginsMedium line

theorem attributesIn_of_medium {line : List Char} (h : beginsMedium line = true)
    (rest : List (List Char)) : attributesIn (line :: rest) = [] :=
  List.takeWhile_cons_of_neg (by simp [h])

theorem attributesIn_of_not_medium {line : List Char} (h : beginsMedium line = false)
    (rest : List (List Char)) : attributesIn (line :: rest) = line :: attributesIn rest :=
  List.takeWhile_cons_of_pos (by simp [h])

theorem attributesIn_append (above below : List (List Char)) :
    attributesIn (above ++ below) = attributesIn above ++ attributesIn below ∨
      attributesIn (above ++ below) = attributesIn above := by
  induction above with
  | nil => exact .inl rfl
  | cons line above ih =>
    cases h : beginsMedium line with
    | true =>
      rw [List.cons_append, attributesIn_of_medium h, attributesIn_of_medium h]
      exact .inr rfl
    | false =>
      rw [List.cons_append, attributesIn_of_not_medium h, attributesIn_of_not_medium h]
      exact ih.imp (congrArg (line :: ·)) (congrArg (line :: ·))

/-- Every line with the attributes below it. -/
def sectioned : List (List Char) → List (List Char × List (List Char))
  | [] => []
  | line :: rest => (line, attributesIn rest) :: sectioned rest

/-- The fields of a media line from the fourth on. -/
def payloadsOf (line : List Char) : List (List Char) := (pieces ' ' line).drop 3

/-- What is made of a line with its attributes. -/
def rewritten (kind : MediaKind) (codecs : List (List Char))
    (entry : List Char × List (List Char)) : List Char :=
  if kind.mark.isPrefixOf entry.1 then reorderLine codecs entry.1 entry.2 else entry.1

section Line

variable {codecs order attributes : List (List Char)} {line : List Char}

theorem reorderLine_of_eq_some
    (h : preferredOrder (payloadsOf line) (attributes.filterMap codecName?)
      (attributes.filterMap retransmission?) codecs = some order) :
    reorderLine codecs line attributes = joined [' '] ((pieces ' ' line).take 3 ++ order) := by
  have hd : (pieces ' ' line).drop 3 = payloadsOf line := rfl
  rw [reorderLine]
  simp only [hd, h]

theorem reorderLine_of_eq_none
    (h : preferredOrder (payloadsOf line) (attributes.filterMap codecName?)
      (attributes.filterMap retransmission?) codecs = none) :
    reorderLine codecs line attributes = line := by
  have hd : (pieces ' ' line).drop 3 = payloadsOf line := rfl
  rw [reorderLine]
  simp only [hd, h]

/-- A line is left as it is, or its payloads are replaced by their preferred order. -/
theorem reorderLine_cases (codecs : List (List Char)) (line : List Char)
    (attributes : List (List Char)) :
    reorderLine codecs line attributes = line ∨
      ∃ order, preferredOrder (payloadsOf line) (attributes.filterMap codecName?)
          (attributes.filterMap retransmission?) codecs = some order ∧
        reorderLine codecs line attributes = joined [' '] ((pieces ' ' line).take 3 ++ order) := by
  cases h : preferredOrder (payloadsOf line) (attributes.filterMap codecName?)
      (attributes.filterMap retransmission?) codecs with
  | none => exact .inl (reorderLine_of_eq_none h)
  | some order => exact .inr ⟨order, rfl, reorderLine_of_eq_some h⟩

variable (h : preferredOrder (payloadsOf line) (attributes.filterMap codecName?)
  (attributes.filterMap retransmission?) codecs = some order)

include h

theorem length_pieces_of_preferredOrder : 3 < (pieces ' ' line).length := by
  obtain ⟨payload, hp⟩ := List.exists_mem_of_ne_nil order (preferredOrder_ne_nil h)
  have hm : payload ∈ (pieces ' ' line).drop 3 := (mem_preferredOrder h).mp hp
  have hl := List.length_pos_of_mem hm
  rw [List.length_drop] at hl
  omega

theorem length_take_pieces_of_preferredOrder : ((pieces ' ' line).take 3).length = 3 :=
  List.length_take_of_le (Nat.le_of_lt (length_pieces_of_preferredOrder h))

theorem mem_pieces_of_preferredOrder {field : List Char}
    (hf : field ∈ (pieces ' ' line).take 3 ++ order) : field ∈ pieces ' ' line := by
  rcases List.mem_append.mp hf with hf | hf
  · exact List.mem_of_mem_take hf
  · exact List.mem_of_mem_drop ((mem_preferredOrder h).mp hf)

theorem pieces_reorderLine :
    pieces ' ' (reorderLine codecs line attributes) = (pieces ' ' line).take 3 ++ order := by
  rw [reorderLine_of_eq_some h, pieces_joined]
  · exact fun field hf => notMem_of_mem_pieces (mem_pieces_of_preferredOrder h hf)
  · exact List.append_ne_nil_of_right_ne_nil _ (preferredOrder_ne_nil h)

theorem take_pieces_reorderLine :
    (pieces ' ' (reorderLine codecs line attributes)).take 3 = (pieces ' ' line).take 3 := by
  rw [pieces_reorderLine h]
  exact List.take_left' (length_take_pieces_of_preferredOrder h)

theorem payloadsOf_reorderLine :
    payloadsOf (reorderLine codecs line attributes) = order := by
  rw [payloadsOf, pieces_reorderLine h]
  exact List.drop_left' (length_take_pieces_of_preferredOrder h)

end Line

theorem MediaKind.space_notMem_name (kind : MediaKind) :
    ' ' ∉ mediaMark ++ kind.wireName.toList := by
  cases kind <;> decide

/-- The head of a line up to its first space is its first field. -/
theorem isPrefix_append_space_iff {head line : List Char} (hh : ' ' ∉ head) :
    head ++ [' '] <+: line ↔
      (pieces ' ' line).head? = some head ∧ 1 < (pieces ' ' line).length := by
  constructor
  · rintro ⟨rest, rfl⟩
    have hp : 0 < (pieces ' ' rest).length := List.length_pos_iff.mpr (pieces_ne_nil ' ' rest)
    rw [List.append_assoc, List.singleton_append, pieces_append_cons hh]
    exact ⟨rfl, Nat.lt_add_of_pos_left hp⟩
  · rintro ⟨hf, hl⟩
    obtain ⟨more, hm⟩ := List.head?_eq_some_iff.mp hf
    rw [hm] at hl
    obtain ⟨next, more, rfl⟩ := List.exists_cons_of_ne_nil
      (List.length_pos_iff.mp (Nat.lt_of_succ_lt_succ hl))
    rw [← joined_pieces ' ' line, hm]
    exact ⟨joined [' '] (next :: more), rfl⟩

theorem MediaKind.mark_isPrefix_iff {kind : MediaKind} {line : List Char} :
    kind.mark <+: line ↔ (pieces ' ' line).head? = some (mediaMark ++ kind.wireName.toList) ∧
      1 < (pieces ' ' line).length :=
  isPrefix_append_space_iff kind.space_notMem_name

theorem MediaKind.eq_of_mark {kind other : MediaKind} {line : List Char} (h : kind.mark <+: line)
    (ho : other.mark <+: line) : kind = other := by
  have hn := Option.some.inj ((MediaKind.mark_isPrefix_iff.mp h).1.symm.trans
    (MediaKind.mark_isPrefix_iff.mp ho).1)
  cases kind <;> cases other <;> first | rfl | exact absurd hn (by decide)

theorem MediaKind.beginsMedium_of_mark {kind : MediaKind} {line : List Char}
    (h : kind.mark <+: line) : beginsMedium line = true := by
  have hm : mediaMark <+: kind.mark := ⟨kind.wireName.toList ++ [' '], (List.append_assoc ..).symm⟩
  exact List.isPrefixOf_iff_prefix.mpr (hm.trans h)

theorem beginsMedium_bareLine (line : List Char) :
    beginsMedium (bareLine line) = beginsMedium line := by
  rw [beginsMedium, beginsMedium, Bool.eq_iff_iff, List.isPrefixOf_iff_prefix,
    List.isPrefixOf_iff_prefix]
  exact isPrefix_bareLine_iff (by decide)

theorem MediaKind.mark_isPrefix_bareLine (kind : MediaKind) (line : List Char) :
    kind.mark <+: bareLine line ↔ kind.mark <+: line :=
  isPrefix_bareLine_iff (by cases kind <;> decide)

theorem reorderLine_mark_iff (kind : MediaKind) (codecs : List (List Char)) (line : List Char)
    (attributes : List (List Char)) :
    kind.mark <+: reorderLine codecs line attributes ↔ kind.mark <+: line := by
  rcases reorderLine_cases codecs line attributes with he | ⟨order, h, _⟩
  · rw [he]
  · have hl := length_pieces_of_preferredOrder h
    obtain ⟨a, b, c, d, more, hp⟩ : ∃ a b c d more, pieces ' ' line = a :: b :: c :: d :: more := by
      match hm : pieces ' ' line with
      | a :: b :: c :: d :: more => exact ⟨a, b, c, d, more, rfl⟩
      | [] | [_] | [_, _] | [_, _, _] => simp [hm] at hl
    rw [MediaKind.mark_isPrefix_iff, MediaKind.mark_isPrefix_iff, pieces_reorderLine h, hp]
    simp

section Rewritten

variable {kind : MediaKind} {codecs : List (List Char)} {line : List Char}
  {attributes : List (List Char)}

theorem rewritten_of_mark (h : kind.mark <+: line) :
    rewritten kind codecs (line, attributes) = reorderLine codecs line attributes :=
  if_pos (List.isPrefixOf_iff_prefix.mpr h)

theorem rewritten_of_not_mark (h : ¬ kind.mark <+: line) :
    rewritten kind codecs (line, attributes) = line :=
  if_neg fun hp => h (List.isPrefixOf_iff_prefix.mp hp)

theorem rewritten_cases (kind : MediaKind) (codecs : List (List Char)) (line : List Char)
    (attributes : List (List Char)) :
    rewritten kind codecs (line, attributes) = line ∨
      ∃ order, kind.mark <+: line ∧
        preferredOrder (payloadsOf line) (attributes.filterMap codecName?)
          (attributes.filterMap retransmission?) codecs = some order ∧
        rewritten kind codecs (line, attributes) = reorderLine codecs line attributes := by
  by_cases hm : kind.mark <+: line
  · rw [rewritten_of_mark hm]
    exact (reorderLine_cases codecs line attributes).imp id fun ⟨order, h, _⟩ => ⟨order, hm, h, rfl⟩
  · exact .inl (rewritten_of_not_mark hm)

theorem rewritten_of_not_medium (h : beginsMedium line = false) :
    rewritten kind codecs (line, attributes) = line :=
  rewritten_of_not_mark fun hm => by simp [MediaKind.beginsMedium_of_mark hm] at h

theorem rewritten_mark_iff (other : MediaKind) :
    other.mark <+: rewritten kind codecs (line, attributes) ↔ other.mark <+: line := by
  by_cases h : kind.mark <+: line
  · rw [rewritten_of_mark h, reorderLine_mark_iff]
  · rw [rewritten_of_not_mark h]

theorem beginsMedium_rewritten :
    beginsMedium (rewritten kind codecs (line, attributes)) = beginsMedium line := by
  by_cases h : kind.mark <+: line
  · rw [MediaKind.beginsMedium_of_mark h,
      MediaKind.beginsMedium_of_mark ((rewritten_mark_iff kind).mpr h)]
  · rw [rewritten_of_not_mark h]

theorem rewritten_again :
    rewritten kind codecs (rewritten kind codecs (line, attributes), attributes) =
      rewritten kind codecs (line, attributes) := by
  rcases rewritten_cases kind codecs line attributes with he | ⟨order, hm, h, he⟩
  · rw [he, he]
  · have ha : preferredOrder (payloadsOf (reorderLine codecs line attributes))
        (attributes.filterMap codecName?) (attributes.filterMap retransmission?) codecs =
          some order := by
      rw [payloadsOf_reorderLine h]
      exact preferredOrder_again h
    rw [he, rewritten_of_mark ((reorderLine_mark_iff ..).mpr hm), reorderLine_of_eq_some ha,
      take_pieces_reorderLine h, reorderLine_of_eq_some h]

theorem notMem_rewritten (h : '\n' ∉ line) :
    '\n' ∉ rewritten kind codecs (line, attributes) := by
  rcases rewritten_cases kind codecs line attributes with he | ⟨order, _, ho, he⟩
  · rwa [he]
  · intro hc
    rw [he, reorderLine_of_eq_some ho] at hc
    rcases mem_joined hc with hc | ⟨field, hf, hc⟩
    · exact absurd hc (by decide)
    · exact h (subset_of_mem_pieces (mem_pieces_of_preferredOrder ho hf) hc)

end Rewritten

theorem reorderLines_cons (kind : MediaKind) (codecs : List (List Char)) (line : List Char)
    (rest : List (List Char)) :
    reorderLines kind codecs (line :: rest) =
      (if kind.mark.isPrefixOf line then reorderLine codecs line (attributesIn rest) else line) ::
        reorderLines kind codecs rest := rfl

theorem reorderLines_eq (kind : MediaKind) (codecs lines : List (List Char)) :
    reorderLines kind codecs lines = (sectioned lines).map (rewritten kind codecs) := by
  induction lines with
  | nil => rfl
  | cons line rest ih => rw [reorderLines_cons, sectioned, List.map_cons, ← ih, rewritten]

theorem length_sectioned (lines : List (List Char)) : (sectioned lines).length = lines.length := by
  induction lines with
  | nil => rfl
  | cons line rest ih => rw [sectioned, List.length_cons, List.length_cons, ih]

theorem map_fst_sectioned (lines : List (List Char)) : (sectioned lines).map (·.1) = lines := by
  induction lines with
  | nil => rfl
  | cons line rest ih => rw [sectioned, List.map_cons, ih]

theorem mem_of_mem_sectioned {lines : List (List Char)} {entry : List Char × List (List Char)}
    (h : entry ∈ sectioned lines) : entry.1 ∈ lines := by
  have hm := List.mem_map_of_mem (f := (·.1)) h
  rwa [map_fst_sectioned] at hm

section Map

variable {f : List Char × List (List Char) → List Char} {lines : List (List Char)}

theorem attributesIn_map
    (hb : ∀ e ∈ sectioned lines, beginsMedium (f e) = beginsMedium e.1)
    (hf : ∀ e ∈ sectioned lines, beginsMedium e.1 = false → f e = e.1) :
    attributesIn ((sectioned lines).map f) = attributesIn lines := by
  induction lines with
  | nil => rfl
  | cons line rest ih =>
    obtain ⟨hb1, hbr⟩ := List.forall_mem_cons.mp hb
    obtain ⟨hf1, hfr⟩ := List.forall_mem_cons.mp hf
    rw [sectioned, List.map_cons]
    cases hm : beginsMedium line with
    | true => rw [attributesIn_of_medium (hb1.trans hm), attributesIn_of_medium hm]
    | false =>
      rw [attributesIn_of_not_medium (hb1.trans hm), attributesIn_of_not_medium hm, ih hbr hfr,
        hf1 hm]

/-- A change of media lines that leaves them media lines leaves the sections as they are. -/
theorem sectioned_map (hb : ∀ e ∈ sectioned lines, beginsMedium (f e) = beginsMedium e.1)
    (hf : ∀ e ∈ sectioned lines, beginsMedium e.1 = false → f e = e.1) :
    sectioned ((sectioned lines).map f) = (sectioned lines).map fun e => (f e, e.2) := by
  induction lines with
  | nil => rfl
  | cons line rest ih =>
    obtain ⟨hb1, hbr⟩ := List.forall_mem_cons.mp hb
    obtain ⟨hf1, hfr⟩ := List.forall_mem_cons.mp hf
    rw [sectioned, List.map_cons, sectioned, attributesIn_map hbr hfr, ih hbr hfr,
      List.map_cons]

end Map

/-- An empty line is no attribute. -/
theorem reorderLine_concat_nil (codecs : List (List Char)) (line : List Char)
    (attributes : List (List Char)) :
    reorderLine codecs line (attributes ++ [[]]) = reorderLine codecs line attributes := by
  have hn : (attributes ++ [[]]).filterMap codecName? = attributes.filterMap codecName? := by
    rw [List.filterMap_append]
    exact List.append_nil _
  have hr : (attributes ++ [[]]).filterMap retransmission? =
      attributes.filterMap retransmission? := by
    rw [List.filterMap_append]
    exact List.append_nil _
  rw [reorderLine, hn, hr, reorderLine]

theorem reorderLines_concat_nil (kind : MediaKind) (codecs lines : List (List Char)) :
    reorderLines kind codecs (lines ++ [[]]) = reorderLines kind codecs lines ++ [[]] := by
  induction lines with
  | nil => cases kind <;> rfl
  | cons line rest ih =>
    have ha : reorderLine codecs line (attributesIn (rest ++ [[]])) =
        reorderLine codecs line (attributesIn rest) := by
      rcases attributesIn_append rest [[]] with he | he
      · rw [he]
        exact reorderLine_concat_nil codecs line (attributesIn rest)
      · rw [he]
    rw [List.cons_append, reorderLines_cons, ih, ha, reorderLines_cons]
    rfl

theorem length_reorderLines (kind : MediaKind) (codecs lines : List (List Char)) :
    (reorderLines kind codecs lines).length = lines.length := by
  rw [reorderLines_eq, List.length_map, length_sectioned]

theorem reorderLines_ne_nil {lines : List (List Char)} (h : lines ≠ []) (kind : MediaKind)
    (codecs : List (List Char)) : reorderLines kind codecs lines ≠ [] := by
  rw [Ne, ← List.length_eq_zero_iff, length_reorderLines, List.length_eq_zero_iff]
  exact h

/-- With an empty line after a final line feed, every line end stands between two lines. -/
theorem preferCodecChars_eq (kind : MediaKind) {codecs : List (List Char)} (hc : codecs ≠ [])
    (s : List Char) :
    preferCodecChars kind codecs s = joined lineEnd (reorderLines kind codecs (rawLines s)) := by
  obtain ⟨raws, last, h, hl, rfl⟩ := exists_raws s
  have he : ¬ codecs.isEmpty = true := fun he => hc (List.isEmpty_iff.mp he)
  have hf := endsWithLineFeed_flatMap h hl
  rw [preferCodecChars, if_neg he, sdpLines_flatMap h hl, rawLines_flatMap h hl]
  by_cases hn : last = []
  · have hb : bareLine last = [] := congrArg bareLine hn
    rw [if_pos hn, List.append_nil, hb, reorderLines_concat_nil, joined_concat, List.append_nil]
    by_cases hr : raws = []
    · have hs : ¬ endsWithLineFeed (raws.flatMap (· ++ ['\n']) ++ last) = true :=
        fun hs => (hf.mp hs).1 hr
      rw [if_neg hs, hr]
      rfl
    · have hx : reorderLines kind codecs (raws.map bareLine) ≠ [] :=
        reorderLines_ne_nil (fun he => hr (List.map_eq_nil_iff.mp he)) kind codecs
      rw [if_pos (hf.mpr ⟨hr, hn⟩), joined_append_self hx]
  · have hs : ¬ endsWithLineFeed (raws.flatMap (· ++ ['\n']) ++ last) = true :=
      fun hs => hn (hf.mp hs).2
    rw [if_neg hn, if_neg hs, List.append_nil]

/-- The attributes of a medium do not reach past the next one. -/
theorem reorderLines_append (kind : MediaKind) (codecs above : List (List Char))
    {line : List Char} (h : beginsMedium line = true) (below : List (List Char)) :
    reorderLines kind codecs (above ++ line :: below) =
      reorderLines kind codecs above ++ reorderLines kind codecs (line :: below) := by
  induction above with
  | nil => rfl
  | cons first above ih =>
    have ha : attributesIn (above ++ line :: below) = attributesIn above := by
      rcases attributesIn_append above (line :: below) with he | he
      · rw [he, attributesIn_of_medium h, List.append_nil]
      · exact he
    rw [List.cons_append, reorderLines_cons, ih, ha]
    rfl

section Texts

variable (kind : MediaKind) (codecs : List String) (sdp : String)

/-- The lines of a text as the rewriting leaves them, before they are joined again. -/
def rewrittenLines : List (List Char) :=
  reorderLines kind (codecs.map String.toList) (sdpLines sdp.toList)

theorem preferCodecs_nil : preferCodecs kind [] sdp = sdp := String.ofList_toList

theorem preferCodecs_toList : (preferCodecs kind codecs sdp).toList =
    preferCodecChars kind (codecs.map String.toList) sdp.toList := String.toList_ofList

theorem toList_preferCodecs : (preferCodecs kind codecs sdp).toList =
    if codecs = [] then sdp.toList
    else joined lineEnd (rewrittenLines kind codecs sdp) ++
      if sdp.toList.getLast? = some '\n' then lineEnd else [] := by
  by_cases hc : codecs = []
  · rw [if_pos hc, hc, preferCodecs_nil]
  · have he : ¬ (codecs.map String.toList).isEmpty = true := fun he =>
      hc (List.map_eq_nil_iff.mp (List.isEmpty_iff.mp he))
    rw [if_neg hc, preferCodecs_toList, preferCodecChars, if_neg he]
    simp only [endsWithLineFeed, decide_eq_true_eq, rewrittenLines]

end Texts

end MediaSession
