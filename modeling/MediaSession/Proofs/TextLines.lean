import MediaSession.Sdp.CodecPreference
import Mathlib.Data.List.DropRight

namespace MediaSession

theorem pieces_eq_splitOn (sep : Char) (s : List Char) : pieces sep s = s.splitOn sep := by
  induction s with
  | nil => rfl
  | cons c rest ih =>
    rw [pieces, ih, List.splitOn_cons_eq_if_modifyHead]
    by_cases hc : c = sep
    · rw [if_pos hc, if_pos (beq_iff_eq.mpr hc)]
    · rw [if_neg hc, if_neg fun h => hc (beq_iff_eq.mp h)]
      cases hs : rest.splitOn sep with
      | nil => exact absurd hs (List.splitOn_ne_nil sep rest)
      | cons piece more => rfl

theorem joined_eq_intercalate (sep : List Char) (parts : List (List Char)) :
    joined sep parts = sep.intercalate parts := by
  induction parts with
  | nil => rfl
  | cons part parts ih =>
    cases parts with
    | nil => exact List.intercalate_singleton.symm
    | cons next parts =>
      rw [List.intercalate_cons_cons, ← ih]
      rfl

theorem pieces_of_notMem {sep : Char} {s : List Char} (h : sep ∉ s) : pieces sep s = [s] := by
  rw [pieces_eq_splitOn]
  exact List.splitOn_eq_singleton h

theorem pieces_append_cons {sep : Char} {s : List Char} (h : sep ∉ s) (rest : List Char) :
    pieces sep (s ++ sep :: rest) = s :: pieces sep rest := by
  rw [pieces_eq_splitOn, pieces_eq_splitOn]
  exact List.splitOn_append_cons_self_of_not_mem h rest

theorem pieces_joined {sep : Char} {parts : List (List Char)} (h : ∀ part ∈ parts, sep ∉ part)
    (hn : parts ≠ []) : pieces sep (joined [sep] parts) = parts := by
  rw [pieces_eq_splitOn, joined_eq_intercalate]
  exact List.splitOn_intercalate sep h hn

theorem notMem_of_mem_pieces {sep : Char} {s piece : List Char} (h : piece ∈ pieces sep s) :
    sep ∉ piece := by
  induction s generalizing piece with
  | nil =>
    obtain rfl : piece = [] := List.mem_singleton.mp h
    exact List.not_mem_nil
  | cons c rest ih =>
    rw [pieces] at h
    split at h
    next hc =>
      rcases List.mem_cons.mp h with rfl | hm
      · exact List.not_mem_nil
      · exact ih hm
    next hc =>
      cases hp : pieces sep rest with
      | nil => exact absurd hp (pieces_ne_nil sep rest)
      | cons first more =>
        rw [hp] at h ih
        rcases List.mem_cons.mp h with rfl | hm
        · have hf := ih List.mem_cons_self
          exact fun hs => (List.mem_cons.mp hs).elim (fun e => hc e.symm) hf
        · exact ih (List.mem_cons_of_mem first hm)

/-- Every part but the last is followed by the separator. -/
theorem joined_concat (sep : List Char) (parts : List (List Char)) (last : List Char) :
    joined sep (parts ++ [last]) = parts.flatMap (· ++ sep) ++ last := by
  induction parts with
  | nil => rfl
  | cons part parts ih =>
    obtain ⟨next, more, hn⟩ := List.exists_cons_of_ne_nil (l := parts ++ [last]) (by simp)
    rw [List.cons_append, hn, List.flatMap_cons, List.append_assoc, ← ih, hn]
    rfl

theorem joined_append_self {parts : List (List Char)} (h : parts ≠ []) (sep : List Char) :
    joined sep parts ++ sep = parts.flatMap (· ++ sep) := by
  rcases List.eq_nil_or_concat' parts with rfl | ⟨front, last, rfl⟩
  · exact absurd rfl h
  · rw [joined_concat, List.flatMap_append, List.append_assoc, List.flatMap_singleton]

theorem getLast?_joined_ne {c sep : Char} (hc : c ≠ sep) (front : List (List Char))
    {last : List Char} (hl : last.getLast? ≠ some c) :
    (joined [sep] (front ++ [last])).getLast? ≠ some c := by
  rw [joined_concat]
  rcases List.eq_nil_or_concat' last with rfl | ⟨before, d, rfl⟩
  · rw [List.append_nil]
    rcases List.eq_nil_or_concat' front with rfl | ⟨others, part, rfl⟩
    · simp
    · rw [List.flatMap_append, List.flatMap_singleton, ← List.append_assoc, List.getLast?_concat]
      exact fun h => hc (Option.some.inj h).symm
  · rw [List.getLast?_concat] at hl
    rwa [← List.append_assoc, List.getLast?_concat]

theorem mem_joined {c : Char} {sep : List Char} {parts : List (List Char)}
    (h : c ∈ joined sep parts) : c ∈ sep ∨ ∃ part ∈ parts, c ∈ part := by
  rcases List.eq_nil_or_concat' parts with rfl | ⟨front, last, rfl⟩
  · exact absurd h List.not_mem_nil
  · rw [joined_concat] at h
    rcases List.mem_append.mp h with hf | hl
    · obtain ⟨part, hp, hc⟩ := List.mem_flatMap.mp hf
      rcases List.mem_append.mp hc with hc | hc
      · exact .inr ⟨part, List.mem_append_left _ hp, hc⟩
      · exact .inl hc
    · exact .inr ⟨last, List.mem_concat_self, hl⟩

theorem subset_joined {sep part : List Char} {parts : List (List Char)} (h : part ∈ parts) :
    part ⊆ joined sep parts := by
  intro c hc
  rcases List.eq_nil_or_concat' parts with rfl | ⟨front, last, rfl⟩
  · exact absurd h List.not_mem_nil
  · rw [joined_concat]
    rcases List.mem_append.mp h with hf | hl
    · exact List.mem_append_left _ (List.mem_flatMap.mpr ⟨part, hf, List.mem_append_left _ hc⟩)
    · obtain rfl := List.mem_singleton.mp hl
      exact List.mem_append_right _ hc

theorem subset_of_mem_pieces {sep : Char} {s piece : List Char} (h : piece ∈ pieces sep s) :
    piece ⊆ s := by
  have hs : piece ⊆ joined [sep] (pieces sep s) := subset_joined h
  rwa [joined_pieces] at hs

/-- A line without the carriage returns at its end. -/
def bareLine (line : List Char) : List Char := line.rdropWhile (· = '\r')

theorem bareLine_append_return (line : List Char) : bareLine (line ++ ['\r']) = bareLine line :=
  List.rdropWhile_concat_pos _ _ _ rfl

theorem bareLine_eq_self_iff {line : List Char} :
    bareLine line = line ↔ line.getLast? ≠ some '\r' := by
  rw [bareLine, List.rdropWhile_eq_self_iff]
  rcases List.eq_nil_or_concat' line with rfl | ⟨front, c, rfl⟩
  · simp
  · simp

theorem bareLine_bareLine (line : List Char) : bareLine (bareLine line) = bareLine line :=
  List.rdropWhile_idempotent _ _

theorem bareLine_isPrefix (line : List Char) : bareLine line <+: line :=
  List.rdropWhile_prefix _ line

/-- Taking carriage returns off the end does not reach into a head that ends otherwise. -/
theorem isPrefix_bareLine_iff {head line : List Char} (hh : head.getLast? ≠ some '\r') :
    head <+: bareLine line ↔ head <+: line := by
  refine ⟨fun h => h.trans (bareLine_isPrefix line), fun h => ?_⟩
  obtain ⟨rest, rfl⟩ := h
  induction rest using List.reverseRecOn with
  | nil =>
    have bare : bareLine (head ++ []) = head := by
      rw [List.append_nil, bareLine_eq_self_iff.mpr hh]
    exact ⟨[], (List.append_nil head).trans bare.symm⟩
  | append_singleton rest c ih =>
    rw [← List.append_assoc]
    by_cases hc : c = '\r'
    · rw [hc, bareLine_append_return]
      exact ih
    · rw [bareLine_eq_self_iff.mpr (by simpa using hc), List.append_assoc]
      exact List.prefix_append head _

/-- The lines of a text, with an empty one after a final line feed. -/
def rawLines (s : List Char) : List (List Char) := (pieces '\n' s).map bareLine

theorem rawLines_ne_nil (s : List Char) : rawLines s ≠ [] := by
  rw [rawLines, Ne, List.map_eq_nil_iff]
  exact pieces_ne_nil '\n' s

theorem bareLine_of_mem_rawLines {s line : List Char} (h : line ∈ rawLines s) :
    bareLine line = line := by
  obtain ⟨piece, _, rfl⟩ := List.mem_map.mp h
  exact bareLine_bareLine piece

theorem bareLine_of_mem_sdpLines {s line : List Char} (h : line ∈ sdpLines s) :
    bareLine line = line := by
  obtain ⟨piece, _, rfl⟩ := List.mem_map.mp h
  exact bareLine_bareLine piece

theorem notMem_of_mem_rawLines {s line : List Char} (h : line ∈ rawLines s) : '\n' ∉ line := by
  obtain ⟨piece, hp, rfl⟩ := List.mem_map.mp h
  exact fun hc => notMem_of_mem_pieces hp ((bareLine_isPrefix piece).subset hc)

section Raws

variable {raws : List (List Char)} {last : List Char} (h : ∀ raw ∈ raws, '\n' ∉ raw)
  (hl : '\n' ∉ last)

include h hl

theorem pieces_flatMap : pieces '\n' (raws.flatMap (· ++ ['\n']) ++ last) = raws ++ [last] := by
  rw [← joined_concat, pieces_joined]
  · intro part hp
    rcases List.mem_append.mp hp with hp | hp
    · exact h part hp
    · rwa [List.mem_singleton.mp hp]
  · exact List.append_ne_nil_of_right_ne_nil raws (List.cons_ne_nil last [])

theorem rawLines_flatMap :
    rawLines (raws.flatMap (· ++ ['\n']) ++ last) = raws.map bareLine ++ [bareLine last] := by
  rw [rawLines, pieces_flatMap h hl, List.map_append, List.map_singleton]

theorem sdpLines_flatMap : sdpLines (raws.flatMap (· ++ ['\n']) ++ last) =
    raws.map bareLine ++ if last = [] then [] else [bareLine last] := by
  rw [sdpLines, pieces_flatMap h hl, List.getLast?_concat]
  by_cases he : last = []
  · rw [if_pos he, if_pos (congrArg some he), List.dropLast_concat, List.append_nil]
    rfl
  · rw [if_neg he, if_neg fun hs => he (Option.some.inj hs), List.map_append]
    rfl

theorem endsWithLineFeed_flatMap :
    endsWithLineFeed (raws.flatMap (· ++ ['\n']) ++ last) = true ↔ raws ≠ [] ∧ last = [] := by
  rw [endsWithLineFeed, decide_eq_true_iff]
  rcases List.eq_nil_or_concat' last with rfl | ⟨front, c, rfl⟩
  · rcases List.eq_nil_or_concat' raws with rfl | ⟨others, raw, rfl⟩
    · simp
    · simp
  · have hc : c ≠ '\n' := fun hc => hl (hc ▸ List.mem_concat_self)
    rw [← List.append_assoc, List.getLast?_concat, Option.some.injEq]
    simp [hc]

end Raws

theorem exists_raws (s : List Char) :
    ∃ (raws : List (List Char)) (last : List Char), (∀ raw ∈ raws, '\n' ∉ raw) ∧ '\n' ∉ last ∧
      raws.flatMap (· ++ ['\n']) ++ last = s := by
  rcases List.eq_nil_or_concat' (pieces '\n' s) with hn | ⟨raws, last, hp⟩
  · exact absurd hn (pieces_ne_nil '\n' s)
  · have hm : ∀ raw ∈ raws ++ [last], '\n' ∉ raw := hp ▸ fun raw hr => notMem_of_mem_pieces hr
    refine ⟨raws, last, fun raw hr => hm raw (List.mem_append_left _ hr),
      hm last List.mem_concat_self, ?_⟩
    rw [← joined_concat, ← hp, joined_pieces]

theorem rawLines_eq (s : List Char) :
    rawLines s = sdpLines s ∨ rawLines s = sdpLines s ++ [[]] := by
  obtain ⟨raws, last, h, hl, rfl⟩ := exists_raws s
  rw [rawLines_flatMap h hl, sdpLines_flatMap h hl]
  by_cases hn : last = []
  · rw [if_pos hn, List.append_nil, hn]
    exact .inr rfl
  · rw [if_neg hn]
    exact .inl rfl

/-- The lines of a text: what its line feeds end, and what follows the last one unless empty. -/
def HasLines (s : List Char) (lines : List (List Char)) : Prop :=
  ∃ (raws : List (List Char)) (last : List Char), (∀ raw ∈ raws, '\n' ∉ raw) ∧ '\n' ∉ last ∧
    raws.flatMap (· ++ ['\n']) ++ last = s ∧
    lines = raws.map bareLine ++ if last = [] then [] else [bareLine last]

theorem hasLines_sdpLines (s : List Char) : HasLines s (sdpLines s) := by
  obtain ⟨raws, last, h, hl, rfl⟩ := exists_raws s
  exact ⟨raws, last, h, hl, rfl, sdpLines_flatMap h hl⟩

theorem joined_lineEnd_cons (line next : List Char) (lines : List (List Char)) :
    joined lineEnd (line :: next :: lines) =
      (line ++ ['\r']) ++ '\n' :: joined lineEnd (next :: lines) := by
  simp [joined, lineEnd]

theorem pieces_joined_lineEnd {line : List Char} (h : '\n' ∉ line) (next : List Char)
    (lines : List (List Char)) :
    pieces '\n' (joined lineEnd (line :: next :: lines)) =
      (line ++ ['\r']) :: pieces '\n' (joined lineEnd (next :: lines)) := by
  rw [joined_lineEnd_cons, pieces_append_cons]
  simpa using h

/-- What was joined by line ends is read back up to the carriage returns at the ends of lines. -/
theorem rawLines_joined {lines : List (List Char)} (h : ∀ line ∈ lines, '\n' ∉ line)
    (hn : lines ≠ []) : rawLines (joined lineEnd lines) = lines.map bareLine := by
  induction lines with
  | nil => exact absurd rfl hn
  | cons line lines ih =>
    obtain ⟨hl, hr⟩ := List.forall_mem_cons.mp h
    cases lines with
    | nil => rw [rawLines, joined, pieces_of_notMem hl]
    | cons next lines =>
      rw [rawLines, pieces_joined_lineEnd hl, List.map_cons, bareLine_append_return,
        List.map_cons, ← ih hr (List.cons_ne_nil _ _), rawLines]

theorem joined_lineEnd_inj {lines others : List (List Char)}
    (h : ∀ line ∈ lines, '\n' ∉ line) (ho : ∀ line ∈ others, '\n' ∉ line)
    (hl : lines.length = others.length) (hj : joined lineEnd lines = joined lineEnd others) :
    lines = others := by
  induction lines generalizing others with
  | nil => exact (List.length_eq_zero_iff.mp hl.symm).symm
  | cons line lines ih =>
    obtain ⟨other, others, rfl⟩ := List.exists_cons_of_length_eq_add_one hl.symm
    obtain ⟨h1, hr⟩ := List.forall_mem_cons.mp h
    obtain ⟨h2, hs⟩ := List.forall_mem_cons.mp ho
    have hl' : lines.length = others.length := Nat.succ.inj hl
    cases lines with
    | nil =>
      obtain rfl := List.length_eq_zero_iff.mp hl'.symm
      exact congrArg (· :: []) hj
    | cons next lines =>
      obtain ⟨next', others, rfl⟩ := List.exists_cons_of_length_eq_add_one hl'.symm
      have hp := congrArg (pieces '\n') hj
      rw [pieces_joined_lineEnd h1, pieces_joined_lineEnd h2] at hp
      obtain ⟨he, ht⟩ := List.cons.inj hp
      have ht' := congrArg (joined ['\n']) ht
      rw [joined_pieces, joined_pieces] at ht'
      rw [List.append_cancel_right he, ih hr hs hl' ht']

end MediaSession
