import MediaSession.Proofs.CodecRewriting
import Mathlib.Data.List.Flatten
import Mathlib.Data.List.Perm.Subperm

namespace MediaSession

/-- No payload is added, so a line does not get longer. -/
theorem rewritten_length_le (kind : MediaKind) (codecs : List (List Char)) (line : List Char)
    (attributes : List (List Char)) :
    (rewritten kind codecs (line, attributes)).length ≤ line.length := by
  rcases rewritten_cases kind codecs line attributes with he | ⟨order, _, h, he⟩
  · rw [he]
  · have hx := preferredOrder_ne_nil h
    have ha : joined [' '] ((pieces ' ' line).take 3 ++ order) ++ [' '] =
        ((pieces ' ' line).take 3).flatMap (· ++ [' ']) ++ order.flatMap (· ++ [' ']) := by
      rw [joined_append_self (List.append_ne_nil_of_right_ne_nil _ hx), List.flatMap_append]
    have hb : line ++ [' '] = ((pieces ' ' line).take 3).flatMap (· ++ [' ']) ++
        (payloadsOf line).flatMap (· ++ [' ']) := by
      rw [payloadsOf, ← List.flatMap_append, List.take_append_drop,
        ← joined_append_self (pieces_ne_nil ' ' line), joined_pieces]
    obtain ⟨listed, hp, hs⟩ := List.subperm_of_subset (preferredOrder_nodup h) fun _ hm =>
      (mem_preferredOrder h).mp hm
    have hp' := (hp.flatMap_right (· ++ [' '])).length_eq
    have hs' := (hs.flatMap (· ++ [' '])).length_le
    have ha' := congrArg List.length ha
    have hb' := congrArg List.length hb
    simp only [List.length_append, List.length_singleton] at ha' hb'
    rw [he, reorderLine_of_eq_some h]
    omega

section Twice

variable {kind other : MediaKind} {codecs others : List (List Char)} {line : List Char}
  {attributes : List (List Char)}

/-- A line that has lost a carriage return does not get it back. -/
theorem rewritten_bareLine_iff :
    rewritten kind codecs (bareLine (rewritten kind codecs (line, attributes)), attributes) =
        rewritten kind codecs (line, attributes) ↔
      bareLine (rewritten kind codecs (line, attributes)) =
        rewritten kind codecs (line, attributes) := by
  constructor
  · intro h
    have hl := rewritten_length_le kind codecs
      (bareLine (rewritten kind codecs (line, attributes))) attributes
    rw [h] at hl
    have hp := bareLine_isPrefix (rewritten kind codecs (line, attributes))
    exact hp.eq_of_length (Nat.le_antisymm hp.length_le hl)
  · intro h
    rw [h]
    exact rewritten_again

theorem reorderLines_nil (kind : MediaKind) (lines : List (List Char)) :
    reorderLines kind [] lines = lines := by
  induction lines with
  | nil => rfl
  | cons line rest ih =>
    have hr : ∀ attributes, reorderLine [] line attributes = line := fun _ =>
      reorderLine_of_eq_none rfl
    rw [reorderLines, ih, hr, ite_self]

theorem preferCodecChars_nil (kind : MediaKind) (s : List Char) : preferCodecChars kind [] s = s :=
  rfl

theorem notMem_of_mem_reorderLines {s after : List Char}
    (h : after ∈ reorderLines kind codecs (rawLines s)) : '\n' ∉ after := by
  rw [reorderLines_eq] at h
  obtain ⟨entry, he, rfl⟩ := List.mem_map.mp h
  exact notMem_rewritten (notMem_of_mem_rawLines (mem_of_mem_sectioned he))

theorem rawLines_preferCodecChars (kind : MediaKind) (codecs : List (List Char)) (s : List Char) :
    rawLines (preferCodecChars kind codecs s) =
      (reorderLines kind codecs (rawLines s)).map bareLine := by
  by_cases hc : codecs = []
  · rw [hc, preferCodecChars_nil, reorderLines_nil]
    have hi : (rawLines s).map bareLine = (rawLines s).map id :=
      List.map_congr_left fun _ h => bareLine_of_mem_rawLines h
    rw [hi, List.map_id]
  · have hn := reorderLines_ne_nil (rawLines_ne_nil s) kind codecs
    rw [preferCodecChars_eq kind hc, rawLines_joined (fun _ h => notMem_of_mem_reorderLines h) hn]

/-- A second rewriting finds the sections that the first one found. -/
theorem reorderLines_twice (kind other : MediaKind) (codecs others : List (List Char))
    (s : List Char) :
    reorderLines other others ((reorderLines kind codecs (rawLines s)).map bareLine) =
      (sectioned (rawLines s)).map fun entry =>
        rewritten other others (bareLine (rewritten kind codecs entry), entry.2) := by
  have hb : ∀ entry ∈ sectioned (rawLines s),
      (beginsMedium ∘ bareLine ∘ rewritten kind codecs) entry = beginsMedium entry.1 := by
    intro entry _
    exact (beginsMedium_bareLine _).trans beginsMedium_rewritten
  have hf : ∀ entry ∈ sectioned (rawLines s), beginsMedium entry.1 = false →
      (bareLine ∘ rewritten kind codecs) entry = entry.1 := by
    intro entry he hm
    have hr : rewritten kind codecs entry = entry.1 := rewritten_of_not_medium hm
    rw [Function.comp_apply, hr]
    exact bareLine_of_mem_rawLines (mem_of_mem_sectioned he)
  rw [reorderLines_eq kind, List.map_map, reorderLines_eq other, sectioned_map hb hf, List.map_map]
  rfl

theorem preferCodecChars_twice (ho : others ≠ []) (s : List Char) :
    preferCodecChars other others (preferCodecChars kind codecs s) =
      joined lineEnd ((sectioned (rawLines s)).map fun entry =>
        rewritten other others (bareLine (rewritten kind codecs entry), entry.2)) := by
  rw [preferCodecChars_eq other ho, rawLines_preferCodecChars, reorderLines_twice]

theorem notMem_twice {s : List Char} {entry : List Char × List (List Char)}
    (h : entry ∈ sectioned (rawLines s)) :
    '\n' ∉ rewritten other others (bareLine (rewritten kind codecs entry), entry.2) := by
  refine notMem_rewritten fun hc => ?_
  have hl := notMem_of_mem_rawLines (mem_of_mem_sectioned h)
  exact notMem_rewritten hl ((bareLine_isPrefix _).subset hc)

theorem joined_sectioned_iff {lines : List (List Char)}
    {f g : List Char × List (List Char) → List Char}
    (hf : ∀ entry ∈ sectioned lines, '\n' ∉ f entry)
    (hg : ∀ entry ∈ sectioned lines, '\n' ∉ g entry) :
    joined lineEnd ((sectioned lines).map f) = joined lineEnd ((sectioned lines).map g) ↔
      ∀ entry ∈ sectioned lines, f entry = g entry := by
  rw [← List.map_inj_left]
  refine ⟨fun hj => ?_, fun he => by rw [he]⟩
  exact joined_lineEnd_inj (List.forall_mem_map.mpr hf) (List.forall_mem_map.mpr hg)
    (by rw [List.length_map, List.length_map]) hj

end Twice

section Texts

variable (kind : MediaKind) (codecs : List String) (sdp : String)

/-- No line has got a payload to its end that ends in a carriage return. -/
def KeepsLineEnds : Prop :=
  ∀ line ∈ rewrittenLines kind codecs sdp, line.getLast? ≠ some '\r'

instance : Decidable (KeepsLineEnds kind codecs sdp) :=
  inferInstanceAs (Decidable (∀ line ∈ _, _))

/-- No payload of a media line of this kind ends in a carriage return. -/
def PlainPayloads : Prop :=
  ∀ line ∈ sdpLines sdp.toList, kind.mark <+: line →
    ∀ payload ∈ payloadsOf line, payload.getLast? ≠ some '\r'

instance : Decidable (PlainPayloads kind sdp) :=
  inferInstanceAs (Decidable (∀ line ∈ _, _))

theorem keepsLineEnds_iff : KeepsLineEnds kind codecs sdp ↔
    ∀ entry ∈ sectioned (rawLines sdp.toList),
      bareLine (rewritten kind (codecs.map String.toList) entry) =
        rewritten kind (codecs.map String.toList) entry := by
  have hr : KeepsLineEnds kind codecs sdp ↔
      ∀ line ∈ reorderLines kind (codecs.map String.toList) (rawLines sdp.toList),
        line.getLast? ≠ some '\r' := by
    rcases rawLines_eq sdp.toList with he | he
    · rw [he]
      rfl
    · rw [he, reorderLines_concat_nil, List.forall_mem_append]
      exact ⟨fun h => ⟨h, by simp⟩, And.left⟩
  rw [hr, reorderLines_eq, List.forall_mem_map]
  simp only [bareLine_eq_self_iff]

end Texts

theorem PlainPayloads.keepsLineEnds {kind : MediaKind} {sdp : String} (h : PlainPayloads kind sdp)
    (codecs : List String) : KeepsLineEnds kind codecs sdp := by
  intro after ha
  rw [rewrittenLines, reorderLines_eq] at ha
  obtain ⟨entry, he, rfl⟩ := List.mem_map.mp ha
  obtain ⟨line, attributes⟩ := entry
  have hs : line ∈ sdpLines sdp.toList := mem_of_mem_sectioned he
  have hl : line.getLast? ≠ some '\r' := bareLine_eq_self_iff.mp (bareLine_of_mem_sdpLines hs)
  rcases rewritten_cases kind (codecs.map String.toList) line attributes with
    hr | ⟨order, hm, ho, hr⟩
  · rwa [hr]
  · rcases List.eq_nil_or_concat' order with hn | ⟨front, last, rfl⟩
    · exact absurd hn (preferredOrder_ne_nil ho)
    · have hp : last ∈ payloadsOf line := (mem_preferredOrder ho).mp List.mem_concat_self
      rw [hr, reorderLine_of_eq_some ho, ← List.append_assoc]
      exact getLast?_joined_ne (by decide) _ (h line hs hm last hp)

theorem preferCodecs_again_iff (kind : MediaKind) (codecs : List String) (sdp : String) :
    preferCodecs kind codecs (preferCodecs kind codecs sdp) = preferCodecs kind codecs sdp ↔
      codecs = [] ∨ KeepsLineEnds kind codecs sdp := by
  by_cases hc : codecs = []
  · rw [hc, preferCodecs_nil, preferCodecs_nil]
    exact ⟨fun _ => .inl rfl, fun _ => rfl⟩
  · have hc' : codecs.map String.toList ≠ [] := fun he => hc (List.map_eq_nil_iff.mp he)
    have hl : ∀ entry ∈ sectioned (rawLines sdp.toList),
        '\n' ∉ rewritten kind (codecs.map String.toList) entry := fun entry he =>
      notMem_rewritten (notMem_of_mem_rawLines (mem_of_mem_sectioned he))
    rw [or_iff_right hc, keepsLineEnds_iff, ← String.toList_inj, preferCodecs_toList,
      preferCodecs_toList, preferCodecChars_twice hc', preferCodecChars_eq kind hc',
      reorderLines_eq, joined_sectioned_iff (fun _ he => notMem_twice he) hl]
    exact forall₂_congr fun _ _ => rewritten_bareLine_iff

/--
Rewriting twice for the same codecs is rewriting once, unless a payload that ends in a carriage
return has come to the end of its line, where the second reading takes that for a line end.
-/
theorem preferCodecs_again (kind : MediaKind) (codecs : List String) (sdp : String) :
    (preferCodecs kind codecs (preferCodecs kind codecs sdp) = preferCodecs kind codecs sdp ↔
      codecs = [] ∨ KeepsLineEnds kind codecs sdp) ∧
    (PlainPayloads kind sdp →
      preferCodecs kind codecs (preferCodecs kind codecs sdp) = preferCodecs kind codecs sdp) :=
  ⟨preferCodecs_again_iff kind codecs sdp,
    fun h => (preferCodecs_again_iff kind codecs sdp).mpr (.inr (h.keepsLineEnds codecs))⟩

theorem doubledPayload_again : PlainPayloads .video doubledPayload ∧
    preferCodecs .video ["VP9"] (preferCodecs .video ["VP9"] doubledPayload) =
      preferCodecs .video ["VP9"] doubledPayload :=
  have h : PlainPayloads .video doubledPayload := by decide
  ⟨h, (preferCodecs_again .video ["VP9"] doubledPayload).2 h⟩

/-- A payload with a carriage return, which the codec of the other one brings to the end. -/
def strayReturn : String := "m=video 9 X 96\r 97\r\na=rtpmap:97 VP8/90000\r\n"

theorem strayReturn_lost :
    preferCodecs .video ["VP8"] strayReturn =
        "m=video 9 X 97 96\r\r\na=rtpmap:97 VP8/90000\r\n" ∧
      preferCodecs .video ["VP8"] (preferCodecs .video ["VP8"] strayReturn) ≠
        preferCodecs .video ["VP8"] strayReturn := by decide

end MediaSession
