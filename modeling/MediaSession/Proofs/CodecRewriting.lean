import MediaSession.Proofs.MediaSections
import Mathlib.Data.List.Forall2
import Mathlib.Data.List.Perm.Lattice

namespace MediaSession

/-- What a rewriting for `kind` may make of a line. -/
structure Reordered (kind : MediaKind) (line after : List Char) : Prop where
  other : ¬ kind.mark <+: line → after = line
  short : (pieces ' ' line).length ≤ 3 → after = line
  payloads : after = line ∨ (pieces ' ' after).take 3 = (pieces ' ' line).take 3 ∧
    (payloadsOf after).Nodup ∧ ∀ payload, payload ∈ payloadsOf after ↔ payload ∈ payloadsOf line
  permutes : (payloadsOf line).Nodup → (payloadsOf after).Perm (payloadsOf line)

theorem Reordered.refl (kind : MediaKind) (line : List Char) : Reordered kind line line :=
  ⟨fun _ => rfl, fun _ => rfl, .inl rfl, fun _ => .rfl⟩

theorem rewritten_reordered (kind : MediaKind) (codecs : List (List Char)) (line : List Char)
    (attributes : List (List Char)) :
    Reordered kind line (rewritten kind codecs (line, attributes)) := by
  rcases rewritten_cases kind codecs line attributes with he | ⟨order, hm, h, he⟩
  · rw [he]
    exact .refl kind line
  · have hl := length_pieces_of_preferredOrder h
    have hn := preferredOrder_nodup h
    rw [he]
    refine ⟨fun ho => absurd hm ho, fun hs => absurd hl (Nat.not_lt.mpr hs),
      .inr ⟨take_pieces_reorderLine h, ?_, ?_⟩, fun hd => ?_⟩
    · rwa [payloadsOf_reorderLine h]
    · rw [payloadsOf_reorderLine h]
      exact fun _ => mem_preferredOrder h
    · rw [payloadsOf_reorderLine h]
      exact (List.perm_ext_iff_of_nodup hn hd).mpr fun _ => mem_preferredOrder h

theorem reorderLines_reordered (kind : MediaKind) (codecs lines : List (List Char)) :
    List.Forall₂ (Reordered kind) lines (reorderLines kind codecs lines) := by
  have hs : List.Forall₂ (Reordered kind) ((sectioned lines).map (·.1))
      ((sectioned lines).map (rewritten kind codecs)) := by
    rw [List.forall₂_map_left_iff, List.forall₂_map_right_iff, List.forall₂_same]
    exact fun entry _ => rewritten_reordered kind codecs entry.1 entry.2
  rwa [map_fst_sectioned, ← reorderLines_eq] at hs

/--
The text is taken apart into its lines and joined again, with a line end at the end exactly if it
ended in a line feed. Only media lines of this kind with payloads are changed, and of them only the
order of their payloads, each of which then stands there once.
-/
theorem preferCodecs_reorders (kind : MediaKind) {codecs : List String} (hc : codecs ≠ [])
    (sdp : String) :
    ∃ before after, HasLines sdp.toList before ∧ List.Forall₂ (Reordered kind) before after ∧
      (preferCodecs kind codecs sdp).toList = joined lineEnd after ++
        if sdp.toList.getLast? = some '\n' then lineEnd else [] := by
  refine ⟨sdpLines sdp.toList, rewrittenLines kind codecs sdp, hasLines_sdpLines sdp.toList,
    reorderLines_reordered .., ?_⟩
  rw [toList_preferCodecs, if_neg hc]

/-- A retransmission named before its codec, a doubled payload and two kinds of line ends. -/
def doubledPayload : String :=
  "v=0\nm=audio 9 X 0 8\r\nm=video 9 X 97 96 98 96\r\na=fmtp:97 apt=98\r\na=rtpmap:98 VP9/90000"

theorem doubledPayload_reorders :
    ["VP9"] ≠ [] ∧ preferCodecs .video ["VP9"] doubledPayload =
      "v=0\r\nm=audio 9 X 0 8\r\nm=video 9 X 98 97 96\r\na=fmtp:97 apt=98\r\na=rtpmap:98 VP9/90000" ∧
    ∃ before after, HasLines doubledPayload.toList before ∧
      List.Forall₂ (Reordered .video) before after ∧
      (preferCodecs .video ["VP9"] doubledPayload).toList = joined lineEnd after ++
        if doubledPayload.toList.getLast? = some '\n' then lineEnd else [] :=
  have hc : ["VP9"] ≠ [] := by decide
  ⟨hc, by decide, preferCodecs_reorders .video hc doubledPayload⟩

end MediaSession
