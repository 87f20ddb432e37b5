import MediaSession.Proofs.RepeatedRewriting

namespace MediaSession

section Independent

variable {kind other : MediaKind} {codecs others : List (List Char)}
  {entry : List Char × List (List Char)}

/-- Rewriting for another kind does no more to a line that was rewritten than to bare it. -/
theorem rewritten_other_of_mark (hk : kind ≠ other) (hm : kind.mark <+: entry.1) :
    rewritten other others (bareLine (rewritten kind codecs entry), entry.2) =
      bareLine (rewritten kind codecs entry) := by
  refine rewritten_of_not_mark fun ho => hk ?_
  rw [MediaKind.mark_isPrefix_bareLine] at ho
  exact MediaKind.eq_of_mark hm ((rewritten_mark_iff other).mp ho)

theorem rewritten_other_of_not_mark (hb : bareLine entry.1 = entry.1)
    (hm : ¬ kind.mark <+: entry.1) :
    rewritten other others (bareLine (rewritten kind codecs entry), entry.2) =
      rewritten other others entry := by
  have hr : rewritten kind codecs entry = entry.1 := rewritten_of_not_mark hm
  rw [hr, hb]

theorem rewritten_comm_iff (hk : kind ≠ other) (hb : bareLine entry.1 = entry.1) :
    rewritten other others (bareLine (rewritten kind codecs entry), entry.2) =
        rewritten kind codecs (bareLine (rewritten other others entry), entry.2) ↔
      bareLine (rewritten kind codecs entry) = rewritten kind codecs entry ∧
        bareLine (rewritten other others entry) = rewritten other others entry := by
  have hn {k : MediaKind} {c : List (List Char)} (h : ¬ k.mark <+: entry.1) :
      rewritten k c entry = entry.1 := rewritten_of_not_mark h
  by_cases hm : kind.mark <+: entry.1
  · have ho : ¬ other.mark <+: entry.1 := fun ho => hk (MediaKind.eq_of_mark hm ho)
    rw [rewritten_other_of_mark hk hm, rewritten_other_of_not_mark hb ho, hn ho]
    exact (and_iff_left hb).symm
  · rw [rewritten_other_of_not_mark hb hm, hn hm]
    by_cases ho : other.mark <+: entry.1
    · rw [rewritten_other_of_mark (Ne.symm hk) ho, eq_comm]
      exact (and_iff_right hb).symm
    · rw [hn ho, hb, hn hm]
      exact iff_of_true rfl ⟨rfl, rfl⟩

end Independent

section MediaLines

/-- The media lines of one kind, without their ends. -/
def mediaLines (kind : MediaKind) (sdp : String) : List (List Char) :=
  (sdpLines sdp.toList).filter kind.mark.isPrefixOf

variable {kind other : MediaKind}

theorem mediaLines_eq (kind : MediaKind) (sdp : String) :
    mediaLines kind sdp = (rawLines sdp.toList).filter kind.mark.isPrefixOf := by
  rcases rawLines_eq sdp.toList with he | he
  · rw [he]
    rfl
  · have hn : [[]].filter kind.mark.isPrefixOf = [] := by cases kind <;> rfl
    rw [he, List.filter_append, hn, List.append_nil]
    rfl

theorem filter_mark_map {entries : List (List Char × List (List Char))}
    {f g : List Char × List (List Char) → List Char}
    (hf : ∀ entry ∈ entries, kind.mark <+: f entry ↔ kind.mark <+: entry.1)
    (hg : ∀ entry ∈ entries, kind.mark <+: g entry ↔ kind.mark <+: entry.1)
    (h : ∀ entry ∈ entries, kind.mark <+: entry.1 → f entry = g entry) :
    (entries.map f).filter kind.mark.isPrefixOf = (entries.map g).filter kind.mark.isPrefixOf := by
  induction entries with
  | nil => rfl
  | cons entry entries ih =>
    obtain ⟨hf1, hfr⟩ := List.forall_mem_cons.mp hf
    obtain ⟨hg1, hgr⟩ := List.forall_mem_cons.mp hg
    obtain ⟨h1, hr⟩ := List.forall_mem_cons.mp h
    rw [List.map_cons, List.map_cons]
    by_cases hm : kind.mark <+: entry.1
    · rw [List.filter_cons_of_pos (List.isPrefixOf_iff_prefix.mpr (hf1.mpr hm)),
        List.filter_cons_of_pos (List.isPrefixOf_iff_prefix.mpr (hg1.mpr hm)), ih hfr hgr hr, h1 hm]
    · rw [List.filter_cons_of_neg fun hp => hm (hf1.mp (List.isPrefixOf_iff_prefix.mp hp)),
        List.filter_cons_of_neg fun hp => hm (hg1.mp (List.isPrefixOf_iff_prefix.mp hp)),
        ih hfr hgr hr]

theorem mark_bareLine_rewritten (kind other : MediaKind) (others : List (List Char))
    (entry : List Char × List (List Char)) :
    kind.mark <+: bareLine (rewritten other others entry) ↔ kind.mark <+: entry.1 :=
  (kind.mark_isPrefix_bareLine _).trans (rewritten_mark_iff kind)

theorem mediaLines_preferCodecs (kind other : MediaKind) (codecs : List String) (sdp : String) :
    mediaLines kind (preferCodecs other codecs sdp) =
      ((sectioned (rawLines sdp.toList)).map fun entry =>
        bareLine (rewritten other (codecs.map String.toList) entry)).filter
          kind.mark.isPrefixOf := by
  rw [mediaLines_eq, preferCodecs_toList, rawLines_preferCodecChars, reorderLines_eq, List.map_map]
  rfl

/-- Rewriting for another kind leaves the media lines of this kind as they are. -/
theorem mediaLines_other (hk : kind ≠ other) (codecs : List String) (sdp : String) :
    mediaLines kind (preferCodecs other codecs sdp) = mediaLines kind sdp := by
  rw [mediaLines_preferCodecs, mediaLines_eq]
  nth_rewrite 2 [← map_fst_sectioned (rawLines sdp.toList)]
  refine filter_mark_map (fun entry _ => mark_bareLine_rewritten kind other _ entry)
    (fun _ _ => .rfl) fun entry he hm => ?_
  have hr : rewritten other (codecs.map String.toList) entry = entry.1 :=
    rewritten_of_not_mark fun ho => hk (MediaKind.eq_of_mark hm ho)
  rw [hr]
  exact bareLine_of_mem_rawLines (mem_of_mem_sectioned he)

/-- What a rewriting makes of its media lines was not changed by one for another kind before. -/
theorem mediaLines_after_other (hk : kind ≠ other) (codecs others : List String) (sdp : String) :
    mediaLines kind (preferCodecs kind codecs (preferCodecs other others sdp)) =
      mediaLines kind (preferCodecs kind codecs sdp) := by
  rw [mediaLines_preferCodecs kind kind codecs sdp, mediaLines_eq, preferCodecs_toList,
    preferCodecs_toList, rawLines_preferCodecChars, rawLines_preferCodecChars, reorderLines_twice,
    List.map_map]
  refine filter_mark_map (fun entry _ => ?_)
    (fun entry _ => mark_bareLine_rewritten kind kind _ entry) fun entry he hm => ?_
  · exact (mark_bareLine_rewritten kind kind _ _).trans (mark_bareLine_rewritten kind other _ entry)
  · have ho : ¬ other.mark <+: entry.1 := fun ho => hk (MediaKind.eq_of_mark hm ho)
    have hb := bareLine_of_mem_rawLines (mem_of_mem_sectioned he)
    exact congrArg bareLine (rewritten_other_of_not_mark hb ho)

end MediaLines

theorem preferCodecs_comm_iff {kind other : MediaKind} (hk : kind ≠ other)
    (codecs others : List String) (sdp : String) :
    preferCodecs other others (preferCodecs kind codecs sdp) =
        preferCodecs kind codecs (preferCodecs other others sdp) ↔
      codecs = [] ∨ others = [] ∨
        KeepsLineEnds kind codecs sdp ∧ KeepsLineEnds other others sdp := by
  by_cases hc : codecs = []
  · rw [hc, preferCodecs_nil, preferCodecs_nil]
    exact iff_of_true rfl (.inl rfl)
  by_cases ho : others = []
  · rw [ho, preferCodecs_nil, preferCodecs_nil]
    exact iff_of_true rfl (.inr (.inl rfl))
  have hc' : codecs.map String.toList ≠ [] := fun he => hc (List.map_eq_nil_iff.mp he)
  have ho' : others.map String.toList ≠ [] := fun he => ho (List.map_eq_nil_iff.mp he)
  rw [or_iff_right hc, or_iff_right ho, keepsLineEnds_iff, keepsLineEnds_iff, ← forall₂_and,
    ← String.toList_inj, preferCodecs_toList, preferCodecs_toList, preferCodecs_toList,
    preferCodecs_toList, preferCodecChars_twice ho', preferCodecChars_twice hc',
    joined_sectioned_iff (fun _ he => notMem_twice he) fun _ he => notMem_twice he]
  exact forall₂_congr fun entry he =>
    rewritten_comm_iff hk (bareLine_of_mem_rawLines (mem_of_mem_sectioned he))

/--
Rewriting for audio and for video may be done in either order, unless one of them brings a payload
that ends in a carriage return to the end of its line. In either order the media lines of a kind
are those that rewriting for this kind alone leads to.
-/
theorem preferCodecs_independent (audio video : List String) (sdp : String) :
    (preferCodecs .video video (preferCodecs .audio audio sdp) =
        preferCodecs .audio audio (preferCodecs .video video sdp) ↔
      audio = [] ∨ video = [] ∨
        KeepsLineEnds .audio audio sdp ∧ KeepsLineEnds .video video sdp) ∧
    (PlainPayloads .audio sdp → PlainPayloads .video sdp →
      preferCodecs .video video (preferCodecs .audio audio sdp) =
        preferCodecs .audio audio (preferCodecs .video video sdp)) ∧
    ∀ result ∈ [preferCodecs .video video (preferCodecs .audio audio sdp),
        preferCodecs .audio audio (preferCodecs .video video sdp)],
      mediaLines .audio result = mediaLines .audio (preferCodecs .audio audio sdp) ∧
        mediaLines .video result = mediaLines .video (preferCodecs .video video sdp) := by
  have hk : MediaKind.audio ≠ .video := by decide
  have hi := preferCodecs_comm_iff hk audio video sdp
  refine ⟨hi, fun ha hv => ?_, ?_⟩
  · exact hi.mpr (.inr (.inr ⟨ha.keepsLineEnds audio, hv.keepsLineEnds video⟩))
  · simp only [List.forall_mem_cons]
    refine ⟨⟨mediaLines_other hk video _, mediaLines_after_other hk.symm video audio sdp⟩,
      ⟨mediaLines_after_other hk audio video sdp, mediaLines_other hk.symm audio _⟩, ?_⟩
    exact fun _ h => absurd h List.not_mem_nil

theorem doubledPayload_independent :
    PlainPayloads .audio doubledPayload ∧ PlainPayloads .video doubledPayload ∧
      preferCodecs .video ["VP9"] (preferCodecs .audio ["PCMA"] doubledPayload) =
        preferCodecs .audio ["PCMA"] (preferCodecs .video ["VP9"] doubledPayload) :=
  have ha : PlainPayloads .audio doubledPayload := by decide
  have hv : PlainPayloads .video doubledPayload := by decide
  ⟨ha, hv, (preferCodecs_independent ["PCMA"] ["VP9"] doubledPayload).2.1 ha hv⟩

theorem strayReturn_depends :
    preferCodecs .video ["VP8"] (preferCodecs .audio ["PCMA"] strayReturn) =
        "m=video 9 X 97 96\r\r\na=rtpmap:97 VP8/90000\r\n" ∧
      preferCodecs .audio ["PCMA"] (preferCodecs .video ["VP8"] strayReturn) ≠
        preferCodecs .video ["VP8"] (preferCodecs .audio ["PCMA"] strayReturn) := by decide

end MediaSession
