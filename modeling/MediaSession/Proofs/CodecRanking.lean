import MediaSession.Proofs.MediaSections
import Mathlib.Data.List.Perm.Lattice
import Mathlib.Data.List.Sort

namespace MediaSession

section Ranking

variable (payloads : List (List Char)) (names links : List (List Char × List Char))
  (codecs : List (List Char))

def isPreferred (payload : List Char) : Bool := codecs.any fun codec => hasCodec names codec payload

/-- The place of the first codec that a payload has. -/
def codecRank (payload : List Char) : Nat :=
  codecs.findIdx fun codec => hasCodec names codec payload

/-- Payloads are ranked by their codecs, and for one codec as they stand in the media line. -/
def RanksUpTo (a b : List Char) : Prop :=
  codecRank names codecs a < codecRank names codecs b ∨
    codecRank names codecs a = codecRank names codecs b ∧ payloads.idxOf a ≤ payloads.idxOf b

instance : DecidableRel (RanksUpTo payloads names codecs) := fun _ _ =>
  inferInstanceAs (Decidable (_ ∨ _))

instance : IsTrans (List Char) (RanksUpTo payloads names codecs) where
  trans a b c hab hbc := by
    unfold RanksUpTo at *
    omega

instance : Std.Total (RanksUpTo payloads names codecs) where
  total a b := by
    unfold RanksUpTo
    omega

def ranked : List (List Char) :=
  (payloads.filter (isPreferred names codecs)).insertionSort (RanksUpTo payloads names codecs)

def withRetransmitting (payload : List Char) : List (List Char) :=
  payload :: retransmitting payloads links payload

/-- The ranked payloads, each with those that retransmit it, and all the others behind them. -/
def rankedOrder : List (List Char) :=
  let front := (ranked payloads names codecs).flatMap (withRetransmitting payloads links)
  front ++ payloads.filter fun payload => !front.contains payload

/-- Every payload retransmits at most one other, and then has none of the codecs itself. -/
structure Unambiguous : Prop where
  distinct : payloads.Nodup
  single : ∀ payload ∈ payloads, (links.map (·.1)).count payload ≤ 1
  foreign : ∀ payload ∈ payloads, payload ∈ links.map (·.1) →
    isPreferred names codecs payload = false

end Ranking

variable {payloads front : List (List Char)} {names links : List (List Char × List Char)}
  {codecs : List (List Char)} {codec payload : List Char}

theorem isPreferred_of_hasCodec (hc : codec ∈ codecs) (h : hasCodec names codec payload = true) :
    isPreferred names codecs payload = true :=
  List.any_eq_true.mpr ⟨codec, hc, h⟩

namespace Unambiguous

variable (h : Unambiguous payloads names links codecs)

include h

theorem not_link {other : List Char} (hp : payload ∈ payloads)
    (hf : isPreferred names codecs payload = true) : (payload, other) ∉ links := by
  intro hl
  have hm := h.foreign payload hp (List.mem_map_of_mem (f := (·.1)) hl)
  exact Bool.false_ne_true (hm.symm.trans hf)

theorem links_nodup : ((links.filter (·.1 ∈ payloads)).map (·.1)).Nodup := by
  refine List.nodup_iff_count_le_one.mpr fun payload => ?_
  by_cases hp : payload ∈ payloads
  · have hs : ((links.filter (·.1 ∈ payloads)).map (·.1)).Sublist (links.map (·.1)) :=
      List.filter_sublist.map _
    exact (hs.count_le payload).trans (h.single payload hp)
  · have hn : payload ∉ (links.filter (·.1 ∈ payloads)).map (·.1) := by
      intro hm
      obtain ⟨link, hl, rfl⟩ := List.mem_map.mp hm
      exact hp (of_decide_eq_true (List.mem_filter.mp hl).2)
    rw [List.count_eq_zero_of_not_mem hn]
    exact Nat.zero_le 1

theorem eq_of_links {a b : List Char} (hp : payload ∈ payloads) (ha : (payload, a) ∈ links)
    (hb : (payload, b) ∈ links) : a = b := by
  have hm {c : List Char} (hc : (payload, c) ∈ links) :
      (payload, c) ∈ links.filter (·.1 ∈ payloads) :=
    List.mem_filter.mpr ⟨hc, decide_eq_true hp⟩
  exact (Prod.mk.inj (List.inj_on_of_nodup_map h.links_nodup (hm ha) (hm hb) rfl)).2

theorem retransmitting_nodup (payload : List Char) :
    (retransmitting payloads links payload).Nodup := by
  have hs : (links.filter fun link => link.2 == payload && payloads.contains link.1).Sublist
      (links.filter (·.1 ∈ payloads)) := by
    refine List.monotone_filter_right links fun link hl => ?_
    exact decide_eq_true (List.contains_iff_mem.mp (Bool.and_eq_true_iff.mp hl).2)
  exact h.links_nodup.sublist (hs.map _)

/-- A payload that has a codec stands among the groups only as the head of its own. -/
theorem mem_groups_iff (hp : payload ∈ payloads) (hc : isPreferred names codecs payload = true) :
    payload ∈ front.flatMap (withRetransmitting payloads links) ↔ payload ∈ front := by
  constructor
  · intro hm
    obtain ⟨other, ho, hg⟩ := List.mem_flatMap.mp hm
    rcases List.mem_cons.mp hg with rfl | hr
    · exact ho
    · exact absurd (mem_retransmitting.mp hr).1 (h.not_link hp hc)
  · exact fun hm => List.mem_flatMap.mpr ⟨payload, hm, List.mem_cons_self⟩

/-- What retransmits a payload is in no other group. -/
theorem notMem_groups {other : List Char}
    (hf : front ⊆ payloads.filter (isPreferred names codecs)) (hn : payload ∉ front)
    (ho : other ∈ retransmitting payloads links payload) :
    other ∉ front.flatMap (withRetransmitting payloads links) := by
  intro hm
  obtain ⟨hl, hp⟩ := mem_retransmitting.mp ho
  obtain ⟨first, hff, hg⟩ := List.mem_flatMap.mp hm
  obtain ⟨hfp, hfc⟩ := List.mem_filter.mp (hf hff)
  rcases List.mem_cons.mp hg with rfl | hr
  · exact h.not_link hfp hfc hl
  · obtain rfl := h.eq_of_links hp hl (mem_retransmitting.mp hr).1
    exact hn hff

theorem withPayload_groups (hc : codec ∈ codecs) (hp : payload ∈ payloads)
    (hf : front ⊆ payloads.filter (isPreferred names codecs)) :
    withPayload payloads names links codec
        (front.flatMap (withRetransmitting payloads links)) payload =
      (if hasCodec names codec payload = true then listOnce front payload else front).flatMap
        (withRetransmitting payloads links) := by
  by_cases hh : hasCodec names codec payload = true
  · have hi := isPreferred_of_hasCodec hc hh
    have hm : payload ∈ front.flatMap (withRetransmitting payloads links) ↔ payload ∈ front :=
      h.mem_groups_iff hp hi
    rw [if_pos hh, listOnce]
    by_cases hn : payload ∈ front
    · rw [if_pos hn, withPayload_of_not fun hx => hx.2 (hm.mpr hn)]
    · have hg : (retransmitting payloads links payload).filter
          (· ∉ front.flatMap (withRetransmitting payloads links) ++ [payload]) =
            retransmitting payloads links payload := by
        refine List.filter_eq_self.mpr fun other ho => decide_eq_true fun hx => ?_
        rcases List.mem_append.mp hx with hx | hx
        · exact h.notMem_groups hf hn ho hx
        · obtain rfl := List.mem_singleton.mp hx
          exact h.not_link hp hi (mem_retransmitting.mp ho).1
      rw [if_neg hn, withPayload_of_unlisted hh fun hx => hn (hm.mp hx),
        foldl_listOnce_of_nodup (h.retransmitting_nodup payload), hg, List.flatMap_append,
        List.flatMap_singleton, List.append_assoc]
      rfl
  · rw [if_neg hh, withPayload_of_not fun hx => hh hx.1]

theorem foldl_withPayload_groups {others : List (List Char)} (hc : codec ∈ codecs)
    (hs : others ⊆ payloads) (hf : front ⊆ payloads.filter (isPreferred names codecs)) :
    others.foldl (withPayload payloads names links codec)
        (front.flatMap (withRetransmitting payloads links)) =
      ((others.filter (hasCodec names codec)).foldl listOnce front).flatMap
        (withRetransmitting payloads links) := by
  induction others generalizing front with
  | nil => rfl
  | cons payload others ih =>
    obtain ⟨hp, hs'⟩ := List.cons_subset.mp hs
    rw [List.foldl_cons, h.withPayload_groups hc hp hf]
    by_cases hh : hasCodec names codec payload = true
    · have hl : listOnce front payload ⊆ payloads.filter (isPreferred names codecs) := by
        intro other hm
        rcases mem_listOnce.mp hm with hm | rfl
        · exact hf hm
        · exact List.mem_filter.mpr ⟨hp, isPreferred_of_hasCodec hc hh⟩
      rw [if_pos hh, List.filter_cons_of_pos hh, List.foldl_cons, ih hs' hl]
    · rw [if_neg hh, List.filter_cons_of_neg hh, ih hs' hf]

end Unambiguous

/-- Takes up the payloads of one codec. -/
def withMatching (payloads : List (List Char)) (names : List (List Char × List Char))
    (front : List (List Char)) (codec : List Char) : List (List Char) :=
  (payloads.filter (hasCodec names codec)).foldl listOnce front

theorem mem_foldl_withMatching : payload ∈ codecs.foldl (withMatching payloads names) front ↔
    payload ∈ front ∨ payload ∈ payloads.filter (isPreferred names codecs) := by
  induction codecs generalizing front with
  | nil => simp [isPreferred]
  | cons codec codecs ih =>
    rw [List.foldl_cons, ih, withMatching, mem_foldl_listOnce, or_assoc]
    simp only [List.mem_filter, isPreferred, List.any_cons, Bool.or_eq_true, ← and_or_left]

theorem foldl_withMatching_nodup (hf : front.Nodup) :
    (codecs.foldl (withMatching payloads names) front).Nodup := by
  induction codecs generalizing front with
  | nil => exact hf
  | cons codec codecs ih => exact ih (foldl_listOnce_nodup hf _)

theorem Unambiguous.foldl_withCodec_groups (h : Unambiguous payloads names links codecs)
    {wanted : List (List Char)} (hw : wanted ⊆ codecs)
    (hf : front ⊆ payloads.filter (isPreferred names codecs)) :
    wanted.foldl (withCodec payloads names links)
        (front.flatMap (withRetransmitting payloads links)) =
      (wanted.foldl (withMatching payloads names) front).flatMap
        (withRetransmitting payloads links) := by
  induction wanted generalizing front with
  | nil => rfl
  | cons codec wanted ih =>
    obtain ⟨hc, hw'⟩ := List.cons_subset.mp hw
    have hm : withMatching payloads names front codec ⊆
        payloads.filter (isPreferred names codecs) := by
      intro payload hp
      rcases mem_foldl_listOnce.mp hp with hp | hp
      · exact hf hp
      · obtain ⟨hp, hh⟩ := List.mem_filter.mp hp
        exact List.mem_filter.mpr ⟨hp, isPreferred_of_hasCodec hc hh⟩
    rw [List.foldl_cons, List.foldl_cons, withCodec_eq,
      h.foldl_withPayload_groups hc (List.Subset.refl _) hf, ← ih hw' hm]
    rfl

section Rank

theorem codecRank_lt (h : isPreferred names codecs payload = true) :
    codecRank names codecs payload < codecs.length :=
  List.findIdx_lt_length.mpr (List.any_eq_true.mp h)

theorem codecRank_concat_of_preferred (h : isPreferred names codecs payload = true) :
    codecRank names (codecs ++ [codec]) payload = codecRank names codecs payload := by
  rw [codecRank, List.findIdx_append]
  exact if_pos (codecRank_lt h)

theorem codecRank_concat_of_hasCodec (hn : ¬ isPreferred names codecs payload = true)
    (h : hasCodec names codec payload = true) :
    codecRank names (codecs ++ [codec]) payload = codecs.length := by
  have hl : ¬ codecs.findIdx (fun codec => hasCodec names codec payload) < codecs.length :=
    fun hl => hn (List.any_eq_true.mpr (List.findIdx_lt_length.mp hl))
  rw [codecRank, List.findIdx_append, if_neg hl, List.findIdx_cons, h]
  exact Nat.zero_add _

theorem pairwise_idxOf (h : payloads.Nodup) :
    payloads.Pairwise fun a b => payloads.idxOf a ≤ payloads.idxOf b := by
  refine List.pairwise_iff_getElem.mpr fun i j hi hj hij => ?_
  rw [h.idxOf_getElem, h.idxOf_getElem]
  exact Nat.le_of_lt hij

/-- Codec by codec, each in the order of the media line, the payloads are taken up by rank. -/
theorem foldl_withMatching_pairwise (h : payloads.Nodup) (codecs : List (List Char)) :
    (codecs.foldl (withMatching payloads names) []).Pairwise
      (RanksUpTo payloads names codecs) := by
  induction codecs using List.reverseRecOn with
  | nil => exact .nil
  | append_singleton codecs codec ih =>
    have hm {p : List Char} (hp : p ∈ codecs.foldl (withMatching payloads names) []) :
        isPreferred names codecs p = true :=
      (List.mem_filter.mp ((mem_foldl_withMatching.mp hp).resolve_left List.not_mem_nil)).2
    rw [List.foldl_concat, withMatching, foldl_listOnce_of_nodup (h.filter _)]
    have hn {p : List Char} (hp : p ∈ (payloads.filter (hasCodec names codec)).filter
        (· ∉ codecs.foldl (withMatching payloads names) [])) :
        codecRank names (codecs ++ [codec]) p = codecs.length := by
      obtain ⟨hp, hf⟩ := List.mem_filter.mp hp
      obtain ⟨hp, hh⟩ := List.mem_filter.mp hp
      refine codecRank_concat_of_hasCodec (fun hi => of_decide_eq_true hf ?_) hh
      exact mem_foldl_withMatching.mpr (.inr (List.mem_filter.mpr ⟨hp, hi⟩))
    refine List.pairwise_append.mpr ⟨?_, ?_, fun a ha b hb => ?_⟩
    · refine ih.imp_of_mem fun ha hb hr => ?_
      unfold RanksUpTo at *
      rwa [codecRank_concat_of_preferred (hm ha), codecRank_concat_of_preferred (hm hb)]
    · have hi := (pairwise_idxOf h).sublist
        ((List.filter_sublist (p := (· ∉ codecs.foldl (withMatching payloads names) []))).trans
          (List.filter_sublist (p := hasCodec names codec)))
      exact hi.imp_of_mem fun ha hb hl => .inr ⟨(hn ha).trans (hn hb).symm, hl⟩
    · have ha' := codecRank_lt (hm ha)
      refine .inl ?_
      rwa [codecRank_concat_of_preferred (hm ha), hn hb]

theorem ranked_eq (h : payloads.Nodup) (names : List (List Char × List Char))
    (codecs : List (List Char)) :
    codecs.foldl (withMatching payloads names) [] = ranked payloads names codecs := by
  have hp : (codecs.foldl (withMatching payloads names) []).Perm
      (payloads.filter (isPreferred names codecs)) := by
    refine (List.perm_ext_iff_of_nodup (foldl_withMatching_nodup List.nodup_nil)
      (h.filter _)).mpr fun payload => ?_
    rw [mem_foldl_withMatching, or_iff_right List.not_mem_nil]
  have hs := List.perm_insertionSort (RanksUpTo payloads names codecs)
    (payloads.filter (isPreferred names codecs))
  refine List.Perm.eq_of_pairwise (fun a b ha _ hab hba => ?_)
    (foldl_withMatching_pairwise h codecs) (List.pairwise_insertionSort _ _) (hp.trans hs.symm)
  have hm : a ∈ payloads := (List.mem_filter.mp (hp.mem_iff.mp ha)).1
  refine (List.idxOf_inj hm).mp ?_
  unfold RanksUpTo at hab hba
  omega

end Rank

theorem preferredOrder_eq_rankedOrder (h : Unambiguous payloads names links codecs) :
    preferredOrder payloads names links codecs =
      if payloads.any (isPreferred names codecs) = true then
        some (rankedOrder payloads names links codecs)
      else none := by
  have hs := h.foldl_withCodec_groups (List.Subset.refl codecs) (List.nil_subset _)
  rw [List.flatMap_nil, ranked_eq h.distinct] at hs
  by_cases ha : payloads.any (isPreferred names codecs) = true
  · obtain ⟨payload, hp, hi⟩ := List.any_eq_true.mp ha
    have hr : payload ∈ ranked payloads names codecs :=
      (List.mem_insertionSort _).mpr (List.mem_filter.mpr ⟨hp, hi⟩)
    have hg : payload ∈ codecs.foldl (withCodec payloads names links) [] :=
      hs ▸ List.mem_flatMap.mpr ⟨payload, hr, List.mem_cons_self⟩
    rw [if_pos ha, preferredOrder_of_ne_nil (List.ne_nil_of_mem hg), hs,
      foldl_listOnce_of_nodup h.distinct, rankedOrder]
    simp only [decide_not, List.contains_eq_mem]
  · have hf : payloads.filter (isPreferred names codecs) = [] :=
      List.filter_eq_nil_iff.mpr fun payload hp hi => ha (List.any_eq_true.mpr ⟨payload, hp, hi⟩)
    rw [ranked, hf] at hs
    rw [if_neg ha, preferredOrder_of_eq_nil hs]

/-- A media line with its payloads ranked, or as it is if none of them has one of the codecs. -/
def rankedLine (codecs : List (List Char)) (line : List Char) (attributes : List (List Char)) :
    List Char :=
  if (payloadsOf line).any (isPreferred (attributes.filterMap codecName?) codecs) = true then
    joined [' '] ((pieces ' ' line).take 3 ++ rankedOrder (payloadsOf line)
      (attributes.filterMap codecName?) (attributes.filterMap retransmission?) codecs)
  else line

theorem reorderLine_eq_rankedLine {line : List Char} {attributes : List (List Char)}
    (h : Unambiguous (payloadsOf line) (attributes.filterMap codecName?)
      (attributes.filterMap retransmission?) codecs) :
    reorderLine codecs line attributes = rankedLine codecs line attributes := by
  have ho := preferredOrder_eq_rankedOrder h
  unfold rankedLine
  split at ho
  next ha => rw [if_pos ha, reorderLine_of_eq_some ho]
  next ha => rw [if_neg ha, reorderLine_of_eq_none ho]

/--
In the lines of a text, the payloads of a media line are ranked by the codecs that its attributes
name, each followed by those that retransmit it; the others come last, in the order they had.
-/
theorem preferCodecs_ranks (kind : MediaKind) (codecs : List String) (sdp : String)
    {above below : List (List Char)} {line : List Char}
    (hs : sdpLines sdp.toList = above ++ line :: below) (hm : kind.mark <+: line)
    (hu : Unambiguous (payloadsOf line) ((attributesIn below).filterMap codecName?)
      ((attributesIn below).filterMap retransmission?) (codecs.map String.toList)) :
    rewrittenLines kind codecs sdp =
        reorderLines kind (codecs.map String.toList) above ++
          rankedLine (codecs.map String.toList) line (attributesIn below) ::
            reorderLines kind (codecs.map String.toList) below ∧
      (preferCodecs kind codecs sdp).toList =
        if codecs = [] then sdp.toList
        else joined lineEnd (rewrittenLines kind codecs sdp) ++
          if sdp.toList.getLast? = some '\n' then lineEnd else [] := by
  refine ⟨?_, toList_preferCodecs kind codecs sdp⟩
  rw [rewrittenLines, hs, reorderLines_append _ _ _ (MediaKind.beginsMedium_of_mark hm),
    reorderLines, if_pos (List.isPrefixOf_iff_prefix.mpr hm), ← reorderLine_eq_rankedLine hu]
  rfl

def shuffledLine : List Char := "m=video 9 X 5 1 3 4 7 8".toList

/-- Attributes in no order, one of them for a retransmission that is listed before its codec. -/
def shuffledAttributes : List (List Char) :=
  ["a=fmtp:8 x; apt=1", "a=rtpmap:4 vp9/9", "a=fmtp:5 apt=4", "a=rtpmap:1 VP8/9",
    "a=rtpmap:7 VP9/9"].map String.toList

def shuffledMedium : String :=
  String.ofList (joined lineEnd ("v=0".toList :: shuffledLine :: shuffledAttributes))

def repeatedCodecs : List String := ["VP9", "VP8", "vp9"]

theorem shuffledMedium_ranked :
    sdpLines shuffledMedium.toList = ["v=0".toList] ++ shuffledLine :: shuffledAttributes ∧
      MediaKind.video.mark <+: shuffledLine ∧
      Unambiguous (payloadsOf shuffledLine) ((attributesIn shuffledAttributes).filterMap codecName?)
        ((attributesIn shuffledAttributes).filterMap retransmission?)
        (repeatedCodecs.map String.toList) ∧
      rankedLine (repeatedCodecs.map String.toList) shuffledLine
        (attributesIn shuffledAttributes) = "m=video 9 X 4 5 7 1 8 3".toList ∧
      rewrittenLines .video repeatedCodecs shuffledMedium =
        reorderLines .video (repeatedCodecs.map String.toList) ["v=0".toList] ++
          rankedLine (repeatedCodecs.map String.toList) shuffledLine
            (attributesIn shuffledAttributes) ::
              reorderLines .video (repeatedCodecs.map String.toList) shuffledAttributes := by
  have hs : sdpLines shuffledMedium.toList =
      ["v=0".toList] ++ shuffledLine :: shuffledAttributes := by decide +kernel
  have hm : MediaKind.video.mark <+: shuffledLine := by decide
  have hu : Unambiguous (payloadsOf shuffledLine)
      ((attributesIn shuffledAttributes).filterMap codecName?)
      ((attributesIn shuffledAttributes).filterMap retransmission?)
      (repeatedCodecs.map String.toList) := ⟨by decide, by decide, by decide⟩
  exact ⟨hs, hm, hu, by decide, (preferCodecs_ranks .video repeatedCodecs _ hs hm hu).1⟩

end MediaSession
