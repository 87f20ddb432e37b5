import MediaSession.Sdp.CodecPreference
import Mathlib.Data.List.Nodup

namespace MediaSession

section ListOnce

variable {listed payloads : List (List Char)}

theorem mem_listOnce {payload other : List Char} :
    other ∈ listOnce listed payload ↔ other ∈ listed ∨ other = payload := by
  unfold listOnce
  split
  next hm => exact ⟨.inl, fun h => h.elim id fun he => he ▸ hm⟩
  next hm => simp

theorem listOnce_isPrefix (listed : List (List Char)) (payload : List Char) :
    listed <+: listOnce listed payload := by
  unfold listOnce
  split
  · exact List.prefix_rfl
  · exact List.prefix_append listed [payload]

theorem listOnce_nodup (h : listed.Nodup) (payload : List Char) :
    (listOnce listed payload).Nodup := by
  unfold listOnce
  split
  next hm => exact h
  next hm =>
    refine List.nodup_append.mpr ⟨h, List.nodup_singleton payload, fun a ha b hb he => hm ?_⟩
    rwa [← List.mem_singleton.mp hb, ← he]

theorem mem_foldl_listOnce {other : List Char} :
    other ∈ payloads.foldl listOnce listed ↔ other ∈ listed ∨ other ∈ payloads := by
  induction payloads generalizing listed with
  | nil => simp
  | cons payload payloads ih =>
    rw [List.foldl_cons, ih, mem_listOnce, List.mem_cons, or_assoc]

theorem foldl_listOnce_isPrefix (payloads listed : List (List Char)) :
    listed <+: payloads.foldl listOnce listed := by
  induction payloads generalizing listed with
  | nil => exact List.prefix_rfl
  | cons payload payloads ih => exact (listOnce_isPrefix listed payload).trans (ih _)

theorem foldl_listOnce_nodup (h : listed.Nodup) (payloads : List (List Char)) :
    (payloads.foldl listOnce listed).Nodup := by
  induction payloads generalizing listed with
  | nil => exact h
  | cons payload payloads ih => exact ih (listOnce_nodup h payload)

theorem foldl_listOnce_of_nodup (h : payloads.Nodup) (listed : List (List Char)) :
    payloads.foldl listOnce listed = listed ++ payloads.filter (· ∉ listed) := by
  induction payloads generalizing listed with
  | nil => simp
  | cons payload payloads ih =>
    obtain ⟨hp, hn⟩ := List.nodup_cons.mp h
    rw [List.foldl_cons, ih hn]
    by_cases hm : payload ∈ listed
    · rw [listOnce, if_pos hm, List.filter_cons_of_neg (by simpa using hm)]
    · have hf : payloads.filter (· ∉ listed ++ [payload]) = payloads.filter (· ∉ listed) := by
        refine List.filter_congr fun other ho => ?_
        have he : other ≠ payload := fun he => hp (he ▸ ho)
        simp [he]
      rw [listOnce, if_neg hm, List.filter_cons_of_pos (by simpa using hm), hf,
        List.append_assoc, List.singleton_append]

/-- A list that begins with what is listed already is taken over as it stands. -/
theorem foldl_listOnce_of_isPrefix (hp : listed <+: payloads) (h : payloads.Nodup) :
    payloads.foldl listOnce listed = payloads := by
  obtain ⟨rest, rfl⟩ := hp
  obtain ⟨_, _, hd⟩ := List.nodup_append.mp h
  have hl : listed.filter (· ∉ listed) = [] :=
    List.filter_eq_nil_iff.mpr fun a ha => by simpa using ha
  have hr : rest.filter (· ∉ listed) = rest :=
    List.filter_eq_self.mpr fun a ha => by simpa using fun hm => hd a hm a ha rfl
  rw [foldl_listOnce_of_nodup h, List.filter_append, hl, hr, List.nil_append]

end ListOnce

/-- The listed payloads that retransmit `payload`, in the order of their attribute lines. -/
def retransmitting (payloads : List (List Char)) (links : List (List Char × List Char))
    (payload : List Char) : List (List Char) :=
  (links.filter fun link => link.2 == payload && payloads.contains link.1).map (·.1)

variable {payloads others listed order : List (List Char)}
variable {names links : List (List Char × List Char)} {codec : List Char}

theorem mem_retransmitting {payload other : List Char} :
    other ∈ retransmitting payloads links payload ↔
      (other, payload) ∈ links ∧ other ∈ payloads := by
  simp [retransmitting]

theorem withRetransmissions_eq (payloads : List (List Char))
    (links : List (List Char × List Char)) (payload : List Char) (listed : List (List Char)) :
    withRetransmissions payloads links payload listed =
      (retransmitting payloads links payload).foldl listOnce listed := by
  rw [retransmitting, List.foldl_map, List.foldl_filter]
  simp only [Bool.and_eq_true, beq_iff_eq, List.contains_iff_mem, withRetransmissions]

/-- What one payload adds while the payloads of a codec are gone through. -/
def withPayload (payloads : List (List Char)) (names links : List (List Char × List Char))
    (codec : List Char) (listed : List (List Char)) (payload : List Char) : List (List Char) :=
  if hasCodec names codec payload && !listed.contains payload then
    withRetransmissions payloads links payload (listed ++ [payload])
  else listed

theorem withPayload_eq (payloads : List (List Char)) (names links : List (List Char × List Char))
    (codec : List Char) (listed : List (List Char)) (payload : List Char) :
    withPayload payloads names links codec listed payload =
      if hasCodec names codec payload ∧ payload ∉ listed then
        withRetransmissions payloads links payload (listed ++ [payload])
      else listed := by
  simp only [withPayload, Bool.and_eq_true, Bool.not_eq_true', ← Bool.not_eq_true,
    List.contains_iff_mem]

theorem withPayload_of_unlisted {payload : List Char} (hc : hasCodec names codec payload = true)
    (hn : payload ∉ listed) :
    withPayload payloads names links codec listed payload =
      (retransmitting payloads links payload).foldl listOnce (listed ++ [payload]) := by
  rw [withPayload_eq, if_pos ⟨hc, hn⟩, withRetransmissions_eq]

theorem withPayload_of_not {payload : List Char}
    (h : ¬(hasCodec names codec payload = true ∧ payload ∉ listed)) :
    withPayload payloads names links codec listed payload = listed := by
  rw [withPayload_eq, if_neg h]

theorem withCodec_eq (payloads : List (List Char)) (names links : List (List Char × List Char))
    (listed : List (List Char)) (codec : List Char) :
    withCodec payloads names links listed codec =
      payloads.foldl (withPayload payloads names links codec) listed :=
  congrArg (payloads.foldl · listed)
    (funext₂ fun _ _ => (withPayload_eq payloads names links codec _ _).symm)

/-- Payloads are only added behind the others, each once and only those of the medium. -/
structure Extends (payloads listed extended : List (List Char)) : Prop where
  isPrefix : listed <+: extended
  nodup : listed.Nodup → extended.Nodup
  subset : listed ⊆ payloads → extended ⊆ payloads

theorem Extends.refl (payloads listed : List (List Char)) : Extends payloads listed listed :=
  ⟨List.prefix_rfl, id, id⟩

theorem Extends.trans {extended further : List (List Char)} (h : Extends payloads listed extended)
    (hf : Extends payloads extended further) : Extends payloads listed further :=
  ⟨h.isPrefix.trans hf.isPrefix, fun hn => hf.nodup (h.nodup hn),
    fun hs => hf.subset (h.subset hs)⟩

theorem extends_foldl {β : Type} {add : List (List Char) → β → List (List Char)} {items : List β}
    (h : ∀ listed, ∀ item ∈ items, Extends payloads listed (add listed item))
    (listed : List (List Char)) : Extends payloads listed (items.foldl add listed) := by
  induction items generalizing listed with
  | nil => exact .refl payloads listed
  | cons item items ih =>
    obtain ⟨hi, hr⟩ := List.forall_mem_cons.mp fun item hm listed => h listed item hm
    exact (hi listed).trans (ih (fun listed item hm => hr item hm listed) _)

theorem extends_foldl_listOnce (hs : others ⊆ payloads) (listed : List (List Char)) :
    Extends payloads listed (others.foldl listOnce listed) where
  isPrefix := foldl_listOnce_isPrefix others listed
  nodup h := foldl_listOnce_nodup h others
  subset h := fun _ hm => (mem_foldl_listOnce.mp hm).elim (fun hl => h hl) fun ho => hs ho

theorem extends_withPayload {payload : List Char} (hp : payload ∈ payloads)
    (listed : List (List Char)) :
    Extends payloads listed (withPayload payloads names links codec listed payload) := by
  by_cases hc : hasCodec names codec payload = true ∧ payload ∉ listed
  · have hr : retransmitting payloads links payload ⊆ payloads := fun _ hm =>
      (mem_retransmitting.mp hm).2
    have ho : listed ++ [payload] = [payload].foldl listOnce listed := (if_neg hc.2).symm
    have hs : [payload] ⊆ payloads := List.cons_subset.mpr ⟨hp, List.nil_subset payloads⟩
    rw [withPayload_of_unlisted hc.1 hc.2, ho]
    exact (extends_foldl_listOnce hs listed).trans (extends_foldl_listOnce hr _)
  · rw [withPayload_of_not hc]
    exact .refl payloads listed

theorem extends_withCodec (listed : List (List Char)) (codec : List Char) :
    Extends payloads listed (withCodec payloads names links listed codec) := by
  rw [withCodec_eq]
  exact extends_foldl (fun listed _ hm => extends_withPayload hm listed) listed

theorem extends_codecs (codecs listed : List (List Char)) :
    Extends payloads listed (codecs.foldl (withCodec payloads names links) listed) :=
  extends_foldl (fun listed codec _ => extends_withCodec listed codec) listed

theorem eq_of_preferredOrder {codecs : List (List Char)}
    (h : preferredOrder payloads names links codecs = some order) :
    codecs.foldl (withCodec payloads names links) [] ≠ [] ∧
      order = payloads.foldl listOnce (codecs.foldl (withCodec payloads names links) []) := by
  unfold preferredOrder at h
  split at h
  next hn => cases h
  next hn => exact ⟨hn, (Option.some.inj h).symm⟩

theorem preferredOrder_of_ne_nil {codecs : List (List Char)}
    (h : codecs.foldl (withCodec payloads names links) [] ≠ []) :
    preferredOrder payloads names links codecs =
      some (payloads.foldl listOnce (codecs.foldl (withCodec payloads names links) [])) := by
  unfold preferredOrder
  split
  next hn => exact absurd hn h
  next hn => rfl

theorem preferredOrder_of_eq_nil {codecs : List (List Char)}
    (h : codecs.foldl (withCodec payloads names links) [] = []) :
    preferredOrder payloads names links codecs = none := by
  unfold preferredOrder
  rw [h]

section Order

variable {codecs : List (List Char)}
  (h : preferredOrder payloads names links codecs = some order)

include h

theorem preferredOrder_nodup : order.Nodup := by
  obtain ⟨_, rfl⟩ := eq_of_preferredOrder h
  exact foldl_listOnce_nodup ((extends_codecs codecs []).nodup List.nodup_nil) payloads

/-- Nothing is lost and nothing invented. -/
theorem mem_preferredOrder {payload : List Char} : payload ∈ order ↔ payload ∈ payloads := by
  obtain ⟨_, rfl⟩ := eq_of_preferredOrder h
  rw [mem_foldl_listOnce]
  refine ⟨fun hm => hm.elim (fun hl => ?_) id, .inr⟩
  exact (extends_codecs codecs []).subset (List.nil_subset payloads) hl

theorem preferredOrder_ne_nil : order ≠ [] := by
  obtain ⟨hn, rfl⟩ := eq_of_preferredOrder h
  intro he
  have hp := foldl_listOnce_isPrefix payloads (codecs.foldl (withCodec payloads names links) [])
  rw [he] at hp
  exact hn (List.prefix_nil.mp hp)

end Order

section Again

theorem foldl_withPayload_of_listed
    (h : ∀ payload ∈ others, hasCodec names codec payload = true → payload ∈ listed) :
    others.foldl (withPayload payloads names links codec) listed = listed := by
  induction others with
  | nil => rfl
  | cons payload others ih =>
    obtain ⟨hp, hr⟩ := List.forall_mem_cons.mp h
    have hw : withPayload payloads names links codec listed payload = listed :=
      withPayload_of_not fun hc => hc.2 (hp hc.1)
    rw [List.foldl_cons, hw]
    exact ih hr

theorem mem_foldl_withPayload {payload : List Char} (hp : payload ∈ others)
    (hs : others ⊆ payloads) (hc : hasCodec names codec payload = true)
    (listed : List (List Char)) :
    payload ∈ others.foldl (withPayload payloads names links codec) listed := by
  induction others generalizing listed with
  | nil => exact absurd hp List.not_mem_nil
  | cons other others ih =>
    obtain ⟨ho, hs'⟩ := List.cons_subset.mp hs
    rcases List.mem_cons.mp hp with rfl | hp
    · have hw : payload ∈ withPayload payloads names links codec listed payload := by
        by_cases hm : payload ∈ listed
        · rwa [withPayload_of_not fun hn => hn.2 hm]
        · rw [withPayload_of_unlisted hc hm]
          exact mem_foldl_listOnce.mpr (.inl List.mem_concat_self)
      have he : Extends payloads _ (others.foldl (withPayload payloads names links codec) _) :=
        extends_foldl (fun listed _ hm => extends_withPayload (hs' hm) listed)
          (withPayload payloads names links codec listed payload)
      exact he.isPrefix.subset hw
    · exact ih hp hs' _

/-- Going through what one pass has added adds it again, in the same order. -/
theorem foldl_withPayload_again {added : List (List Char)} (hs : others ⊆ payloads)
    (h : others.foldl (withPayload payloads names links codec) listed = listed ++ added) :
    added.foldl (withPayload payloads names links codec) listed = listed ++ added := by
  induction others generalizing listed added with
  | nil =>
    obtain rfl : added = [] := List.self_eq_append_right.mp h
    exact h
  | cons payload others ih =>
    obtain ⟨hp, hs'⟩ := List.cons_subset.mp hs
    rw [List.foldl_cons] at h
    by_cases hc : hasCodec names codec payload = true ∧ payload ∉ listed
    · have hw : withPayload payloads names links codec listed payload =
          (retransmitting payloads links payload).foldl listOnce (listed ++ [payload]) :=
        withPayload_of_unlisted hc.1 hc.2
      obtain ⟨group, hg⟩ := foldl_listOnce_isPrefix
        (retransmitting payloads links payload) (listed ++ [payload])
      rw [← hg] at hw
      have he : Extends payloads (listed ++ [payload] ++ group) (listed ++ added) := by
        rw [← h, hw]
        exact extends_foldl (fun listed _ hm => extends_withPayload (hs' hm) listed) _
      obtain ⟨rest, hr⟩ := he.isPrefix
      obtain rfl : payload :: (group ++ rest) = added := by
        rw [List.append_assoc, List.append_assoc] at hr
        exact List.append_cancel_left hr
      rw [hw, ← hr] at h
      have hg' : group.foldl (withPayload payloads names links codec)
          (listed ++ [payload] ++ group) = listed ++ [payload] ++ group :=
        foldl_withPayload_of_listed fun other ho _ => List.mem_append_right _ ho
      rw [List.foldl_cons, List.foldl_append, hw, hg', ih hs' h, hr]
    · have hw : withPayload payloads names links codec listed payload = listed :=
        withPayload_of_not hc
      rw [hw] at h
      exact ih hs' h

theorem withPayload_congr (hm : ∀ payload, payload ∈ others ↔ payload ∈ payloads) :
    withPayload others names links codec = withPayload payloads names links codec := by
  have hr : retransmitting others links = retransmitting payloads links := by
    have hb : others.contains = payloads.contains := by
      funext payload
      rw [Bool.eq_iff_iff, List.contains_iff_mem, List.contains_iff_mem, hm]
    funext payload
    rw [retransmitting, hb, retransmitting]
  funext listed payload
  simp only [withPayload, withRetransmissions_eq, hr]

/-- A list of the same payloads that begins with what a codec has led to leads to it again. -/
theorem withCodec_again {extended rest : List (List Char)}
    (h : withCodec payloads names links listed codec = extended) (ho : order = extended ++ rest)
    (hm : ∀ payload, payload ∈ order ↔ payload ∈ payloads) :
    withCodec order names links listed codec = extended := by
  obtain ⟨added, rfl⟩ : listed <+: extended := h ▸ (extends_withCodec listed codec).isPrefix
  rw [withCodec_eq] at h
  have hl : listed.foldl (withPayload payloads names links codec) listed = listed :=
    foldl_withPayload_of_listed fun _ hp _ => hp
  have ha : added.foldl (withPayload payloads names links codec) listed = listed ++ added :=
    foldl_withPayload_again (List.Subset.refl _) h
  have hr : rest.foldl (withPayload payloads names links codec) (listed ++ added) =
      listed ++ added := by
    refine foldl_withPayload_of_listed fun payload hp hc => ?_
    have ht : payload ∈ payloads := (hm payload).mp (ho ▸ List.mem_append_right _ hp)
    exact h ▸ mem_foldl_withPayload ht (List.Subset.refl _) hc listed
  rw [withCodec_eq, withPayload_congr hm, ho, List.foldl_append, List.foldl_append, hl, ha, hr]

theorem foldl_withCodec_again {codecs front rest : List (List Char)}
    (h : codecs.foldl (withCodec payloads names links) listed = front) (ho : order = front ++ rest)
    (hm : ∀ payload, payload ∈ order ↔ payload ∈ payloads) :
    codecs.foldl (withCodec order names links) listed = front := by
  induction codecs generalizing listed with
  | nil => exact h
  | cons codec codecs ih =>
    rw [List.foldl_cons] at h ⊢
    obtain ⟨more, hf⟩ : withCodec payloads names links listed codec <+: front :=
      h ▸ (extends_codecs codecs _).isPrefix
    have hc : order = withCodec payloads names links listed codec ++ (more ++ rest) := by
      rw [ho, ← hf, List.append_assoc]
    rw [withCodec_again rfl hc hm]
    exact ih h

/-- An order that the codecs have led to is the one that they lead to from it. -/
theorem preferredOrder_again {codecs : List (List Char)}
    (h : preferredOrder payloads names links codecs = some order) :
    preferredOrder order names links codecs = some order := by
  obtain ⟨hn, ho⟩ := eq_of_preferredOrder h
  have hp : codecs.foldl (withCodec payloads names links) [] <+: order :=
    ho ▸ foldl_listOnce_isPrefix payloads _
  obtain ⟨rest, hr⟩ := hp
  have hf := foldl_withCodec_again rfl hr.symm fun _ => mem_preferredOrder h
  rw [preferredOrder_of_ne_nil (hf ▸ hn), hf,
    foldl_listOnce_of_isPrefix ⟨rest, hr⟩ (preferredOrder_nodup h)]

end Again

end MediaSession
