import MediaSession.Proofs.JsonText
import MediaSession.Wire.Envelope
import MediaSession.Wire.Handshake

namespace MediaSession

theorem mapM_map_eq_some {α β : Type} {read : β → Option α} {write : α → β}
    (h : ∀ a, read (write a) = some a) (values : List α) :
    (values.map write).mapM read = some values := by
  induction values with
  | nil => rfl
  | cons a values ih => rw [List.map_cons, List.mapM_cons, h a, ih]; rfl

namespace Datum

theorem find?_of_notMem {key : String} {fields : List (String × Datum)}
    (h : key ∉ fields.map (·.1)) : find? key fields = none := by
  induction fields with
  | nil => rfl
  | cons field fields ih =>
    obtain ⟨k, v⟩ := field
    obtain ⟨hk, hf⟩ := not_or.mp (List.mem_cons.not.mp h)
    rw [find?, if_neg (Ne.symm hk), ih hf]

theorem keys_present (fields : List (String × Option Datum)) :
    ((fields.filterMap fun field => field.2.map (field.1, ·)).map (·.1)).Sublist
      (fields.map (·.1)) := by
  induction fields with
  | nil => exact List.Sublist.slnil
  | cons field fields ih =>
    obtain ⟨k, v⟩ := field
    cases v with
    | none => exact ih.cons k
    | some value => exact ih.cons_cons k

/-- A record gives back what was written under each of its keys, and nothing for what was not. -/
theorem find?_present {fields : List (String × Option Datum)} (hn : (fields.map (·.1)).Nodup)
    {key : String} {value : Option Datum} (h : (key, value) ∈ fields) :
    find? key (fields.filterMap fun field => field.2.map (field.1, ·)) = value := by
  induction fields with
  | nil => exact absurd h List.not_mem_nil
  | cons field fields ih =>
    obtain ⟨k, v⟩ := field
    obtain ⟨hk, hn'⟩ := List.nodup_cons.mp hn
    rcases List.mem_cons.mp h with he | hm
    · obtain ⟨rfl, rfl⟩ := Prod.mk.inj he
      cases value with
      | none => exact find?_of_notMem fun hm => hk ((keys_present fields).subset hm)
      | some value => simp [find?]
    · have hne : k ≠ key := by
        rintro rfl
        exact hk (List.mem_map.mpr ⟨_, hm, rfl⟩)
      have hi := ih hn' hm
      cases v with
      | none => exact hi
      | some v => simpa [find?, hne] using hi

theorem fields_present {fields : List (String × Option Datum)} (hn : (fields.map (·.1)).Nodup)
    (language : Language) (padded : Bool) :
    (present fields).fields language padded (fields.map (·.1)) = some (fields.map (·.2)) := by
  rw [present, Datum.fields, List.map_map]
  exact congrArg some (List.map_congr_left fun field hf => find?_present hn hf)

theorem fields_record {fields : List (String × Datum)} (hn : (fields.map (·.1)).Nodup)
    (language : Language) (padded : Bool) :
    (record fields).fields language padded (fields.map (·.1)) =
      some (fields.map fun field => some field.2) := by
  have hp : present (fields.map fun field => (field.1, some field.2)) = record fields := by
    simp [present, List.filterMap_map]
  have hn' : ((fields.map fun field => (field.1, some field.2)).map (·.1)).Nodup := by
    simpa [Function.comp_def] using hn
  have hf := fields_present hn' language padded
  rw [hp] at hf
  simpa [Function.comp_def] using hf

theorem present_writable {depth : Nat} {fields : List (String × Option Datum)}
    (hn : (fields.map (·.1)).Nodup)
    (h : ∀ field ∈ fields, ∀ value ∈ field.2, value.Writable depth) :
    (present fields).Writable (depth + 1) := by
  refine .record (hn.sublist (keys_present fields)) fun field hf => ?_
  obtain ⟨source, hs, hm⟩ := List.mem_filterMap.mp hf
  obtain ⟨value, hv, rfl⟩ := Option.map_eq_some_iff.mp hm
  exact h source hs value hv

theorem writable_ofWord {depth : Nat} (value : UInt32) : (ofWord value).Writable depth := by
  have h := value.toNat_lt
  exact .integer (by omega) (by omega)

/-- An absent value stays absent, and one that is there is read back. -/
theorem optional_map {read : Datum → Option α} {write : α → Datum}
    (hr : ∀ a, read (write a) = some a) (hn : ∀ a, write a ≠ .null) (value : Option α) :
    optional read (value.map write) = some value := by
  cases value with
  | none => rfl
  | some a =>
    rw [Option.map_some, optional, hr a]
    · rfl
    · exact hn a

theorem optional_text (value : Option String) :
    optional text? (value.map .text) = some value := by
  have hr (a : String) : text? (.text a) = some a := rfl
  exact optional_map hr (fun _ h => by cases h) value

theorem optional_word (value : Option UInt32) : optional word? (value.map ofWord) = some value :=
  optional_map word?_ofWord (fun _ h => by cases h) value

theorem required_text (value : String) : required text? (some (.text value)) = some value :=
  (Option.bind_some ..).trans rfl

theorem required_word (value : UInt32) : required word? (some (ofWord value)) = some value :=
  (Option.bind_some ..).trans (word?_ofWord value)

theorem list?_map {α : Type} {read : Datum → Option α} {write : α → Datum}
    (hr : ∀ a, read (write a) = some a) (values : List α) :
    list? read (.list (values.map write)) = some values :=
  mapM_map_eq_some hr values

end Datum

theorem Resolution.ofDatum?_toDatum (r : Resolution) : ofDatum? r.toDatum = some r := by
  have hf : r.toDatum.fields .json false ["width", "height"] =
      some [some (.ofWord r.width), some (.ofWord r.height)] :=
    Datum.fields_record (by simp) .json false
  rw [ofDatum?, hf]
  simp [Datum.required_word]

theorem VideoParameters.ofDatum?_toDatum (p : VideoParameters) : ofDatum? p.toDatum = some p := by
  have hf : p.toDatum.fields .json false
      ["resolution", "bitrate", "keyFrameInterval", "framerate"] =
        some [p.resolution.map Resolution.toDatum, p.bitrate.map .text,
          p.keyFrameInterval.map .ofWord, p.framerate.map .ofWord] :=
    Datum.fields_present (by simp) .json false
  have hr := Datum.optional_map Resolution.ofDatum?_toDatum (fun _ h => by cases h) p.resolution
  rw [ofDatum?, hf]
  simp [hr, Datum.optional_text, Datum.optional_word]

theorem MediaKind.ofDatum?_wireName (kind : MediaKind) :
    ofDatum? (.text kind.wireName) = some kind := by
  cases kind <;> rfl

theorem TrackSource.ofDatum?_wireName (source : TrackSource) :
    ofDatum? (.text source.wireName) = some source := by
  cases source <;> rfl

theorem TrackOptions.ofDatum?_toDatum (t : TrackOptions) : ofDatum? t.toDatum = some t := by
  have hf : t.toDatum.fields .json false
      ["type", "mid", "from", "source", "parameters", "simulcastRid"] =
        some [some (.text t.kind.wireName), some (.text t.mid), t.origin.map .text,
          t.source.map (.text ·.wireName), t.parameters.map VideoParameters.toDatum,
          t.simulcastRid.map .text] := Datum.fields_present (by simp) .json false
  have hk : Datum.required MediaKind.ofDatum? (some (.text t.kind.wireName)) = some t.kind :=
    MediaKind.ofDatum?_wireName t.kind
  have hs := Datum.optional_map TrackSource.ofDatum?_wireName (fun _ h => by cases h) t.source
  have hp := Datum.optional_map VideoParameters.ofDatum?_toDatum (fun _ h => by cases h)
    t.parameters
  rw [ofDatum?, hf]
  simp [hk, hs, hp, Datum.required_text, Datum.optional_text]

theorem tracksOfDatum?_tracksToDatum (tracks : List TrackOptions) :
    tracksOfDatum? (tracksToDatum tracks) = some tracks :=
  Datum.list?_map TrackOptions.ofDatum?_toDatum tracks

theorem transportOfDatum?_transportToDatum (transport : String) :
    transportOfDatum? (transportToDatum transport) = some transport := rfl

/-- Stored after all keys that are smaller, an entry takes the last place. -/
theorem putSorted_of_lt {key value : String} {entries : List (String × String)}
    (h : ∀ entry ∈ entries, entry.1 < key) :
    putSorted key value entries = entries ++ [(key, value)] := by
  induction entries with
  | nil => rfl
  | cons entry entries ih =>
    obtain ⟨k, v⟩ := entry
    obtain ⟨hk, he⟩ := List.forall_mem_cons.mp h
    have hn : ¬ key < k := String.lt_asymm hk
    rw [putSorted, if_neg hn, if_pos hk, ih he]
    rfl

theorem Attributes.entries_foldl_insert (entries : List (String × String)) (a : Attributes)
    (h : (a.entries ++ entries).Pairwise (·.1 < ·.1)) :
    (entries.foldl (fun attributes entry => attributes.insert entry.1 entry.2) a).entries =
      a.entries ++ entries := by
  induction entries generalizing a with
  | nil => simp
  | cons entry entries ih =>
    have hlt : ∀ other ∈ a.entries, other.1 < entry.1 := fun other ho =>
      (List.pairwise_append.mp h).2.2 other ho entry List.mem_cons_self
    have hi : (a.insert entry.1 entry.2).entries = a.entries ++ [entry] := putSorted_of_lt hlt
    rw [List.foldl_cons, ih, hi, List.append_assoc]
    · rfl
    · rw [hi, List.append_assoc]
      exact h

theorem Attributes.eq_of_entries {a b : Attributes} (h : a.entries = b.entries) : a = b := by
  obtain ⟨entries, _⟩ := a
  obtain ⟨_, _⟩ := b
  obtain rfl : entries = _ := h
  rfl

theorem Attributes.ofList_entries (a : Attributes) : ofList a.entries = a :=
  eq_of_entries (entries_foldl_insert a.entries .empty a.sorted)

theorem Attributes.ofDatum?_toDatum (a : Attributes) : ofDatum? a.toDatum = some a := by
  have hm := @mapM_map_eq_some (String × String) (String × Datum)
    (fun field => field.2.text?.map (field.1, ·)) (fun entry => (entry.1, .text entry.2))
    (fun _ => rfl) a.entries
  rw [toDatum, ofDatum?, hm, Option.map_some, ofList_entries]

theorem InitOptions.ofDatum?_toDatum (o : InitOptions) : ofDatum? o.toDatum = some o := by
  have hf : o.toDatum.fields .json false ["media", "transport", "attributes"] =
      some [some (tracksToDatum o.tracks), some (transportToDatum o.transport),
        o.attributes.map Attributes.toDatum] := Datum.fields_present (by simp) .json false
  have ht : Datum.required tracksOfDatum? (some (tracksToDatum o.tracks)) = some o.tracks :=
    tracksOfDatum?_tracksToDatum o.tracks
  have hp : Datum.required transportOfDatum? (some (transportToDatum o.transport)) =
      some o.transport := transportOfDatum?_transportToDatum o.transport
  have ha := Datum.optional_map Attributes.ofDatum?_toDatum (fun _ h => by cases h) o.attributes
  rw [ofDatum?, hf]
  simp [ht, hp, ha]

theorem CandidateInfo.ofDatum?_toDatum (info : CandidateInfo) :
    ofDatum? info.toDatum = some info := by
  have hf : info.toDatum.fields .json false ["sdpMLineIndex", "sdpMid", "candidate"] =
      some [some (.ofWord info.lineIndex), some (.text info.mid), some (.text info.candidate)] :=
    Datum.fields_record (by simp) .json false
  rw [ofDatum?, hf]
  simp [Datum.required_word, Datum.required_text]

theorem removedCandidateOfDatum?_toDatum (candidate : String) :
    removedCandidateOfDatum? (removedCandidateToDatum candidate) = some candidate := rfl

theorem SignalingPayload.ofDatum?_record {tag : String} {fields : List (String × Datum)}
    (h : Datum.find? "type" fields = some (.text tag)) :
    ofDatum? (.record fields) = ofTagged? tag (.record fields) := by
  rw [ofDatum?, h]

theorem SignalingPayload.ofTagged?_candidate {content field : Datum}
    (h : content.fields .json false ["candidate"] = some [some field]) :
    ofTagged? "candidate" content = (CandidateInfo.ofDatum? field).map .candidate := by
  simp [ofTagged?, h]

theorem SignalingPayload.ofDatum?_toDatum (payload : SignalingPayload) :
    ofDatum? payload.toDatum = some payload := by
  cases payload with
  | offer sdp => rfl
  | answer sdp => rfl
  | provisionalAnswer sdp => rfl
  | candidate info =>
    rw [toDatum, ofDatum?_record rfl, ofTagged?_candidate rfl, CandidateInfo.ofDatum?_toDatum]
    rfl
  | removedCandidates candidates =>
    have hc := Datum.list?_map removedCandidateOfDatum?_toDatum candidates
    simp [ofDatum?, toDatum, ofTagged?, Datum.find?, Datum.fields, hc]

theorem SignalingEnvelope.ofDatum?_toDatum (e : SignalingEnvelope) :
    ofDatum? e.toDatum = some e := by
  have hf : e.toDatum.fields .json false ["id", "signaling"] =
      some [some (.text e.id), some e.signaling.toDatum] :=
    Datum.fields_record (by simp) .json false
  have hs : Datum.required SignalingPayload.ofDatum? (some e.signaling.toDatum) =
      some e.signaling := SignalingPayload.ofDatum?_toDatum e.signaling
  rw [ofDatum?, hf]
  simp [hs, Datum.required_text]

section Writable

variable (depth : Nat)

theorem Resolution.toDatum_writable (r : Resolution) : r.toDatum.Writable (depth + 1) := by
  refine .record (by simp) ?_
  simp only [List.forall_mem_cons]
  exact ⟨Datum.writable_ofWord _, Datum.writable_ofWord _, by simp⟩

theorem VideoParameters.toDatum_writable (p : VideoParameters) :
    p.toDatum.Writable (depth + 2) := by
  refine Datum.present_writable (by simp) ?_
  simp only [List.forall_mem_cons, Option.forall_mem_map]
  exact ⟨fun r _ => r.toDatum_writable depth, fun _ _ => .text, fun _ _ => Datum.writable_ofWord _,
    fun _ _ => Datum.writable_ofWord _, by simp⟩

theorem TrackOptions.toDatum_writable (t : TrackOptions) : t.toDatum.Writable (depth + 3) := by
  refine Datum.present_writable (by simp) ?_
  simp only [List.forall_mem_cons, Option.forall_mem_map]
  exact ⟨fun _ h => Option.some.inj h ▸ .text, fun _ h => Option.some.inj h ▸ .text,
    fun _ _ => .text, fun _ _ => .text, fun p _ => p.toDatum_writable depth, fun _ _ => .text,
    by simp⟩

theorem tracksToDatum_writable (tracks : List TrackOptions) :
    (tracksToDatum tracks).Writable (depth + 5) := by
  refine .record (by simp) ?_
  simp only [List.forall_mem_cons]
  exact ⟨.list (List.forall_mem_map.mpr fun t _ => t.toDatum_writable depth), by simp⟩

theorem Attributes.toDatum_writable (a : Attributes) : a.toDatum.Writable (depth + 1) := by
  refine .record ?_ (List.forall_mem_map.mpr fun _ _ => .text)
  rw [List.map_map]
  exact a.sorted.imp (fun h => String.ne_of_lt h) |>.map _ fun _ _ h => h

theorem transportToDatum_writable (transport : String) :
    (transportToDatum transport).Writable (depth + 1) :=
  .record (by simp) (List.forall_mem_cons.mpr ⟨.text, by simp⟩)

theorem InitOptions.toDatum_writable (o : InitOptions) : o.toDatum.Writable (depth + 6) := by
  refine Datum.present_writable (by simp) ?_
  simp only [List.forall_mem_cons, Option.forall_mem_map]
  exact ⟨fun _ h => Option.some.inj h ▸ tracksToDatum_writable depth o.tracks,
    fun _ h => Option.some.inj h ▸ transportToDatum_writable (depth + 4) o.transport,
    fun a _ => a.toDatum_writable (depth + 4), by simp⟩

theorem CandidateInfo.toDatum_writable (info : CandidateInfo) :
    info.toDatum.Writable (depth + 1) := by
  refine .record (by simp) ?_
  simp only [List.forall_mem_cons]
  exact ⟨Datum.writable_ofWord _, .text, .text, by simp⟩

theorem removedCandidateToDatum_writable (candidate : String) :
    (removedCandidateToDatum candidate).Writable (depth + 1) :=
  .record (by simp) (List.forall_mem_cons.mpr ⟨.text, by simp⟩)

theorem SignalingPayload.toDatum_writable (payload : SignalingPayload) :
    payload.toDatum.Writable (depth + 3) := by
  cases payload with
  | candidate info =>
    refine .record (by simp) ?_
    simp only [List.forall_mem_cons]
    exact ⟨.text, info.toDatum_writable (depth + 1), by simp⟩
  | removedCandidates candidates =>
    refine .record (by simp) ?_
    simp only [List.forall_mem_cons]
    exact ⟨.text, .list (List.forall_mem_map.mpr fun candidate _ =>
      removedCandidateToDatum_writable depth candidate), by simp⟩
  | _ =>
    refine .record (by simp) ?_
    simp only [List.forall_mem_cons]
    exact ⟨.text, .text, by simp⟩

theorem SignalingEnvelope.toDatum_writable (e : SignalingEnvelope) :
    e.toDatum.Writable (depth + 4) := by
  refine .record (by simp) ?_
  simp only [List.forall_mem_cons]
  exact ⟨.text, e.signaling.toDatum_writable depth, by simp⟩

end Writable

theorem SignalingEnvelope.read_write (real : Binary64 → String) (e : SignalingEnvelope) :
    (Json.read? (Json.write real e.toDatum)).bind ofDatum? = some e := by
  rw [Json.read?_write real (e.toDatum_writable 123), Option.bind_some, ofDatum?_toDatum]

theorem InitOptions.read_write (real : Binary64 → String) (o : InitOptions) :
    (Json.read? (Json.write real o.toDatum)).bind ofDatum? = some o := by
  rw [Json.read?_write real (o.toDatum_writable 121), Option.bind_some, ofDatum?_toDatum]

/--
Every envelope and every request is read back from its wire form as it was, from the document as
well as from its text; so two of them that differ in anything never have the same text.
-/
theorem wire_forms_faithful (real : Binary64 → String) :
    (∀ e : SignalingEnvelope, SignalingEnvelope.ofDatum? e.toDatum = some e ∧
      (Json.read? (Json.write real e.toDatum)).bind SignalingEnvelope.ofDatum? = some e) ∧
    (∀ o : InitOptions, InitOptions.ofDatum? o.toDatum = some o ∧
      (Json.read? (Json.write real o.toDatum)).bind InitOptions.ofDatum? = some o) ∧
    (∀ e e' : SignalingEnvelope,
      Json.write real e.toDatum = Json.write real e'.toDatum ↔ e = e') ∧
    (∀ o o' : InitOptions, Json.write real o.toDatum = Json.write real o'.toDatum ↔ o = o') := by
  refine ⟨fun e => ⟨e.ofDatum?_toDatum, e.read_write real⟩,
    fun o => ⟨o.ofDatum?_toDatum, o.read_write real⟩, fun e e' => ⟨fun h => ?_, fun h => h ▸ rfl⟩,
    fun o o' => ⟨fun h => ?_, fun h => h ▸ rfl⟩⟩
  · have he := e.read_write real
    rw [h, e'.read_write real] at he
    exact (Option.some.inj he).symm
  · have ho := o.read_write real
    rw [h, o'.read_write real] at ho
    exact (Option.some.inj ho).symm

end MediaSession
