import MediaSession.Wire.Description

namespace MediaSession

/-- A network path that the engine has found, as the server is told about it. -/
structure CandidateInfo where
  lineIndex : UInt32
  mid : String
  candidate : String
  deriving DecidableEq, Inhabited, Repr

inductive SignalingPayload where
  | offer (sdp : String)
  | answer (sdp : String)
  | provisionalAnswer (sdp : String)
  | candidate (info : CandidateInfo)
  | removedCandidates (candidates : List String)
  deriving DecidableEq, Inhabited, Repr

def SignalingPayload.description : DescriptionKind → String → SignalingPayload
  | .offer, sdp => .offer sdp
  | .answer, sdp => .answer sdp
  | .provisionalAnswer, sdp => .provisionalAnswer sdp

structure SignalingEnvelope where
  id : String
  signaling : SignalingPayload
  deriving DecidableEq, Inhabited, Repr

/-- Candidates are attribute lines on the wire. -/
def attributeLine (candidate : String) : String := "a=" ++ candidate

def SignalingEnvelope.ofCandidate (id mid : String) (lineIndex : UInt32) (candidate : String) :
    SignalingEnvelope :=
  ⟨id, .candidate ⟨lineIndex, mid, attributeLine candidate⟩⟩

def SignalingEnvelope.ofRemoved (id : String) (candidates : List String) : SignalingEnvelope :=
  ⟨id, .removedCandidates (candidates.map attributeLine)⟩

def CandidateInfo.toDatum (info : CandidateInfo) : Datum :=
  .record [("sdpMLineIndex", .ofWord info.lineIndex), ("sdpMid", .text info.mid),
    ("candidate", .text info.candidate)]

def CandidateInfo.ofDatum? (value : Datum) : Option CandidateInfo :=
  match value.fields .json false ["sdpMLineIndex", "sdpMid", "candidate"] with
  | some [lineIndex, mid, candidate] => do
    let lineIndex ← Datum.required Datum.word? lineIndex
    let mid ← Datum.required Datum.text? mid
    let candidate ← Datum.required Datum.text? candidate
    return { lineIndex, mid, candidate }
  | _ => none

/-- A removed candidate is a record of its own on the wire. -/
def removedCandidateToDatum (candidate : String) : Datum :=
  .record [("candidate", .text candidate)]

def removedCandidateOfDatum? (value : Datum) : Option String :=
  match value.fields .json false ["candidate"] with
  | some [candidate] => Datum.required Datum.text? candidate
  | _ => none

def SignalingPayload.toDatum : SignalingPayload → Datum
  | .offer sdp => .record [("type", .text "offer"), ("sdp", .text sdp)]
  | .answer sdp => .record [("type", .text "answer"), ("sdp", .text sdp)]
  | .provisionalAnswer sdp => .record [("type", .text "pranswer"), ("sdp", .text sdp)]
  | .candidate info => .record [("type", .text "candidate"), ("candidate", info.toDatum)]
  | .removedCandidates candidates =>
    .record [("type", .text "removed-candidates"),
      ("candidates", .list (candidates.map removedCandidateToDatum))]

def SignalingPayload.ofTagged? (tag : String) (content : Datum) : Option SignalingPayload :=
  let one (key : String) : Option Datum :=
    match content.fields .json false [key] with
    | some [field] => field
    | _ => none
  if tag = "offer" then ((one "sdp").bind Datum.text?).map .offer
  else if tag = "answer" then ((one "sdp").bind Datum.text?).map .answer
  else if tag = "pranswer" then ((one "sdp").bind Datum.text?).map .provisionalAnswer
  else if tag = "candidate" then ((one "candidate").bind CandidateInfo.ofDatum?).map .candidate
  else if tag = "removed-candidates" then
    ((one "candidates").bind (Datum.list? removedCandidateOfDatum?)).map .removedCandidates
  else none

/-- The type stands in a field beside the content, or first in a list. -/
def SignalingPayload.ofDatum? : Datum → Option SignalingPayload
  | .record fields =>
    match Datum.find? "type" fields with
    | some (.text tag) => ofTagged? tag (.record fields)
    | _ => none
  | .list (.text tag :: content) => ofTagged? tag (.list content)
  | _ => none

def SignalingEnvelope.toDatum (envelope : SignalingEnvelope) : Datum :=
  .record [("id", .text envelope.id), ("signaling", envelope.signaling.toDatum)]

def SignalingEnvelope.ofDatum? (value : Datum) : Option SignalingEnvelope :=
  match value.fields .json false ["id", "signaling"] with
  | some [id, signaling] => do
    let id ← Datum.required Datum.text? id
    let signaling ← Datum.required SignalingPayload.ofDatum? signaling
    return { id, signaling }
  | _ => none

end MediaSession
