import MediaSession.Datum

namespace MediaSession

/-- A message of the server: a bare status text, or a record with a type and a description. -/
inductive ServerMessage where
  | success
  | failure
  | unknownStatus (status : String)
  | description (kind sdp : String)
  | untyped
  | malformed
  | empty
  deriving DecidableEq, Inhabited, Repr

def ServerMessage.ofStatus (status : String) : ServerMessage :=
  if status = "success" then .success
  else if status = "failure" then .failure
  else .unknownStatus status

/-- Values that are neither texts nor records say nothing. -/
def ServerMessage.ofDatum : Datum → ServerMessage
  | .text status => ofStatus status
  | .record fields =>
    match Datum.find? "type" fields, Datum.find? "sdp" fields with
    | none, _ => .untyped
    | some (.text kind), some (.text sdp) => .description kind sdp
    | _, _ => .malformed
  | _ => .empty

end MediaSession
