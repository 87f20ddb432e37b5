import MediaSession.Binary64.FixedPoint

namespace MediaSession

def standardLevel : String := "x1.0"

/-- Three characters of the value with six decimal places, behind an `x`. -/
def levelText (multiplier : Binary64) : String :=
  String.ofList ('x' :: (multiplier.fixedPoint 6).take 3)

/-- The quality level that asks for a multiple of the bitrate; none for zero and the standard. -/
def qualityLevel (multiplier : Binary64) : Option String :=
  if multiplier.isZero then none
  else if levelText multiplier = standardLevel then none
  else some (levelText multiplier)

end MediaSession
