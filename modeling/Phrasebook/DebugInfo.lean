namespace Phrasebook

/-- Where a phrase comes from. -/
structure DebugInfo where
  group : String
  key : String
deriving DecidableEq, Repr

end Phrasebook
