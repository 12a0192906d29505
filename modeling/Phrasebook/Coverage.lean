import Phrasebook.Catalog.Lookup

namespace Phrasebook

structure Coverage where
  locale : String
  isDefault : Bool
  /-- The number of phrases with an entry in the locale. -/
  translated : Nat := 0
  /-- The number of phrases that another locale of the chain provides. -/
  viaFallback : Nat := 0
  /-- The keys without an entry in the locale. -/
  missing : List String := []
  /-- The keys that no locale of the chain provides. -/
  unresolved : List String := []
deriving DecidableEq, Repr

namespace Catalog

/-- Whether some locale of a chain has an entry for a key. -/
def reaches (c : Catalog) (chain : List String) (key : String) : Bool :=
  chain.any fun code => (c.find? key code).isSome

/-- Counts one more phrase. -/
def count (c : Catalog) (chain : List String) (cov : Coverage) (key : String) : Coverage :=
  if (c.find? key cov.locale).isSome then { cov with translated := cov.translated + 1 }
  else
    let cov := { cov with missing := cov.missing ++ [key] }
    if c.reaches chain key then { cov with viaFallback := cov.viaFallback + 1 }
    else { cov with unresolved := cov.unresolved ++ [key] }

/-- The coverage of a locale, declared or not. -/
def coverage (c : Catalog) (code : String) : Coverage :=
  c.keys.foldl (c.count (c.roster.chain code))
    { locale := code, isDefault := c.roster.home.code == code }

end Catalog

end Phrasebook
