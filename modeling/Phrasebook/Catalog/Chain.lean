import Phrasebook.Locale

namespace Phrasebook.Roster

/-- Follows fallbacks from `current`, at most `hops` of them. The walk ends at a locale without
fallback, before a code that is in the chain, and before one that is not declared. -/
def follow (r : Roster) : Nat → List String → Option Locale → List String
  | 0, chain, _ => chain
  | _ + 1, chain, none => chain
  | hops + 1, chain, some current =>
    match current.fallback with
    | none => chain
    | some code =>
      if code ∈ chain then chain
      else match r.find? code with
        | none => chain
        | some next => r.follow hops (chain ++ [code]) (some next)

/-- The codes consulted for a requested code. -/
def chain (r : Roster) (code : String) : List String :=
  let walked := r.follow r.locales.length [code] (r.find? code)
  if r.home.code ∈ walked then walked else walked ++ [r.home.code]

end Phrasebook.Roster
