import Phrasebook.Catalog
import Phrasebook.Catalog.Chain
import Phrasebook.Catalog.Suggestion

namespace Phrasebook

/-- Why a phrase cannot be resolved. -/
inductive ResolveFault where
  | missingKey (key : String) (tried suggestions : List String)
  | binding (key : String) (fault : BindingFault)
deriving DecidableEq, Repr

def ResolveFault.message : ResolveFault → String
  | .missingKey key tried suggestions =>
    "missing phrase key '" ++ key ++ "' (tried: " ++ String.intercalate " -> " tried ++ ")"
      ++ (if suggestions.isEmpty then ""
          else "; did you mean: " ++ String.intercalate ", " suggestions)
  | .binding key (.unbound name) => "phrase '" ++ key ++ "' requires variable '$" ++ name ++ "'"
  | .binding key (.fragmentInHref name) =>
    "phrase '" ++ key ++ "': variable '$" ++ name
      ++ "' is a fragment and cannot be used in a link target"

/-- The nodes of an entry that stands under `key`. -/
def Entry.invoke (entry : Entry) (key : String) (b : Bindings) :
    Except ResolveFault (List Node) :=
  (entry.instantiate b).mapError (.binding key)

namespace Catalog

/-- The first code of a chain that has an entry for a key, with the entry. -/
def provider? (c : Catalog) (key : String) : List String → Option (Entry × String)
  | [] => none
  | code :: codes =>
    match c.find? key code with
    | some entry => some (entry, code)
    | none => c.provider? key codes

/-- The entry of a key for a requested locale, with the code it stands under. -/
def lookup (c : Catalog) (locale key : String) : Except ResolveFault (Entry × String) :=
  let chain := c.roster.chain locale
  match c.provider? key chain with
  | some found => .ok found
  | none => .error (.missingKey key chain (suggestions key c.keys))

/-- The nodes of a phrase. -/
def resolve (c : Catalog) (locale key : String) (b : Bindings) :
    Except ResolveFault (List Node) := do
  let (entry, _) ← c.lookup locale key
  entry.invoke key b

/-- A phrase for one call: its nodes, the locale they come from, and where it comes from. -/
structure Resolution where
  nodes : List Node
  locale : String
  debugInfo : DebugInfo

/-- A phrase with its provenance; a phrase without debug info has an empty group. -/
def resolution (c : Catalog) (locale key : String) (b : Bindings) :
    Except ResolveFault Resolution := do
  let (entry, code) ← c.lookup locale key
  let nodes ← entry.invoke key b
  return ⟨nodes, code, (c.debugInfo.find? key).getD ⟨"", key⟩⟩

end Catalog

end Phrasebook
