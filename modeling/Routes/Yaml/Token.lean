/-!
The tokens of a YAML text. Blocks, which the text shows by indentation alone, have tokens where
they begin and end, and so have the keys and values of mappings.
-/
namespace Routes.Yaml

inductive Token where
  | version (major minor : Nat)
  | tagHandle (handle meaning : String)
  | documentStart
  | documentEnd
  | blockSequenceStart
  | blockMappingStart
  | blockEnd
  | flowSequenceStart
  | flowSequenceEnd
  | flowMappingStart
  | flowMappingEnd
  | blockEntry
  | flowEntry
  | key
  | value
  | reference (name : String)
  | anchor (name : String)
  | tag (handle suffix : String)
  | scalar (plain : Bool) (text : String)
deriving DecidableEq, Repr

/-- What stands behind a comma of a flow collection. -/
def Token.afterComma? : List Token → Option (List Token)
  | .flowEntry :: ts => some ts
  | _ => none

end Routes.Yaml
