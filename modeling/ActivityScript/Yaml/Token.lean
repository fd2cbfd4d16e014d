/-!
# Tokens of documents

Indentation is turned into tokens of its own: a block begins where something is indented deeper, and
ends where it no longer is.
-/

namespace ActivityScript.Yaml

/-- A directive before a document. -/
inductive Directive where
  | version (major : Nat)
  /-- A short form for the beginning of tags. -/
  | handle (handle lead : String)
  | other
  deriving DecidableEq, Repr

/-- A token. -/
inductive Token where
  | directive (directive : Directive)
  | documentStart
  | documentEnd
  | blockSequence
  | blockMapping
  | blockEnd
  | sequenceOpen
  | sequenceClose
  | mappingOpen
  | mappingClose
  /-- The hyphen before an item. -/
  | entry
  | comma
  | key
  | value
  | reference (name : String)
  | anchor (name : String)
  | tag (handle : Option String) (suffix : String)
  | scalar (text : String) (plain : Bool)
  deriving DecidableEq, Repr

end ActivityScript.Yaml
