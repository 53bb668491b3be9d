import ComposeNix.Yaml.Mark

/-!
# Tokens of a document

The text of a document is a row of tokens.  Besides the marks that are written out
there are tokens without characters of their own: those that open and close a block
collection, which indentation alone shows, and the key indicator of a simple key, which
shows only when its colon is met.
-/

namespace ComposeNix.Yaml

/-- What a directive line says. -/
inductive Directive
  /-- The version of the language that the document is written in. -/
  | version (major minor : Nat)
  /-- A handle that abbreviates the beginning of tags. -/
  | handle (handle expansion : String)
  /-- A directive of no consequence. -/
  | reserved (name : String)
  deriving DecidableEq, Repr

/-- A tag as written: a handle and what follows it, or the whole tag. -/
structure TagName where
  handle : Option String
  suffix : String
  deriving DecidableEq, Repr

/-- The kinds of tokens. -/
inductive TokenKind
  | directive (content : Directive)
  | documentStart
  | documentEnd
  | streamEnd
  | blockSequenceStart
  | blockMappingStart
  | blockEnd
  | flowSequenceStart
  | flowSequenceEnd
  | flowMappingStart
  | flowMappingEnd
  | blockEntry
  | flowEntry
  | key
  | value
  | alias (name : String)
  | anchor (name : String)
  | tag (name : TagName)
  | scalar (content : String) (plain : Bool)
  deriving DecidableEq, Repr

/-- A token with the marks of its first character and behind its last. -/
structure Token where
  kind : TokenKind
  start : Mark
  stop : Mark
  deriving DecidableEq, Repr

/-- What a token is called in messages. -/
def TokenKind.name : TokenKind → String
  | .directive _ => "<directive>"
  | .documentStart => "<document start>"
  | .documentEnd => "<document end>"
  | .streamEnd => "<stream end>"
  | .blockSequenceStart => "<block sequence start>"
  | .blockMappingStart => "<block mapping start>"
  | .blockEnd => "<block end>"
  | .flowSequenceStart => "["
  | .flowSequenceEnd => "]"
  | .flowMappingStart => "\x7b"
  | .flowMappingEnd => "\x7d"
  | .blockEntry => "-"
  | .flowEntry => ","
  | .key => "?"
  | .value => ":"
  | .alias _ => "<alias>"
  | .anchor _ => "<anchor>"
  | .tag _ => "<tag>"
  | .scalar _ _ => "<scalar>"

end ComposeNix.Yaml
