import ComposeNix.Number.Literal
import ComposeNix.Text.Utf8
import ComposeNix.Yaml.Token

/-!
# Faults in the form of a document

A text is no document when it holds a forbidden character, when its characters make no
tokens, when its tokens make no document, or when the document's anchors and aliases do
not fit together.  Each fault names its cause.  A fault has a place, and where it ends
something that was begun earlier, it says what was begun and where.
-/

namespace ComposeNix.Yaml

/-- What was being read when the characters stopped making sense. -/
inductive Activity
  | directive
  | directiveUri
  | alias
  | anchor
  | tag
  | tagUri
  | blockScalar
  | quotedScalar
  | doubleQuotedScalar
  | simpleKey
  | nextToken
  deriving DecidableEq, Repr

/-- An activity in words. -/
def Activity.message : Activity → String
  | .directive => "while scanning a directive"
  | .directiveUri => "while parsing a directive"
  | .alias => "while scanning an alias"
  | .anchor => "while scanning an anchor"
  | .tag => "while scanning a tag"
  | .tagUri => "while parsing a tag"
  | .blockScalar => "while scanning a block scalar"
  | .quotedScalar => "while scanning a quoted scalar"
  | .doubleQuotedScalar => "while scanning a double-quoted scalar"
  | .simpleKey => "while scanning a simple key"
  | .nextToken => "while scanning for the next token"

/-- What a text should have gone on with. -/
inductive Wanted
  | alphanumeric
  | digit
  | digitOrPoint
  | digitOrBlank
  | blank
  | bang
  | closingAngle
  | uri
  | uriEscape
  | hexDigits (count : Nat)
  | commentOrBreak
  | scalarIndicator
  deriving DecidableEq, Repr

/-- A wanted continuation in words. -/
def Wanted.message : Wanted → String
  | .alphanumeric => "alphabetic or numeric character"
  | .digit => "a digit"
  | .digitOrPoint => "a digit or '.'"
  | .digitOrBlank => "a digit or ' '"
  | .blank => "' '"
  | .bang => "'!'"
  | .closingAngle => "'>'"
  | .uri => "URI"
  | .uriEscape => "URI escape sequence of 2 hexadecimal numbers"
  | .hexDigits count => "escape sequence of " ++ toString count ++ " hexadecimal numbers"
  | .commentOrBreak => "a comment or a line break"
  | .scalarIndicator => "chomping or indentation indicators"

/-- Why the characters of a text make no tokens. -/
inductive LexicalFault
  /-- Something else was wanted than the character found, or than the end. -/
  | unexpected (wanted : Wanted) (found : Option Char)
  | cannotStart (found : Option Char)
  | missingColon
  | entryNotAllowed
  | keyNotAllowed
  | valueNotAllowed
  | zeroIndentation
  | unknownEscape (found : Option Char)
  | endInQuotes
  | markerInQuotes
  | uriNotUtf8 (error : Text.Utf8Error)
  deriving DecidableEq, Repr

/-- A character in quotes; the end of the text is shown as `U+0000`. -/
def shown (found : Option Char) : String := Text.quotedChar (found.getD (Char.ofNat 0))

/-- A lexical fault in words. -/
def LexicalFault.message : LexicalFault → String
  | .unexpected wanted found => "expected " ++ wanted.message ++ ", but found " ++ shown found
  | .cannotStart found => "found character " ++ shown found ++ " that cannot start any token"
  | .missingColon => "could not find expected ':'"
  | .entryNotAllowed => "sequence entries are not allowed here"
  | .keyNotAllowed => "mapping keys are not allowed here"
  | .valueNotAllowed => "mapping values are not allowed here"
  | .zeroIndentation => "expected indentation indicator in the range 1-9, but found 0"
  | .unknownEscape found => "found unknown escape character " ++ shown found
  | .endInQuotes => "found unexpected end of stream"
  | .markerInQuotes => "found unexpected document separator"
  | .uriNotUtf8 error => error.message

/-- What was being built when a token did not fit. -/
inductive Construct
  | node
  | blockNode
  | flowNode
  | blockSequence
  | blockMapping
  | flowSequence
  | flowMapping
  deriving DecidableEq, Repr

/-- A construct in words. -/
def Construct.message : Construct → String
  | .node => "while parsing a node"
  | .blockNode => "while parsing a block node"
  | .flowNode => "while parsing a flow node"
  | .blockSequence => "while parsing a block collection"
  | .blockMapping => "while parsing a block mapping"
  | .flowSequence => "while parsing a flow sequence"
  | .flowMapping => "while parsing a flow mapping"

/-- Why the tokens of a text make no document. -/
inductive GrammarFault
  | noDocumentStart (found : TokenKind)
  | duplicateVersion
  | unknownVersion
  | duplicateHandle (handle : String)
  | undefinedHandle (handle : String)
  | noContent (found : TokenKind)
  | noBlockEnd (found : TokenKind)
  | noFlowSequenceEnd (found : TokenKind)
  | noFlowMappingEnd (found : TokenKind)
  deriving DecidableEq, Repr

/-- A token's name in quotes. -/
def shownToken (found : TokenKind) : String := Text.quoted found.name

/-- A grammatical fault in words. -/
def GrammarFault.message : GrammarFault → String
  | .noDocumentStart found => "expected '<document start>', but found " ++ shownToken found
  | .duplicateVersion => "found duplicate YAML directive"
  | .unknownVersion => "found incompatible YAML document (version 1.* is required)"
  | .duplicateHandle handle => "duplicate tag handle " ++ Text.quoted handle
  | .undefinedHandle handle => "found undefined tag handle " ++ Text.quoted handle
  | .noContent found => "expected the node content, but found " ++ shownToken found
  | .noBlockEnd found => "expected <block end>, but found " ++ shownToken found
  | .noFlowSequenceEnd found => "expected ',' or ']', but got " ++ shownToken found
  | .noFlowMappingEnd found => "expected ',' or '\x7d', but got " ++ shownToken found

/-- Why the references of a document lead nowhere. -/
inductive ReferenceFault
  | undefinedAlias (name : String)
  | duplicateAnchor (name : String)
  | secondDocument
  deriving DecidableEq, Repr

/-- A fault of reference in words. -/
def ReferenceFault.message : ReferenceFault → String
  | .undefinedAlias name => "found undefined alias " ++ Text.quoted name
  | .duplicateAnchor _ => "second occurrence"
  | .secondDocument => "but found another document"

/-- What led to a fault of reference. -/
def ReferenceFault.context : ReferenceFault → Option String
  | .undefinedAlias _ => none
  | .duplicateAnchor name =>
    some ("found duplicate anchor " ++ Text.quoted name ++ "; first occurrence")
  | .secondDocument => some "expected a single document in the stream"

/-- A fault at its place, and the place where what it ends was begun. -/
structure Located (Cause : Type) where
  cause : Cause
  place : Mark
  begun : Option Mark
  deriving DecidableEq, Repr

/-- Two marks and their texts, one paragraph each.  The first mark is left out when a
reader could not tell it from the second. -/
def report (source : Source) (context : Option String) (begun : Option Mark) (problem : String)
    (place : Mark) : String :=
  let begun := begun.filter fun m => !(m.samePlace place)
  "\n".intercalate (context.toList ++ (begun.map source.place).toList
    ++ [problem, source.place place])

/-- Why a text has no form. -/
inductive FormFault
  /-- A character that no document may hold, and its position. -/
  | forbidden (c : Char) (position : Nat)
  | lexical (activity : Option Activity) (fault : Located LexicalFault)
  /-- An escape names a number that is no code point. -/
  | notCodePoint (code : Nat)
  /-- A number of a directive cannot be converted. -/
  | number (fault : NumberFault)
  | grammatical (construct : Option Construct) (fault : Located GrammarFault)
  | referential (fault : Located ReferenceFault)
  deriving DecidableEq, Repr

/-- A fault of form in words. -/
def FormFault.message (source : Source) : FormFault → String
  | .forbidden c position =>
    "unacceptable character #x" ++ String.ofList (Text.hex 4 c.toNat)
      ++ ": special characters are not allowed\n  in \"" ++ source.name ++ "\", position "
      ++ toString position
  | .lexical activity f =>
    report source (activity.map Activity.message) f.begun f.cause.message f.place
  | .notCodePoint code =>
    if code < 0x80000000 then "chr() arg not in range(0x110000)"
    else "Python int too large to convert to C int"
  | .number fault => fault.message
  | .grammatical construct f =>
    report source (construct.map Construct.message) f.begun f.cause.message f.place
  | .referential f => report source f.cause.context f.begun f.cause.message f.place

end ComposeNix.Yaml
