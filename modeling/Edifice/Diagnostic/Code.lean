/-!
The kinds of problem that a diagnostic reports, each with a code.

Codes that start with `E` are errors and end the reading of a source; those that start
with `W` are warnings.
-/

namespace Edifice

inductive ProblemKind where
  | lex
  | grammar
  | unknownIdentifier
  | duplicateIdentifier
  | duplicateRelationship
  | illegalCapability
  | semantic
  | internalConsistency
  | advisory
deriving DecidableEq, Repr

def ProblemKind.name : ProblemKind → String
  | .lex => "Lex"
  | .grammar => "Grammar"
  | .unknownIdentifier => "UnknownIdentifier"
  | .duplicateIdentifier => "DuplicateIdentifier"
  | .duplicateRelationship => "DuplicateRelationship"
  | .illegalCapability => "IllegalCapability"
  | .semantic => "Semantic"
  | .internalConsistency => "InternalConsistency"
  | .advisory => "Advisory"

/-- What a diagnostic is about. -/
inductive Code where
  | unterminatedString
  | unterminatedComment
  | unreadableInclude
  | includeRefused
  | unexpectedStatement
  | tooManyTokens
  | missingTokens
  | unclosedBlock
  | unexpectedClosing
  | invalidValue
  | unknownIdentifier
  | duplicateIdentifier
  | invalidIdentifier
  | wrongIdentifier
  | duplicateElement
  | duplicateRelationship
  | unsupportedByElement
  | illegalNesting
  | illegalRelationship
  | notPermittedInView
  | invalidView
  | noBackingRelationship
  | invalidMetadata
  | invalidDecision
  | inconsistency
  | unknownStyleProperty
  | unknownReservedProperty
  | undefinedConstant
deriving DecidableEq, Repr

namespace Code

def all : List Code :=
  [.unterminatedString, .unterminatedComment, .unreadableInclude, .includeRefused,
    .unexpectedStatement, .tooManyTokens, .missingTokens, .unclosedBlock, .unexpectedClosing,
    .invalidValue, .unknownIdentifier, .duplicateIdentifier, .invalidIdentifier,
    .wrongIdentifier, .duplicateElement, .duplicateRelationship, .unsupportedByElement,
    .illegalNesting, .illegalRelationship, .notPermittedInView, .invalidView,
    .noBackingRelationship, .invalidMetadata, .invalidDecision, .inconsistency,
    .unknownStyleProperty, .unknownReservedProperty, .undefinedConstant]

def toString : Code → String
  | .unterminatedString => "E001"
  | .unterminatedComment => "E002"
  | .unreadableInclude => "E003"
  | .includeRefused => "E004"
  | .unexpectedStatement => "E100"
  | .tooManyTokens => "E101"
  | .missingTokens => "E102"
  | .unclosedBlock => "E103"
  | .unexpectedClosing => "E104"
  | .invalidValue => "E105"
  | .unknownIdentifier => "E200"
  | .duplicateIdentifier => "E201"
  | .invalidIdentifier => "E202"
  | .wrongIdentifier => "E203"
  | .duplicateElement => "E300"
  | .duplicateRelationship => "E301"
  | .unsupportedByElement => "E302"
  | .illegalNesting => "E303"
  | .illegalRelationship => "E304"
  | .notPermittedInView => "E305"
  | .invalidView => "E306"
  | .noBackingRelationship => "E307"
  | .invalidMetadata => "E308"
  | .invalidDecision => "E309"
  | .inconsistency => "E900"
  | .unknownStyleProperty => "W001"
  | .unknownReservedProperty => "W002"
  | .undefinedConstant => "W003"

def description : Code → String
  | .unterminatedString => "unterminated string"
  | .unterminatedComment => "unterminated block comment"
  | .unreadableInclude => "unreadable include"
  | .includeRefused => "include not permitted"
  | .unexpectedStatement => "unexpected statement"
  | .tooManyTokens => "too many tokens"
  | .missingTokens => "missing tokens"
  | .unclosedBlock => "unclosed block"
  | .unexpectedClosing => "unexpected closing brace"
  | .invalidValue => "invalid value"
  | .unknownIdentifier => "unknown identifier"
  | .duplicateIdentifier => "duplicate identifier"
  | .invalidIdentifier => "invalid identifier"
  | .wrongIdentifier => "wrong kind of identifier"
  | .duplicateElement => "duplicate element"
  | .duplicateRelationship => "duplicate relationship"
  | .unsupportedByElement => "unsupported by this element"
  | .illegalNesting => "illegal nesting"
  | .illegalRelationship => "illegal relationship"
  | .notPermittedInView => "not permitted in this view"
  | .invalidView => "invalid view"
  | .noBackingRelationship => "no backing relationship"
  | .invalidMetadata => "invalid item metadata"
  | .invalidDecision => "invalid decision record"
  | .inconsistency => "internal consistency"
  | .unknownStyleProperty => "unknown style property"
  | .unknownReservedProperty => "unknown reserved property"
  | .undefinedConstant => "undefined constant"

def kind : Code → ProblemKind
  | .unterminatedString | .unterminatedComment => .lex
  | .unexpectedStatement | .tooManyTokens | .missingTokens | .unclosedBlock
  | .unexpectedClosing | .invalidValue | .invalidIdentifier => .grammar
  | .unknownIdentifier => .unknownIdentifier
  | .duplicateIdentifier | .duplicateElement => .duplicateIdentifier
  | .duplicateRelationship => .duplicateRelationship
  | .wrongIdentifier | .unsupportedByElement | .illegalNesting | .notPermittedInView =>
    .illegalCapability
  | .unreadableInclude | .includeRefused | .illegalRelationship | .invalidView
  | .noBackingRelationship | .invalidMetadata | .invalidDecision => .semantic
  | .inconsistency => .internalConsistency
  | .unknownStyleProperty | .unknownReservedProperty | .undefinedConstant => .advisory

end Code

end Edifice
