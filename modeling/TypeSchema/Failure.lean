import TypeSchema.Shape

/-!
# Places and failures

A place is a declaration and the path of member steps below it. A failure is a cause at a place; the
wording of every cause is in `Cause.detail`.
-/

namespace TypeSchema

structure Place where
  declaration : Option String
  path : List String
deriving DecidableEq, Repr

namespace Place

/-- Where nothing is being resolved for a declaration. -/
def nowhere : Place := ⟨none, []⟩

def top (declaration : String) : Place := ⟨some declaration, []⟩

/-- One labelled step down; a step without label stays where it is. -/
def under (place : Place) : Option String → Place
  | none => place
  | some label => { place with path := place.path ++ [label] }

/-- Steps in brackets follow directly, all others after a point. -/
def stepText (label : String) : String :=
  if label.startsWith "[" then label else "." ++ label

def text (place : Place) : String :=
  let root := match place.declaration with
    | none | some "" => "<anonymous>"
    | some name => name
  root ++ String.join (place.path.map stepText)

end Place

/-- What is wrong with a node that has no schema. Nodes are named by their display text. -/
inductive Problem where
  | unhandled (display : String)
  | notPrimitive (display : String)
  | literalWithoutValue (display : String)
  | literalNotScalar (display : String)
  | memberNotLiteral (display : String)
  | function (display : String)
  | described (words : String)
deriving DecidableEq, Repr

namespace Problem

def detail : Problem → String
  | .unhandled s => "unhandled type '" ++ s ++ "'"
  | .notPrimitive s => "'" ++ s ++ "' is not a primitive"
  | .literalWithoutValue s => "literal '" ++ s ++ "' has no value"
  | .literalNotScalar s => "literal '" ++ s ++ "' is not a scalar"
  | .memberNotLiteral s => "enum member '" ++ s ++ "' is not a literal"
  | .function s => "function type '" ++ s ++ "' has no JSON Schema representation"
  | .described words => words

end Problem

inductive Cause where
  /-- A resolution that failed for a reason in the words of the caller. -/
  | unresolved (words : String)
  | unclassified (problem : Problem)
  | unsupportedPrimitive (kind : String)
  | depthExceeded (limit : Int)
deriving DecidableEq, Repr

namespace Cause

def detail : Cause → String
  | .unresolved words => words
  | .unclassified problem => problem.detail
  | .unsupportedPrimitive kind => "unsupported primitive type '" ++ kind ++ "'"
  | .depthExceeded limit => "maximum resolution depth " ++ toString limit ++ " exceeded"

end Cause

structure Failure where
  cause : Cause
  place : Place
deriving DecidableEq, Repr

namespace Failure

def message (f : Failure) : String := f.place.text ++ ": " ++ f.cause.detail

end Failure

end TypeSchema
