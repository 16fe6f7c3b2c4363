import DocStore.Cell
import DocStore.Condition.Operator
import DocStore.Text.Quoted

/-!
# Errors

An error is a cause. Causes are grouped by who finds the fault: the
arguments of a call are refused before anything is sent (`Refusal`), a
row is not a document (`Malformation`), the configuration is unusable
(`ConfigFault`), or a statement fails while it is carried out
(`ExecutionFault`). What a database outside of this library reports is
kept as it is, with its kind.

The wording of all of them is in this module: `DbError.detail` for the
cause and `ErrorKind.message` for the sentence around it.
-/

namespace DocStore

/-! ## Kinds -/

/-- The kinds that a caller can tell apart. -/
inductive ErrorKind where
  | invalidArgument
  | execution
  | malformedDocument
  | entityNotFound
  | documentNotFound
  | config
  | lock
deriving Repr, DecidableEq

/-- The sentence around the detail of an error. -/
def ErrorKind.message (detail : String) : ErrorKind → String
  | .invalidArgument => s!"Invalid argument: {detail}"
  | .execution => s!"Execution error: {detail}"
  | .malformedDocument => s!"Malformed document: {detail}"
  | .entityNotFound => s!"Entity '{detail}' not found"
  | .documentNotFound => s!"Document '{detail}' not found"
  | .config => s!"Configuration error: {detail}"
  | .lock => s!"Lock error: {detail}"

/-! ## Causes -/

/-- Why the arguments of a call are refused. -/
inductive Refusal where
  | severalOperators (key : String)
  /-- The key of a condition is blank but for an operator. -/
  | noProperty (key : String)
  /-- A null value has no order. -/
  | nullOrdering (operator : Operator)
  /-- A part of a dotted path is blank. -/
  | badPath (path : String)
  /-- A boolean or an array is no condition. -/
  | unsupportedCondition (input : Json)
  | severalPatches (keys : List String)
  | patchWithFields (key : String)
  | unknownPatch (key : String)
  /-- A patch needs an object with one member. -/
  | notOnePath (key : String) (argument : Json)
  | notARemovePath (argument : Json)
  | notAnObject (document : Json)
  | documentNotAnObject
  | keyNotScalar (key : Json)
  | emptyGeneratedId
  | keyMissing (primaryKey : String)
  | unknownOperation (name : String)
  | badCollection (name : String)
  | nothingToSearch
  | argumentCount (function : String) (expected given : Nat)

/-- Why a row is not a document. -/
inductive Malformation where
  | noColumn (name : String)
  | bodyType (typeName : String)
  | bodyNotAnObject (body : Json)
  | notJson

/-- Why a configuration is unusable. -/
inductive ConfigFault where
  | noConnection
  | emptyConnection
  | emptyDefaultSchema
  | zeroFindLimit
  | zeroTimeout
deriving Repr, DecidableEq

/-- Why a statement, or reading the catalog, fails. -/
inductive ExecutionFault where
  | timedOut (after url : String)
  | catalogColumn (column : String)
  | paramCountText (text : String)
  | paramCountCell (cell : Cell)
  | duplicateKey (id : String)
  | noRelation (name : String)
  | nullBody
  /-- A parameter has another type than the statement needs. -/
  | wrongParameter (ordinal : Nat)
  | unsupportedStatement (sql : String)
  | unsupportedUpdate (sql : String)
  | unsupportedPredicate (clause : String)
  | unsupportedExpression
  | notAnIndex (segment : String)
  | existingKey

inductive DbError where
  | invalid (refusal : Refusal)
  | malformed (malformation : Malformation)
  | config (fault : ConfigFault)
  | execution (fault : ExecutionFault)
  | entityNotFound (path : String)
  | documentNotFound (id : String)
  | reported (kind : ErrorKind) (detail : String)

/-! ## Wording -/

def Refusal.detail : Refusal → String
  | .severalOperators key => s!"Condition key '{key}' contains more than one operator"
  | .noProperty key => s!"Condition key '{key}' does not name a property"
  | .nullOrdering operator => s!"Operator '{operator.sql}' cannot be used with a null value"
  | .badPath path => s!"Invalid document path '{path}'"
  | .unsupportedCondition input => s!"Unsupported condition: {input.text}"
  | .severalPatches keys =>
    s!"Only one patch operation is allowed per update, got {Text.quotedList keys}"
  | .patchWithFields key => s!"'{key}' cannot be combined with other fields"
  | .unknownPatch key => s!"Unknown patch operation '{key}'"
  | .notOnePath key argument =>
    s!"'{key}' expects an object with exactly one path, got {argument.text}"
  | .notARemovePath argument => s!"'$remove' expects a path, got {argument.text}"
  | .notAnObject document =>
    s!"Please pass in the document for saving as an object, got {document.text}"
  | .documentNotAnObject => "Please pass in the document for saving as an object"
  | .keyNotScalar key => s!"Primary key must be a scalar, got {key.text}"
  | .emptyGeneratedId => "Id generator produced an empty id"
  | .keyMissing primaryKey => s!"Update requires the primary key '{primaryKey}'"
  | .unknownOperation name => s!"Operation must be either 'update' or 'insert', got '{name}'"
  | .badCollection name => s!"Collection must be 'table' or 'schema.table', got '{name}'"
  | .nothingToSearch => "Need the keys to use and the term string"
  | .argumentCount function expected given =>
    s!"Function '{function}' takes {expected} argument(s), got {given}"

def Malformation.detail : Malformation → String
  | .noColumn name => s!"row has no '{name}' column"
  | .bodyType typeName => s!"body has type {typeName}"
  | .bodyNotAnObject body => s!"body is not a JSON object: {body.text}"
  | .notJson => "text is not JSON"

def ConfigFault.detail : ConfigFault → String
  | .noConnection => "Need a connection string or database name"
  | .emptyConnection => "Connection string cannot be empty"
  | .emptyDefaultSchema => "default_schema cannot be empty"
  | .zeroFindLimit => "find_limit must be > 0"
  | .zeroTimeout => "connect_timeout must be > 0"

def ExecutionFault.detail : ExecutionFault → String
  | .timedOut after url => s!"Timed out after {after} connecting to {url}"
  | .catalogColumn column => s!"Catalog row is missing text column '{column}'"
  | .paramCountText text => s!"Invalid param_count '{text}' in function catalog"
  | .paramCountCell cell => s!"Invalid param_count {cell.display} in function catalog"
  | .duplicateKey id => s!"duplicate key value {id}"
  | .noRelation name => s!"relation {name} does not exist"
  | .nullBody => "null value in column \"body\" violates not-null constraint"
  | .wrongParameter ordinal => s!"param {ordinal} has the wrong type"
  | .unsupportedStatement sql => s!"unsupported statement: {sql}"
  | .unsupportedUpdate sql => s!"unsupported update: {sql}"
  | .unsupportedPredicate clause => s!"unsupported predicate: {clause}"
  | .unsupportedExpression => "unsupported expression"
  | .notAnIndex segment => s!"path element \"{segment}\" is not an integer"
  | .existingKey => "cannot replace existing key"

namespace DbError

def kind : DbError → ErrorKind
  | .invalid _ => .invalidArgument
  | .malformed _ => .malformedDocument
  | .config _ => .config
  | .execution _ => .execution
  | .entityNotFound _ => .entityNotFound
  | .documentNotFound _ => .documentNotFound
  | .reported kind _ => kind

def detail : DbError → String
  | .invalid refusal => refusal.detail
  | .malformed malformation => malformation.detail
  | .config fault => fault.detail
  | .execution fault => fault.detail
  | .entityNotFound path => path
  | .documentNotFound id => id
  | .reported _ detail => detail

def message (e : DbError) : String := e.kind.message e.detail

end DbError

end DocStore
