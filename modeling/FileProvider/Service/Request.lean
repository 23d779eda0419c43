import FileProvider.Service.Listing
import FileProvider.Service.Move
import FileProvider.Service.Query

/-!
# Requests

The operations of a service that are given URIs, as values: which URIs a request is given, how it is run, and
what stands in for its answer when it fails.
-/

set_option autoImplicit false

namespace FileProvider

namespace Service

/-- A request that names entries by URI, indexed by the type of its answer. -/
inductive Request : Type → Type where
  | openFile (uri : String) (bits : UInt32) : Request Descriptor
  | createFile (parent name : String) : Request String
  | createDir (parent name : String) : Request String
  | delete (uri : String) : Request Unit
  | moveFile (source target : String) : Request String
  | rename (uri name : String) : Request String
  | access (uri : String) : Request Bool
  | list (uri : String) (offset count : Nat) (filter : Option Filter) : Request (List Document)
  | info (uri : String) : Request Document
  | query (uri : String) (columns : List String) : Request (List String)

namespace Request

variable {σ η α : Type}

/-- The URIs that a request is given. -/
def uris : Request α → List String
  | .openFile uri _ => [uri]
  | .createFile parent _ => [parent]
  | .createDir parent _ => [parent]
  | .delete uri => [uri]
  | .moveFile source target => [source, target]
  | .rename uri _ => [uri]
  | .access uri => [uri]
  | .list uri _ _ _ => [uri]
  | .info uri => [uri]
  | .query uri _ => [uri]

/-- What a failed request answers with. -/
def empty : Request α → α
  | .openFile _ _ => -1
  | .createFile _ _ => ""
  | .createDir _ _ => ""
  | .delete _ => ()
  | .moveFile _ _ => ""
  | .rename _ _ => ""
  | .access _ => false
  | .list _ _ _ _ => []
  | .info _ => .empty
  | .query _ _ => []

/-- Runs a request on a service over the filesystem `b`. -/
def run (b : Backend σ η) : Request α → Op σ η α
  | .openFile uri bits => Service.openFile b uri bits
  | .createFile parent name => Service.createFile b parent name
  | .createDir parent name => Service.createDir b parent name
  | .delete uri => Service.delete b uri
  | .moveFile source target => Service.moveFile b source target
  | .rename uri name => Service.rename b uri name
  | .access uri => Service.access b uri
  | .list uri offset count filter => Service.listFiles b uri offset count filter
  | .info uri => Service.fileInfo b uri
  | .query uri columns => Service.query b uri columns

/-- Runs a request and answers. -/
def reply (b : Backend σ η) (r : Request α) (s : Service σ η) : Option (Reply α × Service σ η) :=
  Reply.ofRun r.empty (r.run b) s

end Request

end Service

end FileProvider
