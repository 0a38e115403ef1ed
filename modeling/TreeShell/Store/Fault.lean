/-!
# Faults of the store

Why an operation on the store fails. Each fault names the path, or gives the reason.
-/

namespace TreeShell.Store

/-- Why an operation fails, and on what. -/
inductive Fault
  | notFound (path : String)
  | permissionDenied (subject : String)
  | alreadyExists (path : String)
  | invalidArgument (reason : String)
  | notDirectory (path : String)
  | isDirectory (path : String)
  | directoryNotEmpty (path : String)
  | internal (reason : String)
deriving DecidableEq, Repr

namespace Fault

/-- The wording of a fault. -/
def message : Fault → String
  | notFound p => "not found: " ++ p
  | permissionDenied p => "permission denied: " ++ p
  | alreadyExists p => "already exists: " ++ p
  | invalidArgument r => "invalid argument: " ++ r
  | notDirectory p => "not a directory: " ++ p
  | isDirectory p => "is a directory: " ++ p
  | directoryNotEmpty p => "directory not empty: " ++ p
  | internal r => "internal error: " ++ r

/-- The kind of a fault. -/
def kind : Fault → String
  | notFound _ => "NotFound"
  | permissionDenied _ => "PermissionDenied"
  | alreadyExists _ => "AlreadyExists"
  | invalidArgument _ => "InvalidArgument"
  | notDirectory _ => "NotDirectory"
  | isDirectory _ => "IsDirectory"
  | directoryNotEmpty _ => "DirectoryNotEmpty"
  | internal _ => "Internal"

/-- The path or reason that a fault holds. -/
def subject : Fault → String
  | notFound p => p
  | permissionDenied p => p
  | alreadyExists p => p
  | invalidArgument r => r
  | notDirectory p => p
  | isDirectory p => p
  | directoryNotEmpty p => p
  | internal r => r

/-- Whether something is missing. -/
def isNotFound : Fault → Bool
  | notFound _ => true
  | _ => false

/-- Whether something is in the way. -/
def isAlreadyExists : Fault → Bool
  | alreadyExists _ => true
  | _ => false

end Fault

end TreeShell.Store
