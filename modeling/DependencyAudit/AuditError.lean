/-
# DependencyAudit.AuditError -- why an audit fails

Every failure names the artifact, class or file it comes from.  Where the system or
a format has words of its own for what went wrong, `message` takes them as the
cause.
-/
import DependencyAudit.Artifact.Id
import DependencyAudit.ClassFile.Error
import DependencyAudit.Path
import DependencyAudit.ReferenceGraph

namespace DependencyAudit

set_option autoImplicit false

/-- Why the classes of an artifact cannot be listed. -/
inductive ListingFault where
  | missing
  | notDirectory
  | unreadable
deriving Repr, DecidableEq

def ListingFault.message (cause : String) : ListingFault → String
  | .missing => "file does not exist"
  | .notDirectory => "not a directory"
  | .unreadable => cause

/-- Why an audit fails. -/
inductive AuditError where
  | artifact (id : ArtifactId) (file : Path) (fault : ListingFault)
  | graph (file : Path) (error : GraphError)
  | classFile (file : Path) (error : ClassFileError)
  | reportWrite (file : Path)
  | reportRead (file : Path)
  | manifest (file : Path)
  | configuration (name : String)
  | unreadable (file : Path)
deriving Repr, DecidableEq

def AuditError.message (cause : String) : AuditError → String
  | .artifact id file fault =>
      "Unable to analyze artifact " ++ id.display ++ " (" ++ file.text ++ "): " ++
        fault.message cause
  | .graph file error =>
      "Malformed reference graph " ++ file.text ++ " at line " ++ toString error.line ++ ": " ++
        error.fault.message
  | .classFile file error => "Unable to analyze class file " ++ file.text ++ ": " ++ error.message
  | .reportWrite file => "Failed to write dependency report " ++ file.text ++ ": " ++ cause
  | .reportRead file => "Failed to read dependency report " ++ file.text ++ ": " ++ cause
  | .manifest file => "Invalid resolution manifest " ++ file.text ++ ": " ++ cause
  | .configuration name => "Unknown configuration '" ++ name ++ "'"
  | .unreadable file => "I/O error at " ++ file.text ++ ": " ++ cause

end DependencyAudit
