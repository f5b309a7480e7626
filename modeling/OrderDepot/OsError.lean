/-!
Errors of the operating system, by number and text.
-/

namespace OrderDepot

structure OsError where
  code : Nat
  text : String
  deriving DecidableEq, Repr

namespace OsError

def message (e : OsError) : String :=
  s!"{e.text} (os error {e.code})"

def noSuchFile : OsError := ⟨2, "No such file or directory"⟩

def permissionDenied : OsError := ⟨13, "Permission denied"⟩

def notDirectory : OsError := ⟨20, "Not a directory"⟩

def isDirectory : OsError := ⟨21, "Is a directory"⟩

def nameTooLong : OsError := ⟨36, "File name too long"⟩

def tooManyLinks : OsError := ⟨40, "Too many levels of symbolic links"⟩

def networkUnreachable : OsError := ⟨101, "Network is unreachable"⟩

def all : List OsError :=
  [noSuchFile, permissionDenied, notDirectory, isDirectory, nameTooLong, tooManyLinks, networkUnreachable]

def ofCode (code : Nat) : OsError :=
  (all.find? (·.code = code)).getD ⟨code, s!"Unknown error {code}"⟩

end OsError

end OrderDepot
