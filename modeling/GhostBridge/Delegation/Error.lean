import GhostBridge.Ecma.Text

/-!
# Errors of delegated data
-/

namespace GhostBridge.Delegation

open Ecma

structure DataError where
  code : String
  message : String
  path : Text
deriving DecidableEq

def dataError (code message : String) (path : Text := ascii "$") : DataError := ⟨code, message, path⟩

abbrev Checked (α : Type) := Except DataError α

end GhostBridge.Delegation
