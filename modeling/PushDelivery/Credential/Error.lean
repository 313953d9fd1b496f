namespace PushDelivery

inductive CredentialError where
  /-- A file cannot be read. -/
  | io (path cause : String)
  /-- The text is no PEM. -/
  | pem
  | missing (what : String)
  /-- The key is not one that can be used. -/
  | rejected
  | signing
deriving DecidableEq, Repr

namespace CredentialError

def message? : CredentialError → Option String
  | io path cause => some ("Failed to read credentials from " ++ path ++ ": " ++ cause)
  | missing what => some ("No " ++ what ++ " found in PEM data")
  | signing => some "Signing failed"
  | pem | rejected => none

end CredentialError

end PushDelivery
