import RpcDaemon.Text.Base64
import RpcDaemon.Text.Blank
import RpcDaemon.Text.Utf8

/-!
# Credentials

Basic authentication with one user and password. The header value has to start with `Basic ` and
go on, up to blanks at either end, with the canonical Base64 text of user, colon and password.
-/

namespace RpcDaemon

/-- The configured user and password. -/
structure Credentials where
  /-- The user. -/
  user : String
  /-- The password. -/
  password : String

namespace Credentials

/-- A password of fewer bytes than this is weak. -/
def weakBelow : Nat := 20

/-- The bytes that an accepted header encodes. -/
def secret (c : Credentials) : List UInt8 :=
  Utf8.encode (c.user.toList ++ ':' :: c.password.toList)

/-- Whether an `Authorization` value is accepted. -/
def accepts (c : Credentials) (header : String) : Bool :=
  match Chars.dropHead? "Basic ".toList header.toList with
  | some encoded =>
      match Base64.decode? (Chars.trim encoded) with
      | some bytes => bytes == c.secret
      | none => false
  | none => false

/-- Whether failed logins are slowed down. -/
def isWeak (c : Credentials) : Bool :=
  decide ((Utf8.ofString c.password).length < weakBelow)

/-- The header value that presents the credentials. -/
def header (c : Credentials) : String :=
  String.ofList ("Basic ".toList ++ Base64.encode c.secret)

/-- The description of credentials shows nothing of them. -/
def describe (_ : Credentials) : String :=
  "RpcCredentials \x7b .. \x7d"

end Credentials

end RpcDaemon
