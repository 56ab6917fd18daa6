import RpcDaemon.Http.Date
import RpcDaemon.Http.Status
import RpcDaemon.Text.Utf8

/-!
# HTTP replies

Two kinds of reply: a status with a JSON body, which says whether the connection stays open, and
the challenge for credentials, an HTML page that ends the connection. A reply is rendered at a
moment, whose date it carries.
-/

namespace RpcDaemon

namespace Http

/-- A reply. -/
inductive Reply where
  /-- A status with a body. -/
  | json (status : Nat) (body : String) (keepAlive : Bool)
  /-- The challenge for credentials. -/
  | challenge
deriving DecidableEq

/-- The name and version that replies give. -/
def serverName : String := "clam-json-rpc/0.1.0"

/-- The page that comes with the challenge. -/
def challengePage : String :=
  "<!DOCTYPE HTML PUBLIC \"-//W3C//DTD HTML 4.01 Transitional//EN\"\r\n" ++
    "\"http://www.w3.org/TR/1999/REC-html401-19991224/loose.dtd\">\r\n" ++
    "<HTML>\r\n" ++
    "<HEAD>\r\n" ++
    "<TITLE>Error</TITLE>\r\n" ++
    "<META HTTP-EQUIV='Content-Type' CONTENT='text/html; charset=ISO-8859-1'>\r\n" ++
    "</HEAD>\r\n" ++
    "<BODY><H1>401 Unauthorized.</H1></BODY>\r\n" ++
    "</HTML>\r\n"

namespace Reply

/-- The reply with a status and a body; status 401 is the challenge. -/
def of (status : Nat) (body : String) (keepAlive : Bool) : Reply :=
  if status = 401 then .challenge else .json status body keepAlive

/-- The reply that has a status only and ends the connection. -/
def closing (status : Nat) : Reply := .of status "" false

/-- The status of a reply. -/
def status : Reply → Nat
  | .json s _ _ => s
  | .challenge => 401

/-- The body of a reply. -/
def body : Reply → String
  | .json _ b _ => b
  | .challenge => challengePage

/-- Whether the reply says that the connection stays open. -/
def keepAlive : Reply → Bool
  | .json _ _ k => k
  | .challenge => false

/-- The line end. -/
def crlf : List Char := ['\r', '\n']

/-- The lines before the body, each with its end. -/
def headLines (secs : Nat) : Reply → List (List Char)
  | .json status body keepAlive =>
      ["HTTP/1.1 ".toList ++ Numeral.ofNat status ++ ' ' :: (reason status).toList,
        "Date: ".toList ++ dateChars secs,
        "Connection: ".toList ++ (if keepAlive then "keep-alive".toList else "close".toList),
        "Content-Length: ".toList ++ Numeral.ofNat (Utf8.ofString body).length,
        "Content-Type: application/json".toList,
        "Server: ".toList ++ serverName.toList]
  | .challenge =>
      ["HTTP/1.0 401 Authorization Required".toList,
        "Date: ".toList ++ dateChars secs,
        "Server: ".toList ++ serverName.toList,
        "WWW-Authenticate: Basic realm=\"jsonrpc\"".toList,
        "Content-Type: text/html".toList,
        "Content-Length: ".toList ++ Numeral.ofNat (Utf8.ofString challengePage).length]

/-- The text of a reply written at `secs`. -/
def chars (secs : Nat) (r : Reply) : List Char :=
  (r.headLines secs).flatMap (fun line => line ++ crlf) ++ crlf ++ r.body.toList

/-- The bytes of a reply written at `secs`. -/
def render (secs : Nat) (r : Reply) : List UInt8 :=
  Utf8.encode (r.chars secs)

end Reply

end Http

end RpcDaemon
