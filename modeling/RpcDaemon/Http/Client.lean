import RpcDaemon.Http.Reply
import RpcDaemon.Http.Request

/-!
# The client's side of HTTP

How a client writes requests and reads replies off a byte stream: a status line, headers up to the
first empty line, and a body of the length that `Content-Length` gives.
-/

namespace RpcDaemon

namespace Http

/-- A request as a client composes it; the header names keep their case. -/
structure Message where
  /-- The method. -/
  method : String
  /-- The target. -/
  uri : String
  /-- The number after `HTTP/1.`. -/
  minorVersion : Nat
  /-- The headers in order. -/
  headers : List (String × String)
  /-- The body. -/
  body : List UInt8

namespace Message

/-- The lines before the body, each with its end, and the empty line. -/
def headChars (m : Message) : List Char :=
  m.method.toList ++ ' ' :: m.uri.toList ++ " HTTP/1.".toList ++ Numeral.ofNat m.minorVersion
    ++ Reply.crlf
    ++ m.headers.flatMap (fun h => h.1.toList ++ ':' :: ' ' :: h.2.toList ++ Reply.crlf)
    ++ Reply.crlf

/-- The bytes of a request. -/
def render (m : Message) : List UInt8 :=
  Utf8.encode m.headChars ++ m.body

/-- A call: a POST to the root with the authorization and the length of the body. -/
def post (authorization : String) (body : List UInt8) : Message where
  method := "POST"
  uri := "/"
  minorVersion := 1
  headers := [("Authorization", authorization), ("Content-Length", decimal body.length)]
  body := body

end Message

/-- A reply as a client reads it. -/
structure Received where
  /-- The status. -/
  status : Nat
  /-- The headers in order. -/
  headers : List (String × String)
  /-- The body. -/
  body : List UInt8
deriving DecidableEq

namespace Received

/-- A line of any length and what follows it. -/
def cut (s : List UInt8) : List Char × List UInt8 :=
  let (line, rest) := cutLine s.length s
  (Utf8.decodeLossy line, rest)

/-- The headers up to the first empty line, and what follows it; `fuel` bounds the lines. -/
def readHeaders : Nat → List UInt8 → List (String × String) × List UInt8
  | 0, s => ([], s)
  | fuel + 1, s =>
      let (line, rest) := cut s
      let line := Chars.trimEndWhile isBlank line
      if line.isEmpty then ([], rest)
      else
        let (headers, rest) := readHeaders fuel rest
        match Chars.splitFirst? ':' line with
        | some (name, value) =>
            ((String.ofList (Chars.trim name), String.ofList (Chars.trim value)) :: headers, rest)
        | none => (headers, rest)

/-- The length of the body that the first `Content-Length` gives, 0 without one. -/
def bodyLength (headers : List (String × String)) : Nat :=
  match headers.find? fun h => sameIgnoringCase h.1 "content-length" with
  | some h => (Numeral.nat? h.2.toList).getD 0
  | none => 0

/-- Reads one reply and leaves what follows it. -/
def read? (s : List UInt8) : Option (Received × List UInt8) :=
  let (line, rest) := cut s
  match Chars.words line with
  | _ :: code :: _ =>
      match Numeral.unsigned? 65536 code with
      | none => none
      | some status =>
          let (headers, rest) := readHeaders (rest.length + 1) rest
          let length := bodyLength headers
          if rest.length < length then none
          else some (⟨status, headers, rest.take length⟩, rest.drop length)
  | _ => none

/-- Reads `n` replies. -/
def readMany? : Nat → List UInt8 → Option (List Received × List UInt8)
  | 0, s => some ([], s)
  | n + 1, s =>
      match read? s with
      | none => none
      | some (r, rest) => (readMany? n rest).map fun p => (r :: p.1, p.2)

end Received

end Http

end RpcDaemon
