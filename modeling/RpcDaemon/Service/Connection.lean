import RpcDaemon.Access.AllowList
import RpcDaemon.Access.Credentials
import RpcDaemon.Http.Request
import RpcDaemon.Service.Body
import RpcDaemon.Tls.Mode
import RpcDaemon.Tls.Record

/-!
# Serving a connection

A connection is judged by the address of the peer, then by the TLS mode, and then its requests are
answered one after the other. Each request has to ask for the root and to bring credentials of its
own; the first that does not, and the first whose reply says so, ends the connection.
-/

namespace RpcDaemon

/-- What a connection is served with. -/
structure Service (σ : Type) where
  /-- The commands. -/
  table : Table σ
  /-- The user and password. -/
  credentials : Credentials
  /-- The peers that may connect. -/
  allowList : AllowList
  /-- The TLS mode. -/
  tls : TlsMode
  /-- The greatest length of a body. -/
  maxBody : Nat

/-- What a peer sends: bytes, either plain or within TLS. -/
inductive Inbound where
  /-- Plain bytes. -/
  | plain (bytes : List UInt8)
  /-- The bytes that a TLS client sends once the handshake is done. -/
  | secured (bytes : List UInt8)

/-- Something that is sent to a peer. -/
inductive Sent where
  /-- A reply. -/
  | reply (r : Http.Reply)
  /-- The alert that refuses a handshake. -/
  | tlsAlert
deriving DecidableEq

/-- The bytes of the alert: a fatal decoding error. -/
def tlsAlertBytes : List UInt8 := [21, 3, 3, 0, 2, 2, 50]

/-- The bytes of what is sent at the moment `secs`. -/
def Sent.bytes (secs : Nat) : Sent → List UInt8
  | .reply r => r.render secs
  | .tlsAlert => tlsAlertBytes

/-- How a connection went. -/
structure Served (σ : Type) where
  /-- What was sent, in order. -/
  sent : List Sent
  /-- Milliseconds spent on slowing a failed login down. -/
  delay : Nat
  /-- The state afterwards. -/
  world : World σ

/-- The milliseconds that a failed login waits when the password is weak. -/
def weakDelay : Nat := 250

namespace Served

variable {σ : Type}

/-- Nothing is sent. -/
def silent (w : World σ) : Served σ :=
  ⟨[], 0, w⟩

/-- One reply is sent. -/
def one (r : Http.Reply) (w : World σ) : Served σ :=
  ⟨[.reply r], 0, w⟩

/-- A reply is sent before all else. -/
def after (r : Http.Reply) (s : Served σ) : Served σ :=
  { s with sent := .reply r :: s.sent }

/-- The bytes sent, where `clock i` is the moment of the i-th thing sent. -/
def bytes (s : Served σ) (clock : Nat → Nat) : List UInt8 :=
  (s.sent.zipIdx.map fun p => p.1.bytes (clock p.2)).flatten

end Served

namespace Service

variable {σ : Type}

/-- Why a request is turned away. -/
inductive Rejection where
  /-- It asks for something other than the root. -/
  | notFound
  /-- It brings no credentials. -/
  | noCredentials
  /-- It brings wrong credentials. -/
  | wrongCredentials
deriving DecidableEq

/-- Whether and why a request is turned away. -/
def rejection? (s : Service σ) (r : Http.Request) : Option Rejection :=
  if r.uri ≠ "/" then some .notFound
  else
    match r.header? "authorization" with
    | none => some .noCredentials
    | some h => if s.credentials.accepts h then none else some .wrongCredentials

/-- What is sent to a request that is turned away. -/
def turnAway (s : Service σ) (w : World σ) : Rejection → Served σ
  | .notFound => Served.one (.closing 404) w
  | .noCredentials => Served.one .challenge w
  | .wrongCredentials =>
      { Served.one .challenge w with delay := if s.credentials.isWeak then weakDelay else 0 }

/-- The end of a connection on which no further request can be read. -/
def finish (e : Http.FramingError) (w : World σ) : Served σ :=
  match e.replyStatus? with
  | some status => Served.one (.closing status) w
  | none => Served.silent w

/-- Answers requests in order until one ends the connection; `last` is how reading fails after
them. -/
def serveRequests (s : Service σ) (last : Http.FramingError) :
    List Http.Request → World σ → Served σ
  | [], w => finish last w
  | r :: rest, w =>
      match s.rejection? r with
      | some why => s.turnAway w why
      | none =>
          let (reply, w) := s.table.answerBody r.body w
          let keepOpen := r.keepAlive && !reply.close
          let sent := Http.Reply.of reply.status reply.body keepOpen
          if keepOpen then (s.serveRequests last rest w).after sent else Served.one sent w

/-- Serves the HTTP requests of a byte stream. -/
def serveHttp (s : Service σ) (bytes : List UInt8) (w : World σ) : Served σ :=
  let (requests, last) := Http.readAll s.maxBody bytes
  s.serveRequests last requests w

/-- What is sent to plain bytes in place of a handshake: an alert if they cannot be one, and nothing
to one that does not come to its end. -/
def refusePlain (bytes : List UInt8) (w : World σ) : Served σ :=
  if Tls.refuses bytes then ⟨[.tlsAlert], 0, w⟩ else Served.silent w

/-- Serves a connection. A peer that may not connect is told so only if it can read plain text; a
handshake is no request, and plain text is no handshake. -/
def serve (s : Service σ) (peer : Net.Address) (inbound : Inbound) (w : World σ) : Served σ :=
  if s.allowList.allows peer then
    match s.tls, inbound with
    | .disabled, .plain bytes => s.serveHttp bytes w
    | .disabled, .secured _ => Served.silent w
    | .enabled, .secured bytes => s.serveHttp bytes w
    | .enabled, .plain bytes => refusePlain bytes w
    | .unavailable, _ => Served.silent w
  else
    match s.tls with
    | .disabled => Served.one (.closing 403) w
    | _ => Served.silent w

end Service

end RpcDaemon
