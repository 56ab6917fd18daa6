import RpcDaemon.Text.Blank
import RpcDaemon.Text.Numeral
import RpcDaemon.Text.Utf8

/-!
# Reading HTTP requests

A request is read off the front of a byte stream, and what follows it is left for the next one. The
lines of a head end with a line feed and are limited in length, a blank line ends the head, and the
body has the length that `Content-Length` announces. `Http.readAll` reads requests until one fails.
-/

namespace RpcDaemon

namespace Http

/-- Why no request could be read. -/
inductive FramingError where
  /-- The stream ended before the head did. -/
  | closed
  /-- The first line is no request line. -/
  | malformedRequestLine
  /-- A line has no end within the limit. -/
  | lineTooLong
  /-- There are too many headers. -/
  | tooManyHeaders
  /-- The announced length is no number. -/
  | invalidContentLength
  /-- The announced length is above the limit. -/
  | bodyTooLarge (length : Nat)
  /-- The stream ended within the body. -/
  | truncatedBody
deriving DecidableEq

namespace FramingError

/-- The wording of an error. -/
def message : FramingError → String
  | closed => "connection closed"
  | malformedRequestLine => "malformed request line"
  | lineTooLong => "header line too long"
  | tooManyHeaders => "too many headers"
  | invalidContentLength => "invalid Content-Length"
  | bodyTooLarge n => "request body too large: " ++ decimal n ++ " bytes"
  | truncatedBody => "early eof"

/-- The status to answer with before the connection is closed, if any. -/
def replyStatus? : FramingError → Option Nat
  | bodyTooLarge _ => some 500
  | invalidContentLength => some 400
  | tooManyHeaders => some 400
  | _ => none

end FramingError

/-- The greatest length of a line, its line feed included. -/
def maxLine : Nat := 16384

/-- The greatest number of headers. -/
def maxHeaders : Nat := 256

/-- A request. -/
structure Request where
  /-- The method. -/
  method : String
  /-- The target. -/
  uri : String
  /-- The number after `HTTP/1.`, 0 if there is none. -/
  minorVersion : Nat
  /-- The headers by name in lower case; of several with one name the last. -/
  headers : List (String × String)
  /-- The body. -/
  body : List UInt8
deriving DecidableEq

namespace Request

/-- The value of the header called `name`, in any case. -/
def header? (r : Request) (name : String) : Option String :=
  r.headers.lookup (lowered name)

/-- Whether the connection may be used again: version 1.1 and above unless the request says
`close`, version 1.0 only if it says `keep-alive`. -/
def keepAlive (r : Request) : Bool :=
  match r.header? "connection" with
  | some v =>
      if sameIgnoringCase v "close" then false
      else if sameIgnoringCase v "keep-alive" then true
      else decide (1 ≤ r.minorVersion)
  | none => decide (1 ≤ r.minorVersion)

end Request

/-! ## Lines -/

/-- The line feed. -/
def lineFeed : UInt8 := 10

/-- Cuts a stream after its first line feed, or after `limit` bytes if none comes before. -/
def cutLine : Nat → List UInt8 → List UInt8 × List UInt8
  | 0, s => ([], s)
  | _ + 1, [] => ([], [])
  | limit + 1, b :: s =>
      if b = lineFeed then ([b], s)
      else
        let (line, rest) := cutLine limit s
        (b :: line, rest)

/-- The text of a line: malformed bytes are replaced, carriage returns and line feeds at its end are
dropped. -/
def lineText (line : List UInt8) : List Char :=
  Chars.trimEndWhile (fun c => c == '\r' || c == '\n') (Utf8.decodeLossy line)

/-- Reads one line. At the end of the stream there is none; what stands there without a line feed is
a line, unless it fills the limit. -/
def readLine (s : List UInt8) : Except FramingError (List Char × List UInt8) :=
  match s with
  | [] => .error .closed
  | _ =>
      let (line, rest) := cutLine maxLine s
      if line.getLast? ≠ some lineFeed ∧ maxLine ≤ line.length then .error .lineTooLong
      else .ok (lineText line, rest)

/-- A cut loses nothing. -/
theorem cutLine_append (limit : Nat) (s : List UInt8) :
    (cutLine limit s).1 ++ (cutLine limit s).2 = s := by
  induction limit generalizing s with
  | zero => simp [cutLine]
  | succ limit ih =>
    cases s with
    | nil => simp [cutLine]
    | cons b s =>
      simp only [cutLine]
      split
      · simp
      · simpa using ih s

/-- A line that is read has at least one byte. -/
theorem length_lt_of_readLine {s : List UInt8} {line : List Char} {rest : List UInt8}
    (h : readLine s = .ok (line, rest)) : rest.length < s.length := by
  cases s with
  | nil => simp [readLine] at h
  | cons b s =>
    simp only [readLine] at h
    split at h
    · cases h
    · simp only [Except.ok.injEq, Prod.mk.injEq] at h
      obtain ⟨-, rfl⟩ := h
      have hc := congrArg List.length (cutLine_append maxLine (b :: s))
      have h1 : 0 < (cutLine maxLine (b :: s)).1.length := by
        simp only [maxLine, cutLine]
        split <;> simp
      simp only [List.length_append] at hc
      omega

/-! ## The request line -/

/-- The number after `HTTP/1.` in the third word of a request line; 0 without one, and if it does not
fit 32 bits. -/
def minorVersion (word : List Char) : Nat :=
  match Chars.after? "HTTP/1.".toList word with
  | some rest =>
      let n := Digit.value (Digit.scan rest).1
      if n < 4294967296 then n else 0
  | none => 0

/-- The method, the target and the version of a request line. -/
def requestLine? (line : List Char) : Option (String × String × Nat) :=
  match Chars.words line with
  | method :: uri :: more =>
      if method = "GET".toList ∨ method = "POST".toList then
        if uri.head? = some '/' then
          some (String.ofList method, String.ofList uri,
            match more with
            | word :: _ => minorVersion word
            | [] => 0)
        else none
      else none
  | _ => none

/-! ## Headers -/

/-- Puts a header over one of the same name, or after the others. -/
def putHeader (name value : String) : List (String × String) → List (String × String)
  | [] => [(name, value)]
  | (k, v) :: rest =>
      if k = name then (name, value) :: rest else (k, v) :: putHeader name value rest

/-- The headers with the one that a line gives. The name comes before the first colon, in lower case,
the value after it, both without blanks at their ends; a line without colon gives none. -/
def addHeader (headers : List (String × String)) (line : List Char) : List (String × String) :=
  match Chars.splitFirst? ':' line with
  | some (name, value) =>
      putHeader (String.ofList (Chars.lower (Chars.trim name))) (String.ofList (Chars.trim value))
        headers
  | none => headers

/-- Reads header lines up to the blank line that ends the head. -/
def readHeaders (headers : List (String × String)) (s : List UInt8) :
    Except FramingError (List (String × String) × List UInt8) :=
  match h : readLine s with
  | .error e => .error e
  | .ok (line, rest) =>
      if (Chars.trim line).isEmpty then .ok (headers, rest)
      else if maxHeaders ≤ headers.length then .error .tooManyHeaders
      else
        have : rest.length < s.length := length_lt_of_readLine h
        readHeaders (addHeader headers line) rest
termination_by s.length

/-! ## Requests -/

/-- The length of the body that the headers announce, 0 if they announce none. -/
def bodyLength (headers : List (String × String)) : Except FramingError Nat :=
  match headers.lookup "content-length" with
  | some v =>
      match Numeral.unsigned? 18446744073709551616 v.toList with
      | some n => .ok n
      | none => .error .invalidContentLength
  | none => .ok 0

/-- Takes a body of the given length off a stream. -/
def readBody (maxBody length : Nat) (s : List UInt8) :
    Except FramingError (List UInt8 × List UInt8) :=
  if maxBody < length then .error (.bodyTooLarge length)
  else if s.length < length then .error .truncatedBody
  else .ok (s.take length, s.drop length)

/-- Reads one request and leaves what follows it. -/
def readRequest (maxBody : Nat) (s : List UInt8) : Except FramingError (Request × List UInt8) :=
  match readLine s with
  | .error e => .error e
  | .ok (line, rest) =>
      match requestLine? line with
      | none => .error .malformedRequestLine
      | some (method, uri, minorVersion) =>
          match readHeaders [] rest with
          | .error e => .error e
          | .ok (headers, rest) =>
              match bodyLength headers with
              | .error e => .error e
              | .ok length =>
                  match readBody maxBody length rest with
                  | .error e => .error e
                  | .ok (body, rest) => .ok (⟨method, uri, minorVersion, headers, body⟩, rest)

/-- Reading headers only takes bytes away. -/
theorem length_le_of_readHeaders {headers headers' : List (String × String)} {s rest : List UInt8}
    (h : readHeaders headers s = .ok (headers', rest)) : rest.length ≤ s.length := by
  fun_induction readHeaders headers s with
  | case1 headers s e he => cases h
  | case2 headers s line rest' hl hb =>
    simp only [Except.ok.injEq, Prod.mk.injEq] at h
    obtain ⟨-, rfl⟩ := h
    exact Nat.le_of_lt (length_lt_of_readLine hl)
  | case3 headers s line rest' hl hb hm => cases h
  | case4 headers s line rest' hl hb hm hlt ih =>
    have := ih h
    omega

/-- A request that is read has at least one byte. -/
theorem length_lt_of_readRequest {maxBody : Nat} {s rest : List UInt8} {r : Request}
    (h : readRequest maxBody s = .ok (r, rest)) : rest.length < s.length := by
  unfold readRequest at h
  split at h
  · cases h
  · rename_i line rest1 hl
    split at h
    · cases h
    · split at h
      · cases h
      · rename_i headers rest2 hh
        split at h
        · cases h
        · rename_i length _
          split at h
          · cases h
          · rename_i body rest3 hb
            simp only [Except.ok.injEq, Prod.mk.injEq] at h
            obtain ⟨-, rfl⟩ := h
            have h1 := length_lt_of_readLine hl
            have h2 := length_le_of_readHeaders hh
            have h3 : rest3.length ≤ rest2.length := by
              unfold readBody at hb
              split at hb
              · cases hb
              · split at hb
                · cases hb
                · simp only [Except.ok.injEq, Prod.mk.injEq] at hb
                  obtain ⟨-, rfl⟩ := hb
                  simp
            omega

/-- Reads requests until one fails, and says how it failed. -/
def readAll (maxBody : Nat) (s : List UInt8) : List Request × FramingError :=
  match h : readRequest maxBody s with
  | .error e => ([], e)
  | .ok (r, rest) =>
      have : rest.length < s.length := length_lt_of_readRequest h
      let (rs, e) := readAll maxBody rest
      (r :: rs, e)
termination_by s.length

end Http

end RpcDaemon
