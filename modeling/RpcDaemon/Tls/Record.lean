/-!
# TLS records

Everything that is sent under TLS is sent in records. A record starts with its kind, a version and
the length of its content; a stream whose first record cannot be one is refused with an alert.
-/

namespace RpcDaemon

namespace Tls

/-- Whether a byte is the kind of a record: a change of ciphers, an alert, a handshake, data or a
heartbeat. -/
def isRecordKind (kind : UInt8) : Bool :=
  20 ≤ kind && kind ≤ 24

/-- The kind of records that hold data, the only ones that may be empty. -/
def dataKind : UInt8 := 23

/-- Whether two bytes are a version that a record may name: any of the third generation, the one of
the second, and those for datagrams. -/
def isRecordVersion (major minor : UInt8) : Bool :=
  major == 3 || (major == 2 && minor == 0)
    || (major == 254 && (minor == 252 || minor == 253 || minor == 255))

/-- The length that a record stays below: the greatest content and what encryption may add. -/
def recordLimit : Nat := 16384 + 2048

/-- Whether a record of the given kind may have the given length. -/
def isRecordLength (kind : UInt8) (length : Nat) : Bool :=
  (0 < length || kind == dataKind) && length < recordLimit

/-- Whether a stream starts with what cannot be a record. A header that is cut short is judged by
what there is of it, the version as a whole. -/
def refuses : List UInt8 → Bool
  | kind :: major :: minor :: high :: low :: _ =>
      !(isRecordKind kind && isRecordVersion major minor
        && isRecordLength kind (high.toNat * 256 + low.toNat))
  | kind :: major :: minor :: _ => !(isRecordKind kind && isRecordVersion major minor)
  | kind :: _ => !isRecordKind kind
  | [] => false

end Tls

end RpcDaemon
