import RpcDaemon.Json.Value

/-!
# Errors of calls

The kinds of failure a call can end in, each with its number, its default wording and the HTTP
status it stands for when it ends a connection, and the error value that carries a kind, a message
and optional data.
-/

namespace RpcDaemon

namespace Rpc

/-- What went wrong in a call. -/
inductive ErrorCode where
  /-- The body is not JSON. -/
  | parseError
  /-- The request object is malformed. -/
  | invalidRequest
  /-- No such command. -/
  | methodNotFound
  /-- The parameters do not fit. -/
  | invalidParams
  /-- The server is at fault. -/
  | internalError
  /-- A command failed. -/
  | miscError
  /-- The command may not run while a warning is active. -/
  | forbiddenBySafeMode
  /-- A parameter has the wrong type. -/
  | typeError
  /-- An address or a key is invalid. -/
  | invalidAddressOrKey
  /-- Memory ran out. -/
  | outOfMemory
  /-- A parameter is invalid, missing or duplicate. -/
  | invalidParameter
  /-- The database failed. -/
  | databaseError
  /-- Raw data could not be parsed. -/
  | deserializationError
  /-- The node has no peers. -/
  | clientNotConnected
  /-- The node still downloads blocks. -/
  | clientInInitialDownload
  /-- The wallet failed. -/
  | walletError
  /-- The wallet holds too little. -/
  | walletInsufficientFunds
  /-- The account name is invalid. -/
  | walletInvalidAccountName
  /-- The key pool is empty. -/
  | walletKeypoolRanOut
  /-- The wallet is locked. -/
  | walletUnlockNeeded
  /-- The passphrase is wrong. -/
  | walletPassphraseIncorrect
  /-- The wallet's encryption does not allow the command. -/
  | walletWrongEncState
  /-- The wallet could not be encrypted. -/
  | walletEncryptionFailed
  /-- The wallet is unlocked already. -/
  | walletAlreadyUnlocked
deriving DecidableEq

namespace ErrorCode

/-- The number that clients match on. -/
def number : ErrorCode → Int32
  | parseError => -32700
  | invalidRequest => -32600
  | methodNotFound => -32601
  | invalidParams => -32602
  | internalError => -32603
  | miscError => -1
  | forbiddenBySafeMode => -2
  | typeError => -3
  | walletError => -4
  | invalidAddressOrKey => -5
  | walletInsufficientFunds => -6
  | outOfMemory => -7
  | invalidParameter => -8
  | clientNotConnected => -9
  | clientInInitialDownload => -10
  | walletInvalidAccountName => -11
  | walletKeypoolRanOut => -12
  | walletUnlockNeeded => -13
  | walletPassphraseIncorrect => -14
  | walletWrongEncState => -15
  | walletEncryptionFailed => -16
  | walletAlreadyUnlocked => -17
  | databaseError => -20
  | deserializationError => -22

/-- The wording used when a failure brings none of its own. -/
def defaultMessage : ErrorCode → String
  | parseError => "Parse error"
  | invalidRequest => "Invalid Request object"
  | methodNotFound => "Method not found"
  | invalidParams => "Invalid params"
  | internalError => "Internal error"
  | miscError => "Unknown error"
  | forbiddenBySafeMode => "Safe mode"
  | typeError => "Type error"
  | invalidAddressOrKey => "Invalid address or key"
  | outOfMemory => "Out of memory"
  | invalidParameter => "Invalid parameter"
  | databaseError => "Database error"
  | deserializationError => "Deserialization error"
  | clientNotConnected => "Clam is not connected!"
  | clientInInitialDownload => "Clam is downloading blocks..."
  | walletError => "Wallet error"
  | walletInsufficientFunds => "Insufficient funds"
  | walletInvalidAccountName => "Invalid account name"
  | walletKeypoolRanOut => "Keypool ran out, please call keypoolrefill first"
  | walletUnlockNeeded => "Please enter the wallet passphrase with walletpassphrase first."
  | walletPassphraseIncorrect => "The wallet passphrase entered was incorrect."
  | walletWrongEncState => "Wallet is in the wrong encryption state"
  | walletEncryptionFailed => "Failed to encrypt the wallet"
  | walletAlreadyUnlocked => "Wallet is already unlocked."

/-- The HTTP status of a failure that ends the connection. -/
def httpStatus : ErrorCode → Nat
  | invalidRequest => 400
  | methodNotFound => 404
  | _ => 500

end ErrorCode

/-- A failed call. -/
structure Error where
  /-- What went wrong. -/
  code : ErrorCode
  /-- The wording. -/
  message : String
  /-- Further data; `null` is data too. -/
  data : Option Json

namespace Error

/-- A command failed. -/
def misc (message : String) : Error := ⟨.miscError, message, none⟩

/-- The request object is malformed. -/
def invalidRequest (message : String) : Error := ⟨.invalidRequest, message, none⟩

/-- The body is not what it should be. -/
def parseError (message : String) : Error := ⟨.parseError, message, none⟩

/-- No such command. -/
def methodNotFound : Error := ⟨.methodNotFound, "Method not found", none⟩

/-- The command needs a wallet, and there is none. -/
def methodDisabled : Error := ⟨.methodNotFound, "Method not found (disabled)", none⟩

/-- A parameter has the wrong type. -/
def typeError (message : String) : Error := ⟨.typeError, message, none⟩

/-- The command may not run while `warning` is active. -/
def forbiddenBySafeMode (warning : String) : Error :=
  ⟨.forbiddenBySafeMode, "Safe mode: " ++ warning, none⟩

/-- A failure reported as a chain of messages, outermost first, keeps the outermost one. -/
def ofChain (messages : List String) : Error :=
  misc (messages.headD "")

/-- The description for people. -/
def describe (e : Error) : String :=
  "RPC Error " ++ String.ofList (Numeral.ofInt e.code.number.toInt) ++ ": " ++ e.message

/-- The `error` member of a reply. -/
def toObject (e : Error) : Json :=
  let members := [("code", Json.int (WideInt.ofInt32 e.code.number)), ("message", .string e.message)]
  Json.ofMembers
    (match e.data with
      | some data => members ++ [("data", data)]
      | none => members)

/-- A whole reply that carries the error. -/
def toJson (e : Error) (id : Json) : Json :=
  Json.ofMembers [("result", .null), ("error", e.toObject), ("id", id)]

end Error

end Rpc

end RpcDaemon
