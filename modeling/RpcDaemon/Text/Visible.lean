/-!
# Text for the log

What may be copied from a request into a line of the log.
-/

namespace RpcDaemon

/-- Whether a character is harmless in a line of the log. -/
def isHarmless (c : Char) : Bool :=
  c.isAlphanum || " .,;_/:?@-".toList.contains c

/-- The harmless characters of a text. -/
def sanitized (s : String) : String :=
  String.ofList (s.toList.filter isHarmless)

end RpcDaemon
