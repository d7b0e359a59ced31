import Dbx.Protocol.CommandFrame

/-!
# Replies as bytes

What the writer of a connection sends for a reply.
-/

set_option autoImplicit false

namespace Dbx.Protocol

mutual

/-- An error is one of `WriteError`, which puts `ERR` before every text. `WriteErrorRaw`
writes its text as it is; the server uses it where a command is not executed. -/
def encodeReply : Reply → Bytes
  | .simple text => 0x2b :: ascii text ++ crlf
  | .error text => ascii "-ERR " ++ ascii text ++ crlf
  | .integer number => 0x3a :: ascii (toString number) ++ crlf
  | .bulk none => ascii "$-1" ++ crlf
  | .bulk (some data) => bulkString data
  | .array items => 0x2a :: formatNat items.length ++ crlf ++ encodeReplies items
  | .quit => ascii "+OK" ++ crlf

def encodeReplies : List Reply → Bytes
  | [] => []
  | item :: items => encodeReply item ++ encodeReplies items

end

end Dbx.Protocol
