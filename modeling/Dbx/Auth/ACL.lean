import Dbx.Protocol.Command
import Mathlib.Data.List.AList

/-!
# Users and their permissions

The user table of an engine, and the check that a command passes before it runs.
-/

set_option autoImplicit false

namespace Dbx.Auth

open Dbx.Engine Dbx.Protocol

def permRead : Int64 := 1
def permWrite : Int64 := 2
def permAdmin : Int64 := 4

structure User where
  name : Bytes
  passwordHash : Bytes
  enabled : Bool
  permissions : Int64
  allowedKeys : List Bytes
  noPass : Bool
deriving DecidableEq, Repr

def adminCommands : List String :=
  ["CONFIG", "DEBUG", "FLUSHALL", "FLUSHDB", "SAVE", "BGSAVE", "CLUSTER", "ACL", "REPLICAOF",
   "SLAVEOF", "SHUTDOWN", "VCOMPACT"]

def writeCommands : List String :=
  ["SET", "SETEX", "DEL", "EXPIRE", "RENAME", "INCR", "DECR", "INCRBY", "DECRBY", "APPEND",
   "SETRANGE", "MSET", "SETNX", "GETSET", "HSET", "HDEL", "HMSET", "HINCRBY", "LPUSH", "RPUSH",
   "LPOP", "RPOP", "LSET", "LREM", "LTRIM", "SADD", "SREM", "SPOP", "ZADD", "ZREM", "ZINCRBY",
   "XADD", "XGROUP", "XACK", "SETBIT", "GEOADD", "PERSIST", "MULTI", "EXEC", "DISCARD", "PUBLISH",
   "VADD", "VADD_BATCH", "VADDBIN", "VDEL"]

def isAdminCommand (cmd : Bytes) : Bool := adminCommands.any fun name => ascii name = cmd

def isWriteCommand (cmd : Bytes) : Bool := writeCommands.any fun name => ascii name = cmd

def canExecute (user : User) (cmdName : Bytes) : Bool :=
  let cmdName := toUpper cmdName
  if !user.enabled then false
  else if isAdminCommand cmdName then user.permissions &&& permAdmin != 0
  else if isWriteCommand cmdName then user.permissions &&& permWrite != 0
  else user.permissions &&& permRead != 0

/-- `strings.TrimSuffix(pattern, "*")`. -/
def trimStar (pattern : Bytes) : Bytes :=
  if pattern.getLast? = some 0x2a then pattern.dropLast else pattern

def matchKeyPattern (pattern key : Bytes) : Bool :=
  pattern = ascii "*" || (trimStar pattern).isPrefixOf key

def canAccessKey (user : User) (key : Bytes) : Bool :=
  user.enabled && user.allowedKeys.any fun pattern =>
    pattern = ascii "*" || matchKeyPattern pattern key

/-- `ACLEnforcer.Enforce`. -/
def enforce (user : Option User) (cmd : Command) : Except String Unit :=
  match user with
  | none => .error "NOAUTH authentication required"
  | some user =>
    if !canExecute user cmd.normalized then
      .error ("NOPERM this user has no permissions to run the '" ++ rawText cmd.name ++
        "' command")
    else
      match (affectedKeys cmd).find? fun key => key ≠ [] && !canAccessKey user key with
      | some key => .error ("NOPERM no permissions to access key '" ++ rawText key ++ "'")
      | none => .ok ()

end Dbx.Auth
