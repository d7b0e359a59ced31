import Dbx.Engine.Strings

/-!
# Commands and their registry
-/

set_option autoImplicit false

namespace Dbx.Protocol

/-- A parsed command. An argument is nil where the client sent a nil bulk
string. -/
structure Command where
  name : Bytes
  args : List (Option Bytes)
deriving DecidableEq, Repr

namespace Command

def arg (index : Nat) (cmd : Command) : Bytes :=
  (cmd.args[index]?).join.getD []

def argBytes (index : Nat) (cmd : Command) : Option Bytes :=
  (cmd.args[index]?).join

def numArgs (cmd : Command) : Nat := cmd.args.length

def normalized (cmd : Command) : Bytes := Engine.toUpper cmd.name

def keys (cmd : Command) : List Bytes :=
  cmd.args.map fun arg => arg.getD []

end Command

inductive CommandName where
  | get | set | setex | del | «exists» | expire | ttl | persist | type | rename | keys | scan
  | incr | incrby | decr | decrby | append | strlen | getrange | setrange | mget | mset | setnx
  | getset | hget | hset | hmget | hmset | hdel | hgetall | hkeys | hvals | hlen | hexists
  | hincrby | lpush | rpush | lpop | rpop | lrange | llen | lindex | lset | lrem | ltrim | sadd
  | srem | smembers | sismember | scard | sinter | sunion | sdiff | srandmember | spop | zadd
  | zrem | zscore | zrank | zrevrank | zrange | zrevrange | zrangebyscore | zcard | zincrby
  | zcount | xadd | xread | xrange | xrevrange | xlen | xgroup | xreadgroup | xack | setbit
  | getbit | bitcount | bitpos | geoadd | geodist | georadius | geopos | geosearch | vadd
  | vaddBatch | vaddbin | vmigrate | vdel | vcompact | vsearch | vsim | vfuse | publish
  | subscribe | unsubscribe | psubscribe | multi | exec | discard | watch | unwatch | ping | echo
  | quit | auth | select | dbsize | flushdb | flushall | info | hello | config | debug | save
  | bgsave | cluster | acl | command
deriving DecidableEq, Repr

namespace CommandName

def text : CommandName → String
  | .get => "GET"
  | .set => "SET"
  | .setex => "SETEX"
  | .del => "DEL"
  | .«exists» => "EXISTS"
  | .expire => "EXPIRE"
  | .ttl => "TTL"
  | .persist => "PERSIST"
  | .type => "TYPE"
  | .rename => "RENAME"
  | .keys => "KEYS"
  | .scan => "SCAN"
  | .incr => "INCR"
  | .incrby => "INCRBY"
  | .decr => "DECR"
  | .decrby => "DECRBY"
  | .append => "APPEND"
  | .strlen => "STRLEN"
  | .getrange => "GETRANGE"
  | .setrange => "SETRANGE"
  | .mget => "MGET"
  | .mset => "MSET"
  | .setnx => "SETNX"
  | .getset => "GETSET"
  | .hget => "HGET"
  | .hset => "HSET"
  | .hmget => "HMGET"
  | .hmset => "HMSET"
  | .hdel => "HDEL"
  | .hgetall => "HGETALL"
  | .hkeys => "HKEYS"
  | .hvals => "HVALS"
  | .hlen => "HLEN"
  | .hexists => "HEXISTS"
  | .hincrby => "HINCRBY"
  | .lpush => "LPUSH"
  | .rpush => "RPUSH"
  | .lpop => "LPOP"
  | .rpop => "RPOP"
  | .lrange => "LRANGE"
  | .llen => "LLEN"
  | .lindex => "LINDEX"
  | .lset => "LSET"
  | .lrem => "LREM"
  | .ltrim => "LTRIM"
  | .sadd => "SADD"
  | .srem => "SREM"
  | .smembers => "SMEMBERS"
  | .sismember => "SISMEMBER"
  | .scard => "SCARD"
  | .sinter => "SINTER"
  | .sunion => "SUNION"
  | .sdiff => "SDIFF"
  | .srandmember => "SRANDMEMBER"
  | .spop => "SPOP"
  | .zadd => "ZADD"
  | .zrem => "ZREM"
  | .zscore => "ZSCORE"
  | .zrank => "ZRANK"
  | .zrevrank => "ZREVRANK"
  | .zrange => "ZRANGE"
  | .zrevrange => "ZREVRANGE"
  | .zrangebyscore => "ZRANGEBYSCORE"
  | .zcard => "ZCARD"
  | .zincrby => "ZINCRBY"
  | .zcount => "ZCOUNT"
  | .xadd => "XADD"
  | .xread => "XREAD"
  | .xrange => "XRANGE"
  | .xrevrange => "XREVRANGE"
  | .xlen => "XLEN"
  | .xgroup => "XGROUP"
  | .xreadgroup => "XREADGROUP"
  | .xack => "XACK"
  | .setbit => "SETBIT"
  | .getbit => "GETBIT"
  | .bitcount => "BITCOUNT"
  | .bitpos => "BITPOS"
  | .geoadd => "GEOADD"
  | .geodist => "GEODIST"
  | .georadius => "GEORADIUS"
  | .geopos => "GEOPOS"
  | .geosearch => "GEOSEARCH"
  | .vadd => "VADD"
  | .vaddBatch => "VADD_BATCH"
  | .vaddbin => "VADDBIN"
  | .vmigrate => "VMIGRATE"
  | .vdel => "VDEL"
  | .vcompact => "VCOMPACT"
  | .vsearch => "VSEARCH"
  | .vsim => "VSIM"
  | .vfuse => "VFUSE"
  | .publish => "PUBLISH"
  | .subscribe => "SUBSCRIBE"
  | .unsubscribe => "UNSUBSCRIBE"
  | .psubscribe => "PSUBSCRIBE"
  | .multi => "MULTI"
  | .exec => "EXEC"
  | .discard => "DISCARD"
  | .watch => "WATCH"
  | .unwatch => "UNWATCH"
  | .ping => "PING"
  | .echo => "ECHO"
  | .quit => "QUIT"
  | .auth => "AUTH"
  | .select => "SELECT"
  | .dbsize => "DBSIZE"
  | .flushdb => "FLUSHDB"
  | .flushall => "FLUSHALL"
  | .info => "INFO"
  | .hello => "HELLO"
  | .config => "CONFIG"
  | .debug => "DEBUG"
  | .save => "SAVE"
  | .bgsave => "BGSAVE"
  | .cluster => "CLUSTER"
  | .acl => "ACL"
  | .command => "COMMAND"

def all : List CommandName :=
  [.get, .set, .setex, .del, .«exists», .expire, .ttl, .persist, .type, .rename, .keys, .scan,
   .incr, .incrby, .decr, .decrby, .append, .strlen, .getrange, .setrange, .mget, .mset,
   .setnx, .getset, .hget, .hset, .hmget, .hmset, .hdel, .hgetall, .hkeys, .hvals, .hlen,
   .hexists, .hincrby, .lpush, .rpush, .lpop, .rpop, .lrange, .llen, .lindex, .lset, .lrem,
   .ltrim, .sadd, .srem, .smembers, .sismember, .scard, .sinter, .sunion, .sdiff, .srandmember,
   .spop, .zadd, .zrem, .zscore, .zrank, .zrevrank, .zrange, .zrevrange, .zrangebyscore,
   .zcard, .zincrby, .zcount, .xadd, .xread, .xrange, .xrevrange, .xlen, .xgroup, .xreadgroup,
   .xack, .setbit, .getbit, .bitcount, .bitpos, .geoadd, .geodist, .georadius, .geopos,
   .geosearch, .vadd, .vaddBatch, .vaddbin, .vmigrate, .vdel, .vcompact, .vsearch, .vsim,
   .vfuse, .publish, .subscribe, .unsubscribe, .psubscribe, .multi, .exec, .discard, .watch,
   .unwatch, .ping, .echo, .quit, .auth, .select, .dbsize, .flushdb, .flushall, .info, .hello,
   .config, .debug, .save, .bgsave, .cluster, .acl, .command]

def readOnly : CommandName → Bool
  | .get | .«exists» | .ttl | .type | .keys | .scan | .strlen | .getrange | .mget | .hget
  | .hmget | .hgetall | .hkeys | .hvals | .hlen | .hexists | .lrange | .llen | .lindex
  | .smembers | .sismember | .scard | .sinter | .sunion | .sdiff | .srandmember | .zscore
  | .zrank | .zrevrank | .zrange | .zrevrange | .zrangebyscore | .zcard | .zcount | .xread
  | .xrange | .xrevrange | .xlen | .getbit | .bitcount | .bitpos | .geodist | .georadius
  | .geopos | .geosearch | .vsearch | .vsim | .vfuse | .watch | .ping | .echo | .dbsize | .info
  | .hello | .command => true
  | _ => false

/-- The command is a mutation that the durability contract covers. -/
def durableV1 : CommandName → Bool
  | .set | .setex | .del | .expire | .persist | .rename | .incr | .incrby | .decr | .decrby
  | .append | .setrange | .mset | .setnx | .getset | .vadd | .vaddBatch | .vaddbin | .vmigrate
  | .vdel | .vcompact | .quit | .auth | .select => true
  | _ => false

/-- Which argument is the key, counted from one. Zero for commands without a key. -/
def keyIndex : CommandName → Nat
  | .keys | .scan | .xread | .xreadgroup | .publish | .subscribe | .unsubscribe | .psubscribe
  | .multi | .exec | .discard | .unwatch | .ping | .echo | .quit | .auth | .select | .dbsize
  | .flushdb | .flushall | .info | .hello | .config | .debug | .save | .bgsave | .cluster | .acl
  | .command => 0
  | .xgroup | .vmigrate => 2
  | _ => 1

end CommandName

/-- `Lookup`, for a name in capitals. -/
def lookup (name : Bytes) : Option CommandName :=
  CommandName.all.find? fun entry => ascii entry.text = name

def supportedInDurableV1 (name : CommandName) : Bool :=
  name.readOnly || name.durableV1

def everyOther {α : Type} : List α → List α
  | first :: _ :: rest => first :: everyOther rest
  | rest => rest

def affectedKeys (cmd : Command) : List Bytes :=
  match lookup cmd.normalized with
  | none => []
  | some name =>
    match name with
    | .del | .«exists» | .mget => cmd.keys
    | .mset => everyOther cmd.keys
    | name =>
      if name = .rename ∧ 2 ≤ cmd.numArgs then [cmd.arg 0, cmd.arg 1]
      else if name.keyIndex = 0 ∨ cmd.numArgs < name.keyIndex then []
      else [cmd.arg (name.keyIndex - 1)]

inductive Reply where
  | simple (text : String)
  | error (text : String)
  | integer (number : Int)
  | bulk (data : Option Bytes)
  | array (items : List Reply)
  /-- `+OK`, after which the connection is closed. -/
  | quit

def Reply.isError : Reply → Bool
  | .error _ => true
  | _ => false

def Reply.null : Reply := .bulk none

def wrongNumArgsError (command : String) : String :=
  "ERR wrong number of arguments for '" ++ command ++ "' command"

def errNotInteger : String := "ERR value is not an integer or out of range"

end Dbx.Protocol
