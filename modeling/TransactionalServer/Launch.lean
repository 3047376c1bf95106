import TransactionalServer.System

/-! How a server is started (CMPT431-Assignment3.cpp, Server.cpp), and the texts
in which it publishes its address. -/

namespace TransactionalServer
open ServerTools LogHandler

/-- The value a C++ `short` keeps of an `int`. -/
def toShort (value : Int) : Int := Decimal.wrap 16 value

/-- The options -i, -p, -m and -n, as `getopt_long` finds them. -/
structure Options where
  ipArg : Option Text := none
  portArg : Option Text := none
  primary : Bool := false
  netDir : Text

/-- The text that names a primary in primary.txt. -/
def primaryText (ip port : Text) : Text := "IP: |" ++ ip ++ "|\tport: |" ++ port ++ "|\n"

namespace Options

def ip (options : Options) : Text :=
  let ip := options.ipArg.getD "NULL"
  if ip = "NULL" then "127.0.0.1" else ip

/-- `short port`, which is 8080 unless -p says another number. -/
def port (options : Options) : Int :=
  let port := (options.portArg.map fun arg => toShort (atoi arg)).getD 8080
  if port = 0 then 8080 else port

/-- The port of the acceptor: `tcp::endpoint` takes an `unsigned short`. -/
def listening (options : Options) : Int := options.port % 65536

/-- What `main` writes into primary.txt. -/
def written (options : Options) : Option Text :=
  if options.primary then some (primaryText options.ip (iToS options.port)) else none

variable {π : Type}

/-- `Server::Server` on a loaded log. It throws where `address::from_string`
does not accept the text. -/
def start (accepts : Text → Bool) (options : Options) (loaded : Log) (peer : π) (wires : List Wire) (connects : List Bool) : Option (Server π) :=
  if accepts options.ip then
    some (System.start ⟨options.ip, iToS options.port, options.netDir⟩ options.primary loaded peer wires connects)
  else
    none

end Options

namespace ReplicationManager
variable {π : Type}

/-- What `switchToPrimary` writes into primary.txt. -/
def writtenText (server : Server π) : Exec Text := return primaryText (← getIpThis server.log) (← getPortThis server.log)

/-- The data of the PING in `backupOps`. -/
def pingInfo (server : Server π) : Exec Text := return (← getIpThis server.log) ++ "|" ++ (← getPortThis server.log)

end ReplicationManager
end TransactionalServer
