import SharedDataLayer.HostAndPort
import SharedDataLayer.Spec.Text

/-!
# Reading the configuration (`src/configurationreader.cpp`, `src/databaseconfigurationimpl.cpp`)

The configuration comes from the JSON files of the configuration directories and from environment
variables, which override the database part of the files; `readConfigurationFromInputStream`
replaces what was read from files. `getenv` gives the variables, and a source is given by what
`read_json` makes of it: a property tree, with the elements of an array in the order of the file, or
an error.

`Exception` is `shareddatalayer::Exception` with its text. Where the source catches an exception to
log it and throws it again, it is passed on.
-/

namespace Sdl
namespace Config

open Spec

structure Exception where
  what : Bytes
  deriving DecidableEq

/-- How a call fails: with an exception, or the process ends. -/
inductive Failure where
  | exception (e : Exception)
  | abort (message : String)
  deriving DecidableEq

/-! ## Property trees -/

/-- `boost::property_tree::ptree`: the data of a node, and its children with their names. -/
inductive PTree where
  | node (data : Bytes) (children : List (Bytes × PTree))

namespace PTree

def data : PTree → Bytes
  | .node data _ => data

def children : PTree → List (Bytes × PTree)
  | .node _ children => children

/-- `get_child_optional`. The names of the source have no dot. -/
def getChildOptional (t : PTree) (name : Bytes) : Option PTree := t.children.lookup name

end PTree

/-- What `read_json` makes of a source. -/
inductive Json where
  | error (line : Nat) (message : Bytes)
  | tree (t : PTree)

def configurationError (sourceName text : Bytes) : Exception :=
  ⟨str "Configuration error in " ++ sourceName ++ str ": " ++ text⟩

/-- `get<T>`. The translator of `T` fails on data that is none. -/
def get {T : Type} (translator : Bytes → Option T) (ptree : PTree) (param sourceName : Bytes) :
    Except Exception T :=
  match ptree.getChildOptional param with
  | none => .error (configurationError sourceName (str "missing \"" ++ param ++ str "\""))
  | some child =>
    match translator child.data with
    | some value => .ok value
    | none =>
      .error (configurationError sourceName (str "invalid \"" ++ param ++ str "\": \"" ++
        child.data ++ str "\""))

/-! ## The database configuration -/

/-- `DatabaseConfiguration::DbType`. -/
inductive DbType where
  | unknown | redisStandalone | redisCluster | redisSentinel | sdlStandaloneCluster
  | sdlSentinelCluster
  deriving DecidableEq

theorem defaultPort_lt : 6379 < 65536 := by decide

def DEFAULT_PORT : Port := ⟨6379, defaultPort_lt⟩

def DEFAULT_SENTINEL_PORT : Port := ⟨26379, by decide⟩

def DEFAULT_SENTINEL_MASTER_GROUP_NAME : Bytes := str "dbaasmaster"

structure DatabaseConfigurationImpl where
  dbType : DbType
  serverAddresses : List HostAndPort
  /-- In network byte order. -/
  sentinelPorts : List Port
  sentinelMasterNames : List Bytes
  deriving DecidableEq

namespace DatabaseConfigurationImpl

def new : DatabaseConfigurationImpl := ⟨.unknown, [], [], []⟩

def invalidDbType (type : Bytes) : Exception :=
  ⟨str "invalid database type: '" ++ type ++ str "'. " ++
    str "Allowed types are: 'redis-standalone', 'redis-cluster', 'redis-sentinel' or 'sdl-cluster'"⟩

def checkAndApplyDbType (d : DatabaseConfigurationImpl) (type : Bytes) :
    Except Exception DatabaseConfigurationImpl :=
  if type = str "redis-standalone" then .ok { d with dbType := .redisStandalone }
  else if type = str "redis-cluster" then .ok { d with dbType := .redisCluster }
  else if type = str "redis-sentinel" then .ok { d with dbType := .redisSentinel }
  else if type = str "sdl-standalone-cluster" then .ok { d with dbType := .sdlStandaloneCluster }
  else if type = str "sdl-sentinel-cluster" then .ok { d with dbType := .sdlSentinelCluster }
  else .error (invalidDbType type)

def isEmpty (d : DatabaseConfigurationImpl) : Bool := d.serverAddresses.isEmpty

/-- `boost::split` with the separator `,`. -/
def split (s : Bytes) : List Bytes := s.splitOn (chr ',')

/-- An entry that is not a number is skipped. -/
def checkAndApplySentinelPorts (d : DatabaseConfigurationImpl) (portsEnvStr : Bytes) :
    DatabaseConfigurationImpl :=
  { d with sentinelPorts := d.sentinelPorts ++ (split portsEnvStr).filterMap fun port =>
      (lexicalCastUint16 port).map htons }

def checkAndApplySentinelMasterNames (d : DatabaseConfigurationImpl)
    (sentinelMasterNamesEnvStr : Bytes) :
    DatabaseConfigurationImpl :=
  { d with sentinelMasterNames := split sentinelMasterNamesEnvStr }

def checkAndApplyServerAddress (net : Resolver) (d : DatabaseConfigurationImpl) (address : Bytes) :
    Except HostAndPortError DatabaseConfigurationImpl :=
  match HostAndPort.new net address (htons DEFAULT_PORT) with
  | .ok a => .ok { d with serverAddresses := d.serverAddresses ++ [a] }
  | .error e => .error e

end DatabaseConfigurationImpl

/-- The texts of the exceptions of `HostAndPort`. -/
def hostAndPortWhat : HostAndPortError → Bytes
  | .emptyPort => str "empty port"
  | .invalidPort port => str "invalid port: " ++ port
  | .emptyHost => str "empty host"

section Parse

variable (net : Resolver)

def validateAndSetDbType (type : Bytes) (d : DatabaseConfigurationImpl) (sourceName : Bytes) :
    Except Exception DatabaseConfigurationImpl :=
  match d.checkAndApplyDbType type with
  | .ok d => .ok d
  | .error e => .error (configurationError sourceName e.what)

def validateAndSetDbServerAddress (sourceName : Bytes) (d : DatabaseConfigurationImpl)
    (address : Bytes) :
    Except Exception DatabaseConfigurationImpl :=
  match d.checkAndApplyServerAddress net address with
  | .ok d => .ok d
  | .error e => .error (configurationError sourceName
      (str "invalid \"address\": \"" ++ address ++ str "\" " ++ hostAndPortWhat e))

def parseDatabaseServerConfiguration (sourceName : Bytes) (d : DatabaseConfigurationImpl)
    (ptree : PTree) :
    Except Exception DatabaseConfigurationImpl :=
  match get some ptree (str "address") sourceName with
  | .ok address => validateAndSetDbServerAddress net sourceName d address
  | .error e => .error e

def parseDatabaseServersConfiguration (sourceName : Bytes) (d : DatabaseConfigurationImpl)
    (ptree : PTree) :
    Except Exception DatabaseConfigurationImpl :=
  match ptree.getChildOptional (str "servers") with
  | some servers => (servers.children.map Prod.snd).foldlM
    (parseDatabaseServerConfiguration net sourceName) d
  | none => .error (configurationError sourceName (str "missing \"servers\""))

def parseDatabaseConfiguration (sourceName : Bytes) (d : DatabaseConfigurationImpl)
    (ptree : PTree) :
    Except Exception DatabaseConfigurationImpl := do
  let type ← get some ptree (str "type") sourceName
  let d ← validateAndSetDbType type d sourceName
  parseDatabaseServersConfiguration net sourceName d ptree

def parseDatabaseConfigurationTree (sourceName : Bytes) (d : DatabaseConfigurationImpl) :
    Option PTree → Except Exception DatabaseConfigurationImpl
  | some ptree => parseDatabaseConfiguration net sourceName d ptree
  | none => .ok d

/-- The pieces between the commas are applied one after the other. -/
def parseDatabaseServersConfigurationFromString (sourceName : Bytes) (d : DatabaseConfigurationImpl)
    (serverConfiguration : Bytes) : Except Exception DatabaseConfigurationImpl :=
  (splitFrom (chr ',') serverConfiguration 0).foldlM
    (validateAndSetDbServerAddress net sourceName) d

end Parse

def DEFAULT_REDIS_PORT : Bytes := str "6379"

/-- `appendDBPortToAddrList`. The index of the source, which is counted in the loop, is read before
it only. -/
def appendDBPortToAddrList (addresses port : Bytes) : Bytes :=
  let portList := DatabaseConfigurationImpl.split port
  let redisPort := portList[0]?.getD DEFAULT_REDIS_PORT
  spliceFrom (chr ',') (chr ':' :: redisPort) addresses 0 ++ chr ':' :: redisPort

/-! ## The reader -/

def DB_HOST_ENV_VAR_NAME : Bytes := str "DBAAS_SERVICE_HOST"
def DB_PORT_ENV_VAR_NAME : Bytes := str "DBAAS_SERVICE_PORT"
def SENTINEL_PORT_ENV_VAR_NAME : Bytes := str "DBAAS_SERVICE_SENTINEL_PORT"
def SENTINEL_MASTER_NAME_ENV_VAR_NAME : Bytes := str "DBAAS_MASTER_NAME"
def DB_CLUSTER_ADDR_LIST_ENV_VAR_NAME : Bytes := str "DBAAS_CLUSTER_ADDR_LIST"

/-- The members, without the names of the variables. The order in which an unordered map is iterated
is not that of `toList` (`Config/Namespaces.lean`). -/
structure ConfigurationReader where
  dbHostEnvVariableValue : Bytes
  dbPortEnvVariableValue : Bytes
  sentinelPortEnvVariableValue : Bytes
  sentinelMasterNameEnvVariableValue : Bytes
  dbClusterAddrListEnvVariableValue : Bytes
  jsonDatabaseConfiguration : Option PTree
  sourceForDatabaseConfiguration : Bytes
  jsonNamespaceConfigurations : OrdMap Bytes (PTree × Bytes)

namespace ConfigurationReader

/-- The constructor, up to the reading of the directories. -/
def readEnvironment (getenv : Bytes → Option Bytes) : ConfigurationReader :=
  match getenv DB_HOST_ENV_VAR_NAME with
  | some envStr =>
    { dbHostEnvVariableValue := envStr
      sourceForDatabaseConfiguration := DB_HOST_ENV_VAR_NAME
      dbPortEnvVariableValue := (getenv DB_PORT_ENV_VAR_NAME).getD []
      sentinelPortEnvVariableValue := (getenv SENTINEL_PORT_ENV_VAR_NAME).getD []
      sentinelMasterNameEnvVariableValue := (getenv SENTINEL_MASTER_NAME_ENV_VAR_NAME).getD []
      dbClusterAddrListEnvVariableValue := (getenv DB_CLUSTER_ADDR_LIST_ENV_VAR_NAME).getD []
      jsonDatabaseConfiguration := none
      jsonNamespaceConfigurations := .empty }
  | none => ⟨[], [], [], [], [], none, [], .empty⟩

/-- The loop over the entries of `"sharedDataLayer"`. -/
def readEntries (sourceName : Bytes) : List PTree → OrdMap Bytes (PTree × Bytes) →
    OrdMap Bytes (PTree × Bytes) × Option Exception
  | [], m => (m, none)
  | entry :: entries, m =>
    match get some entry (str "namespacePrefix") sourceName with
    | .ok namespacePrefix => readEntries sourceName entries
      (m.assign namespacePrefix (entry, sourceName))
    | .error e => (m, some e)

/-- The `"database"` of a source. Environment variable configuration overrides json
configuration. -/
def readDatabase (r : ConfigurationReader) (propertyTree : PTree) (currentSourceName : Bytes) :
    ConfigurationReader :=
  if r.sourceForDatabaseConfiguration ≠ DB_HOST_ENV_VAR_NAME then
    match propertyTree.getChildOptional (str "database") with
    | some databaseConfiguration => { r with
        jsonDatabaseConfiguration := some databaseConfiguration
        sourceForDatabaseConfiguration := currentSourceName }
    | none => r
  else r

/-- The `"sharedDataLayer"` of a source. -/
def readNamespaces (r : ConfigurationReader) (propertyTree : PTree) (currentSourceName : Bytes) :
    ConfigurationReader × Option Exception :=
  match propertyTree.getChildOptional (str "sharedDataLayer") with
  | some namespaceConfigurations =>
    let (m, e) := readEntries currentSourceName (namespaceConfigurations.children.map Prod.snd)
      r.jsonNamespaceConfigurations
    ({ r with jsonNamespaceConfigurations := m }, e)
  | none => (r, none)

/-- `readConfiguration`. The exception leaves what was read before it. -/
def readConfiguration (r : ConfigurationReader) (input : Json) (currentSourceName : Bytes) :
    ConfigurationReader × Option Exception :=
  match input with
  | .error line message =>
    (r, some ⟨str "error in SDL configuration " ++ currentSourceName ++ str " at line " ++
      str (toString line) ++
      str ": " ++ message⟩)
  | .tree propertyTree =>
    (r.readDatabase propertyTree currentSourceName).readNamespaces propertyTree currentSourceName

/-- The files are given with their names, in the order of `findConfigurationFiles`. -/
def readConfigurationFromDirectories (r : ConfigurationReader) (files : List (Bytes × Json)) :
    Except Exception ConfigurationReader :=
  files.foldlM (fun r file =>
    match r.readConfiguration file.2 file.1 with
    | (r, none) => .ok r
    | (_, some e) => .error e) r

/-- The constructor. -/
def new (getenv : Bytes → Option Bytes) (files : List (Bytes × Json)) :
    Except Exception ConfigurationReader :=
  (readEnvironment getenv).readConfigurationFromDirectories files

def readConfigurationFromInputStream (r : ConfigurationReader) (input : Json) :
    ConfigurationReader × Option Exception :=
  { r with jsonNamespaceConfigurations := .empty }.readConfiguration input (str "<istream>")

/-- The database type that the environment variables select, and the list of hosts. -/
def envDbType (r : ConfigurationReader) : Option (Bytes × Bytes) :=
  if r.dbHostEnvVariableValue ≠ [] ∧ r.sentinelPortEnvVariableValue = [] ∧
    r.dbClusterAddrListEnvVariableValue = [] then
    some (str "redis-standalone", r.dbHostEnvVariableValue)
  else if r.dbHostEnvVariableValue ≠ [] ∧ r.sentinelPortEnvVariableValue ≠ [] ∧
      r.dbClusterAddrListEnvVariableValue = [] then
    some (str "redis-sentinel", r.dbHostEnvVariableValue)
  else if r.sentinelPortEnvVariableValue = [] ∧ r.dbClusterAddrListEnvVariableValue ≠ [] then
    some (str "sdl-standalone-cluster", r.dbClusterAddrListEnvVariableValue)
  else if r.sentinelPortEnvVariableValue ≠ [] ∧ r.dbClusterAddrListEnvVariableValue ≠ [] then
    some (str "sdl-sentinel-cluster", r.dbClusterAddrListEnvVariableValue)
  else none

/-- The end of the branch for the environment variables. -/
def applySentinel (r : ConfigurationReader) (d : DatabaseConfigurationImpl) :
    DatabaseConfigurationImpl :=
  if d.dbType = .redisSentinel ∨ d.dbType = .sdlSentinelCluster then
    let d := d.checkAndApplySentinelPorts r.sentinelPortEnvVariableValue
    d.checkAndApplySentinelMasterNames r.sentinelMasterNameEnvVariableValue
  else d

/-- The branch of `readDatabaseConfiguration` for the environment variables. -/
def readEnvDatabaseConfiguration (net : Resolver) (r : ConfigurationReader)
    (d : DatabaseConfigurationImpl) :
    Except Exception DatabaseConfigurationImpl :=
  match r.envDbType with
  | none => .error (configurationError r.sourceForDatabaseConfiguration
      (str "Missing environment variable configuration!"))
  | some (type, dbHostAddrs) => do
    let d ← validateAndSetDbType type d r.sourceForDatabaseConfiguration
    let dbHostAddrs :=
      if r.dbPortEnvVariableValue ≠ [] then
        appendDBPortToAddrList dbHostAddrs r.dbPortEnvVariableValue
      else dbHostAddrs
    let d ← parseDatabaseServersConfigurationFromString net
      r.sourceForDatabaseConfiguration d dbHostAddrs
    .ok (r.applySentinel d)

def readDatabaseConfiguration (net : Resolver) (r : ConfigurationReader)
    (d : DatabaseConfigurationImpl) :
    Except Failure DatabaseConfigurationImpl :=
  if !d.isEmpty then .error (.abort "Database configuration can be read only to empty container")
  else
    let result :=
      if r.sourceForDatabaseConfiguration = DB_HOST_ENV_VAR_NAME then
        readEnvDatabaseConfiguration net r d
      else parseDatabaseConfigurationTree net r.sourceForDatabaseConfiguration d
        r.jsonDatabaseConfiguration
    match result with
    | .ok d => .ok d
    | .error e => .error (.exception e)

end ConfigurationReader

end Config
end Sdl
