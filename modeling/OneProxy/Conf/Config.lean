import OneProxy.Conf.DataBaseGroup
import OneProxy.Conf.MonitorPortClass
import OneProxy.Session.Connection
import OneProxy.Util.Digits

/-! The configuration: what its defaults, a file and the arguments of the program make of it. -/

namespace OneProxy

open Tool

/-- `loggerLevel`. -/
inductive LoggerLevel
  | debug | info | warning | err | fatal

/-- What is configured of a `DataBase`. -/
structure DataBaseConfig where
  labelName : Bytes
  addr : Bytes
  port : UInt32
  weightValue : UInt32
  userName : Bytes
  password : Bytes
  connectNumLimit : UInt32

namespace DataBaseConfig

/-- The constructor. -/
def new : DataBaseConfig := ⟨[], [], 0, 0, [], [], 1000⟩

/-- `is_valid`. -/
def isValid (db : DataBaseConfig) : Bool :=
  db.addr.length > 0 && db.port > 0 && db.userName.length > 0 && db.password.length > 0

/-- The database as the connections find it, which is not active yet. -/
def dataBase (db : DataBaseConfig) : DataBase where
  addr := db.addr
  port := db.port
  connectNum := 0
  connectNumLimit := db.connectNumLimit
  allocToFrontConn := 0
  isActive := false

end DataBaseConfig

/-- What is configured of a `DataBaseGroup`; a database is known by its place in `dbVector`. -/
structure DataBaseGroupConfig where
  labelName : Bytes
  dbMasterGroup : Bytes
  dbSlaveGroup : Bytes
  className : Bytes
  frontPort : UInt32
  passwordSeparate : Bool
  readSlave : Bool
  useConnectionPool : Bool
  dbMasterGroupVec : List DataBaseId
  dbSlaveGroupVec : List DataBaseId
  dbGroupVec : List DataBaseId
  clientAuthMethod : Bytes
  clearBackendConnection : Bool
  useDatabaseConnectToBalace : Bool
  useMasterAsSalve : Bool

namespace DataBaseGroupConfig

/-- The constructor. -/
def new : DataBaseGroupConfig where
  labelName := []
  dbMasterGroup := []
  dbSlaveGroup := []
  className := []
  frontPort := 0
  passwordSeparate := true
  readSlave := true
  useConnectionPool := true
  dbMasterGroupVec := []
  dbSlaveGroupVec := []
  dbGroupVec := []
  clientAuthMethod := []
  clearBackendConnection := true
  useDatabaseConnectToBalace := false
  useMasterAsSalve := false

/-- `is_valid`. -/
def isValid (group : DataBaseGroupConfig) : Bool :=
  group.dbMasterGroup.length > 0 && group.className.length > 0

/-- The group as the connections find it. -/
def group (group : DataBaseGroupConfig) : DataBaseGroup where
  readSlave := group.readSlave
  useConnectionPool := group.useConnectionPool
  dbMasterGroupVec := group.dbMasterGroupVec
  dbSlaveGroupVec := group.dbSlaveGroupVec
  useDatabaseConnectToBalace := group.useDatabaseConnectToBalace
  useMasterAsSalve := group.useMasterAsSalve

end DataBaseGroupConfig

/-- `Config`. -/
structure Config where
  maxConnectNum : UInt32
  loggerLevel : LoggerLevel
  tryConnServerTimes : Int32
  oneproxyAddr : Bytes
  oneproxyPort : Bytes
  oneproxyPortSet : Finset UInt32
  dumpData : Bool
  logSql : Bool
  logClientSql : Bool
  keepAlive : Bool
  httpServerAddr : Bytes
  httpServerPort : Int32
  logFilePath : Bytes
  pidFilePath : Bytes
  vipIfName : Bytes
  vipAddress : Bytes
  threadNum : Int32
  clientUserName : Bytes
  clientPassword : Bytes
  poolConnCheckActiveTime : Int32
  poolConnTimeoutReleaseTime : Int32
  connectTimeOut : Int32
  acceptThreadNum : Int32
  listenBackLog : Int32
  useMonitor : Bool
  monitorPortClass : Bytes
  monitorDeviceName : Bytes
  monitorDumpData : Bool
  statsUserDB : Bool
  monitorThreadNum : Int32
  monitorCaptureAddress : Bytes
  monitorAutoGetDesIp : Bool
  dbVector : List DataBaseConfig
  dbGroupVector : List DataBaseGroupConfig
  monitorPortClassMap : Config.PortMap

namespace Config

/-! ## The tables of keys -/

/-- `ConfigKeyValue`: a key, its default value, and what a value sets. -/
structure ConfigKeyValue (σ : Type) where
  key : Bytes
  defaultValue : Bytes
  set : Bytes → σ → σ

section Conversions

variable {σ : Type}

/-- `cvtInt`. -/
def cvtInt (set : Int32 → σ → σ) (value : Bytes) (obj : σ) : σ := set (atoi value) obj

/-- `cvtBool`. -/
def cvtBool (set : Bool → σ → σ) (value : Bytes) (obj : σ) : σ :=
  set (strncasecmpS value (asBytes "true") || strncasecmpS value (asBytes "1")) obj

/-- `cvtLogger`: an unknown level sets nothing. -/
def cvtLogger (set : LoggerLevel → σ → σ) (value : Bytes) (obj : σ) : σ :=
  if strncasecmpS value (asBytes "debug") then set .debug obj
  else if strncasecmpS value (asBytes "info") then set .info obj
  else if strncasecmpS value (asBytes "warning") then set .warning obj
  else if strncasecmpS value (asBytes "error") then set .err obj
  else if strncasecmpS value (asBytes "fatal") then set .fatal obj
  else obj

/-- A key with a conversion and a setter. -/
def addConfig (key defaultValue : String) (set : Bytes → σ → σ) : ConfigKeyValue σ :=
  ⟨asBytes key, asBytes defaultValue, set⟩

/-- `loadConfigKeyValue`: a key is that of the table which it begins with. -/
def loadConfigKeyValue (cfg : List (ConfigKeyValue σ)) (obj : σ) (pair : Bytes × Bytes) : σ :=
  match cfg.find? fun kv => kv.key.isPrefixOf pair.1 with
  | none => obj
  | some kv => kv.set pair.2 obj

/-- Sets the default value of every key. -/
def setDefaults (cfg : List (ConfigKeyValue σ)) (obj : σ) : σ :=
  cfg.foldl (fun obj kv => kv.set kv.defaultValue obj) obj

end Conversions

/-- `oneproxyCfg`. -/
def oneproxyCfg : List (ConfigKeyValue Config) := [
  addConfig "logfile" "oneproxy_log.log" fun v c => { c with logFilePath := v },
  addConfig "pidfile" "oneproxy_pid.pid" fun v c => { c with pidFilePath := v },
  addConfig "listen_addr" "0.0.0.0" fun v c => { c with oneproxyAddr := v },
  addConfig "listen_port" "9999" fun v c => { c with oneproxyPort := v },
  addConfig "httpserver_addr" "0.0.0.0" fun v c => { c with httpServerAddr := v },
  addConfig "httpserver_port" "8080" (cvtInt fun v c => { c with httpServerPort := v }),
  addConfig "log_level" "error" (cvtLogger fun v c => { c with loggerLevel := v }),
  addConfig "data_dump" "false" (cvtBool fun v c => { c with dumpData := v }),
  addConfig "log_sql" "false" (cvtBool fun v c => { c with logSql := v }),
  addConfig "logclientsql" "false" (cvtBool fun v c => { c with logClientSql := v }),
  addConfig "tryconnservertimes" "3" (cvtInt fun v c => { c with tryConnServerTimes := v }),
  addConfig "maxconnectnum" "2000" (cvtInt fun v c => { c with maxConnectNum := v.toUInt32 }),
  addConfig "keepalive" "false" (cvtBool fun v c => { c with keepAlive := v }),
  addConfig "vip_ifname" "" fun v c => { c with vipIfName := v },
  addConfig "vip_address" "" fun v c => { c with vipAddress := v },
  addConfig "threadnum" "0" (cvtInt fun v c => { c with threadNum := v }),
  addConfig "clientusername" "admin" fun v c => { c with clientUserName := v },
  addConfig "clientpassword" "0000" fun v c => { c with clientPassword := v },
  addConfig "poolconncheckactivetime" "5"
    (cvtInt fun v c => { c with poolConnCheckActiveTime := v }),
  addConfig "poolconntimeoutreleasetime" "60"
    (cvtInt fun v c => { c with poolConnTimeoutReleaseTime := v }),
  addConfig "connecttimeout" "86400" (cvtInt fun v c => { c with connectTimeOut := v }),
  addConfig "acceptthreadnum" "1" (cvtInt fun v c => { c with acceptThreadNum := v }),
  addConfig "listenbacklog" "1000" (cvtInt fun v c => { c with listenBackLog := v }),
  addConfig "usemonitor" "false" (cvtBool fun v c => { c with useMonitor := v }),
  addConfig "monitorportclass" "SSProtocol:1433;PGProtocol:5432;"
    fun v c => { c with monitorPortClass := v },
  addConfig "monitordevicename" "" fun v c => { c with monitorDeviceName := v },
  addConfig "monitordumpdata" "false" (cvtBool fun v c => { c with monitorDumpData := v }),
  addConfig "statsuserdb" "false" (cvtBool fun v c => { c with statsUserDB := v }),
  addConfig "monitorthreadnum" "4" (cvtInt fun v c => { c with monitorThreadNum := v }),
  addConfig "monitorcaptureaddress" "" fun v c => { c with monitorCaptureAddress := v },
  addConfig "monitorautogetdesip" "true" (cvtBool fun v c => { c with monitorAutoGetDesIp := v })]

/-- `dbInfoCfg`, which has one element. -/
def dbInfoCfg : List (ConfigKeyValue DataBaseConfig) := [
  addConfig "labelname" "database_fakedb" fun v db => { db with labelName := v },
  addConfig "host" "127.0.0.1" fun v db => { db with addr := v },
  addConfig "port" "1433" (cvtInt fun v db => { db with port := v.toUInt32 }),
  addConfig "weightvalue" "0" (cvtInt fun v db => { db with weightValue := v.toUInt32 }),
  addConfig "username" "sa" fun v db => { db with userName := v },
  addConfig "password" "0000" fun v db => { db with password := v },
  addConfig "connectnumlimit" "1000" (cvtInt fun v db => { db with connectNumLimit := v.toUInt32 })]

/-- `dbGroupCfg`, which has one element. -/
def dbGroupCfg : List (ConfigKeyValue DataBaseGroupConfig) := [
  addConfig "labelname" "group_fake" fun v g => { g with labelName := v },
  addConfig "dbmastergroup" "database_fakedb" fun v g => { g with dbMasterGroup := v },
  addConfig "dbslavegroup" "" fun v g => { g with dbSlaveGroup := v },
  addConfig "classname" "FakeProtocol" fun v g => { g with className := v },
  addConfig "frontport" "0" (cvtInt fun v g => { g with frontPort := v.toUInt32 }),
  addConfig "passwordseparate" "false" (cvtBool fun v g => { g with passwordSeparate := v }),
  addConfig "readslave" "false" (cvtBool fun v g => { g with readSlave := v }),
  addConfig "useconnectionpool" "false" (cvtBool fun v g => { g with useConnectionPool := v }),
  addConfig "clientauthmethod" "md5" fun v g => { g with clientAuthMethod := v },
  addConfig "clearbackendconnection" "false"
    (cvtBool fun v g => { g with clearBackendConnection := v }),
  addConfig "usedatabaseconnecttobalace" "false"
    (cvtBool fun v g => { g with useDatabaseConnectToBalace := v }),
  addConfig "usemasterassalve" "false" (cvtBool fun v g => { g with useMasterAsSalve := v })]

/-! ## Defaults and files -/

/-- `default_oneproxyConfig`. -/
def defaultOneproxyConfig (config : Config) : Config := setDefaults oneproxyCfg config

/-- `set_database`. -/
def setDatabase (config : Config) (db : DataBaseConfig) : Config :=
  { config with dbVector := config.dbVector ++ [db] }

/-- `set_dataBaseGroup`. -/
def setDataBaseGroup (config : Config) (group : DataBaseGroupConfig) : Config :=
  { config with dbGroupVector := config.dbGroupVector ++ [group] }

/-- `default_database`. -/
def defaultDatabase (config : Config) : Config := config.setDatabase (setDefaults dbInfoCfg .new)

/-- `default_databaseGroup`. -/
def defaultDatabaseGroup (config : Config) : Config :=
  config.setDataBaseGroup (setDefaults dbGroupCfg .new)

/-- The sections of a file, each with its keys and their values, as `CSimpleIniA` lists them. -/
abbrev Ini := List (Bytes × List (Bytes × Bytes))

/-- One round of `loadConfig`. -/
def loadSection (config : Config) (sec : Bytes × List (Bytes × Bytes)) : Config :=
  if (asBytes "oneproxy").isPrefixOf sec.1 then sec.2.foldl (loadConfigKeyValue oneproxyCfg) config
  else if (asBytes "database").isPrefixOf sec.1 then
    let db := sec.2.foldl (loadConfigKeyValue dbInfoCfg) .new
    if db.isValid then
      config.setDatabase (if db.labelName.length ≤ 0 then { db with labelName := sec.1 } else db)
    else config
  else
    let dbg := sec.2.foldl (loadConfigKeyValue dbGroupCfg) .new
    if dbg.isValid then
      config.setDataBaseGroup
        (if dbg.labelName.length ≤ 0 then { dbg with labelName := sec.1 } else dbg)
    else config

/-- `loadConfig` of a file that could be read. -/
def loadConfig (config : Config) (ini : Ini) : Config := ini.foldl loadSection config

/-! ## What is made of them -/

/-- The loop of `handle_ports`; the fuel bounds its rounds. -/
def portsLoop (ports : Bytes) : Nat → Nat → Finset UInt32 → Option (Finset UInt32)
  | 0, _, _ => none
  | fuel + 1, pos, portSet =>
    let curPos := (Tool.findFirstOf ports 44 pos).getD ports.length
    let port := (atoi ((ports.drop pos).take (curPos - pos))).toUInt32
    let portSet := if port > 0 then insert port portSet else portSet
    if curPos ≥ ports.length then some portSet else portsLoop ports fuel (curPos + 1) portSet

/-- `handle_ports`. -/
def handlePorts (config : Config) (fuel : Nat) : Option Config :=
  if config.oneproxyPort.length ≤ 0 then some config
  else (portsLoop config.oneproxyPort fuel 0 config.oneproxyPortSet).map fun ports =>
    { config with oneproxyPortSet := ports }

/-- The databases of a list of labels. -/
def groupVec (config : Config) (names : Bytes) (vec : List DataBaseId) (fuel : Nat) :
    Option (List DataBaseId) :=
  DataBaseGroup.setDataBaseGroupVec
    (fun db => (config.dbVector[db]?.map DataBaseConfig.labelName).getD [])
    (List.range config.dbVector.length) names vec fuel

/-- The first loop of `handle_dataBaseGroup`, for one group. -/
def fillGroup (config : Config) (fuel : Nat) (group : DataBaseGroupConfig) :
    Option DataBaseGroupConfig :=
  (config.groupVec group.dbMasterGroup group.dbMasterGroupVec fuel).bind fun masters =>
    (config.groupVec group.dbSlaveGroup group.dbSlaveGroupVec fuel).map fun slaves =>
      { group with
        dbMasterGroupVec := masters
        dbSlaveGroupVec := slaves
        dbGroupVec := group.dbGroupVec ++ masters ++ slaves }

/-- `handle_dataBaseGroup`: a group without a master is taken out. -/
def handleDataBaseGroup (config : Config) (fuel : Nat) : Option Config :=
  (config.dbGroupVector.mapM (config.fillGroup fuel)).map fun groups =>
    { config with dbGroupVector := groups.filter fun group => group.dbMasterGroupVec.length > 0 }

/-- What `handle_config` forbids a group. -/
def forbid (useMonitor : Bool) (group : DataBaseGroupConfig) : DataBaseGroupConfig :=
  let group :=
    if useMonitor then
      { group with passwordSeparate := false, readSlave := false, useConnectionPool := false }
    else group
  let group :=
    if group.className.length > 0 ∧ (asBytes "FakeProtocol").isPrefixOf group.className then
      { group with passwordSeparate := false, readSlave := false, useConnectionPool := false }
    else group
  if group.passwordSeparate then group
  else { group with readSlave := false, useConnectionPool := false }

/-- The bounds that `handle_config` sets to the numbers. -/
def setBounds (config : Config) (cpuNum : UInt32) : Config :=
  { config with
    threadNum :=
      if config.threadNum ≤ 0 ∧ cpuNum > 0 then cpuNum.toInt32 else config.threadNum
    acceptThreadNum := if config.acceptThreadNum ≤ 0 ∨ cpuNum ≤ 1 then 1 else config.acceptThreadNum
    listenBackLog := if config.listenBackLog ≤ 128 then 128 else config.listenBackLog
    tryConnServerTimes := if config.tryConnServerTimes ≤ 0 then 1 else config.tryConnServerTimes
    maxConnectNum := if config.maxConnectNum ≤ 0 then 1 else config.maxConnectNum
    poolConnCheckActiveTime :=
      if config.poolConnCheckActiveTime ≤ 0 then 1 else config.poolConnCheckActiveTime
    poolConnTimeoutReleaseTime :=
      if config.poolConnTimeoutReleaseTime ≤ 0 then 1 else config.poolConnTimeoutReleaseTime
    connectTimeOut := if config.connectTimeOut ≤ 0 then 1 else config.connectTimeOut }

/-- `handle_config`: whether it succeeds, and what it leaves. -/
def handleConfig (config : Config) (cpuNum : UInt32) (fuel : Nat) : Option (Bool × Config) := do
  let config ← (config.setBounds cpuNum).handlePorts fuel
  let config ← config.handleDataBaseGroup fuel
  if config.dbGroupVector.length ≤ 0 then some (false, config)
  else
    let config :=
      { config with dbGroupVector := config.dbGroupVector.map (forbid config.useMonitor) }
    let map ← handleMonitorPortClass config.monitorPortClass fuel
    some (true, { config with monitorPortClassMap := map })

/-- An argument that does not end the program; nothing stands for a file that cannot be read. -/
inductive Arg
  | verbose
  | quiet
  | file (ini : Option Ini)

/-- What an argument does. -/
def handleArg (config : Config) : Arg → Config
  | .verbose => { config with loggerLevel := .info }
  | .quiet => { config with loggerLevel := .err }
  | .file none => config
  | .file (some ini) => config.loadConfig ini

/-- The default databases and groups, where none are configured. -/
def addDefaults (config : Config) : Config :=
  let config := if config.dbVector.length ≤ 0 then config.defaultDatabase else config
  if config.dbGroupVector.length ≤ 0 then config.defaultDatabaseGroup else config

/-- `handle_args`, with the file that is found where there are no arguments. -/
def handleArgs (config : Config) (args : List Arg) (found : Option (Option Ini)) (cpuNum : UInt32)
    (fuel : Nat) : Option (Bool × Config) :=
  let config := config.defaultOneproxyConfig
  if args.length > 0 then (args.foldl handleArg config).addDefaults.handleConfig cpuNum fuel
  else
    match found with
    | none => config.defaultDatabase.defaultDatabaseGroup.handleConfig cpuNum fuel
    | some none => some (false, config)
    | some (some ini) => (config.loadConfig ini).addDefaults.handleConfig cpuNum fuel

end Config

end OneProxy
