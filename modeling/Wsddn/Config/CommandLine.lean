import Mathlib.Algebra.Ring.Int.Defs
import Mathlib.Algebra.Ring.Nat
import Mathlib.Data.List.Basic
import Mathlib.Data.Option.Basic

/-!
# The settings of the daemon (`command_line.h`, `command_line.cpp`)

`CommandLine` holds what was set by command line options and by the config file.  Every option has
one setter, which checks the value and may raise; the command line and the config file use the same
setters.  A setter returns the settings afterwards together with what it raised: some change the
settings and then raise.

What the setters ask of the system is a parameter (`Lookups`): the user database, the file system,
regular expressions, and the string functions of the `sys_string` library.  A lookup may raise
something that `mergeConfigFile` does not catch (`Raised.other`).

* `CommandLine.parse` : the options that were given, in order.
* `CommandLine.parseConfigKey` : one entry of the config file.
* `CommandLine.mergeConfigFile` : the whole file.
* `mergeConfigFile_runAs`, `mergeConfigFile_chrootDir` : what the file contributes to the identity
  and the directory of the network process.
-/

namespace Wsddn

/-- A user and a group. -/
structure Identity where
  uid : ℕ
  gid : ℕ
  deriving DecidableEq, Repr

/-- What a setter or a lookup raises. -/
inductive Raised where
  /-- `Parser::ValidationError`. -/
  | validation (message : String)
  /-- `CommandLine::ConfigFileError`. -/
  | configFile (message : String)
  /-- Anything else: `filesystem_error`, `system_error`, ... -/
  | other (message : String)
  deriving DecidableEq, Repr

/-- A path of the file system. -/
abbrev Path := String

/-- 128 bits. -/
abbrev Uuid := BitVec 128

/-- What the settings ask of the system and of other libraries. -/
structure Lookups where
  /-- `ptl::Passwd::getByName`. -/
  passwdByName : String → Except Raised (Option Identity)
  /-- `ptl::Group::getByName`. -/
  groupByName : String → Except Raised (Option ℕ)
  /-- `Identity::createDaemonUser`. -/
  createDaemonUser : String → Except Raised (Option Identity)
  /-- `createMissingDirs`. -/
  createMissingDirs : Path → Except Raised Unit
  /-- `std::filesystem::absolute`, by the working directory. -/
  absolute : Path → Path → Except Raised Path
  /-- `std::filesystem::exists`. -/
  fileExists : Path → Except Raised Bool
  /-- What is wrong with a regular expression. -/
  regexError : String → Option String
  uuidFromChars : String → Option Uuid
  /-- `Argum::parseIntegral<unsigned>`. -/
  parseIntegral : String → Option ℕ
  trim : String → String
  toLower : String → String
  toUpper : String → String

/-- How the program is run in the background. -/
inductive DaemonType where
  | unix
  | systemd
  | launchd
  deriving DecidableEq, Repr

/-- The families of addresses to use. -/
inductive AllowedAddressFamily where
  | ipv4Only
  | ipv6Only
  | both
  deriving DecidableEq, Repr

/-- What the host is a member of, with the name as it is announced. -/
inductive MemberOf where
  | workgroup (name : String)
  | domain (name : String)
  deriving DecidableEq, Repr

/-- The settings. -/
structure CommandLine where
  configFile : Option Path := none
  daemonType : Option DaemonType := none
  interfaces : List String := []
  includePatterns : List String := []
  excludePatterns : List String := []
  allowedAddressFamily : Option AllowedAddressFamily := none
  hoplimit : Option Int := none
  sourcePort : Option ℕ := none
  uuid : Option Uuid := none
  hostname : Option String := none
  memberOf : Option MemberOf := none
  smbConf : Option Path := none
  metadataFile : Option Path := none
  logLevel : Option ℕ := none
  logFile : Option Path := none
  logToOsLog : Option Bool := none
  pidFile : Option Path := none
  runAs : Option Identity := none
  chrootDir : Option Path := none
  deriving DecidableEq, Repr

/-- The settings after a setter, and what it raised. -/
abbrev Setting := CommandLine × Option Raised

/-- The constants of a build (`sys_config.h`), with the values for Linux. -/
structure Build where
  /-- `HAVE_OS_LOG`. -/
  haveOsLog : Bool := false
  /-- `WSDDN_DEFAULT_USER_NAME`. -/
  defaultUserName : String := "wsddn"
  /-- `WSDDN_DEFAULT_CHROOT_DIR`. -/
  defaultChrootDir : Path := "/var/run/wsddn"
  deriving DecidableEq, Repr

/-- What the setters know of their surroundings: also the user that the daemon was started by and
its working directory. -/
structure Surroundings extends Lookups, Build where
  getuid : ℕ
  cwd : Path

/-- `partition_at_first` : the text before and after the first `sep`. -/
def partitionAtFirst (str : String) (sep : Char) : Option (String × String) :=
  match str.toList.span (fun c => c ≠ sep) with
  | (_, []) => none
  | (first, _ :: second) => some (String.ofList first, String.ofList second)

/-- The maximum of `spdlog::level::level_enum` below `n_levels`. -/
def maxLogLevel : ℕ := 6

namespace CommandLine

variable (S : Surroundings)

/-- Change the settings, unless the check of the value raises. -/
def attempt {α : Type} (c : CommandLine) (check : Except Raised α) (set : α → CommandLine) :
    Setting :=
  match check with
  | .ok val => (set val, none)
  | .error e => (c, some e)

/-- Raise unless the condition holds. -/
def require (cond : Bool) (message : String) : Except Raised Unit :=
  if cond then .ok () else .error (.validation message)

theorem bind_eq_ok {α β : Type} {x : Except Raised α} {f : α → Except Raised β} {b : β} :
    x >>= f = .ok b ↔ ∃ a, x = .ok a ∧ f a = .ok b := by
  cases x <;> simp [bind, Except.bind]

/-- The account that a text names: the part before the `:` is the group. -/
def parseUser (str : String) : Except Raised Identity := do
  let (groupname, username) :=
    match partitionAtFirst str ':' with
    | some (first, second) => (some first, second)
    | none => (none, str)
  match ← S.passwdByName username with
  | none => .error (.validation s!"non-existent user {username}")
  | some pwd =>
    match groupname with
    | none => .ok pwd
    | some groupname =>
      match ← S.groupByName groupname with
      | none => .error (.validation s!"non-existent group {groupname}")
      | some gid => .ok ⟨pwd.uid, gid⟩

/-- `--interface`, and an element of `interfaces`. -/
def addInterface (val : String) (c : CommandLine) : Setting :=
  attempt c (require (val ≠ "") "interface name cannot be empty") fun _ =>
    { c with interfaces := c.interfaces ++ [val] }

/-- `--include-pattern` or `--exclude-pattern`, and an element of either array. -/
def addPattern (included : Bool) (val : String) (c : CommandLine) : Setting :=
  attempt c (do
      require (val ≠ "") "interface pattern cannot be empty"
      match S.regexError val with
      | none => .ok ()
      | some what => .error (.validation s!"invalid interface pattern: {what}"))
    fun _ =>
      if included then { c with includePatterns := c.includePatterns ++ [val] }
      else { c with excludePatterns := c.excludePatterns ++ [val] }

/-- There is no `return` after the assignment. -/
def setUuid (val : String) (c : CommandLine) : Setting :=
  match S.uuidFromChars val with
  | some uuid => ({ c with uuid := some uuid }, some (.validation "invalid uuid"))
  | none => (c, some (.validation "invalid uuid"))

/-- `allowed-address-families`, in any capitalization. -/
def setAllowedAddressFamily (val : String) (c : CommandLine) : Setting :=
  let family := S.toLower val
  attempt c
    (if family = "ipv4" then .ok .ipv4Only
      else if family = "ipv6" then .ok .ipv6Only
      else if family = "both" then .ok .both
      else .error (.validation "allowed-address-families must be one of: IPv4, IPv6 or Both"))
    fun family => { c with allowedAddressFamily := some family }

/-- `:NETBIOS:` is stored as an empty name. -/
def setHostname (val : String) (c : CommandLine) : Setting :=
  attempt c (require (val ≠ "") "hostname cannot be empty") fun _ =>
    { c with hostname := some (if val = ":NETBIOS:" then "" else val) }

/-- `--domain`. -/
def setDomain (val : String) (c : CommandLine) : Setting :=
  attempt c (require (val ≠ "") "domain cannot be empty") fun _ =>
    { c with memberOf := some (.domain val) }

/-- `--workgroup`. -/
def setWorkgroup (val : String) (c : CommandLine) : Setting :=
  attempt c (require (val ≠ "") "workgroup cannot be empty") fun _ =>
    { c with memberOf := some (.workgroup val) }

/-- `member-of`: a name with a prefix, or the name of a workgroup, which is put in capitals. -/
def setMemberOf (val : String) (c : CommandLine) : Setting :=
  attempt c
    (match partitionAtFirst val '/' with
      | some (pre, suffix) => do
        let name := S.trim suffix
        require (name ≠ "") "invalid name"
        let type := S.toLower pre
        if type = "workgroup" then .ok (.workgroup name)
        else if type = "domain" then .ok (.domain name)
        else .error (.validation "invalid member-of prefix")
      | none => do
        let name := S.toUpper (S.trim val)
        require (name ≠ "") "member-of value cannot be empty"
        .ok (.workgroup name))
    fun memberOf => { c with memberOf := some memberOf }

/-- The path given by an option, made absolute; some options need it to exist. -/
def pathValue (val what : String) (needsFile : Bool) : Except Raised Path := do
  require (val ≠ "") s!"{what} path cannot be empty"
  let value ← S.absolute S.cwd val
  if needsFile then
    require (← S.fileExists value) s!"{what} path does not exist"
  .ok value

/-- `--smb-conf`. -/
def setSmbConf (val : String) (c : CommandLine) : Setting :=
  attempt c (pathValue S val "smb.conf" true) fun value => { c with smbConf := some value }

/-- `--metadata`. -/
def setMetadataFile (val : String) (c : CommandLine) : Setting :=
  attempt c (pathValue S val "metadata" true) fun value => { c with metadataFile := some value }

/-- The levels are counted down from the highest one. -/
def setLogLevel (decrease : ℕ) (c : CommandLine) : Setting :=
  ({ c with logLevel := some (maxLogLevel - min decrease maxLogLevel) }, none)

/-- `--log-file`, which excludes the system log. -/
def setLogFile (val : String) (c : CommandLine) : Setting :=
  attempt c (do
      require (val ≠ "") "log file path cannot be empty"
      require (!(S.haveOsLog && c.logToOsLog = some true))
        "logging to file and system log are mutually exclusive"
      S.absolute S.cwd val)
    fun value => { c with logFile := some value }

/-- The system log, which excludes `--log-file`. -/
def setLogToOsLog (val : Bool) (c : CommandLine) : Setting :=
  attempt c (require (!(val && c.logFile.isSome))
      "logging to file and system log are mutually exclusive")
    fun _ => { c with logToOsLog := some val }

/-- `--pid-file`; the file need not exist. -/
def setPidFile (val : String) (c : CommandLine) : Setting :=
  attempt c (pathValue S val "pid file" false) fun value => { c with pidFile := some value }

/-- The identity that a `user` value stands for. -/
def runAsValue (val : String) : Except Raised Identity := do
  require (S.getuid = 0) "you must start wsddn as root to use different username"
  require (val ≠ "") "username cannot be empty"
  parseUser S val

/-- `--user`. -/
def setRunAs (val : String) (c : CommandLine) : Setting :=
  attempt c (runAsValue S val) fun id => { c with runAs := some id }

/-- The directory that a `chroot` value stands for. -/
def chrootDirValue (val : String) : Except Raised Path := do
  require (S.getuid = 0) "you must start wsddn as root to use chroot path"
  pathValue S val "chroot" true

/-- `--chroot`. -/
def setChrootDir (val : String) (c : CommandLine) : Setting :=
  attempt c (chrootDirValue S val) fun value => { c with chrootDir := some value }

/-! ### The config file -/

/-- A TOML value.  The elements of an array are strings or something else. -/
inductive Toml where
  | string (val : String)
  | integer (val : Int)
  | boolean (val : Bool)
  | array (els : List (Option String))
  | otherValue
  deriving DecidableEq, Repr

/-- What the config file is when it is read. -/
inductive ConfigFile where
  /-- It cannot be opened, or its content cannot be read. -/
  | unavailable
  /-- `toml::parse` raises. -/
  | malformed
  /-- The entries of the table, in the order of the table. -/
  | table (entries : List (String × Toml))
  deriving DecidableEq, Repr

/-- The value, if it is a string. -/
def Toml.asString : Toml → Option String
  | .string val => some val
  | _ => none

/-- The value, if it is an integer. -/
def Toml.asInteger : Toml → Option Int
  | .integer val => some val
  | _ => none

/-- The value, if it is a boolean. -/
def Toml.asBoolean : Toml → Option Bool
  | .boolean val => some val
  | _ => none

/-- The value, if it is an array. -/
def Toml.asArray : Toml → Option (List (Option String))
  | .array els => some els
  | _ => none

/-- Use a value of the file, unless the option is set already or the value has another type. -/
def setConfigValue {α : Type} (isSet : Bool) (keyName expected : String) (as : Toml → Option α)
    (value : Toml) (handler : α → CommandLine → Setting) (c : CommandLine) : Setting :=
  if isSet then (c, none)
  else
    match as value with
    | none => (c, some (.configFile s!"{keyName} must be {expected}"))
    | some val => handler val c

/-- Add the elements of an array one by one; the first that is refused ends it. -/
def addAll (add : String → CommandLine → Setting) : List (Option String) → CommandLine → Setting
  | [], c => (c, none)
  -- Only strings can be used; anything else is passed over.
  | none :: els, c => addAll add els c
  | some el :: els, c =>
    match add (S.trim el) c with
    | (c, none) => addAll add els c
    | (c, some e) => (c, some e)

/-- `hoplimit`: the `int64_t` is narrowed to the 16 bits of the option. -/
def setHoplimit (val : Int) (c : CommandLine) : Setting :=
  if val < 1 then (c, some (.configFile "hoplimit value must be greater than 0"))
  else ({ c with hoplimit := some (val % 2 ^ 16) }, none)

/-- `source-port`, a port or 0. -/
def setSourcePort (val : Int) (c : CommandLine) : Setting :=
  if val < 0 ∨ 65536 ≤ val then
    (c, some (.configFile "source-port value must be in [0, 65536) range"))
  else ({ c with sourcePort := some val.toNat }, none)

/-- `log-level`: the `int64_t` is narrowed to an `unsigned`. -/
def setLogLevelValue (val : Int) (c : CommandLine) : Setting :=
  if val < 0 then (c, some (.configFile "log-level value must be greater or equal to 0"))
  else setLogLevel (val.toNat % 2 ^ 32) c

/-- The keys of the config file. -/
inductive ConfigKey where
  | interfaces
  | includePatterns
  | excludePatterns
  | allowedAddressFamily
  | hoplimit
  | sourcePort
  | uuid
  | hostname
  | memberOf
  | smbConf
  | metadata
  | logLevel
  | logFile
  | logOsLog
  | pidFile
  | user
  | chroot
  deriving DecidableEq, Repr

/-- Their names. -/
def ConfigKey.names : List (String × ConfigKey) :=
  [("interfaces", .interfaces), ("include-patterns", .includePatterns),
    ("exclude-patterns", .excludePatterns), ("allowed-address-family", .allowedAddressFamily),
    ("hoplimit", .hoplimit), ("source-port", .sourcePort), ("uuid", .uuid),
    ("hostname", .hostname), ("member-of", .memberOf), ("smb-conf", .smbConf),
    ("metadata", .metadata), ("log-level", .logLevel), ("log-file", .logFile),
    ("log-os-log", .logOsLog), ("pid-file", .pidFile), ("user", .user), ("chroot", .chroot)]

/-- The key with a given name. -/
def ConfigKey.ofName (keyName : String) : Option ConfigKey := names.lookup keyName

/-- One entry of the config file. -/
def parseConfigKey (keyName : String) (value : Toml) (c : CommandLine) : Setting :=
  let array (isSet : Bool) (add : String → CommandLine → Setting) : Setting :=
    setConfigValue isSet keyName "an array" Toml.asArray value (addAll S add) c
  let string (isSet : Bool) (set : String → CommandLine → Setting) : Setting :=
    setConfigValue isSet keyName "a string" Toml.asString value set c
  let integer (isSet : Bool) (set : Int → CommandLine → Setting) : Setting :=
    setConfigValue isSet keyName "an integer" Toml.asInteger value set c
  let invalid : Setting := (c, some (.configFile s!"invalid key {keyName}"))
  match ConfigKey.ofName keyName with
  | some .interfaces => array (c.interfaces ≠ []) addInterface
  | some .includePatterns => array (c.includePatterns ≠ []) (addPattern S true)
  | some .excludePatterns => array (c.excludePatterns ≠ []) (addPattern S false)
  | some .allowedAddressFamily => string c.allowedAddressFamily.isSome (setAllowedAddressFamily S)
  | some .hoplimit => integer c.hoplimit.isSome setHoplimit
  | some .sourcePort => integer c.sourcePort.isSome setSourcePort
  | some .uuid => string c.uuid.isSome (setUuid S)
  | some .hostname => string c.hostname.isSome fun val => setHostname (S.trim val)
  | some .memberOf => string c.memberOf.isSome (setMemberOf S)
  | some .smbConf => string c.smbConf.isSome (setSmbConf S)
  | some .metadata => string c.metadataFile.isSome (setMetadataFile S)
  | some .logLevel => integer c.logLevel.isSome setLogLevelValue
  | some .logFile => string c.logFile.isSome (setLogFile S)
  | some .logOsLog =>
    if S.haveOsLog then
      setConfigValue c.logToOsLog.isSome keyName "true or false" Toml.asBoolean value setLogToOsLog c
    else invalid
  | some .pidFile => string c.pidFile.isSome (setPidFile S)
  | some .user => string c.runAs.isSome (setRunAs S)
  | some .chroot => string c.chrootDir.isSome (setChrootDir S)
  | none => invalid

/-- The entries of the file one after the other.  What is wrong with an entry is logged, other
things that are raised are not caught. -/
def mergeEntries : List (String × Toml) → CommandLine → Except Raised CommandLine
  | [], c => .ok c
  | (keyName, value) :: entries, c =>
    match parseConfigKey S keyName value c with
    | (_, some (.other message)) => .error (.other message)
    | (c, _) => mergeEntries entries c

/-- What cannot be read or parsed is left out. -/
def mergeConfigFile (file : ConfigFile) (c : CommandLine) : Except Raised CommandLine :=
  match file with
  | .unavailable | .malformed => .ok c
  | .table entries => mergeEntries S entries c

/-! ### The command line -/

/-- An option that was given on the command line. -/
inductive Given where
  | config (val : String)
  | unixd
  | systemd
  | launchd
  | interface (val : String)
  | includePattern (val : String)
  | excludePattern (val : String)
  | ipv4only
  | ipv6only
  | hoplimit (val : String)
  | sourcePort (val : String)
  | uuid (val : String)
  | hostname (val : String)
  | domain (val : String)
  | workgroup (val : String)
  | smbConf (val : String)
  | metadata (val : String)
  | logLevel (val : String)
  | logFile (val : String)
  | logOsLog
  | pidFile (val : String)
  | user (val : String)
  | chroot (val : String)
  deriving DecidableEq, Repr

/-- The value of an option that takes an unsigned number. -/
def integralValue (val : String) : Except Raised ℕ :=
  match S.parseIntegral val with
  | some n => .ok n
  | none => .error (.validation s!"value {val} is not a valid integer")

/-- The handler of an option. -/
def handle (opt : Given) (c : CommandLine) : Setting :=
  match opt with
  | .config val =>
    attempt c (require (val ≠ "") "--config path cannot be empty") fun _ =>
      { c with configFile := some val }
  | .unixd => ({ c with daemonType := some .unix }, none)
  | .systemd => ({ c with daemonType := some .systemd }, none)
  | .launchd => ({ c with daemonType := some .launchd }, none)
  | .interface val => addInterface (S.trim val) c
  | .includePattern val => addPattern S true (S.trim val) c
  | .excludePattern val => addPattern S false (S.trim val) c
  | .ipv4only => ({ c with allowedAddressFamily := some .ipv4Only }, none)
  | .ipv6only => ({ c with allowedAddressFamily := some .ipv6Only }, none)
  -- `unsigned` to `int`, and below `unsigned` to `uint16_t`.
  | .hoplimit val =>
    attempt c (integralValue S val) fun n =>
      { c with hoplimit := some (if n < 2 ^ 31 then n else n - 2 ^ 32) }
  | .sourcePort val =>
    attempt c (integralValue S val) fun n => { c with sourcePort := some (n % 2 ^ 16) }
  | .uuid val => setUuid S val c
  | .hostname val => setHostname (S.trim val) c
  | .domain val => setDomain (S.trim val) c
  | .workgroup val => setWorkgroup (S.trim val) c
  | .smbConf val => setSmbConf S val c
  | .metadata val => setMetadataFile S val c
  | .logLevel val =>
    match integralValue S val with
    | .ok decrease => setLogLevel decrease c
    | .error e => (c, some e)
  | .logFile val => setLogFile S val c
  | .logOsLog => setLogToOsLog true c
  | .pidFile val => setPidFile S val c
  | .user val => setRunAs S val c
  | .chroot val => setChrootDir S val c

/-- The options in order.  Whatever is raised ends the program. -/
def handleAll : List Given → CommandLine → Option CommandLine
  | [], c => some c
  | opt :: opts, c =>
    match handle S opt c with
    | (c, none) => handleAll opts c
    | (_, some _) => none

/-- The options that may be given once. -/
def Given.once : Given → Bool
  | .hoplimit _ | .uuid _ | .hostname _ | .domain _ | .workgroup _ | .smbConf _ | .metadata _
  | .logLevel _ | .logFile _ | .logOsLog | .pidFile _ | .user _ | .chroot _ => true
  | _ => false

/-- Two occurrences of the same option. -/
def Given.sameOption : Given → Given → Bool
  | .hoplimit _, .hoplimit _ | .uuid _, .uuid _ | .hostname _, .hostname _ | .domain _, .domain _
  | .workgroup _, .workgroup _ | .smbConf _, .smbConf _ | .metadata _, .metadata _
  | .logLevel _, .logLevel _ | .logFile _, .logFile _ | .logOsLog, .logOsLog
  | .pidFile _, .pidFile _ | .user _, .user _ | .chroot _, .chroot _ => true
  | _, _ => false

/-- The restrictions on the options as a whole. -/
def validOptions (opts : List Given) : Bool :=
  opts.all (fun opt => !opt.once || (opts.countP opt.sameOption ≤ 1)) &&
  !(opts.contains .ipv4only && opts.contains .ipv6only) &&
  !(opts.any (Given.sameOption (.domain "")) && opts.any (Given.sameOption (.workgroup "")))

/-- The command line; `none` if the program ends there. -/
def parse (opts : List Given) : Option CommandLine :=
  if validOptions opts then handleAll S opts {} else none

/-! ### What an entry changes -/

section Frame

variable {S} {β : Type} (f : CommandLine → β) {c : CommandLine}

theorem attempt_frame {α : Type} {check : Except Raised α} {set : α → CommandLine}
    (h : ∀ val, f (set val) = f c) : f (attempt c check set).1 = f c := by
  unfold attempt
  split
  · exact h _
  · rfl

theorem addAll_frame {add : String → CommandLine → Setting} (h : ∀ val c, f (add val c).1 = f c) :
    ∀ els c, f (addAll S add els c).1 = f c := by
  intro els
  induction els with
  | nil => exact fun _ => rfl
  | cons el els ih =>
    intro c
    cases el with
    | none => exact ih c
    | some el =>
      have hadd := h (S.trim el) c
      unfold addAll
      rcases hr : add (S.trim el) c with ⟨c', _ | e⟩ <;> rw [hr] at hadd
      · exact (ih c').trans hadd
      · exact hadd

theorem setConfigValue_frame {α : Type} {isSet : Bool} {keyName expected : String}
    {as : Toml → Option α} {value : Toml} {handler : α → CommandLine → Setting}
    (h : ∀ val, f (handler val c).1 = f c) :
    f (setConfigValue isSet keyName expected as value handler c).1 = f c := by
  unfold setConfigValue
  split_ifs
  · rfl
  · split
    · rfl
    · exact h _

end Frame

/-- The settings without the option of the key, that is, all the others. -/
def ConfigKey.clear : ConfigKey → CommandLine → CommandLine
  | .interfaces, c => { c with interfaces := [] }
  | .includePatterns, c => { c with includePatterns := [] }
  | .excludePatterns, c => { c with excludePatterns := [] }
  | .allowedAddressFamily, c => { c with allowedAddressFamily := none }
  | .hoplimit, c => { c with hoplimit := none }
  | .sourcePort, c => { c with sourcePort := none }
  | .uuid, c => { c with uuid := none }
  | .hostname, c => { c with hostname := none }
  | .memberOf, c => { c with memberOf := none }
  | .smbConf, c => { c with smbConf := none }
  | .metadata, c => { c with metadataFile := none }
  | .logLevel, c => { c with logLevel := none }
  | .logFile, c => { c with logFile := none }
  | .logOsLog, c => { c with logToOsLog := none }
  | .pidFile, c => { c with pidFile := none }
  | .user, c => { c with runAs := none }
  | .chroot, c => { c with chrootDir := none }

/-- The part of the settings that decides how the daemon runs: as which kind of daemon, and under
which identity and where its network process runs. -/
def confinement (c : CommandLine) : Option DaemonType × Option Identity × Option Path :=
  (c.daemonType, c.runAs, c.chrootDir)

variable {S} {c : CommandLine} {keyName : String} {value : Toml}

/-- **An entry changes only the option of its key.** -/
theorem parseConfigKey_clear {key : ConfigKey} (h : ConfigKey.ofName keyName = some key) :
    key.clear (parseConfigKey S keyName value c).1 = key.clear c := by
  have array : ∀ {isSet add}, (∀ val c, key.clear (add val c).1 = key.clear c) →
      key.clear (setConfigValue isSet keyName "an array" Toml.asArray value (addAll S add) c).1 =
        key.clear c :=
    fun hadd => setConfigValue_frame _ fun els => addAll_frame _ hadd els c
  unfold parseConfigKey
  rw [h]
  cases key with
  | interfaces => exact array fun _ _ => attempt_frame _ fun _ => rfl
  | includePatterns => exact array fun _ _ => attempt_frame _ fun _ => rfl
  | excludePatterns => exact array fun _ _ => attempt_frame _ fun _ => rfl
  | hoplimit =>
    refine setConfigValue_frame _ fun val => ?_
    unfold setHoplimit
    split_ifs <;> rfl
  | sourcePort =>
    refine setConfigValue_frame _ fun val => ?_
    unfold setSourcePort
    split_ifs <;> rfl
  | uuid =>
    refine setConfigValue_frame _ fun val => ?_
    unfold setUuid
    split <;> rfl
  | logLevel =>
    refine setConfigValue_frame _ fun val => ?_
    unfold setLogLevelValue
    split_ifs <;> rfl
  | logOsLog =>
    cases hos : S.haveOsLog with
    | true => exact setConfigValue_frame _ fun val => attempt_frame _ fun _ => rfl
    | false => rfl
  | _ => exact setConfigValue_frame _ fun val => attempt_frame _ fun _ => rfl

/-- Entries other than `user` and `chroot` do not touch it. -/
theorem parseConfigKey_confinement (hu : ConfigKey.ofName keyName ≠ some .user)
    (hc : ConfigKey.ofName keyName ≠ some .chroot) :
    confinement (parseConfigKey S keyName value c).1 = confinement c := by
  cases hk : ConfigKey.ofName keyName with
  | none =>
    unfold parseConfigKey
    rw [hk]
  | some key =>
    have hclear : ∀ c, confinement (key.clear c) = confinement c := by
      intro c
      cases key with
      | user => exact absurd hk hu
      | chroot => exact absurd hk hc
      | _ => rfl
    rw [← hclear, parseConfigKey_clear hk, hclear]

/-- A key that is found is in the table under its name. -/
theorem mem_names_of_ofName {key : ConfigKey} (h : ConfigKey.ofName keyName = some key) :
    (keyName, key) ∈ ConfigKey.names := by
  obtain ⟨l₁, l₂, hl, -⟩ := List.lookup_eq_some_iff.1 h
  simp [hl]

theorem eq_user_of_ofName (h : ConfigKey.ofName keyName = some .user) : keyName = "user" := by
  simpa [ConfigKey.names] using mem_names_of_ofName h

theorem eq_chroot_of_ofName (h : ConfigKey.ofName keyName = some .chroot) : keyName = "chroot" := by
  simpa [ConfigKey.names] using mem_names_of_ofName h

variable (S) in
/-- The identity that an entry of the config file stands for, if it is accepted. -/
def acceptedUser (entry : String × Toml) : Option Identity :=
  if entry.1 = "user" then entry.2.asString.bind fun val => (runAsValue S val).toOption else none

variable (S) in
/-- The directory that an entry of the config file stands for, if it is accepted. -/
def acceptedChroot (entry : String × Toml) : Option Path :=
  if entry.1 = "chroot" then entry.2.asString.bind fun val => (chrootDirValue S val).toOption
  else none

/-- An option that is set stays; otherwise the value of the file is used, if it is accepted. -/
theorem setConfigValue_attempt {α β : Type} (g : CommandLine → Option β) {expected : String}
    {as : Toml → Option α} (check : α → Except Raised β) (set : CommandLine → β → CommandLine)
    (hset : ∀ val, g (set c val) = some val) :
    g (setConfigValue (g c).isSome keyName expected as value
        (fun val c => attempt c (check val) (set c)) c).1 =
      (g c).or ((as value).bind fun val => (check val).toOption) := by
  unfold setConfigValue
  rcases hg : g c with _ | b
  · simp only [Option.isSome_none, Bool.false_eq_true, if_false, Option.none_or]
    rcases as value with _ | val
    · exact hg
    · simp only [attempt, Option.bind_some]
      rcases check val with e | b
      · exact hg
      · exact hset b
  · exact hg

theorem parseConfigKey_runAs :
    (parseConfigKey S keyName value c).1.runAs = c.runAs.or (acceptedUser S (keyName, value)) := by
  by_cases hu : keyName = "user"
  · subst hu
    exact setConfigValue_attempt runAs (runAsValue S) (fun c id => { c with runAs := some id })
      fun _ => rfl
  · have hno : acceptedUser S (keyName, value) = none := if_neg hu
    rw [hno, Option.or_none]
    by_cases hc : keyName = "chroot"
    · subst hc
      exact setConfigValue_frame runAs fun _ => attempt_frame runAs fun _ => rfl
    · exact congrArg (fun x => x.2.1)
        (parseConfigKey_confinement (mt eq_user_of_ofName hu) (mt eq_chroot_of_ofName hc))

theorem parseConfigKey_chrootDir :
    (parseConfigKey S keyName value c).1.chrootDir =
      c.chrootDir.or (acceptedChroot S (keyName, value)) := by
  by_cases hc : keyName = "chroot"
  · subst hc
    exact setConfigValue_attempt chrootDir (chrootDirValue S)
      (fun c dir => { c with chrootDir := some dir }) fun _ => rfl
  · have hno : acceptedChroot S (keyName, value) = none := if_neg hc
    rw [hno, Option.or_none]
    by_cases hu : keyName = "user"
    · subst hu
      exact setConfigValue_frame chrootDir fun _ => attempt_frame chrootDir fun _ => rfl
    · exact congrArg (fun x => x.2.2)
        (parseConfigKey_confinement (mt eq_user_of_ofName hu) (mt eq_chroot_of_ofName hc))

/-- The config file does not tell which kind of daemon it is. -/
theorem parseConfigKey_daemonType :
    (parseConfigKey S keyName value c).1.daemonType = c.daemonType := by
  by_cases hu : keyName = "user"
  · subst hu
    exact setConfigValue_frame daemonType fun _ => attempt_frame daemonType fun _ => rfl
  by_cases hc : keyName = "chroot"
  · subst hc
    exact setConfigValue_frame daemonType fun _ => attempt_frame daemonType fun _ => rfl
  · exact congrArg (fun x => x.1)
      (parseConfigKey_confinement (mt eq_user_of_ofName hu) (mt eq_chroot_of_ofName hc))

/-- The entries of a file. -/
def ConfigFile.entries : ConfigFile → List (String × Toml)
  | .unavailable | .malformed => []
  | .table entries => entries

/-- What the whole file contributes to an option, given what one entry contributes to it. -/
theorem mergeConfigFile_field {β : Type} {g : CommandLine → Option β}
    {a : String × Toml → Option β}
    (h : ∀ keyName value c,
      g (parseConfigKey S keyName value c).1 = (g c).or (a (keyName, value)))
    {file : ConfigFile} {c c' : CommandLine} (hm : mergeConfigFile S file c = .ok c') :
    g c' = (g c).or (file.entries.findSome? a) := by
  have entries : ∀ {entries : List (String × Toml)} {c : CommandLine},
      mergeEntries S entries c = .ok c' → g c' = (g c).or (entries.findSome? a) := by
    intro entries
    induction entries with
    | nil =>
      rintro c ⟨⟩
      simp
    | cons entry entries ih =>
      intro c hm
      obtain ⟨keyName, value⟩ := entry
      have hentry := h keyName value c
      unfold mergeEntries at hm
      rcases hr : parseConfigKey S keyName value c with ⟨d, e⟩
      rw [hr] at hentry hm
      have hrest : mergeEntries S entries d = .ok c' := by
        rcases e with _ | _ | _ | _
        · exact hm
        · exact hm
        · exact hm
        · cases hm
      rw [ih hrest, hentry, List.findSome?_cons, Option.or_assoc]
      congr 1
      cases a (keyName, value) <;> rfl
  cases file with
  | unavailable =>
    cases hm
    simp [ConfigFile.entries]
  | malformed =>
    cases hm
    simp [ConfigFile.entries]
  | table es => exact entries hm

/-- **The identity after the file was merged**: the one that was set, else the one that the file
gives and that is accepted. -/
theorem mergeConfigFile_runAs {file : ConfigFile} {c c' : CommandLine}
    (h : mergeConfigFile S file c = .ok c') :
    c'.runAs = c.runAs.or (file.entries.findSome? (acceptedUser S)) :=
  mergeConfigFile_field (g := runAs) (fun _ _ _ => parseConfigKey_runAs) h

/-- **The directory after the file was merged**, in the same way. -/
theorem mergeConfigFile_chrootDir {file : ConfigFile} {c c' : CommandLine}
    (h : mergeConfigFile S file c = .ok c') :
    c'.chrootDir = c.chrootDir.or (file.entries.findSome? (acceptedChroot S)) :=
  mergeConfigFile_field (g := chrootDir) (fun _ _ _ => parseConfigKey_chrootDir) h

theorem mergeConfigFile_daemonType {file : ConfigFile} {c c' : CommandLine}
    (h : mergeConfigFile S file c = .ok c') : c'.daemonType = c.daemonType := by
  have hnone : file.entries.findSome? (fun _ => (none : Option DaemonType)) = none :=
    List.findSome?_eq_none_iff.2 fun _ _ => rfl
  have hfield := mergeConfigFile_field (g := daemonType) (a := fun _ => none)
    (fun _ _ _ => by rw [parseConfigKey_daemonType, Option.or_none]) h
  rwa [hnone, Option.or_none] at hfield

/-! ### Started by an ordinary user -/

theorem runAsValue_of_ne (h : S.getuid ≠ 0) (val : String) :
    runAsValue S val =
      .error (.validation "you must start wsddn as root to use different username") := by
  simp [runAsValue, require, h, bind, Except.bind]

theorem chrootDirValue_of_ne (h : S.getuid ≠ 0) (val : String) :
    chrootDirValue S val = .error (.validation "you must start wsddn as root to use chroot path") := by
  simp [chrootDirValue, require, h, bind, Except.bind]

/-- The config file of an ordinary user does not set an identity. -/
theorem acceptedUser_of_ne (h : S.getuid ≠ 0) (entry : String × Toml) :
    acceptedUser S entry = none := by
  unfold acceptedUser
  split_ifs
  · rcases entry.2.asString with _ | val
    · rfl
    · simp [runAsValue_of_ne h, Except.toOption]
  · rfl

theorem acceptedChroot_of_ne (h : S.getuid ≠ 0) (entry : String × Toml) :
    acceptedChroot S entry = none := by
  unfold acceptedChroot
  split_ifs
  · rcases entry.2.asString with _ | val
    · rfl
    · simp [chrootDirValue_of_ne h, Except.toOption]
  · rfl

/-- The command line of an ordinary user does not set an identity or a directory. -/
theorem handle_confinement (h : S.getuid ≠ 0) (opt : Given) (c : CommandLine) :
    (confinement (handle S opt c).1).2 = (confinement c).2 := by
  cases opt with
  | user val =>
    simp [handle, setRunAs, attempt, runAsValue_of_ne h]
  | chroot val =>
    simp [handle, setChrootDir, attempt, chrootDirValue_of_ne h]
  | uuid val =>
    simp only [handle, setUuid]
    split <;> rfl
  | logLevel val =>
    simp only [handle]
    split <;> rfl
  | includePattern val =>
    exact attempt_frame (fun c => (confinement c).2) fun _ => rfl
  | excludePattern val =>
    exact attempt_frame (fun c => (confinement c).2) fun _ => rfl
  | unixd => rfl
  | systemd => rfl
  | launchd => rfl
  | ipv4only => rfl
  | ipv6only => rfl
  | _ => exact attempt_frame (fun c => (confinement c).2) fun _ => rfl

theorem parse_confinement (h : S.getuid ≠ 0) {opts : List Given} {c : CommandLine}
    (hp : parse S opts = some c) : c.runAs = none ∧ c.chrootDir = none := by
  have handleAll : ∀ {opts : List Given} {c c' : CommandLine}, handleAll S opts c = some c' →
      (confinement c').2 = (confinement c).2 := by
    intro opts
    induction opts with
    | nil =>
      rintro c _ ⟨⟩
      rfl
    | cons opt opts ih =>
      intro c c' hall
      have hone := handle_confinement h opt c
      unfold CommandLine.handleAll at hall
      rcases hr : handle S opt c with ⟨d, _ | e⟩ <;> rw [hr] at hone hall
      · exact (ih hall).trans hone
      · cases hall
  unfold parse at hp
  split_ifs at hp
  exact Prod.mk.inj (handleAll hp)

end CommandLine

end Wsddn
