import Wsddn.Config.Keys

/-!
# When merging a config file ends early

`mergeConfigFile` catches what is wrong with an entry and goes on with the next one.  The setters
ask the file system and the user database, and what such a lookup raises is not caught.

* `parseConfigKey_escapes_iff` : which entries raise something that is not caught.
* `mergeEntries_eq_ok_iff` : the whole file, entry by entry.
* `commandLine_precedence` : **options of the command line take precedence over the config file.**
* `mergeConfigFile_returns_iff` : **all entries of a table are processed exactly if no entry for an
  option that is not set yet has a lookup that raises.**
-/

namespace Wsddn

namespace CommandLine

variable {S : Surroundings} {c d : CommandLine} {keyName : String} {value : Toml} {key : ConfigKey}

/-! ### What is not caught -/

section Escapes

variable {α β : Type}

/-- Something is raised that `mergeConfigFile` does not catch. -/
def Escapes (check : Except Raised α) : Prop := ∃ message, check = .error (.other message)

theorem not_escapes_ok (a : α) : ¬ Escapes (.ok a : Except Raised α) := by
  rintro ⟨_, ⟨⟩⟩

theorem not_escapes_validation (message : String) :
    ¬ Escapes (.error (.validation message) : Except Raised α) := by
  rintro ⟨_, ⟨⟩⟩

theorem not_escapes_require (cond : Bool) (message : String) : ¬ Escapes (require cond message) := by
  unfold require
  split_ifs
  · exact not_escapes_ok ()
  · exact not_escapes_validation message

theorem require_eq_ok {cond : Bool} {message : String} {u : Unit} :
    require cond message = .ok u ↔ cond = true := by
  unfold require
  split_ifs with h <;> simp [h]

theorem escapes_bind {check : Except Raised α} {f : α → Except Raised β} :
    Escapes (check >>= f) ↔ Escapes check ∨ ∃ a, check = .ok a ∧ Escapes (f a) := by
  cases check with
  | error e =>
    refine ⟨fun ⟨message, h⟩ => .inl ⟨message, ?_⟩, ?_⟩
    · exact congrArg Except.error (Except.error.inj h)
    · rintro (⟨message, h⟩ | ⟨_, ⟨⟩, -⟩)
      exact ⟨message, congrArg Except.error (Except.error.inj h)⟩
  | ok a =>
    refine ⟨fun h => .inr ⟨a, rfl, h⟩, ?_⟩
    rintro (h | ⟨_, ⟨⟩, h⟩)
    · exact absurd h (not_escapes_ok a)
    · exact h

/-- A setter raises what its check raises. -/
theorem attempt_escapes {check : Except Raised α} {set : α → CommandLine} :
    (∃ message, (attempt c check set).2 = some (.other message)) ↔ Escapes check := by
  unfold attempt Escapes
  cases check <;> simp

theorem setConfigValue_escapes {isSet : Bool} {expected : String} {as : Toml → Option α}
    {handler : α → CommandLine → Setting} :
    (∃ message, (setConfigValue isSet keyName expected as value handler c).2 =
        some (.other message)) ↔
      isSet = false ∧ ∃ val, as value = some val ∧
        ∃ message, (handler val c).2 = some (.other message) := by
  unfold setConfigValue
  cases isSet with
  | true => simp
  | false =>
    cases as value with
    | none => simp
    | some val => simp

theorem addAll_escapes {add : String → CommandLine → Setting}
    (hadd : ∀ val c, ¬ ∃ message, (add val c).2 = some (.other message)) :
    ∀ els c, ¬ ∃ message, (addAll S add els c).2 = some (.other message) := by
  intro els
  induction els with
  | nil => simp [addAll]
  | cons el els ih =>
    intro c
    cases el with
    | none => exact ih c
    | some el =>
      have hone := hadd (S.trim el) c
      unfold addAll
      rcases hr : add (S.trim el) c with ⟨c', _ | e⟩ <;> rw [hr] at hone
      · exact ih c'
      · exact hone

end Escapes

variable (S) in
/-- A lookup that the setter of the key makes for the value raises. -/
def ConfigKey.LookupRaises (c : CommandLine) : ConfigKey → Toml → Prop
  | .smbConf, .string val => Escapes (pathValue S val "smb.conf" true)
  | .metadata, .string val => Escapes (pathValue S val "metadata" true)
  | .logFile, .string val =>
    val ≠ "" ∧ ¬ (S.haveOsLog = true ∧ c.logToOsLog = some true) ∧ Escapes (S.absolute S.cwd val)
  | .pidFile, .string val => Escapes (pathValue S val "pid file" false)
  | .user, .string val => Escapes (runAsValue S val)
  | .chroot, .string val => Escapes (chrootDirValue S val)
  | _, _ => False

theorem asString_eq_some {val : String} : value.asString = some val ↔ value = .string val := by
  cases value <;> simp [Toml.asString]

/-- An array is added without asking anything. -/
theorem not_escapes_array {isSet : Bool} {add : String → CommandLine → Setting}
    (hadd : ∀ val c, ¬ ∃ message, (add val c).2 = some (.other message)) :
    ¬ ∃ message, (setConfigValue isSet keyName "an array" Toml.asArray value (addAll S add) c).2 =
      some (.other message) := by
  rw [setConfigValue_escapes]
  rintro ⟨-, els, -, h⟩
  exact addAll_escapes hadd els c h

/-- The setter of a string raises what its check raises. -/
theorem escapes_string {isSet : Bool} {handler : String → CommandLine → Setting} :
    (∃ message, (setConfigValue isSet keyName "a string" Toml.asString value handler c).2 =
        some (.other message)) ↔
      isSet = false ∧ ∃ val, value = .string val ∧
        ∃ message, (handler val c).2 = some (.other message) := by
  simp only [setConfigValue_escapes, asString_eq_some]

theorem not_escapes_integer {isSet : Bool} {handler : Int → CommandLine → Setting}
    (h : ∀ val, ¬ ∃ message, (handler val c).2 = some (.other message)) :
    ¬ ∃ message, (setConfigValue isSet keyName "an integer" Toml.asInteger value handler c).2 =
      some (.other message) := by
  rw [setConfigValue_escapes]
  rintro ⟨-, val, -, hval⟩
  exact h val hval

theorem not_escapes_string {isSet : Bool} {handler : String → CommandLine → Setting}
    (h : ∀ val, ¬ ∃ message, (handler val c).2 = some (.other message)) :
    ¬ ∃ message, (setConfigValue isSet keyName "a string" Toml.asString value handler c).2 =
      some (.other message) := by
  rw [setConfigValue_escapes]
  rintro ⟨-, val, -, hval⟩
  exact h val hval

theorem addPattern_escapes (included : Bool) (val : String) (c : CommandLine) :
    ¬ ∃ message, (addPattern S included val c).2 = some (.other message) := by
  rw [addPattern, attempt_escapes, escapes_bind]
  rintro (h | ⟨_, -, h⟩)
  · exact not_escapes_require _ _ h
  · split at h
    · exact not_escapes_ok _ h
    · exact not_escapes_validation _ h

theorem setMemberOf_escapes (val : String) (c : CommandLine) :
    ¬ ∃ message, (setMemberOf S val c).2 = some (.other message) := by
  rw [setMemberOf, attempt_escapes]
  split
  · rw [escapes_bind]
    rintro (h | ⟨_, -, h⟩)
    · exact not_escapes_require _ _ h
    · dsimp only at h
      split_ifs at h
      · exact not_escapes_ok _ h
      · exact not_escapes_ok _ h
      · exact not_escapes_validation _ h
  · rw [escapes_bind]
    rintro (h | ⟨_, -, h⟩)
    · exact not_escapes_require _ _ h
    · exact not_escapes_ok _ h

theorem setAllowedAddressFamily_escapes (val : String) (c : CommandLine) :
    ¬ ∃ message, (setAllowedAddressFamily S val c).2 = some (.other message) := by
  rw [setAllowedAddressFamily, attempt_escapes]
  split_ifs
  · exact not_escapes_ok _
  · exact not_escapes_ok _
  · exact not_escapes_ok _
  · exact not_escapes_validation _

/-- The log file is asked for after the check that the system log is not used. -/
theorem setLogFile_escapes (val : String) (c : CommandLine) :
    (∃ message, (setLogFile S val c).2 = some (.other message)) ↔
      val ≠ "" ∧ ¬ (S.haveOsLog = true ∧ c.logToOsLog = some true) ∧
        Escapes (S.absolute S.cwd val) := by
  rw [setLogFile, attempt_escapes, escapes_bind, or_iff_right (not_escapes_require _ _)]
  simp only [escapes_bind, not_escapes_require, false_or, require_eq_ok]
  cases hos : S.haveOsLog <;> simp

/-- **When an entry raises something that is not caught**: its option is not set, and a lookup for
its value raises. -/
theorem parseConfigKey_escapes_iff (h : ConfigKey.ofName keyName = some key) :
    (∃ message, (parseConfigKey S keyName value c).2 = some (.other message)) ↔
      key.isSet c = false ∧ key.LookupRaises S c value := by
  unfold parseConfigKey
  rw [h]
  cases key with
  | interfaces =>
    refine iff_of_false (not_escapes_array fun val c => ?_) fun h => h.2
    rw [addInterface, attempt_escapes]
    exact not_escapes_require _ _
  | includePatterns =>
    exact iff_of_false (not_escapes_array fun val c => addPattern_escapes _ val c) fun h => h.2
  | excludePatterns =>
    exact iff_of_false (not_escapes_array fun val c => addPattern_escapes _ val c) fun h => h.2
  | allowedAddressFamily =>
    exact iff_of_false (not_escapes_string fun val => setAllowedAddressFamily_escapes val c)
      fun h => h.2
  | hoplimit =>
    refine iff_of_false (not_escapes_integer fun val => ?_) fun h => h.2
    unfold setHoplimit
    split_ifs <;> simp
  | sourcePort =>
    refine iff_of_false (not_escapes_integer fun val => ?_) fun h => h.2
    unfold setSourcePort
    split_ifs <;> simp
  | uuid =>
    refine iff_of_false (not_escapes_string fun val => ?_) fun h => h.2
    unfold setUuid
    split <;> simp
  | hostname =>
    refine iff_of_false (not_escapes_string fun val => ?_) fun h => h.2
    rw [setHostname, attempt_escapes]
    exact not_escapes_require _ _
  | memberOf =>
    exact iff_of_false (not_escapes_string fun val => setMemberOf_escapes val c) fun h => h.2
  | logLevel =>
    refine iff_of_false (not_escapes_integer fun val => ?_) fun h => h.2
    unfold setLogLevelValue
    split_ifs <;> simp [setLogLevel]
  | logFile =>
    refine escapes_string.trans (and_congr Iff.rfl ?_)
    cases value <;> simp [ConfigKey.LookupRaises, setLogFile_escapes]
  | logOsLog =>
    refine iff_of_false ?_ fun h => h.2
    dsimp only
    split_ifs
    · rw [setConfigValue_escapes]
      rintro ⟨-, val, -, hval⟩
      rw [setLogToOsLog, attempt_escapes] at hval
      exact not_escapes_require _ _ hval
    · simp
  | smbConf =>
    refine escapes_string.trans (and_congr Iff.rfl ?_)
    cases value <;> simp [ConfigKey.LookupRaises, setSmbConf, attempt_escapes]
  | metadata =>
    refine escapes_string.trans (and_congr Iff.rfl ?_)
    cases value <;> simp [ConfigKey.LookupRaises, setMetadataFile, attempt_escapes]
  | pidFile =>
    refine escapes_string.trans (and_congr Iff.rfl ?_)
    cases value <;> simp [ConfigKey.LookupRaises, setPidFile, attempt_escapes]
  | user =>
    refine escapes_string.trans (and_congr Iff.rfl ?_)
    cases value <;> simp [ConfigKey.LookupRaises, setRunAs, attempt_escapes]
  | chroot =>
    refine escapes_string.trans (and_congr Iff.rfl ?_)
    cases value <;> simp [ConfigKey.LookupRaises, setChrootDir, attempt_escapes]

/-! ### The whole file -/

/-- The file is merged as a whole exactly if nothing escapes from an entry when its turn comes. -/
theorem mergeEntries_eq_ok_iff (entries : List (String × Toml)) (c : CommandLine) :
    mergeEntries S entries c = .ok (applyEntries S entries c) ↔
      ∀ before entry after, entries = before ++ entry :: after →
        ¬ ∃ message, (parseConfigKey S entry.1 entry.2 (applyEntries S before c)).2 =
          some (.other message) := by
  induction entries generalizing c with
  | nil => simp [mergeEntries, applyEntries]
  | cons entry entries ih =>
    obtain ⟨keyName, value⟩ := entry
    have hfirst : (∀ before entry after, (keyName, value) :: entries = before ++ entry :: after →
          ¬ ∃ message, (parseConfigKey S entry.1 entry.2 (applyEntries S before c)).2 =
            some (.other message)) ↔
        (¬ ∃ message, (parseConfigKey S keyName value c).2 = some (.other message)) ∧
          ∀ before entry after, entries = before ++ entry :: after →
            ¬ ∃ message, (parseConfigKey S entry.1 entry.2
              (applyEntries S before (parseConfigKey S keyName value c).1)).2 =
                some (.other message) := by
      constructor
      · intro h
        refine ⟨h [] _ entries rfl, fun before entry after he => ?_⟩
        exact h ((keyName, value) :: before) entry after (by rw [he, List.cons_append])
      · rintro ⟨h₁, h₂⟩ (_ | ⟨first, before⟩) entry after he
        · obtain ⟨rfl, -⟩ := List.cons.inj he
          exact h₁
        · obtain ⟨rfl, hrest⟩ := List.cons.inj he
          exact h₂ before entry after hrest
    rw [hfirst, ← ih, mergeEntries]
    rcases hr : parseConfigKey S keyName value c with ⟨c₁, _ | _ | _ | _⟩ <;>
      simp [applyEntries, hr]

/-- What the lookups of an entry raise depends on the options of its group only. -/
theorem ConfigKey.Agree.escapes_iff (hk : ConfigKey.ofName keyName = some key)
    (h : key.Agree c d) :
    (∃ message, (parseConfigKey S keyName value c).2 = some (.other message)) ↔
      ∃ message, (parseConfigKey S keyName value d).2 = some (.other message) := by
  have hlocal : Respects key.Agree (parseConfigKey S keyName value) := parseConfigKey_local hk
  rw [(hlocal c d h).2]

/-- Two names of one key are the same. -/
theorem eq_of_ofName {keyName' : String} (h : ConfigKey.ofName keyName = some key)
    (h' : ConfigKey.ofName keyName' = some key) : keyName = keyName' := by
  have hmem := mem_names_of_ofName h
  have hmem' := mem_names_of_ofName h'
  cases key <;> simp_all [ConfigKey.names]

/-- A table of the config file.  It is an ordered map. -/
structure Table where
  entries : List (String × Toml)
  sorted : entries.Pairwise fun a b => a.1 < b.1

/-! ### Lookups that answer -/

/-- Every lookup returns an answer. -/
structure Answering (L : Lookups) : Prop where
  passwdByName : ∀ name, ∃ answer, L.passwdByName name = .ok answer
  groupByName : ∀ name, ∃ answer, L.groupByName name = .ok answer
  absolute : ∀ cwd path, ∃ answer, L.absolute cwd path = .ok answer
  fileExists : ∀ path, ∃ answer, L.fileExists path = .ok answer

namespace Answering

variable (hL : Answering S.toLookups)

include hL

theorem pathValue (val what : String) (needsFile : Bool) :
    ¬ Escapes (pathValue S val what needsFile) := by
  unfold CommandLine.pathValue
  rw [escapes_bind]
  rintro (h | ⟨-, -, h⟩)
  · exact not_escapes_require _ _ h
  obtain ⟨path, hpath⟩ := hL.absolute S.cwd val
  obtain ⟨found, hfound⟩ := hL.fileExists path
  rw [hpath] at h
  dsimp only [bind, Except.bind] at h
  rw [hfound] at h
  dsimp only at h
  cases needsFile with
  | true =>
    cases found with
    | true => exact not_escapes_ok _ h
    | false => exact not_escapes_validation _ h
  | false => exact not_escapes_ok _ h

theorem parseUser (val : String) : ¬ Escapes (parseUser S val) := by
  unfold CommandLine.parseUser
  split
  rename_i groupname username _
  obtain ⟨pwd, hpwd⟩ := hL.passwdByName username
  rw [hpwd]
  dsimp only [bind, Except.bind]
  cases pwd with
  | none => exact not_escapes_validation _
  | some pwd =>
    cases groupname with
    | none => exact not_escapes_ok _
    | some groupname =>
      obtain ⟨gid, hgid⟩ := hL.groupByName groupname
      dsimp only
      rw [hgid]
      cases gid with
      | none => exact not_escapes_validation _
      | some gid => exact not_escapes_ok _

theorem runAsValue (val : String) : ¬ Escapes (runAsValue S val) := by
  unfold CommandLine.runAsValue
  simp only [escapes_bind, not_escapes_require, false_or, hL.parseUser, and_false, exists_false,
    not_false_eq_true]

theorem chrootDirValue (val : String) : ¬ Escapes (chrootDirValue S val) := by
  unfold CommandLine.chrootDirValue
  simp only [escapes_bind, not_escapes_require, false_or, hL.pathValue, and_false, exists_false,
    not_false_eq_true]

theorem not_lookupRaises : ¬ key.LookupRaises S c value := by
  cases value with
  | string val =>
    cases key with
    | smbConf => exact hL.pathValue val _ _
    | metadata => exact hL.pathValue val _ _
    | pidFile => exact hL.pathValue val _ _
    | user => exact hL.runAsValue val
    | chroot => exact hL.chrootDirValue val
    | logFile =>
      rintro ⟨-, -, message, h⟩
      obtain ⟨path, hpath⟩ := hL.absolute S.cwd val
      rw [hpath] at h
      cases h
    | _ => exact fun h => h
  | _ => cases key <;> exact fun h => h

/-- Then every entry is processed. -/
theorem mergeEntries (entries : List (String × Toml)) (c : CommandLine) :
    mergeEntries S entries c = .ok (applyEntries S entries c) := by
  refine (mergeEntries_eq_ok_iff entries c).2 fun before entry after _ h => ?_
  cases hk : ConfigKey.ofName entry.1 with
  | none =>
    rw [parseConfigKey_of_none hk] at h
    obtain ⟨_, ⟨⟩⟩ := h
  | some key => exact hL.not_lookupRaises ((parseConfigKey_escapes_iff hk).1 h).2

end Answering

/-- **Options of the command line take precedence over the config file.**  An option that is set
keeps its value, what has no key stays as it is, every entry can change only the option of its own
key, and to an option only the entries of its group make a difference. -/
theorem commandLine_precedence (hL : Answering S.toLookups) (entries : List (String × Toml))
    (c : CommandLine) :
    ∃ c', mergeConfigFile S (.table entries) c = .ok c' ∧
      (∀ key : ConfigKey, key.isSet c = true → key.field c' = key.field c) ∧
      c'.configFile = c.configFile ∧ c'.daemonType = c.daemonType ∧
      (∀ entry ∈ entries, ∀ (d : CommandLine) (key : ConfigKey),
        ConfigKey.ofName entry.1 ≠ some key →
          key.field (parseConfigKey S entry.1 entry.2 d).1 = key.field d) ∧
      ∀ key : ConfigKey, ∃ c'',
        mergeConfigFile S (.table (entries.filter key.concerns)) c = .ok c'' ∧
          key.field c' = key.field c'' := by
  have hother : (applyEntries S entries c).configFile = c.configFile ∧
      (applyEntries S entries c).daemonType = c.daemonType := applyEntries_other entries
  refine ⟨applyEntries S entries c, hL.mergeEntries entries c,
    fun key hset => applyEntries_of_isSet entries hset, hother.1, hother.2,
    fun entry _ d key hne => parseConfigKey_field hne, fun key => ?_⟩
  refine ⟨_, hL.mergeEntries (entries.filter key.concerns) c, ?_⟩
  have hagree : key.Agree (applyEntries S entries c)
      (applyEntries S (entries.filter key.concerns) c) := applyEntries_filter key entries (.refl key c)
  exact ConfigKey.agree_iff.1 hagree key key.mem_group_self

/-- A decimal number that fits 32 bits. -/
def parseUnsigned (str : String) : Option ℕ :=
  let n := Nat.ofDigitChars 10 str.toList 0
  if str ≠ "" ∧ str.toList.all Char.isDigit ∧ n < 2 ^ 32 then some n else none

/-- A system with one user and one file. -/
def smallSystem : Surroundings where
  passwdByName name := .ok (if name = "wsddn" then some ⟨990, 990⟩ else none)
  groupByName _ := .ok none
  createDaemonUser _ := .ok none
  createMissingDirs _ := .ok ()
  absolute _ path := .ok path
  fileExists path := .ok (path = "/etc/samba/smb.conf")
  regexError _ := none
  uuidFromChars str := if str = "00000000-0000-0000-0000-000000000001" then some 1 else none
  parseIntegral := parseUnsigned
  trim str := str
  toLower str := str
  toUpper str := str
  getuid := 0
  cwd := "/"

theorem answering_smallSystem : Answering smallSystem.toLookups where
  passwdByName _ := ⟨_, rfl⟩
  groupByName _ := ⟨_, rfl⟩
  absolute _ _ := ⟨_, rfl⟩
  fileExists _ := ⟨_, rfl⟩

/-- A file with an entry that is set already, one that is wrong and one that is unknown. -/
def mixedEntries : List (String × Toml) :=
  [("hoplimit", .integer 5), ("hostname", .integer 1), ("port", .integer 80),
    ("smb-conf", .string "/etc/samba/smb.conf")]

theorem commandLine_precedence_mixedEntries :
    Answering smallSystem.toLookups ∧
      ∃ c', mergeConfigFile smallSystem (.table mixedEntries) { hoplimit := some 2 } = .ok c' ∧
        c'.hoplimit = some 2 := by
  obtain ⟨c', hmerge, hset, -⟩ :=
    commandLine_precedence answering_smallSystem mixedEntries { hoplimit := some 2 }
  exact ⟨answering_smallSystem, c', hmerge, hset .hoplimit rfl⟩

/-! ### Lookups that raise -/

/-- Before its turn an entry finds the options of its group as they were.  The log file comes
before the system log in the order of the table. -/
theorem Table.agree (T : Table) {before after : List (String × Toml)} {entry : String × Toml}
    (he : T.entries = before ++ entry :: after) (hk : ConfigKey.ofName entry.1 = some key)
    (hlog : key ≠ .logOsLog) : key.Agree (applyEntries S before c) c := by
  have hlt : ∀ e ∈ before, e.1 < entry.1 := by
    have hsorted := T.sorted
    rw [he] at hsorted
    exact fun e hmem => (List.pairwise_append.1 hsorted).2.2 e hmem entry List.mem_cons_self
  have hnone : before.filter key.concerns = [] := by
    refine List.filter_eq_nil_iff.2 fun e hmem hconcerns => ?_
    obtain ⟨key', hk', hgroup⟩ : ∃ key', ConfigKey.ofName e.1 = some key' ∧ key' ∈ key.group := by
      simpa [ConfigKey.concerns, Option.any_eq_true] using hconcerns
    have hne : key' ≠ key := by
      rintro rfl
      exact absurd (hlt e hmem) (eq_of_ofName hk hk' ▸ String.lt_irrefl _)
    -- the only other key of a group
    have hpair : key = .logFile ∧ key' = .logOsLog := by
      cases key <;> simp_all [ConfigKey.group]
    obtain ⟨rfl, rfl⟩ := hpair
    have h₁ : entry.1 = "log-file" := eq_of_ofName hk rfl
    have h₂ : e.1 = "log-os-log" := eq_of_ofName hk' rfl
    have := hlt e hmem
    rw [h₁, h₂] at this
    exact absurd this (by decide)
  have hagree : key.Agree (applyEntries S before c)
      (applyEntries S (before.filter key.concerns) c) := applyEntries_filter key before (.refl key c)
  rwa [hnone] at hagree

/-- **Every entry of a table is processed exactly if no entry for an option that is not set yet has
a lookup that raises.** -/
theorem mergeConfigFile_returns_iff (T : Table) (c : CommandLine) :
    mergeConfigFile S (.table T.entries) c = .ok (applyEntries S T.entries c) ↔
      ∀ entry ∈ T.entries, ∀ key, ConfigKey.ofName entry.1 = some key → key.isSet c = false →
        ¬ key.LookupRaises S c entry.2 := by
  refine (mergeEntries_eq_ok_iff T.entries c).trans ⟨fun h entry hmem key hk hset hraises => ?_,
    fun h before entry after he hesc => ?_⟩
  · obtain ⟨before, after, he⟩ := List.append_of_mem hmem
    have hlog : key ≠ .logOsLog := by
      rintro rfl
      exact hraises
    have hesc := (parseConfigKey_escapes_iff hk).2 ⟨hset, hraises⟩
    exact h before entry after he (((T.agree he hk hlog).escapes_iff hk).2 hesc)
  · cases hk : ConfigKey.ofName entry.1 with
    | none =>
      rw [parseConfigKey_of_none hk] at hesc
      obtain ⟨_, ⟨⟩⟩ := hesc
    | some key =>
      have hlog : key ≠ .logOsLog := by
        rintro rfl
        exact ((parseConfigKey_escapes_iff hk).1 hesc).2
      have hesc' := ((T.agree he hk hlog).escapes_iff hk).1 hesc
      obtain ⟨hset, hraises⟩ := (parseConfigKey_escapes_iff hk).1 hesc'
      exact h entry (by simp [he]) key hk hset hraises

/-- The same system for an ordinary user, with a directory that only root can read. -/
def lockedSystem : Surroundings :=
  { smallSystem with getuid := 1000, fileExists := fun _ => .error (.other "Permission denied") }

/-- A file with a path in that directory, and an entry after it. -/
def lockedTable : Table where
  entries := [("smb-conf", .string "/root/smb.conf"), ("source-port", .integer 80)]
  sorted := by decide

/-- **What happens otherwise**: the exception leaves the loop, and the rest of the file is not
processed. -/
theorem unreadable_directory_ends_merge :
    mergeConfigFile lockedSystem (.table lockedTable.entries) {} =
        .error (.other "Permission denied") ∧
      mergeConfigFile lockedSystem (.table lockedTable.entries) {} ≠
        .ok (applyEntries lockedSystem lockedTable.entries {}) := by
  have h : mergeConfigFile lockedSystem (.table lockedTable.entries) {} =
      .error (.other "Permission denied") := rfl
  exact ⟨h, by rw [h]; simp⟩

end CommandLine

end Wsddn
