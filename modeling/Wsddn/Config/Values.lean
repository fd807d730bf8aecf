import Mathlib.Data.List.TakeWhile
import Wsddn.Config.Merge

/-!
# What becomes of the value of an entry

What is wrong with an entry of the config file is logged with the words that the entry is ignored,
so it must not change anything; and an entry that is accepted must set its option to the value that
was given (`ConfigKey.meant`): the text without the blanks around it, by the syntax that the man page
gives for the option.

* `addAll_eq` : an array is added up to the first element that is refused.
* `Honoured` : ignored without effect, or stored as given.
* `honoured_iff` : **an entry is honoured exactly if its option was set before or it is none of
  these** (`ConfigKey.Mishandled`): a valid `uuid`, an array with a bad element after a good one, a
  `hoplimit` of more than 16 bits, a `log-level` of more than 32 bits whose low bits are small, a
  `user` that is another account when its two names are exchanged, and a `member-of` without a prefix
  that is not in capitals.
-/

namespace Wsddn

namespace CommandLine

variable {S : Surroundings} {c : CommandLine} {keyName : String} {value : Toml} {key : ConfigKey}

/-! ### The value that was given -/

variable (S) in
/-- The strings of an array, as they are used. -/
def strings (els : List (Option String)) : List String :=
  els.filterMap fun el => el.map S.trim

variable (S) in
/-- `Workgroup/name`, `Domain/name`, or the name of a workgroup. -/
def membership (val : String) : Option MemberOf :=
  match partitionAtFirst val '/' with
  | none => some (.workgroup (S.trim val))
  | some (pre, suffix) =>
    if S.toLower pre = "workgroup" then some (.workgroup (S.trim suffix))
    else if S.toLower pre = "domain" then some (.domain (S.trim suffix))
    else none

variable (S) in
/-- The account that `username[:groupname]` stands for. -/
def userAccount (val : String) : Option Identity :=
  match partitionAtFirst val ':' with
  | none => (S.passwdByName val).toOption.join
  | some (username, groupname) =>
    (S.passwdByName username).toOption.join.bind fun pwd =>
      (S.groupByName groupname).toOption.join.map fun gid => ⟨pwd.uid, gid⟩

variable (S) in
/-- What the value of an entry stands for, if it has the type that the key asks for. -/
def ConfigKey.meant : (key : ConfigKey) → Toml → key.Value
  | .interfaces, .array els | .includePatterns, .array els | .excludePatterns, .array els =>
    strings S els
  | .interfaces, _ | .includePatterns, _ | .excludePatterns, _ => []
  | .allowedAddressFamily, .string val =>
    [("ipv4", AllowedAddressFamily.ipv4Only), ("ipv6", .ipv6Only), ("both", .both)].lookup
      (S.toLower val)
  | .hoplimit, .integer n => some n
  | .sourcePort, .integer n => some n.toNat
  | .uuid, .string val => S.uuidFromChars val
  -- the empty name stands for the NetBIOS name
  | .hostname, .string val => some (if S.trim val = ":NETBIOS:" then "" else S.trim val)
  | .memberOf, .string val => membership S val
  | .smbConf, .string val | .metadata, .string val | .logFile, .string val
  | .pidFile, .string val | .chroot, .string val => (S.absolute S.cwd val).toOption
  -- the levels are counted from the other end
  | .logLevel, .integer n => some (maxLogLevel - min n.toNat maxLogLevel)
  | .logOsLog, .boolean val => some val
  | .user, .string val => userAccount S val
  | .allowedAddressFamily, _ | .hoplimit, _ | .sourcePort, _ | .uuid, _ | .hostname, _
  | .memberOf, _ | .smbConf, _ | .metadata, _ | .logFile, _ | .pidFile, _ | .chroot, _
  | .logLevel, _ | .logOsLog, _ | .user, _ => none

variable (S) in
/-- An entry that is ignored has no effect, and one that is accepted for an option that was not set
stores the value that was given. -/
def Honoured (keyName : String) (value : Toml) (c : CommandLine) : Prop :=
  (∀ e, (parseConfigKey S keyName value c).2 = some e → (∀ message, e ≠ .other message) →
    (parseConfigKey S keyName value c).1 = c) ∧
  ((parseConfigKey S keyName value c).2 = none → ∀ key, ConfigKey.ofName keyName = some key →
    key.isSet c = false → key.field (parseConfigKey S keyName value c).1 = key.meant S value)

/-- The first string is accepted and a later one is not. -/
def RefusedLater (ok : String → Bool) : List String → Prop
  | [] => False
  | first :: rest => ok first = true ∧ ∃ val ∈ rest, ok val = false

/-- The name of an interface can be used. -/
def interfaceOk (val : String) : Bool := val ≠ ""

variable (S) in
/-- A pattern can be used. -/
def patternOk (val : String) : Bool := val ≠ "" && (S.regexError val).isNone

variable (S) in
/-- The two names of a `user` are an account when they are exchanged, and not the same one as they
are written. -/
def OtherAccount (val : String) : Prop :=
  ∃ first second pwd gid, partitionAtFirst val ':' = some (first, second) ∧
    S.passwdByName second = .ok (some pwd) ∧ S.groupByName first = .ok (some gid) ∧
    ¬ ((∃ pwd', S.passwdByName first = .ok (some pwd') ∧ pwd'.uid = pwd.uid) ∧
      S.groupByName second = .ok (some gid))

variable (S) in
/-- A name without a prefix that is another one in capitals. -/
def OtherCapitals (val : String) : Prop :=
  partitionAtFirst val '/' = none ∧ S.toUpper (S.trim val) ≠ "" ∧
    S.toUpper (S.trim val) ≠ S.trim val

variable (S) in
/-- The values that are not treated as they should be, for an option that is not set. -/
def ConfigKey.Mishandled : ConfigKey → Toml → Prop
  | .uuid, .string val => (S.uuidFromChars val).isSome = true
  | .interfaces, .array els => RefusedLater interfaceOk (strings S els)
  | .includePatterns, .array els | .excludePatterns, .array els =>
    RefusedLater (patternOk S) (strings S els)
  | .hoplimit, .integer n => 2 ^ 16 ≤ n
  | .logLevel, .integer n => 2 ^ 32 ≤ n ∧ n % 2 ^ 32 < maxLogLevel
  | .memberOf, .string val => OtherCapitals S val
  | .user, .string val => S.getuid = 0 ∧ OtherAccount S val
  | _, _ => False

/-! ### Arrays -/

/-- A setter for the elements of an array, which accepts some and raises `err` for the others;
`append` adds elements to the settings. -/
structure Adds (add : String → CommandLine → Setting) (ok : String → Bool)
    (err : String → Raised) (append : List String → CommandLine → CommandLine) : Prop where
  accept : ∀ val c, ok val = true → add val c = (append [val] c, none)
  refuse : ∀ val c, ok val = false → add val c = (c, some (err val))
  err_ne : ∀ val message, err val ≠ .other message
  append_nil : ∀ c, append [] c = c
  append_cons : ∀ val vals c, append (val :: vals) c = append vals (append [val] c)
  append_ne : ∀ val vals c, append (val :: vals) c ≠ c

variable {add : String → CommandLine → Setting} {ok : String → Bool} {err : String → Raised}
  {append : List String → CommandLine → CommandLine}

/-- **An array is added up to the first element that is refused.** -/
theorem addAll_eq (hadd : Adds add ok err append) :
    ∀ els c, addAll S add els c = (append ((strings S els).takeWhile ok) c,
      ((strings S els).find? fun val => !ok val).map err) := by
  intro els
  induction els with
  | nil => exact fun c => by simp [addAll, strings, hadd.append_nil]
  | cons el els ih =>
    intro c
    cases el with
    | none => exact ih c
    | some el =>
      have hstrings : strings S (some el :: els) = S.trim el :: strings S els := rfl
      unfold addAll
      cases h : ok (S.trim el) with
      | true =>
        rw [hadd.accept _ _ h, hstrings, List.takeWhile_cons_of_pos h,
          List.find?_cons_of_neg (by simp [h])]
        dsimp only
        rw [ih, hadd.append_cons (S.trim el) ((strings S els).takeWhile ok) c]
      | false =>
        rw [hadd.refuse _ _ h, hstrings, List.takeWhile_cons_of_neg (by simp [h]),
          List.find?_cons_of_pos (by simp [h]), hadd.append_nil]
        rfl

variable (S) in
/-- What `Honoured` asks of a setter, for an option that is not set. -/
def Treats (key : ConfigKey) (value : Toml) (c : CommandLine) (r : Setting) : Prop :=
  (∀ e, r.2 = some e → (∀ message, e ≠ .other message) → r.1 = c) ∧
    (r.2 = none → key.field r.1 = key.meant S value)

theorem honoured_of_isSet (hk : ConfigKey.ofName keyName = some key) (hset : key.isSet c = true) :
    Honoured S keyName value c := by
  refine ⟨fun _ _ _ => parseConfigKey_of_isSet hk hset, fun _ key' hk' hset' => ?_⟩
  obtain rfl := Option.some.inj (hk.symm.trans hk')
  rw [hset] at hset'
  cases hset'

theorem honoured_iff_treats (hk : ConfigKey.ofName keyName = some key) (hset : key.isSet c = false) :
    Honoured S keyName value c ↔ Treats S key value c (parseConfigKey S keyName value c) := by
  refine and_congr_right fun _ => ⟨fun h hn => h hn key hk hset, fun h hn key' hk' _ => ?_⟩
  obtain rfl := Option.some.inj (hk.symm.trans hk')
  exact h hn

theorem treats_of_none {α : Type} {isSet : Bool} {expected : String} {as : Toml → Option α}
    {handler : α → CommandLine → Setting} (hset : isSet = false) (h : as value = none) :
    Treats S key value c (setConfigValue isSet keyName expected as value handler c) := by
  subst hset
  simp [Treats, setConfigValue, h]

theorem setConfigValue_of_some {α : Type} {isSet : Bool} {expected : String} {as : Toml → Option α}
    {handler : α → CommandLine → Setting} {val : α} (hset : isSet = false)
    (h : as value = some val) :
    setConfigValue isSet keyName expected as value handler c = handler val c := by
  subst hset
  simp [setConfigValue, h]

/-- A setter that checks first and then sets. -/
theorem treats_attempt {α : Type} {check : Except Raised α} {set : α → CommandLine}
    (h : ∀ val, check = .ok val → key.field (set val) = key.meant S value) :
    Treats S key value c (attempt c check set) := by
  unfold attempt
  cases check with
  | ok val => exact ⟨by simp, fun _ => h val rfl⟩
  | error e => exact ⟨fun _ _ _ => rfl, by simp⟩

/-- **An array is treated as it should be unless an element is refused after one was added.** -/
theorem treats_array_iff (hadd : Adds add ok err append) {els : List (Option String)}
    (hmeant : key.field (append (strings S els) c) = key.meant S value) :
    Treats S key value c (addAll S add els c) ↔ ¬ RefusedLater ok (strings S els) := by
  rw [addAll_eq hadd]
  cases hstrs : strings S els with
  | nil =>
    rw [hstrs] at hmeant
    exact iff_of_true ⟨by simp, fun _ => hmeant⟩ fun h => h
  | cons first rest =>
    cases hfirst : ok first with
    | false =>
      rw [List.takeWhile_cons_of_neg (by simp [hfirst]), List.find?_cons_of_pos (by simp [hfirst]),
        hadd.append_nil]
      refine iff_of_true ⟨fun _ _ _ => rfl, by simp⟩ fun h => ?_
      rw [h.1] at hfirst
      cases hfirst
    | true =>
      rw [List.takeWhile_cons_of_pos hfirst, List.find?_cons_of_neg (by simp [hfirst])]
      cases hfind : rest.find? fun val => !ok val with
      | some val =>
        -- `val` is refused, and `first` stays
        refine iff_of_false (fun h => ?_) (not_not.2 ⟨hfirst, val, List.mem_of_find?_eq_some hfind,
          by simpa using List.find?_some hfind⟩)
        exact hadd.append_ne _ _ c (h.1 (err val) rfl (hadd.err_ne val))
      | none =>
        have hall : ∀ val ∈ rest, ok val = true := by simpa using List.find?_eq_none.1 hfind
        have htake : rest.takeWhile ok = rest := List.takeWhile_eq_self_iff.2 hall
        refine iff_of_true ⟨by simp, fun _ => ?_⟩ ?_
        · rw [htake, ← hstrs]
          exact hmeant
        · rintro ⟨-, val, hval, hbad⟩
          rw [hall val hval] at hbad
          cases hbad

/-! ### The setters -/

/-- Add names of interfaces. -/
def appendInterfaces (vals : List String) (c : CommandLine) : CommandLine :=
  { c with interfaces := c.interfaces ++ vals }

theorem adds_interfaces : Adds addInterface interfaceOk
    (fun _ => .validation "interface name cannot be empty") appendInterfaces where
  accept val c h := by
    have hval : decide (val ≠ "") = true := h
    simp only [addInterface, require, hval, if_true, attempt, appendInterfaces]
  refuse val c h := by
    have hval : decide (val ≠ "") = false := h
    simp only [addInterface, require, hval, Bool.false_eq_true, if_false, attempt]
  err_ne _ _ h := nomatch h
  append_nil c := by simp [appendInterfaces]
  append_cons val vals c := by simp [appendInterfaces]
  append_ne val vals c h := by
    have hlist : c.interfaces ++ val :: vals = c.interfaces := congrArg CommandLine.interfaces h
    simp at hlist

/-- Add patterns of one of the two kinds. -/
def appendPatterns (included : Bool) (vals : List String) (c : CommandLine) : CommandLine :=
  if included then { c with includePatterns := c.includePatterns ++ vals }
  else { c with excludePatterns := c.excludePatterns ++ vals }

variable (S) in
/-- What is wrong with a pattern. -/
def patternError (val : String) : Raised :=
  let what := (S.regexError val).getD ""
  if val = "" then .validation "interface pattern cannot be empty"
  else .validation s!"invalid interface pattern: {what}"

theorem adds_patterns (included : Bool) : Adds (addPattern S included) (patternOk S)
    (patternError S) (appendPatterns included) where
  accept val c h := by
    simp only [patternOk, Bool.and_eq_true, decide_eq_true_eq, Option.isNone_iff_eq_none] at h
    simp [addPattern, require, h.1, h.2, attempt, appendPatterns, bind, Except.bind]
  refuse val c h := by
    by_cases hval : val = ""
    · simp [addPattern, patternError, require, hval, attempt, bind, Except.bind]
    · cases hr : S.regexError val with
      | none => simp [patternOk, hval, hr] at h
      | some what =>
        simp [addPattern, patternError, require, hval, hr, attempt, bind, Except.bind]
  err_ne val message h := by
    unfold patternError at h
    split_ifs at h
  append_nil c := by cases included <;> simp [appendPatterns]
  append_cons val vals c := by cases included <;> simp [appendPatterns]
  append_ne val vals c h := by
    cases included with
    | true =>
      have hlist : c.includePatterns ++ val :: vals = c.includePatterns :=
        congrArg CommandLine.includePatterns h
      simp at hlist
    | false =>
      have hlist : c.excludePatterns ++ val :: vals = c.excludePatterns :=
        congrArg CommandLine.excludePatterns h
      simp at hlist

theorem absolute_of_pathValue {val what : String} {needsFile : Bool} {path : Path}
    (h : pathValue S val what needsFile = .ok path) : S.absolute S.cwd val = .ok path := by
  obtain ⟨_, -, h⟩ := bind_eq_ok.1 h
  obtain ⟨path', habs, h⟩ := bind_eq_ok.1 h
  have hpath : path' = path := by
    cases needsFile with
    | true =>
      obtain ⟨found, -, hfound⟩ := bind_eq_ok.1 h
      obtain ⟨_, -, hok⟩ := bind_eq_ok.1 hfound
      exact Except.ok.inj hok
    | false => exact Except.ok.inj h
  rw [habs, hpath]

theorem runAsValue_eq_ok_iff {val : String} {id : Identity} :
    runAsValue S val = .ok id ↔ S.getuid = 0 ∧ val ≠ "" ∧ parseUser S val = .ok id := by
  unfold runAsValue require
  by_cases huid : S.getuid = 0 <;> by_cases hval : val = "" <;>
    simp [huid, hval, bind, Except.bind]

/-- What `parseUser` looks up: the group comes first. -/
theorem parseUser_pair {val first second : String} {id : Identity}
    (hpart : partitionAtFirst val ':' = some (first, second)) :
    parseUser S val = .ok id ↔ ∃ pwd gid, S.passwdByName second = .ok (some pwd) ∧
      S.groupByName first = .ok (some gid) ∧ id = ⟨pwd.uid, gid⟩ := by
  unfold parseUser
  rw [hpart]
  cases hpwd : S.passwdByName second with
  | error e => simp [hpwd, bind, Except.bind]
  | ok found =>
    cases found with
    | none => simp [hpwd, bind, Except.bind]
    | some pwd =>
      cases hgrp : S.groupByName first with
      | error e => simp [hpwd, hgrp, bind, Except.bind]
      | ok gid => cases gid <;> simp [hpwd, hgrp, bind, Except.bind, eq_comm]

theorem parseUser_single {val : String} {id : Identity} (hpart : partitionAtFirst val ':' = none) :
    parseUser S val = .ok id ↔ S.passwdByName val = .ok (some id) := by
  unfold parseUser
  rw [hpart]
  cases hpwd : S.passwdByName val with
  | error e => simp [hpwd, bind, Except.bind]
  | ok found => cases found <;> simp [hpwd, bind, Except.bind]

theorem join_toOption_eq_some {α : Type} {x : Except Raised (Option α)} {a : α} :
    x.toOption.join = some a ↔ x = .ok (some a) := by
  cases x <;> simp [Except.toOption]

theorem userAccount_pair {val first second : String} {id : Identity}
    (hpart : partitionAtFirst val ':' = some (first, second)) :
    userAccount S val = some id ↔
      (∃ pwd, S.passwdByName first = .ok (some pwd) ∧ pwd.uid = id.uid) ∧
        S.groupByName second = .ok (some id.gid) := by
  obtain ⟨uid, gid⟩ := id
  rw [userAccount, hpart]
  simp only [Option.bind_eq_some_iff, Option.map_eq_some_iff, join_toOption_eq_some,
    Identity.mk.injEq]
  constructor
  · rintro ⟨pwd, hpwd, _, hgid, rfl, rfl⟩
    exact ⟨⟨pwd, hpwd, rfl⟩, hgid⟩
  · rintro ⟨⟨pwd, hpwd, rfl⟩, hgid⟩
    exact ⟨pwd, hpwd, gid, hgid, rfl, rfl⟩

theorem absolute_of_chrootDirValue {val : String} {path : Path}
    (h : chrootDirValue S val = .ok path) : S.absolute S.cwd val = .ok path := by
  obtain ⟨_, -, h⟩ := bind_eq_ok.1 h
  exact absolute_of_pathValue h

theorem treats_family (val : String) :
    Treats S .allowedAddressFamily (.string val) c (setAllowedAddressFamily S val c) := by
  refine treats_attempt fun family h => ?_
  have hlookup : [("ipv4", AllowedAddressFamily.ipv4Only), ("ipv6", .ipv6Only), ("both", .both)].lookup
      (S.toLower val) = some family := by
    split_ifs at h with h₁ h₂ h₃ <;> obtain rfl := Except.ok.inj h
    · rw [h₁]
      rfl
    · rw [h₂]
      rfl
    · rw [h₃]
      rfl
  exact hlookup.symm

/-- A setter that checks first and sets one value. -/
theorem treats_attempt_iff {α : Type} {check : Except Raised α} {set : α → CommandLine} :
    Treats S key value c (attempt c check set) ↔
      ∀ val, check = .ok val → key.field (set val) = key.meant S value := by
  refine ⟨fun h val hval => ?_, treats_attempt⟩
  subst hval
  exact h.2 rfl

theorem treats_memberOf_iff (val : String) :
    Treats S .memberOf (.string val) c (setMemberOf S val c) ↔ ¬ OtherCapitals S val := by
  unfold setMemberOf
  rw [treats_attempt_iff]
  show (∀ memberOf, _ → some memberOf = membership S val) ↔ _
  unfold membership OtherCapitals
  cases hpart : partitionAtFirst val '/' with
  | none =>
    by_cases hname : S.toUpper (S.trim val) = ""
    · simp [hname, require, bind, Except.bind]
    · simp [hname, require, bind, Except.bind]
  | some parts =>
    obtain ⟨pre, suffix⟩ := parts
    refine iff_of_true (fun memberOf h => ?_) (by simp)
    obtain ⟨_, -, h⟩ := bind_eq_ok.1 h
    dsimp only at h ⊢
    split_ifs at h ⊢ <;> exact (congrArg some (Except.ok.inj h)).symm

theorem treats_user_iff (val : String) :
    Treats S .user (.string val) c (setRunAs S val c) ↔ ¬ (S.getuid = 0 ∧ OtherAccount S val) := by
  unfold setRunAs
  rw [treats_attempt_iff]
  show (∀ id, _ → some id = userAccount S val) ↔ _
  cases hpart : partitionAtFirst val ':' with
  | none =>
    refine iff_of_true (fun id h => ?_) fun ⟨_, _, _, _, _, hsome, _⟩ => ?_
    · obtain ⟨-, -, h⟩ := runAsValue_eq_ok_iff.1 h
      rw [userAccount, hpart]
      exact (join_toOption_eq_some.2 ((parseUser_single hpart).1 h)).symm
    · rw [hpart] at hsome
      cases hsome
  | some parts =>
    obtain ⟨first, second⟩ := parts
    have hval : val ≠ "" := by
      rintro rfl
      cases hpart
    constructor
    · rintro h ⟨huid, first', second', pwd, gid, hpart', hpwd, hgid, hother⟩
      obtain ⟨rfl, rfl⟩ := Prod.mk.inj (Option.some.inj (hpart.symm.trans hpart'))
      have hparse := (parseUser_pair hpart).2 ⟨pwd, gid, hpwd, hgid, rfl⟩
      exact hother ((userAccount_pair hpart).1
        (h _ (runAsValue_eq_ok_iff.2 ⟨huid, hval, hparse⟩)).symm)
    · intro h id hid
      obtain ⟨huid, -, hparse⟩ := runAsValue_eq_ok_iff.1 hid
      obtain ⟨pwd, gid, hpwd, hgid, rfl⟩ := (parseUser_pair hpart).1 hparse
      refine ((userAccount_pair hpart).2 ?_).symm
      by_contra hother
      exact h ⟨huid, first, second, pwd, gid, hpart, hpwd, hgid, hother⟩

theorem treats_hoplimit_iff (n : Int) :
    Treats S .hoplimit (.integer n) c (setHoplimit n c) ↔ ¬ 2 ^ 16 ≤ n := by
  unfold setHoplimit
  split_ifs with h
  · exact iff_of_true ⟨fun _ _ _ => rfl, by simp⟩ (by omega)
  · have hfield : Treats S .hoplimit (.integer n) c
        ({ c with hoplimit := some (n % 2 ^ 16) }, none) ↔ some (n % 2 ^ 16) = some n :=
      ⟨fun h => h.2 rfl, fun h => ⟨by simp, fun _ => h⟩⟩
    rw [hfield, Option.some.injEq]
    omega

theorem treats_sourcePort (n : Int) :
    Treats S .sourcePort (.integer n) c (setSourcePort n c) := by
  unfold setSourcePort
  split_ifs
  · exact ⟨fun _ _ _ => rfl, by simp⟩
  · exact ⟨by simp, fun _ => rfl⟩

theorem treats_logLevel_iff (n : Int) :
    Treats S .logLevel (.integer n) c (setLogLevelValue n c) ↔
      ¬ (2 ^ 32 ≤ n ∧ n % 2 ^ 32 < maxLogLevel) := by
  unfold setLogLevelValue
  split_ifs with h
  · exact iff_of_true ⟨fun _ _ _ => rfl, by simp⟩ (by omega)
  · have hfield : Treats S .logLevel (.integer n) c (setLogLevel (n.toNat % 2 ^ 32) c) ↔
        some (maxLogLevel - min (n.toNat % 2 ^ 32) maxLogLevel) =
          some (maxLogLevel - min n.toNat maxLogLevel) :=
      ⟨fun h => h.2 rfl, fun h => ⟨by simp [setLogLevel], fun _ => h⟩⟩
    rw [hfield, Option.some.injEq]
    unfold maxLogLevel
    omega

/-- The value is stored although it is reported as invalid. -/
theorem treats_uuid_iff (hset : c.uuid = none) (val : String) :
    Treats S .uuid (.string val) c (setUuid S val c) ↔ ¬ (S.uuidFromChars val).isSome = true := by
  unfold setUuid
  cases hval : S.uuidFromChars val with
  | none => exact iff_of_true ⟨fun _ _ _ => rfl, by simp⟩ (by simp)
  | some uuid =>
    refine iff_of_false (fun h => ?_) (by simp)
    have hsame : { c with uuid := some uuid } = c := h.1 _ rfl (by simp)
    have huuid : some uuid = c.uuid := congrArg CommandLine.uuid hsame
    rw [hset] at huuid
    cases huuid

/-- A mishandled value has the type of its key. -/
theorem hasType_of_mishandled (h : key.Mishandled S value) :
    match key with
    | .interfaces | .includePatterns | .excludePatterns => value.asArray.isSome = true
    | .hoplimit | .logLevel => value.asInteger.isSome = true
    | .uuid | .memberOf | .user => value.asString.isSome = true
    | _ => False := by
  unfold ConfigKey.Mishandled at h
  split at h
  · rfl
  · rfl
  · rfl
  · rfl
  · rfl
  · rfl
  · rfl
  · rfl
  · exact h.elim

/-- The setters of a type that the value has. -/
theorem treats_iff_of_type {α : Type} {isSet : Bool} {expected : String} {as : Toml → Option α}
    {handler : α → CommandLine → Setting} {P : Prop} (hset : isSet = false)
    (htype : P → (as value).isSome = true)
    (hsome : ∀ val, as value = some val → (Treats S key value c (handler val c) ↔ ¬ P)) :
    Treats S key value c (setConfigValue isSet keyName expected as value handler c) ↔ ¬ P := by
  cases has : as value with
  | none =>
    refine iff_of_true (treats_of_none hset has) fun hP => ?_
    have hpresent := htype hP
    rw [has] at hpresent
    cases hpresent
  | some val =>
    rw [setConfigValue_of_some hset has]
    exact hsome val has

theorem asInteger_eq_some {n : Int} : value.asInteger = some n ↔ value = .integer n := by
  cases value <;> simp [Toml.asInteger]

theorem asArray_eq_some {els : List (Option String)} :
    value.asArray = some els ↔ value = .array els := by
  cases value <;> simp [Toml.asArray]

theorem asBoolean_eq_some {val : Bool} : value.asBoolean = some val ↔ value = .boolean val := by
  cases value <;> simp [Toml.asBoolean]

/-- A string for an option with which nothing goes wrong. -/
theorem treats_string_iff {isSet : Bool} {expected : String}
    {handler : String → CommandLine → Setting} {P : Prop} (hset : isSet = false) (hP : ¬ P)
    (h : ∀ val, Treats S key (.string val) c (handler val c)) :
    Treats S key value c (setConfigValue isSet keyName expected Toml.asString value handler c) ↔
      ¬ P := by
  refine treats_iff_of_type hset (fun h => absurd h hP) fun val hval => ?_
  obtain rfl := asString_eq_some.1 hval
  exact iff_of_true (h val) hP

/-- An array of strings, for an option that has none. -/
theorem treats_strings_iff {isSet : Bool} {expected : String} {P : Prop} (hset : isSet = false)
    (hadd : Adds add ok err append) (htype : P → value.asArray.isSome = true)
    (hP : ∀ els, value = .array els → (P ↔ RefusedLater ok (strings S els)))
    (hmeant : ∀ els, key.field (append (strings S els) c) = key.meant S (.array els)) :
    Treats S key value c (setConfigValue isSet keyName expected Toml.asArray value
      (fun els c => addAll S add els c) c) ↔ ¬ P := by
  refine treats_iff_of_type hset htype fun els h => ?_
  obtain rfl := asArray_eq_some.1 h
  rw [hP els rfl]
  exact treats_array_iff hadd (hmeant els)

/-- **An entry is treated as it should be unless its value is one of those that are not.** -/
theorem treats_parseConfigKey_iff (hk : ConfigKey.ofName keyName = some key)
    (hset : key.isSet c = false) :
    Treats S key value c (parseConfigKey S keyName value c) ↔ ¬ key.Mishandled S value := by
  unfold parseConfigKey
  rw [hk]
  cases key with
  | interfaces =>
    have hempty : c.interfaces = [] := by simpa [ConfigKey.isSet] using hset
    refine treats_strings_iff hset adds_interfaces hasType_of_mishandled
      (by rintro els rfl; exact Iff.rfl) fun els => ?_
    show c.interfaces ++ strings S els = strings S els
    rw [hempty, List.nil_append]
  | includePatterns =>
    have hempty : c.includePatterns = [] := by simpa [ConfigKey.isSet] using hset
    refine treats_strings_iff hset (adds_patterns true) hasType_of_mishandled
      (by rintro els rfl; exact Iff.rfl) fun els => ?_
    show c.includePatterns ++ strings S els = strings S els
    rw [hempty, List.nil_append]
  | excludePatterns =>
    have hempty : c.excludePatterns = [] := by simpa [ConfigKey.isSet] using hset
    refine treats_strings_iff hset (adds_patterns false) hasType_of_mishandled
      (by rintro els rfl; exact Iff.rfl) fun els => ?_
    show c.excludePatterns ++ strings S els = strings S els
    rw [hempty, List.nil_append]
  | allowedAddressFamily => exact treats_string_iff hset (fun h => h) treats_family
  | hoplimit =>
    refine treats_iff_of_type hset hasType_of_mishandled fun n h => ?_
    obtain rfl := asInteger_eq_some.1 h
    exact treats_hoplimit_iff n
  | sourcePort =>
    refine treats_iff_of_type hset (fun h => h.elim) fun n h => ?_
    obtain rfl := asInteger_eq_some.1 h
    exact iff_of_true (treats_sourcePort n) fun h => h
  | uuid =>
    refine treats_iff_of_type hset hasType_of_mishandled fun val h => ?_
    obtain rfl := asString_eq_some.1 h
    exact treats_uuid_iff (by simpa [ConfigKey.isSet] using hset) val
  | hostname => exact treats_string_iff hset (fun h => h) fun val => treats_attempt fun _ _ => rfl
  | memberOf =>
    refine treats_iff_of_type hset hasType_of_mishandled fun val h => ?_
    obtain rfl := asString_eq_some.1 h
    exact treats_memberOf_iff val
  | logLevel =>
    refine treats_iff_of_type hset hasType_of_mishandled fun n h => ?_
    obtain rfl := asInteger_eq_some.1 h
    exact treats_logLevel_iff n
  | logOsLog =>
    dsimp only
    split_ifs
    · refine treats_iff_of_type hset (fun h => h.elim) fun val h => ?_
      obtain rfl := asBoolean_eq_some.1 h
      exact iff_of_true (treats_attempt fun _ _ => rfl) fun h => h
    · exact iff_of_true ⟨fun _ _ _ => rfl, by simp⟩ fun h => h
  | logFile =>
    refine treats_string_iff hset (fun h => h) fun val => treats_attempt fun path hpath => ?_
    obtain ⟨_, -, h₁⟩ := bind_eq_ok.1 hpath
    obtain ⟨_, -, h₂⟩ := bind_eq_ok.1 h₁
    exact (congrArg Except.toOption h₂).symm
  | smbConf =>
    exact treats_string_iff hset (fun h => h) fun val => treats_attempt fun path hpath =>
      (congrArg Except.toOption (absolute_of_pathValue hpath)).symm
  | metadata =>
    exact treats_string_iff hset (fun h => h) fun val => treats_attempt fun path hpath =>
      (congrArg Except.toOption (absolute_of_pathValue hpath)).symm
  | pidFile =>
    exact treats_string_iff hset (fun h => h) fun val => treats_attempt fun path hpath =>
      (congrArg Except.toOption (absolute_of_pathValue hpath)).symm
  | user =>
    refine treats_iff_of_type hset hasType_of_mishandled fun val h => ?_
    obtain rfl := asString_eq_some.1 h
    exact treats_user_iff val
  | chroot =>
    exact treats_string_iff hset (fun h => h) fun val => treats_attempt fun path hpath =>
      (congrArg Except.toOption (absolute_of_chrootDirValue hpath)).symm

/-- **When an entry is honoured.**  It is reported as ignored and has no effect, or its value is
stored, exactly if the key is unknown, or its option is set already, or the value is none of those
that are mishandled. -/
theorem honoured_iff (keyName : String) (value : Toml) (c : CommandLine) :
    Honoured S keyName value c ↔
      ∀ key, ConfigKey.ofName keyName = some key → key.isSet c = false →
        ¬ key.Mishandled S value := by
  cases hk : ConfigKey.ofName keyName with
  | none =>
    refine iff_of_true ⟨fun _ _ _ => ?_, fun _ key h => ?_⟩ (by simp)
    · rw [parseConfigKey_of_none hk]
    · rw [hk] at h
      cases h
  | some key =>
    simp only [Option.some.injEq, forall_eq']
    cases hset : key.isSet c with
    | true => exact iff_of_true (honoured_of_isSet hk hset) (by simp)
    | false =>
      rw [honoured_iff_treats hk hset, treats_parseConfigKey_iff hk hset]
      simp

/-- **An entry that is not honoured**: the array is reported as ignored because of its second
element, and its first element stays. -/
theorem ignored_array_stays :
    parseConfigKey smallSystem "interfaces" (.array [some "eth0", some ""]) {} =
        ({ interfaces := ["eth0"] }, some (.validation "interface name cannot be empty")) ∧
      ¬ Honoured smallSystem "interfaces" (.array [some "eth0", some ""]) {} := by
  have h : parseConfigKey smallSystem "interfaces" (.array [some "eth0", some ""]) {} =
      ({ interfaces := ["eth0"] }, some (.validation "interface name cannot be empty")) := rfl
  refine ⟨h, fun hon => ?_⟩
  have hsame := hon.1 (.validation "interface name cannot be empty") (by rw [h]) (by simp)
  rw [h] at hsame
  cases congrArg CommandLine.interfaces hsame

end CommandLine

end Wsddn
