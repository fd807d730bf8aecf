import Mathlib.Data.List.TakeDrop
import Mathlib.Data.List.TakeWhile
import Wsddn.Config.Reload

/-!
# The account of the network process (`parseUser`, `Identity::setMyIdentity`)

A `user` value names an account.  The man page and the sample config file write it
`username[:groupname]`, the help of the option `groupname:username`.

* `Accounts.documented`, `Accounts.lookedUp` : the account by the man page, and by `parseUser`.
* `Identity.setMyIdentity` : the three calls that drop the privileges.
* `ServesAs` : the process that is forked after a reload has this account.
* `honours_iff` : **a value selects the account that is documented**, on the command line and in the
  config file, exactly if exchanging user and group makes no difference.
-/

namespace Wsddn

open CommandLine AppState

/-! ### The databases -/

/-- The databases of users and groups. -/
structure Accounts where
  /-- The user and its primary group. -/
  passwd : String → Option Identity
  group : String → Option ℕ

namespace Accounts

variable (db : Accounts)

/-- A system with these databases. -/
def lookups (L : Lookups) : Lookups :=
  { L with
    passwdByName := fun name => .ok (db.passwd name)
    groupByName := fun name => .ok (db.group name) }

/-- A user and, if it is given, a group. -/
def account (username : String) : Option String → Option Identity
  | none => db.passwd username
  | some groupname =>
    (db.passwd username).bind fun pwd => (db.group groupname).map fun gid => ⟨pwd.uid, gid⟩

/-- The account that a value stands for by the man page: `username[:groupname]`. -/
def documented (val : String) : Option Identity :=
  match partitionAtFirst val ':' with
  | none => db.account val none
  | some (username, groupname) => db.account username (some groupname)

/-- The account that the program looks up. -/
def lookedUp (val : String) : Option Identity :=
  if val = "" then none
  else
    match partitionAtFirst val ':' with
    | none => db.account val none
    | some (groupname, username) => db.account username (some groupname)

/-- The value stands for the same account when user and group are exchanged: if the user and the
group exist, the group has the name of a user with the same number, and the user that of a group;
if not, one of them is missing the other way round as well.  A value without a group is no empty
name of a user. -/
def Agrees (val : String) : Prop :=
  match partitionAtFirst val ':' with
  | none => val = "" → db.passwd "" = none
  | some (u, g) =>
    match db.passwd u, db.group g with
    | some pwd, some gid =>
      (∃ pwd', db.passwd g = some pwd' ∧ pwd'.uid = pwd.uid) ∧ db.group u = some gid
    | _, _ => db.passwd g = none ∨ db.group u = none

variable {db}

theorem partitionAtFirst_append {first : String} (h : ':' ∉ first.toList) (second : String) :
    partitionAtFirst (first ++ ":" ++ second) ':' = some (first, second) := by
  have hfirst : ∀ c ∈ first.toList, decide (c ≠ ':') = true := fun c hc => by
    simpa using ne_of_mem_of_not_mem hc h
  have hlist : (first ++ ":" ++ second).toList = first.toList ++ ':' :: second.toList := by
    simp
  rw [partitionAtFirst, hlist, List.span_eq_takeWhile_dropWhile,
    List.takeWhile_append_of_pos hfirst, List.dropWhile_append_of_pos hfirst]
  simp

theorem partitionAtFirst_of_not_mem {val : String} (h : ':' ∉ val.toList) :
    partitionAtFirst val ':' = none := by
  have hval : ∀ c ∈ val.toList, decide (c ≠ ':') = true := fun c hc => by
    simpa using ne_of_mem_of_not_mem hc h
  rw [partitionAtFirst, List.span_eq_takeWhile_dropWhile, List.dropWhile_eq_nil_iff.2 hval]

/-- **The man page**: `u:g` is the user `u` with the group `g`. -/
theorem documented_pair {u : String} (h : ':' ∉ u.toList) (g : String) :
    db.documented (u ++ ":" ++ g) = db.account u (some g) := by
  rw [documented, partitionAtFirst_append h]

/-- And `u` is the user `u` with its primary group. -/
theorem documented_user {u : String} (h : ':' ∉ u.toList) : db.documented u = db.passwd u := by
  rw [documented, partitionAtFirst_of_not_mem h]
  rfl

theorem account_some_eq_some_iff {u g : String} {id : Identity} :
    db.account u (some g) = some id ↔
      (∃ pwd, db.passwd u = some pwd ∧ pwd.uid = id.uid) ∧ db.group g = some id.gid := by
  obtain ⟨uid, gid⟩ := id
  simp only [account, Option.bind_eq_some_iff, Option.map_eq_some_iff, Identity.mk.injEq]
  constructor
  · rintro ⟨pwd, hpwd, _, hgid, rfl, rfl⟩
    exact ⟨⟨pwd, hpwd, rfl⟩, hgid⟩
  · rintro ⟨⟨pwd, hpwd, rfl⟩, hgid⟩
    exact ⟨pwd, hpwd, gid, hgid, rfl, rfl⟩

theorem account_some_eq_none_iff {u g : String} :
    db.account u (some g) = none ↔ db.passwd u = none ∨ db.group g = none := by
  cases hu : db.passwd u <;> simp [account, hu]

theorem agrees_iff {val : String} : db.Agrees val ↔ db.lookedUp val = db.documented val := by
  rw [Agrees, lookedUp, documented]
  cases hpart : partitionAtFirst val ':' with
  | none =>
    by_cases hval : val = ""
    · subst hval
      simp [account, eq_comm]
    · simp [hval]
  | some parts =>
    obtain ⟨u, g⟩ := parts
    have hval : val ≠ "" := by
      rintro rfl
      cases hpart
    rw [if_neg hval]
    dsimp only
    cases hu : db.passwd u with
    | none =>
      rw [account_some_eq_none_iff.2 (.inl hu)]
      exact account_some_eq_none_iff.symm
    | some pwd =>
      cases hg : db.group g with
      | none =>
        rw [account_some_eq_none_iff.2 (.inr hg)]
        exact account_some_eq_none_iff.symm
      | some gid =>
        have hdoc : db.account u (some g) = some ⟨pwd.uid, gid⟩ :=
          account_some_eq_some_iff.2 ⟨⟨pwd, hu, rfl⟩, hg⟩
        rw [hdoc, account_some_eq_some_iff]

end Accounts

/-! ### Dropping the privileges -/

/-- The user and the groups of a process. -/
structure ProcessIds where
  uid : ℕ
  gid : ℕ
  groups : List ℕ
  deriving DecidableEq, Repr

namespace ProcessIds

/-- `setgroups`, for root only. -/
def setGroups (groups : List ℕ) (p : ProcessIds) : Option ProcessIds :=
  if p.uid = 0 then some { p with groups } else none

/-- `setgid` : others than root can only keep their group. -/
def setGid (gid : ℕ) (p : ProcessIds) : Option ProcessIds :=
  if p.uid = 0 ∨ gid = p.gid then some { p with gid } else none

/-- `setuid` : others than root can only keep their user. -/
def setUid (uid : ℕ) (p : ProcessIds) : Option ProcessIds :=
  if p.uid = 0 ∨ uid = p.uid then some { p with uid } else none

end ProcessIds

/-- `Identity::setMyIdentity` : the user comes last, since after it the process is not root any
more. -/
def Identity.setMyIdentity (id : Identity) (p : ProcessIds) : Option ProcessIds :=
  (p.setGroups []).bind fun p => (p.setGid id.gid).bind fun p => p.setUid id.uid

/-- If the calls succeed, the process has this user, this group and no other groups. -/
theorem Identity.eq_of_setMyIdentity {id : Identity} {p q : ProcessIds}
    (h : id.setMyIdentity p = some q) : q = ⟨id.uid, id.gid, []⟩ := by
  obtain ⟨p₁, h₁, h⟩ := Option.bind_eq_some_iff.1 h
  obtain ⟨p₂, h₂, h⟩ := Option.bind_eq_some_iff.1 h
  unfold ProcessIds.setGroups at h₁
  unfold ProcessIds.setGid at h₂
  unfold ProcessIds.setUid at h
  split_ifs at h₁ h₂ h
  all_goals
    cases h₁
    cases h₂
    cases h
    rfl

theorem Identity.setMyIdentity_root (id : Identity) {p : ProcessIds} (h : p.uid = 0) :
    id.setMyIdentity p = some ⟨id.uid, id.gid, []⟩ := by
  simp [setMyIdentity, ProcessIds.setGroups, ProcessIds.setGid, ProcessIds.setUid, h]

namespace AppState

/-- The end of `postForkInServerProcess`. -/
def changeIdentity (s : AppState) (p : ProcessIds) : Option ProcessIds :=
  match s.currentCommandLine.runAs with
  | some id => id.setMyIdentity p
  | none => some p

/-- With an account in the settings, root changes to it. -/
theorem changeIdentity_root {s : AppState} {id : Identity} {p : ProcessIds}
    (hr : s.currentCommandLine.runAs = some id) (hp : p.uid = 0) :
    s.changeIdentity p = some ⟨id.uid, id.gid, []⟩ := by
  rw [changeIdentity, hr]
  exact id.setMyIdentity_root hp

/-- If the calls succeed, the credentials are those that they leave. -/
theorem postForkInServerProcess_of_changeIdentity {s : AppState} {p q : ProcessIds}
    {cr : Credentials} (hp : p.uid = cr.uid ∧ p.gid = cr.gid) (h : s.changeIdentity p = some q) :
    s.postForkInServerProcess true cr =
      some ⟨q.uid, q.gid, s.currentCommandLine.chrootDir.or cr.root⟩ := by
  obtain ⟨huid, hgid⟩ := hp
  unfold changeIdentity at h
  unfold postForkInServerProcess
  cases hr : s.currentCommandLine.runAs with
  | none =>
    rw [hr] at h
    cases h
    cases s.currentCommandLine.chrootDir <;> simp [huid, hgid]
  | some id =>
    rw [hr] at h
    rw [Identity.eq_of_setMyIdentity h]
    cases s.currentCommandLine.chrootDir <;> simp

end AppState

/-! ### The setters -/

namespace CommandLine

/-- A value is accepted wherever it is given, and selects the identity. -/
structure Accepted (S : Surroundings) (val : String) (id : Identity) : Prop where
  option : ∀ c, handle S (.user val) c = ({ c with runAs := some id }, none)
  key : ∀ c, c.runAs = none →
    parseConfigKey S "user" (.string val) c = ({ c with runAs := some id }, none)

/-- A value is rejected wherever it is given, and the setting is kept; the command line is not
accepted. -/
structure Rejected (S : Surroundings) (val : String) : Prop where
  option : ∀ c, ∃ message, handle S (.user val) c = (c, some (.validation message))
  key : ∀ c, c.runAs = none → ∃ message,
    parseConfigKey S "user" (.string val) c = (c, some (.validation message))
  kept : ∀ c, (parseConfigKey S "user" (.string val) c).1 = c
  parse : ∀ opts, .user val ∈ opts → parse S opts = none

variable {S : Surroundings} {val : String} {id : Identity} {c c' o : CommandLine}
  {opts : List Given}

theorem parseConfigKey_user :
    parseConfigKey S "user" (.string val) c =
      if c.runAs.isSome then (c, none) else setRunAs S val c := rfl

theorem handle_runAs {opt : Given} (h : ∀ val, opt ≠ .user val) :
    (handle S opt c).1.runAs = c.runAs := by
  cases opt with
  | user val => exact absurd rfl (h val)
  | uuid val =>
    simp only [handle, setUuid]
    split <;> rfl
  | logLevel val =>
    simp only [handle]
    split <;> rfl
  | unixd => rfl
  | systemd => rfl
  | launchd => rfl
  | ipv4only => rfl
  | ipv6only => rfl
  | _ => exact attempt_frame runAs fun _ => rfl

theorem handleAll_append {pre post : List Given} :
    handleAll S (pre ++ post) c = (handleAll S pre c).bind (handleAll S post) := by
  induction pre generalizing c with
  | nil => rfl
  | cons opt pre ih =>
    simp only [List.cons_append, handleAll]
    split
    · exact ih
    · rfl

theorem handleAll_runAs (h : ∀ val, .user val ∉ opts) (ho : handleAll S opts c = some o) :
    o.runAs = c.runAs := by
  induction opts generalizing c with
  | nil =>
    cases ho
    rfl
  | cons opt opts ih =>
    have hone := @handle_runAs S c opt fun val hopt =>
      h val (hopt ▸ List.mem_cons_self)
    unfold handleAll at ho
    rcases hr : handle S opt c with ⟨d, _ | e⟩ <;> rw [hr] at hone ho
    · exact (ih (fun val hmem => h val (List.mem_cons_of_mem _ hmem)) ho).trans hone
    · cases ho

/-- **The account of the command line** is that of its `--user`. -/
theorem parse_user (hmem : .user val ∈ opts) (ho : parse S opts = some o) :
    ∃ id, runAsValue S val = .ok id ∧ o.runAs = some id := by
  unfold CommandLine.parse at ho
  split_ifs at ho with hvalid
  obtain ⟨pre, post, rfl⟩ := List.append_of_mem hmem
  -- the option occurs once
  have honce : (pre ++ .user val :: post).countP (Given.sameOption (.user val)) ≤ 1 := by
    simp only [validOptions, Bool.and_eq_true, List.all_eq_true] at hvalid
    simpa [Given.once] using hvalid.1.1 _ hmem
  have hpost : ∀ other, .user other ∉ post := by
    intro other hother
    have hpos : 0 < post.countP (Given.sameOption (.user val)) :=
      List.countP_pos_iff.2 ⟨_, hother, rfl⟩
    rw [List.countP_append, List.countP_cons_of_pos rfl] at honce
    omega
  rw [handleAll_append] at ho
  obtain ⟨c, -, ho⟩ := Option.bind_eq_some_iff.1 ho
  unfold handleAll at ho
  simp only [handle, setRunAs, attempt] at ho
  cases hval : runAsValue S val with
  | error e =>
    rw [hval] at ho
    cases ho
  | ok id =>
    rw [hval] at ho
    exact ⟨id, rfl, handleAll_runAs hpost ho⟩

theorem accepted_of_ok (h : runAsValue S val = .ok id) : Accepted S val id where
  option c := by simp [handle, setRunAs, attempt, h]
  key c hc := by simp [parseConfigKey_user, hc, setRunAs, attempt, h]

theorem rejected_of_error {message : String} (h : runAsValue S val = .error (.validation message)) :
    Rejected S val where
  option c := ⟨message, by simp [handle, setRunAs, attempt, h]⟩
  key c hc := ⟨message, by simp [parseConfigKey_user, hc, setRunAs, attempt, h]⟩
  kept c := by
    rw [parseConfigKey_user]
    split_ifs
    · rfl
    · simp [setRunAs, attempt, h]
  parse opts hmem := by
    cases ho : CommandLine.parse S opts with
    | none => rfl
    | some o =>
      obtain ⟨id, hid, -⟩ := parse_user hmem ho
      rw [h] at hid
      cases hid

theorem not_rejected_of_accepted (h : Accepted S val id) : ¬ Rejected S val := by
  intro hrej
  obtain ⟨message, hmessage⟩ := hrej.option {}
  rw [h.option] at hmessage
  cases hmessage

theorem Accepted.eq {id' : Identity} (h : Accepted S val id) (h' : Accepted S val id') :
    id = id' := by
  have hsame := (h.option {}).symm.trans (h'.option {})
  simpa using congrArg (fun x => x.1.runAs) hsame

/-- What a value stands for in the program, with given databases: `groupname:username`. -/
theorem runAsValue_of_lookedUp {db : Accounts} {L : Lookups} (huid : S.getuid = 0)
    (hS : S.toLookups = db.lookups L) :
    (∀ id, db.lookedUp val = some id → runAsValue S val = .ok id) ∧
      (db.lookedUp val = none → ∃ message, runAsValue S val = .error (.validation message)) := by
  have hpasswd : ∀ name, S.passwdByName name = .ok (db.passwd name) := fun name => by
    rw [hS]
    rfl
  have hgroup : ∀ name, S.groupByName name = .ok (db.group name) := fun name => by
    rw [hS]
    rfl
  unfold Accounts.lookedUp runAsValue parseUser
  by_cases hval : val = ""
  · simp [hval, huid, require, bind, Except.bind]
  · cases hpart : partitionAtFirst val ':' with
    | none =>
      cases hu : db.passwd val <;>
        simp [hval, huid, require, bind, Except.bind, hpasswd, hu, Accounts.account]
    | some parts =>
      obtain ⟨g, u⟩ := parts
      cases hu : db.passwd u with
      | none => simp [hval, huid, require, bind, Except.bind, hpasswd, hu, Accounts.account]
      | some pwd =>
        cases hg : db.group g <;>
          simp [hval, huid, require, bind, Except.bind, hpasswd, hgroup, hu, hg, Accounts.account]

end CommandLine

/-! ### The network process -/

namespace Daemon

/-- Nothing else raises in a reload. -/
structure Unhindered (d : Daemon) (app : AppState) (r : Round) : Prop where
  raises : r.raises = none
  createMissingDirs : ∀ path, r.lookups.createMissingDirs path = .ok ()
  merges : app.origCommandLine.configFile.isSome = true → ∃ merged,
    mergeConfigFile (d.surroundings r.lookups app.cwd) r.file app.origCommandLine = .ok merged

/-- The process that is forked after the reload runs with this account and no other groups. -/
structure ServesAs (d : Daemon) (x : Served) (r : Round) (id : Identity) : Prop where
  /-- Nothing about the account keeps it from being forked. -/
  goes : Unhindered d x.app r → ∃ y, d.rounds.step x r = some y
  ids : ∀ y, d.rounds.step x r = some y → ∀ groups,
    y.app.changeIdentity ⟨d.getuid, d.getgid, groups⟩ = some ⟨id.uid, id.gid, []⟩
  entered : ∀ y, d.rounds.step x r = some y → r.applies = true → ∃ root,
    y.entered = x.entered ++ [⟨id.uid, id.gid, root⟩]

/-- The only value that the config file gives to `user`. -/
def GivesUser (file : ConfigFile) (val : String) : Prop :=
  ("user", .string val) ∈ file.entries ∧
    ∀ value, ("user", value) ∈ file.entries → value = .string val

variable {d : Daemon} {x : Served} {r : Round} {id : Identity} {o : CommandLine} {app : AppState}
  {S : Surroundings} {c : CommandLine}

theorem exists_ensureNonRoot (hr : c.runAs.isSome = true)
    (hdirs : ∀ path, S.createMissingDirs path = .ok ()) : ∃ c', ensureNonRoot S c = .ok c' := by
  unfold ensureNonRoot ensureAccount ensureChroot
  simp only [hr, if_true, hdirs]
  split_ifs
  · exact ⟨c, rfl⟩
  · simp only [bind, Except.bind]
    split_ifs
    · exact ⟨_, rfl⟩
    · exact ⟨_, rfl⟩

theorem exists_bind {α β : Type} {m : Except Raised α} {f : α → Except Raised β}
    (hm : ∃ a, m = .ok a) (hf : ∀ a, m = .ok a → ∃ b, f a = .ok b) : ∃ b, m >>= f = .ok b := by
  obtain ⟨a, ha⟩ := hm
  obtain ⟨b, hb⟩ := hf a ha
  exact ⟨b, bind_eq_ok.2 ⟨a, ha, hb⟩⟩

theorem exists_init {L : Lookups} (hr : app.currentCommandLine.runAs.isSome = true)
    (hdirs : ∀ path, L.createMissingDirs path = .ok ()) : ∃ t, app.init d L = .ok t := by
  refine exists_bind (exists_ensureNonRoot ?_ hdirs) fun _ _ => ⟨_, rfl⟩
  split_ifs <;> exact hr

theorem exists_refresh {L : Lookups} (hr : app.currentCommandLine.runAs.isSome = true)
    (hdirs : ∀ path, L.createMissingDirs path = .ok ()) : ∃ t, app.refresh d L = .ok t :=
  exists_bind (exists_ensureNonRoot hr hdirs) fun _ _ => ⟨_, rfl⟩

/-- With an account in the settings only the rest of a reload can raise. -/
theorem exists_reload (h : Unhindered d app r)
    (hmerged : app.origCommandLine.configFile.isSome = true → ∀ merged,
      mergeConfigFile (d.surroundings r.lookups app.cwd) r.file app.origCommandLine = .ok merged →
        merged.runAs.isSome = true)
    (horig : app.origCommandLine.configFile.isSome = false →
      app.origCommandLine.runAs.isSome = true) :
    ∃ app', app.reload d r.toReload = .ok app' := by
  obtain ⟨t, ht⟩ : ∃ t, app.reloadSettings d r.toReload = .ok t := by
    unfold reloadSettings
    cases hf : app.origCommandLine.configFile.isSome with
    | true =>
      rw [if_pos rfl]
      refine exists_bind (h.merges hf) fun merged hm => ?_
      have hr := hmerged hf merged hm
      cases hi : app.isInitialized with
      | true => exact exists_refresh hr h.createMissingDirs
      | false => exact exists_init hr h.createMissingDirs
    | false =>
      cases hi : app.isInitialized with
      | true => exact ⟨app, rfl⟩
      | false => exact exists_init (horig hf) h.createMissingDirs
  refine ⟨t, bind_eq_ok.2 ⟨t, ht, ?_⟩⟩
  rw [h.raises]

theorem servesAs_of_runAs (huid : d.getuid = 0)
    (hgoes : Unhindered d x.app r → ∃ app, x.app.reload d r.toReload = .ok app)
    (h : ∀ app, x.app.reload d r.toReload = .ok app → app.currentCommandLine.runAs = some id) :
    ServesAs d x r id := by
  constructor
  · intro hrest
    obtain ⟨app, happ⟩ := hgoes hrest
    exact ⟨⟨app, x.entered ++ (app.serveCredentials d r.applies).toList⟩,
      rounds_step_eq_some.2 ⟨happ, rfl⟩⟩
  · intro y hst groups
    exact changeIdentity_root (h y.app (rounds_step_eq_some.1 hst).1) huid
  · intro y hst happ
    obtain ⟨hr, hent⟩ := rounds_step_eq_some.1 hst
    have hrun := h y.app hr
    have hids : y.app.changeIdentity ⟨d.getuid, d.getgid, []⟩ = some ⟨id.uid, id.gid, []⟩ :=
      changeIdentity_root hrun huid
    have hfork : y.app.shouldFork = true := by simp [shouldFork, hrun]
    rw [hent, serveCredentials, if_pos hfork, happ,
      postForkInServerProcess_of_changeIdentity (p := ⟨d.getuid, d.getgid, []⟩) ⟨rfl, rfl⟩ hids]
    exact ⟨_, rfl⟩

/-- **With `--user`**: every process that is forked in a run has the account. -/
theorem servesAs_of_option (huid : d.getuid = 0) (ho : o.runAs = some id) {cwd : Path}
    {rs : List Round} (hrun : d.rounds.run { app := .ofCommandLine o cwd } rs = some x)
    (r : Round) : ServesAs d x r id := by
  -- both the settings of the command line and those in force keep the account
  have hreload : ∀ {s t : AppState} {r : Round},
      s.origCommandLine.runAs = some id ∧ s.currentCommandLine.runAs = some id →
        s.reload d r.toReload = .ok t →
          t.origCommandLine.runAs = some id ∧ t.currentCommandLine.runAs = some id := by
    rintro s t r ⟨horig, hcurrent⟩ hr
    cases hf : s.origCommandLine.configFile.isSome with
    | true =>
      obtain ⟨hl, merged, hm, he⟩ := reload_of_configFile hf hr
      refine ⟨hl.orig ▸ horig, ?_⟩
      rw [(ensureNonRoot_ok huid he).1, mergeConfigFile_runAs hm, horig]
      rfl
    | false =>
      cases hi : s.isInitialized with
      | true =>
        rw [reload_of_initialized hf hi hr]
        exact ⟨horig, hcurrent⟩
      | false =>
        obtain ⟨hl, he⟩ := reload_of_first hf hi hr
        refine ⟨hl.orig ▸ horig, ?_⟩
        rw [(ensureNonRoot_ok huid he).1, horig]
        rfl
  have hx : x.app.origCommandLine.runAs = some id ∧ x.app.currentCommandLine.runAs = some id :=
    Machine.run_invariant (M := d.rounds)
      (I := fun x => x.app.origCommandLine.runAs = some id ∧
        x.app.currentCommandLine.runAs = some id)
      (fun _ _ _ h hst => hreload h (rounds_step_eq_some.1 hst).1) ⟨ho, ho⟩ hrun
  refine servesAs_of_runAs huid (fun hrest => ?_) fun app happ => (hreload hx happ).2
  refine exists_reload hrest (fun hf merged hm => ?_) fun hf => ?_
  · rw [mergeConfigFile_runAs hm, hx.1]
    rfl
  · rw [hx.1]
    rfl

theorem findSome?_acceptedUser {file : ConfigFile} {val : String} (h : GivesUser file val)
    (hval : runAsValue S val = .ok id) : file.entries.findSome? (acceptedUser S) = some id := by
  have huser : acceptedUser S ("user", .string val) = some id := by
    simp [acceptedUser, Toml.asString, hval, Except.toOption]
  have hsome : (file.entries.findSome? (acceptedUser S)).isSome = true :=
    List.findSome?_isSome_iff.2 ⟨_, h.1, Option.isSome_of_eq_some huser⟩
  obtain ⟨found, hfound⟩ := Option.isSome_iff_exists.1 hsome
  obtain ⟨⟨keyName, value⟩, hmem, haccepted⟩ := List.exists_of_findSome?_eq_some hfound
  have hkey : keyName = "user" := by
    by_contra hne
    simp [acceptedUser, hne] at haccepted
  subst hkey
  rw [h.2 value hmem, huser] at haccepted
  rw [hfound, haccepted]

/-- **With a `user` in the config file** and no `--user`: the process that is forked after the file
was read has the account. -/
theorem servesAs_of_configFile (huid : d.getuid = 0) (hf : o.configFile.isSome = true)
    (ho : o.runAs = none) {cwd : Path} {rs : List Round}
    (hrun : d.rounds.run { app := .ofCommandLine o cwd } rs = some x) {val : String}
    (hfile : GivesUser r.file val)
    (hval : ∀ cwd, runAsValue (d.surroundings r.lookups cwd) val = .ok id) :
    ServesAs d x r id := by
  have horig : x.app.origCommandLine = o := (afterReloads_run afterReloads_start hrun).orig
  have hmerged : ∀ merged, mergeConfigFile (d.surroundings r.lookups x.app.cwd) r.file
      x.app.origCommandLine = .ok merged → merged.runAs = some id := by
    intro merged hm
    rw [mergeConfigFile_runAs hm, horig, ho, Option.none_or]
    exact findSome?_acceptedUser hfile (hval _)
  refine servesAs_of_runAs huid (fun hrest => ?_) fun app happ => ?_
  · refine exists_reload hrest (fun _ merged hm => ?_) fun hno => ?_
    · rw [hmerged merged hm]
      rfl
    · rw [horig, hf] at hno
      cases hno
  · obtain ⟨-, merged, hm, he⟩ := reload_of_configFile (horig.symm ▸ hf) happ
    rw [(ensureNonRoot_ok huid he).1, hmerged merged hm]
    rfl

/-- A value selects an account: on the command line, and in the config file if the command line has
none.  The databases are those at the time when the value is read. -/
structure Selects (d : Daemon) (db : Accounts) (L : Lookups) (cwd : Path) (val : String)
    (id : Identity) : Prop where
  accepted : Accepted (d.surroundings (db.lookups L) cwd) val id
  option : ∀ opts o, .user val ∈ opts → parse (d.surroundings (db.lookups L) cwd) opts = some o →
    ∀ rs x, d.rounds.run { app := .ofCommandLine o cwd } rs = some x → ∀ r, ServesAs d x r id
  configFile : ∀ o, o.configFile.isSome = true → o.runAs = none →
    ∀ rs x, d.rounds.run { app := .ofCommandLine o cwd } rs = some x →
      ∀ r L, r.lookups = db.lookups L → GivesUser r.file val → ServesAs d x r id

/-- A value selects the account that the man page says.  If its user or its group is missing, it is
rejected, and the setting is kept. -/
def Honours (d : Daemon) (db : Accounts) (L : Lookups) (cwd : Path) (val : String) : Prop :=
  match db.documented val with
  | some id => Selects d db L cwd val id
  | none => Rejected (d.surroundings (db.lookups L) cwd) val

variable {db : Accounts} {L : Lookups} {cwd : Path} {val : String}

theorem selects_of_lookedUp (huid : d.getuid = 0) (h : db.lookedUp val = some id) :
    Selects d db L cwd val id where
  accepted := accepted_of_ok ((runAsValue_of_lookedUp huid rfl).1 id h)
  option opts o hmem ho rs x hrun r := by
    obtain ⟨id', hid', hr⟩ := parse_user hmem ho
    rw [(runAsValue_of_lookedUp huid rfl).1 id h] at hid'
    cases hid'
    exact servesAs_of_option huid hr hrun r
  configFile o hf ho rs x hrun r L hL hfile := by
    refine servesAs_of_configFile huid hf ho hrun hfile fun cwd => ?_
    exact (runAsValue_of_lookedUp huid hL).1 id h

/-- **The documented syntax.**  For a daemon that was started by root, any databases and any value:
the value selects the account that the man page says exactly if it stands for the same account when
user and group are exchanged. -/
theorem honours_iff (huid : d.getuid = 0) : Honours d db L cwd val ↔ db.Agrees val := by
  rw [Accounts.agrees_iff, Honours]
  cases hlook : db.lookedUp val with
  | none =>
    obtain ⟨message, hmessage⟩ :=
      (runAsValue_of_lookedUp (S := d.surroundings (db.lookups L) cwd) huid rfl).2 hlook
    have hrej := rejected_of_error hmessage
    cases db.documented val with
    | none => exact iff_of_true hrej rfl
    | some id =>
      exact iff_of_false (fun hsel => not_rejected_of_accepted hsel.accepted hrej) (by simp)
  | some found =>
    have hsel : Selects d db L cwd val found := selects_of_lookedUp huid hlook
    cases db.documented val with
    | none =>
      exact iff_of_false (fun hrej => not_rejected_of_accepted hsel.accepted hrej) (by simp)
    | some id =>
      refine ⟨fun h => congrArg some (hsel.accepted.eq h.accepted), fun h => ?_⟩
      rw [← Option.some.inj h]
      exact hsel

/-- Two users, each with a group of the same name. -/
def aliceAndBob : Accounts where
  passwd name := [("alice", ⟨1000, 1000⟩), ("bob", ⟨1001, 1001⟩)].lookup name
  group name := [("alice", 1000), ("bob", 1001)].lookup name

/-- A user with its own group is what it should be. -/
theorem honours_alice_alice : Honours rootDaemon aliceAndBob someSystem "/" "alice:alice" :=
  (honours_iff rfl).2 ⟨⟨_, rfl, rfl⟩, rfl⟩

/-- **`alice:bob` is the user `bob` with the group `alice`.** -/
theorem alice_bob_exchanged :
    aliceAndBob.documented "alice:bob" = some ⟨1000, 1001⟩ ∧
      Selects rootDaemon aliceAndBob someSystem "/" "alice:bob" ⟨1001, 1000⟩ ∧
      ¬ Honours rootDaemon aliceAndBob someSystem "/" "alice:bob" := by
  have hdoc : aliceAndBob.documented "alice:bob" = some ⟨1000, 1001⟩ := rfl
  have hsel : Selects rootDaemon aliceAndBob someSystem "/" "alice:bob" ⟨1001, 1000⟩ :=
    selects_of_lookedUp rfl rfl
  refine ⟨hdoc, hsel, fun h => ?_⟩
  rw [Honours, hdoc] at h
  exact absurd (hsel.accepted.eq h.accepted) (by decide)

/-- After `--user alice:bob`. -/
example : (rootDaemon.rounds.run { app := .ofCommandLine ((parse (rootDaemon.surroundings
      (aliceAndBob.lookups someSystem) "/") [.user "alice:bob"]).getD {}) "/" }
    [goodRound .unavailable]).map Served.entered = some [⟨1001, 1000, some "/var/run/wsddn"⟩] := by
  decide +kernel

end Daemon

end Wsddn
