import Wsddn.Config.CommandLine

/-!
# What a key of the config file reads and changes

Every key has one option of `CommandLine` (`ConfigKey.field`).  An entry changes no other option,
and whether it is accepted depends on no other option either, with one exception: logging to a file
and to the system log exclude each other (`ConfigKey.group`).

* `parseConfigKey_field` : an entry changes no option of another key.
* `parseConfigKey_of_isSet` : and not if the option is set.
* `parseConfigKey_local` : what an entry does depends on the options of its group only.
* `applyEntries_filter` : so the entries of other groups make no difference to an option.
-/

namespace Wsddn

namespace CommandLine

namespace ConfigKey

/-- What the option of a key holds. -/
def Value : ConfigKey → Type
  | .interfaces | .includePatterns | .excludePatterns => List String
  | .allowedAddressFamily => Option AllowedAddressFamily
  | .hoplimit => Option Int
  | .sourcePort | .logLevel => Option ℕ
  | .uuid => Option Uuid
  | .hostname => Option String
  | .memberOf => Option MemberOf
  | .smbConf | .metadata | .logFile | .pidFile | .chroot => Option Path
  | .logOsLog => Option Bool
  | .user => Option Identity

/-- The option of a key. -/
def field : (key : ConfigKey) → CommandLine → key.Value
  | .interfaces, c => c.interfaces
  | .includePatterns, c => c.includePatterns
  | .excludePatterns, c => c.excludePatterns
  | .allowedAddressFamily, c => c.allowedAddressFamily
  | .hoplimit, c => c.hoplimit
  | .sourcePort, c => c.sourcePort
  | .uuid, c => c.uuid
  | .hostname, c => c.hostname
  | .memberOf, c => c.memberOf
  | .smbConf, c => c.smbConf
  | .metadata, c => c.metadataFile
  | .logLevel, c => c.logLevel
  | .logFile, c => c.logFile
  | .logOsLog, c => c.logToOsLog
  | .pidFile, c => c.pidFile
  | .user, c => c.runAs
  | .chroot, c => c.chrootDir

/-- A list that is not empty, or an optional that has a value. -/
def isSet : ConfigKey → CommandLine → Bool
  | .interfaces, c => c.interfaces ≠ []
  | .includePatterns, c => c.includePatterns ≠ []
  | .excludePatterns, c => c.excludePatterns ≠ []
  | .allowedAddressFamily, c => c.allowedAddressFamily.isSome
  | .hoplimit, c => c.hoplimit.isSome
  | .sourcePort, c => c.sourcePort.isSome
  | .uuid, c => c.uuid.isSome
  | .hostname, c => c.hostname.isSome
  | .memberOf, c => c.memberOf.isSome
  | .smbConf, c => c.smbConf.isSome
  | .metadata, c => c.metadataFile.isSome
  | .logLevel, c => c.logLevel.isSome
  | .logFile, c => c.logFile.isSome
  | .logOsLog, c => c.logToOsLog.isSome
  | .pidFile, c => c.pidFile.isSome
  | .user, c => c.runAs.isSome
  | .chroot, c => c.chrootDir.isSome

/-- The keys whose options a key depends on. -/
def group : ConfigKey → List ConfigKey
  | .logFile | .logOsLog => [.logFile, .logOsLog]
  | key => [key]

theorem mem_group_self (key : ConfigKey) : key ∈ key.group := by
  cases key <;> simp [group]

theorem group_eq_of_mem {key key' : ConfigKey} (h : key' ∈ key.group) : key'.group = key.group := by
  cases key <;> simp only [group, List.mem_cons, List.not_mem_nil, or_false] at h <;>
    first | (subst h; rfl) | (obtain rfl | rfl := h <;> rfl)

theorem field_clear {key key' : ConfigKey} (h : key' ≠ key) (c : CommandLine) :
    key'.field (key.clear c) = key'.field c := by
  cases key <;> cases key' <;> first | rfl | exact absurd rfl h

theorem clear_configFile (key : ConfigKey) (c : CommandLine) :
    (key.clear c).configFile = c.configFile := by
  cases key <;> rfl

theorem clear_daemonType (key : ConfigKey) (c : CommandLine) :
    (key.clear c).daemonType = c.daemonType := by
  cases key <;> rfl

end ConfigKey

variable {S : Surroundings} {c d : CommandLine} {keyName : String} {value : Toml} {key : ConfigKey}

/-! ### What an entry changes -/

/-- An unknown key is reported. -/
theorem parseConfigKey_of_none (h : ConfigKey.ofName keyName = none) :
    parseConfigKey S keyName value c =
      (c, some (.configFile s!"invalid key {keyName}")) := by
  unfold parseConfigKey
  rw [h]

/-- The options of other keys stay as they are. -/
theorem parseConfigKey_field (h : ConfigKey.ofName keyName ≠ some key) :
    key.field (parseConfigKey S keyName value c).1 = key.field c := by
  cases hk : ConfigKey.ofName keyName with
  | none => rw [parseConfigKey_of_none hk]
  | some key' =>
    have hne : key ≠ key' := by
      rintro rfl
      exact h hk
    rw [← ConfigKey.field_clear hne, parseConfigKey_clear hk, ConfigKey.field_clear hne]

theorem parseConfigKey_other :
    (parseConfigKey S keyName value c).1.configFile = c.configFile ∧
      (parseConfigKey S keyName value c).1.daemonType = c.daemonType := by
  cases hk : ConfigKey.ofName keyName with
  | none =>
    rw [parseConfigKey_of_none hk]
    exact ⟨rfl, rfl⟩
  | some key =>
    rw [← key.clear_configFile, ← key.clear_daemonType, parseConfigKey_clear hk]
    exact ⟨key.clear_configFile c, key.clear_daemonType c⟩

/-- **An option that is set stays as it is.** -/
theorem parseConfigKey_of_isSet (h : ConfigKey.ofName keyName = some key) (hset : key.isSet c = true) :
    (parseConfigKey S keyName value c).1 = c := by
  have skip : ∀ {α : Type} {expected : String} {as : Toml → Option α}
      {handler : α → CommandLine → Setting},
      (setConfigValue (key.isSet c) keyName expected as value handler c).1 = c := by
    intro α expected as handler
    rw [setConfigValue, if_pos hset]
  unfold parseConfigKey
  rw [h]
  cases key with
  | logOsLog =>
    dsimp only
    split_ifs
    · exact skip
    · rfl
  | _ => exact skip

/-! ### What an entry depends on -/

/-- The settings agree on the options of the group of the key. -/
def ConfigKey.Agree : ConfigKey → CommandLine → CommandLine → Prop
  | .logFile, c, d | .logOsLog, c, d => c.logFile = d.logFile ∧ c.logToOsLog = d.logToOsLog
  | key, c, d => key.field c = key.field d

theorem ConfigKey.agree_iff :
    key.Agree c d ↔ ∀ key' ∈ key.group, key'.field c = key'.field d := by
  cases key with
  | logFile =>
    rw [group, List.forall_mem_cons, List.forall_mem_singleton]
    exact Iff.rfl
  | logOsLog =>
    rw [group, List.forall_mem_cons, List.forall_mem_singleton]
    exact Iff.rfl
  | _ => simp [Agree, group]

theorem ConfigKey.Agree.refl (key : ConfigKey) (c : CommandLine) : key.Agree c c :=
  agree_iff.2 fun _ _ => rfl

theorem ConfigKey.isSet_congr (key : ConfigKey) (h : key.field c = key.field d) :
    key.isSet c = key.isSet d := by
  cases key <;> simp_all [isSet, field]

theorem ConfigKey.Agree.isSet_eq (h : key.Agree c d) : key.isSet c = key.isSet d :=
  key.isSet_congr (agree_iff.1 h key key.mem_group_self)

/-- The keys of a group agree together. -/
theorem ConfigKey.agree_of_mem {key' : ConfigKey} (h : key' ∈ key.group) :
    key'.Agree c d ↔ key.Agree c d := by
  rw [agree_iff, agree_iff, group_eq_of_mem h]

section Respects

variable {R : CommandLine → CommandLine → Prop} {α : Type}

/-- Settings that are related stay related, and the same is raised. -/
def Respects (R : CommandLine → CommandLine → Prop) (set : CommandLine → Setting) : Prop :=
  ∀ c d, R c d → R (set c).1 (set d).1 ∧ (set c).2 = (set d).2

theorem attempt_respects {check : CommandLine → Except Raised α}
    {set : CommandLine → α → CommandLine} (hcheck : ∀ c d, R c d → check c = check d)
    (hset : ∀ c d val, R c d → R (set c val) (set d val)) :
    Respects R fun c => attempt c (check c) (set c) := by
  intro c d h
  dsimp only
  rw [hcheck c d h]
  unfold attempt
  split
  · exact ⟨hset c d _ h, rfl⟩
  · exact ⟨h, rfl⟩

theorem addAll_respects {add : String → CommandLine → Setting}
    (hadd : ∀ val, Respects R (add val)) : ∀ els, Respects R (addAll S add els) := by
  intro els
  induction els with
  | nil => exact fun c d h => ⟨h, rfl⟩
  | cons el els ih =>
    cases el with
    | none => exact ih
    | some el =>
      intro c d h
      obtain ⟨h₁, h₂⟩ := hadd (S.trim el) c d h
      unfold addAll
      rcases hc : add (S.trim el) c with ⟨c', e⟩
      rcases hd : add (S.trim el) d with ⟨d', e'⟩
      rw [hc, hd] at h₁ h₂
      obtain rfl : e = e' := h₂
      cases e with
      | none => exact ih c' d' h₁
      | some e => exact ⟨h₁, rfl⟩

theorem setConfigValue_respects {isSet : CommandLine → Bool} {expected : String}
    {as : Toml → Option α} {handler : α → CommandLine → Setting}
    (hset : ∀ c d, R c d → isSet c = isSet d) (hhandler : ∀ val, Respects R (handler val)) :
    Respects R fun c => setConfigValue (isSet c) keyName expected as value handler c := by
  intro c d h
  dsimp only
  unfold setConfigValue
  rw [hset c d h]
  split_ifs
  · exact ⟨h, rfl⟩
  · split
    · exact ⟨h, rfl⟩
    · exact hhandler _ c d h

end Respects

/-- **What an entry does depends only on the options of its group.** -/
theorem parseConfigKey_local (h : ConfigKey.ofName keyName = some key) :
    Respects key.Agree (parseConfigKey S keyName value) := by
  have hset : ∀ c d, key.Agree c d → key.isSet c = key.isSet d := fun c d h => h.isSet_eq
  intro c d hagree
  unfold parseConfigKey
  rw [h]
  cases key with
  | interfaces =>
    refine setConfigValue_respects hset (addAll_respects fun val => ?_) c d hagree
    exact attempt_respects (fun _ _ _ => rfl) fun c d _ h => congrArg (· ++ [val]) h
  | includePatterns =>
    refine setConfigValue_respects hset (addAll_respects fun val => ?_) c d hagree
    exact attempt_respects (fun _ _ _ => rfl) fun c d _ h => congrArg (· ++ [val]) h
  | excludePatterns =>
    refine setConfigValue_respects hset (addAll_respects fun val => ?_) c d hagree
    exact attempt_respects (fun _ _ _ => rfl) fun c d _ h => congrArg (· ++ [val]) h
  | hoplimit =>
    refine setConfigValue_respects hset (fun val c d h => ?_) c d hagree
    unfold setHoplimit
    split_ifs
    · exact ⟨h, rfl⟩
    · exact ⟨rfl, rfl⟩
  | sourcePort =>
    refine setConfigValue_respects hset (fun val c d h => ?_) c d hagree
    unfold setSourcePort
    split_ifs
    · exact ⟨h, rfl⟩
    · exact ⟨rfl, rfl⟩
  | uuid =>
    refine setConfigValue_respects hset (fun val c d h => ?_) c d hagree
    unfold setUuid
    split
    · exact ⟨rfl, rfl⟩
    · exact ⟨h, rfl⟩
  | logLevel =>
    refine setConfigValue_respects hset (fun val c d h => ?_) c d hagree
    unfold setLogLevelValue
    split_ifs
    · exact ⟨h, rfl⟩
    · exact ⟨rfl, rfl⟩
  | logFile =>
    refine setConfigValue_respects hset (fun val => ?_) c d hagree
    refine attempt_respects (fun c d h => ?_) fun c d _ h => ⟨rfl, h.2⟩
    rw [h.2]
  | logOsLog =>
    dsimp only
    split_ifs
    · refine setConfigValue_respects hset (fun val => ?_) c d hagree
      refine attempt_respects (fun c d h => ?_) fun c d _ h => ⟨h.1, rfl⟩
      rw [h.1]
    · exact ⟨hagree, rfl⟩
  | _ =>
    refine setConfigValue_respects hset (fun val => ?_) c d hagree
    exact attempt_respects (fun _ _ _ => rfl) fun _ _ _ _ => rfl

/-! ### The whole file -/

variable (S) in
/-- The settings after all entries, whatever they raise. -/
def applyEntries (entries : List (String × Toml)) (c : CommandLine) : CommandLine :=
  entries.foldl (fun c entry => (parseConfigKey S entry.1 entry.2 c).1) c

theorem applyEntries_of_isSet (entries : List (String × Toml)) (hset : key.isSet c = true) :
    key.field (applyEntries S entries c) = key.field c := by
  induction entries generalizing c with
  | nil => rfl
  | cons entry entries ih =>
    have hone : key.field (parseConfigKey S entry.1 entry.2 c).1 = key.field c := by
      by_cases hk : ConfigKey.ofName entry.1 = some key
      · rw [parseConfigKey_of_isSet hk hset]
      · exact parseConfigKey_field hk
    have hset' : key.isSet (parseConfigKey S entry.1 entry.2 c).1 = true := by
      by_cases hk : ConfigKey.ofName entry.1 = some key
      · rwa [parseConfigKey_of_isSet hk hset]
      · exact (key.isSet_congr hone).trans hset
    exact (ih hset').trans hone

theorem applyEntries_other (entries : List (String × Toml)) :
    (applyEntries S entries c).configFile = c.configFile ∧
      (applyEntries S entries c).daemonType = c.daemonType := by
  induction entries generalizing c with
  | nil => exact ⟨rfl, rfl⟩
  | cons entry entries ih =>
    have hone := @parseConfigKey_other S c entry.1 entry.2
    have hrest := @ih (parseConfigKey S entry.1 entry.2 c).1
    exact ⟨hrest.1.trans hone.1, hrest.2.trans hone.2⟩

/-- The entry is for a key that the option of `key` depends on. -/
def ConfigKey.concerns (key : ConfigKey) (entry : String × Toml) : Bool :=
  (ConfigKey.ofName entry.1).any fun key' => key' ∈ key.group

/-- **Entries for other keys make no difference**, whether they are accepted or not. -/
theorem applyEntries_filter (key : ConfigKey) (entries : List (String × Toml)) {c d : CommandLine}
    (h : key.Agree c d) :
    key.Agree (applyEntries S entries c) (applyEntries S (entries.filter key.concerns) d) := by
  induction entries generalizing c d with
  | nil => exact h
  | cons entry entries ih =>
    cases hk : ConfigKey.ofName entry.1 with
    | none =>
      have hno : key.concerns entry = false := by simp [ConfigKey.concerns, hk]
      rw [List.filter_cons_of_neg (by simp [hno])]
      refine ih ?_
      dsimp only
      rwa [parseConfigKey_of_none hk]
    | some key' =>
      by_cases hmem : key' ∈ key.group
      · have hyes : key.concerns entry = true := by simp [ConfigKey.concerns, hk, hmem]
        rw [List.filter_cons_of_pos hyes]
        have hlocal : Respects key'.Agree (parseConfigKey S entry.1 entry.2) :=
          parseConfigKey_local hk
        have hagree := (hlocal c d ((ConfigKey.agree_of_mem hmem).2 h)).1
        exact ih ((ConfigKey.agree_of_mem hmem).1 hagree)
      · have hno : key.concerns entry = false := by simp [ConfigKey.concerns, hk, hmem]
        rw [List.filter_cons_of_neg (by simp [hno])]
        refine ih (ConfigKey.agree_iff.2 fun key₁ h₁ => ?_)
        have hne : ConfigKey.ofName entry.1 ≠ some key₁ := by
          rw [hk]
          rintro ⟨⟩
          exact hmem h₁
        exact (parseConfigKey_field hne).trans (ConfigKey.agree_iff.1 h key₁ h₁)

end CommandLine

end Wsddn
