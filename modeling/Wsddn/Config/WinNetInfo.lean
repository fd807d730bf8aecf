import Mathlib.Data.List.Basic
import Wsddn.Config.CommandLine

/-!
# The name of the host in Windows networks (`config.cpp`, `config_mac.cpp`)

`Config` takes the name of the host and its workgroup or domain from the command line, else from
what the system says.  On macOS this is the configuration store: the value `com.apple.smb` has the
workgroup and the names of the host, and `com.apple.opendirectoryd.ActiveDirectory` the domain.

A value of the store can be of any type, and only a dictionary can be asked for a key.  What
`CFDictionaryGetValue` answers for another value is not defined; the model takes any answer, and it
keeps the values that were asked.  The values in a dictionary are strings.  They are copied one UTF-8
code unit at a time, and what the library `sys_string` makes of these is known for ASCII only.

* `detectAppleWinNetInfo` : what is found in the store.
* `detects_iff` : **the domain, else the workgroup, is found**, and only dictionaries are asked,
  exactly if the store has no domain, the value that could have it is not asked for one, and the
  strings that are copied come out as they are.
* `namesCopied_of_ascii` : strings of ASCII do.
* `Config.memberOf_of_dictionary` : a member of a domain says that it is in a workgroup.
-/

namespace Wsddn

/-! ### Property lists -/

/-- The types of the values of the store. -/
inductive TypeID where
  | dictionary
  | array
  | string
  | data
  | date
  | number
  | boolean
  deriving DecidableEq, Repr

/-- A value of the store. -/
inductive PropertyList where
  | dictionary (entries : List (String × String))
  | array
  | string
  | data
  | date
  | number
  | boolean
  deriving DecidableEq, Repr

/-- `CFGetTypeID`. -/
def PropertyList.typeID : PropertyList → TypeID
  | dictionary _ => .dictionary
  | array => .array
  | string => .string
  | data => .data
  | date => .date
  | number => .number
  | boolean => .boolean

/-- The configuration store, `none` for a value that it does not have. -/
abbrev DynamicStore := String → Option PropertyList

/-! ### Copying a string -/

/-- `utf8_access` : the UTF-8 code units of a string. -/
def utf8Access (str : String) : List UInt8 := str.toList.flatMap String.utf8EncodeChar

/-- `sys_string_builder`, by the string that `build` makes of the `char`s that were appended. -/
structure StringBuilder where
  built : List UInt8 → String
  built_ascii : ∀ cs, (∀ c ∈ cs, c < 128) →
    built cs = String.ofList (cs.map fun c => Char.ofNat c.toNat)

namespace StringBuilder

variable (B : StringBuilder)

/-- Append one `char` to those since the builder was empty. -/
def append (appended : List UInt8) (c : UInt8) : List UInt8 := appended ++ [c]

/-- The string so far; the builder is empty afterwards. -/
def build (appended : List UInt8) : String × List UInt8 := (B.built appended, [])

/-- Append every code unit of a string, and build. -/
def copy (appended : List UInt8) (str : String) : String × List UInt8 :=
  B.build ((utf8Access str).foldl append appended)

/-- What becomes of a string that is copied with an empty builder. -/
def copied (str : String) : String := B.built (utf8Access str)

variable {B}

theorem foldl_append (cs appended : List UInt8) : cs.foldl append appended = appended ++ cs := by
  induction cs generalizing appended with
  | nil => simp
  | cons c cs ih => simp [ih, append]

@[simp] theorem copy_nil (str : String) : B.copy [] str = (B.copied str, []) := by
  rw [copy, foldl_append, List.nil_append, build, copied]

theorem utf8EncodeChar_of_ascii {c : Char} (h : c.toNat < 128) :
    String.utf8EncodeChar c = [c.toNat.toUInt8] := by
  have hle : c.val ≤ 127 := UInt32.le_iff_toNat_le.2 (Nat.le_of_lt_succ h)
  exact String.utf8EncodeChar_eq_singleton (Char.utf8Size_eq_one_iff.2 hle)

theorem utf8Access_of_ascii {str : String} (h : ∀ c ∈ str.toList, c.toNat < 128) :
    utf8Access str = str.toList.map fun c => c.toNat.toUInt8 := by
  rw [List.map_eq_flatMap]
  exact List.flatMap_congr fun c hc => utf8EncodeChar_of_ascii (h c hc)

theorem copied_of_ascii {str : String} (h : ∀ c ∈ str.toList, c.toNat < 128) :
    B.copied str = str := by
  have hnat : ∀ c ∈ str.toList, c.toNat.toUInt8.toNat = c.toNat := fun c hc =>
    UInt8.toNat_ofNat_of_lt (Nat.lt_trans (h c hc) (by decide))
  have hchars : ((str.toList.map fun c => c.toNat.toUInt8).map fun c => Char.ofNat c.toNat) =
      str.toList := by
    rw [List.map_map]
    refine (List.map_congr_left fun c hc => ?_).trans (List.map_id _)
    show Char.ofNat c.toNat.toUInt8.toNat = c
    rw [hnat c hc, Char.ofNat_toNat]
  rw [copied, utf8Access_of_ascii h, B.built_ascii, hchars, String.ofList_toList]
  intro b hb
  obtain ⟨c, hc, rfl⟩ := List.mem_map.1 hb
  rw [UInt8.lt_iff_toNat_lt, hnat c hc]
  exact h c hc

end StringBuilder

/-! ### The configuration store -/

/-- `Config::WinNetInfo`. -/
structure WinNetInfo where
  hostName : String
  hostDescription : String
  memberOf : MemberOf
  deriving DecidableEq, Repr

/-- What `Config` asks the system and the `sys_string` library. -/
structure LocalHost where
  simpleHostName : String
  toUpper : String → String
  builder : StringBuilder
  /-- The answer of `CFDictionaryGetValue` for a value that is no dictionary. -/
  confused : PropertyList → String → Option String

variable (H : LocalHost)

/-- `CFDictionaryGetValue`; the state has the values that it was called for. -/
def dictionaryGetValue (value : PropertyList) (key : String) :
    StateM (List PropertyList) (Option String) := do
  modify (· ++ [value])
  match value with
  | .dictionary entries => pure (entries.lookup key)
  | value => pure (H.confused value key)

/-- The part of `detectAppleWinNetInfo` that looks for the domain. -/
def detectDomain (copyValue : DynamicStore) : StateM (List PropertyList) (Option String) :=
  match copyValue "com.apple.opendirectoryd.ActiveDirectory" with
  | none => pure none
  | some ad =>
    -- the types are compared the other way round than for SMB
    if ad.typeID ≠ .dictionary then dictionaryGetValue H ad "DomainNameFlat" else pure none

/-- The end of `detectAppleWinNetInfo`, where one builder is used for all three strings. -/
def makeWinNetInfo (useNetbiosHostName : Bool) (domain workgroup hostname desc : Option String) :
    Option WinNetInfo :=
  let found :=
    match domain, workgroup with
    | none, none => none
    | some domain, _ =>
      let (name, appended) := H.builder.copy [] domain
      some (MemberOf.domain name, appended)
    | none, some workgroup =>
      let (name, appended) := H.builder.copy [] workgroup
      some (MemberOf.workgroup name, appended)
  found.map fun (memberOf, appended) =>
    let (hostName, appended) :=
      match useNetbiosHostName, hostname with
      | true, some hostname => H.builder.copy appended hostname
      | true, none => (H.toUpper H.simpleHostName, appended)
      | false, _ => (H.simpleHostName, appended)
    let (hostDescription, _) :=
      match desc with
      | some desc => H.builder.copy appended desc
      | none => (H.simpleHostName, appended)
    { hostName, hostDescription, memberOf }

/-- **`Config::detectAppleWinNetInfo`**, for a store that could be opened or not. -/
def detectAppleWinNetInfo (useNetbiosHostName : Bool) (store : Option DynamicStore) :
    StateM (List PropertyList) (Option WinNetInfo) :=
  match store with
  | none => pure none
  | some copyValue =>
    match copyValue "com.apple.smb" with
    | none => pure none
    | some smb =>
      if smb.typeID ≠ .dictionary then pure none
      else do
        let workgroup ← dictionaryGetValue H smb "Workgroup"
        let hostname ← dictionaryGetValue H smb "NetBIOSName"
        let desc ← dictionaryGetValue H smb "ServerDescription"
        let domain ← detectDomain H copyValue
        return makeWinNetInfo H useNetbiosHostName domain workgroup hostname desc

/-! ### What is in the store -/

namespace DynamicStore

variable (store : DynamicStore)

/-- A value has a dictionary in it. -/
def HasDictionary (name : String) : Prop := (store name).map PropertyList.typeID = some .dictionary

/-- The string under a key of a dictionary in the store. -/
def string (name key : String) : Option String :=
  match store name with
  | some (.dictionary entries) => entries.lookup key
  | _ => none

/-- The domain of the host, else its workgroup. -/
def membership : Option MemberOf :=
  match store.string "com.apple.opendirectoryd.ActiveDirectory" "DomainNameFlat",
    store.string "com.apple.smb" "Workgroup" with
  | some domain, _ => some (.domain domain)
  | none, some workgroup => some (.workgroup workgroup)
  | none, none => none

variable {store}

theorem membership_eq : store.membership =
    ((store.string "com.apple.opendirectoryd.ActiveDirectory" "DomainNameFlat").map .domain).or
      ((store.string "com.apple.smb" "Workgroup").map .workgroup) := by
  unfold membership
  split <;> simp [*]

/-- The workgroup is right if there is no domain and it is copied as it is. -/
theorem workgroup_eq_membership_iff (store : DynamicStore) (copied : String → String) :
    ((store.string "com.apple.smb" "Workgroup").map fun name => MemberOf.workgroup (copied name)) =
        store.membership ↔
      store.string "com.apple.opendirectoryd.ActiveDirectory" "DomainNameFlat" = none ∧
        ∀ name ∈ store.string "com.apple.smb" "Workgroup", copied name = name := by
  rw [membership_eq]
  cases store.string "com.apple.opendirectoryd.ActiveDirectory" "DomainNameFlat" <;>
    cases store.string "com.apple.smb" "Workgroup" <;> simp

theorem hasDictionary_of_typeID {name : String} {value : PropertyList}
    (h : store name = some value) (htype : value.typeID = .dictionary) :
    store.HasDictionary name := by
  rw [HasDictionary, h, Option.map_some, htype]

theorem string_of_not_hasDictionary {name : String} (h : ¬ store.HasDictionary name)
    (key : String) : store.string name key = none := by
  unfold string
  split
  · rename_i hvalue
    exact absurd (hasDictionary_of_typeID hvalue rfl) h
  · rfl

theorem string_of_dictionary {name : String} {entries : List (String × String)}
    (h : store name = some (.dictionary entries)) (key : String) :
    store.string name key = entries.lookup key := by
  rw [string, h]

theorem exists_of_hasDictionary {name : String} (h : store.HasDictionary name) :
    ∃ entries, store name = some (.dictionary entries) := by
  obtain ⟨value, hvalue, htype⟩ := Option.map_eq_some_iff.1 h
  cases value with
  | dictionary entries => exact ⟨entries, hvalue⟩
  | _ => cases htype

end DynamicStore

/-- What is promised of the detection, which has this result and asks these values. -/
structure Detects (useNetbiosHostName : Bool) (store : DynamicStore)
    (found : Option WinNetInfo × List PropertyList) : Prop where
  asked : ∀ value ∈ found.2, value.typeID = .dictionary
  memberOf : found.1.map WinNetInfo.memberOf = store.membership
  hostName : ∀ info ∈ found.1, info.hostName =
    if useNetbiosHostName then
      (store.string "com.apple.smb" "NetBIOSName").getD (H.toUpper H.simpleHostName)
    else H.simpleHostName
  hostDescription : ∀ info ∈ found.1, info.hostDescription =
    (store.string "com.apple.smb" "ServerDescription").getD H.simpleHostName

/-- The store has no domain, and no value of another type in its place that would be asked. -/
structure NoDirectory (store : DynamicStore) : Prop where
  noDomain : store.string "com.apple.opendirectoryd.ActiveDirectory" "DomainNameFlat" = none
  notAsked : store.HasDictionary "com.apple.smb" →
    store "com.apple.opendirectoryd.ActiveDirectory" = none ∨
      store.HasDictionary "com.apple.opendirectoryd.ActiveDirectory"

/-- The strings that are taken from a store without a domain are copied as they are. -/
structure NamesCopied (useNetbiosHostName : Bool) (store : DynamicStore) : Prop where
  workgroup : ∀ name ∈ store.string "com.apple.smb" "Workgroup", H.builder.copied name = name
  hostName : (store.string "com.apple.smb" "Workgroup").isSome = true → useNetbiosHostName = true →
    ∀ name ∈ store.string "com.apple.smb" "NetBIOSName", H.builder.copied name = name
  hostDescription : (store.string "com.apple.smb" "Workgroup").isSome = true →
    ∀ name ∈ store.string "com.apple.smb" "ServerDescription", H.builder.copied name = name

variable {H} {useNetbiosHostName : Bool} {store : DynamicStore}

theorem namesCopied_of_ascii (h : ∀ key, ∀ name ∈ store.string "com.apple.smb" key,
    ∀ c ∈ name.toList, c.toNat < 128) : NamesCopied H useNetbiosHostName store :=
  ⟨fun name hname => StringBuilder.copied_of_ascii (h _ name hname),
    fun _ _ name hname => StringBuilder.copied_of_ascii (h _ name hname),
    fun _ name hname => StringBuilder.copied_of_ascii (h _ name hname)⟩

/-- The three strings do not get into each other. -/
theorem makeWinNetInfo_eq (domain workgroup hostname desc : Option String) :
    makeWinNetInfo H useNetbiosHostName domain workgroup hostname desc =
      ((domain.map fun name => MemberOf.domain (H.builder.copied name)).or
        (workgroup.map fun name => .workgroup (H.builder.copied name))).map fun memberOf =>
          { hostName :=
              if useNetbiosHostName then
                (hostname.map H.builder.copied).getD (H.toUpper H.simpleHostName)
              else H.simpleHostName
            hostDescription := (desc.map H.builder.copied).getD H.simpleHostName
            memberOf } := by
  cases useNetbiosHostName <;> cases domain <;> cases workgroup <;> cases hostname <;>
    cases desc <;> simp [makeWinNetInfo]

theorem makeWinNetInfo_memberOf (domain workgroup hostname desc : Option String) :
    (makeWinNetInfo H useNetbiosHostName domain workgroup hostname desc).map WinNetInfo.memberOf =
      (domain.map fun name => .domain (H.builder.copied name)).or
        (workgroup.map fun name => .workgroup (H.builder.copied name)) := by
  rw [makeWinNetInfo_eq, Option.map_map]
  exact Option.map_id'

/-- Without a dictionary for SMB nothing is looked for. -/
theorem run_of_noDictionary (h : ¬ store.HasDictionary "com.apple.smb") :
    (detectAppleWinNetInfo H useNetbiosHostName (some store)).run [] = (none, []) := by
  unfold detectAppleWinNetInfo
  cases hsmb : store "com.apple.smb" with
  | none =>
    simp only [hsmb]
    rfl
  | some smb =>
    have htype : smb.typeID ≠ .dictionary := by
      intro htype
      exact h (DynamicStore.hasDictionary_of_typeID hsmb htype)
    simp only [hsmb, if_pos htype]
    rfl

/-- With one, its three keys are asked for, and then the domain is. -/
theorem run_of_dictionary {entries : List (String × String)}
    (hsmb : store "com.apple.smb" = some (.dictionary entries)) :
    (detectAppleWinNetInfo H useNetbiosHostName (some store)).run [] =
      ((detectDomain H store).run (.replicate 3 (.dictionary entries))).map
        (fun domain => makeWinNetInfo H useNetbiosHostName domain (entries.lookup "Workgroup")
          (entries.lookup "NetBIOSName") (entries.lookup "ServerDescription")) id := by
  unfold detectAppleWinNetInfo
  simp only [hsmb]
  rfl

theorem map_eq_of_forall_mem {α : Type} {f : α → α} {o : Option α} (h : ∀ a ∈ o, f a = a) :
    o.map f = o := by
  cases o with
  | none => rfl
  | some a => rw [Option.map_some, h a rfl]

/-- The domain is not looked for in a dictionary. -/
theorem run_detectDomain_of_dictionary
    (had : store "com.apple.opendirectoryd.ActiveDirectory" = none ∨
      store.HasDictionary "com.apple.opendirectoryd.ActiveDirectory") (asked : List PropertyList) :
    (detectDomain H store).run asked = (none, asked) := by
  unfold detectDomain
  rcases had with had | had
  · rw [had]
    rfl
  · obtain ⟨entries, had⟩ := DynamicStore.exists_of_hasDictionary had
    rw [had]
    rfl

theorem run_detectDomain_asked {ad : PropertyList}
    (had : store "com.apple.opendirectoryd.ActiveDirectory" = some ad)
    (htype : ad.typeID ≠ .dictionary) (asked : List PropertyList) :
    ((detectDomain H store).run asked).2 = asked ++ [ad] := by
  unfold detectDomain
  simp only [had, if_pos htype]
  cases ad <;> rfl

theorem detects_iff_of_noDictionary (h : ¬ store.HasDictionary "com.apple.smb") :
    Detects H useNetbiosHostName store
      ((detectAppleWinNetInfo H useNetbiosHostName (some store)).run []) ↔
        store.string "com.apple.opendirectoryd.ActiveDirectory" "DomainNameFlat" = none := by
  have hworkgroup := DynamicStore.string_of_not_hasDictionary h "Workgroup"
  have hmember := DynamicStore.workgroup_eq_membership_iff store H.builder.copied
  simp only [hworkgroup, Option.map_none, Option.not_mem_none, false_imp_iff, implies_true,
    and_true] at hmember
  rw [run_of_noDictionary h, ← hmember]
  constructor
  · exact fun hfound => hfound.memberOf
  · exact fun hnone => ⟨by simp, hnone, by simp, by simp⟩

theorem detects_iff_of_dictionary {entries : List (String × String)}
    (hsmb : store "com.apple.smb" = some (.dictionary entries))
    (had : store "com.apple.opendirectoryd.ActiveDirectory" = none ∨
      store.HasDictionary "com.apple.opendirectoryd.ActiveDirectory") :
    Detects H useNetbiosHostName store
      ((detectAppleWinNetInfo H useNetbiosHostName (some store)).run []) ↔
        store.string "com.apple.opendirectoryd.ActiveDirectory" "DomainNameFlat" = none ∧
          NamesCopied H useNetbiosHostName store := by
  rw [run_of_dictionary hsmb, run_detectDomain_of_dictionary had, Prod.map_apply]
  simp only [← DynamicStore.string_of_dictionary hsmb]
  have hmember := DynamicStore.workgroup_eq_membership_iff store H.builder.copied
  constructor
  · intro hfound
    have hfoundMember := hfound.memberOf
    rw [makeWinNetInfo_memberOf, Option.map_none, Option.none_or, hmember] at hfoundMember
    refine ⟨hfoundMember.1, hfoundMember.2, fun hsome hnetbios name hname => ?_,
      fun hsome name hname => ?_⟩
    all_goals obtain ⟨workgroup, hworkgroup⟩ := Option.isSome_iff_exists.1 hsome
    · have hhost := hfound.hostName _ (by rw [makeWinNetInfo_eq, hworkgroup]; rfl)
      rw [Option.mem_def.1 hname] at hhost
      simpa [hnetbios] using hhost
    · have hdesc := hfound.hostDescription _ (by rw [makeWinNetInfo_eq, hworkgroup]; rfl)
      rw [Option.mem_def.1 hname] at hdesc
      simpa using hdesc
  · rintro ⟨hno, hnames⟩
    refine ⟨fun value hvalue => ?_, ?_, fun info hinfo => ?_, fun info hinfo => ?_⟩
    · rw [List.eq_of_mem_replicate hvalue]
      rfl
    · rw [makeWinNetInfo_memberOf, Option.map_none, Option.none_or]
      exact hmember.2 ⟨hno, hnames.workgroup⟩
    all_goals
      rw [makeWinNetInfo_eq, Option.map_none, Option.none_or] at hinfo
      obtain ⟨memberOf, hsome, rfl⟩ := Option.map_eq_some_iff.1 hinfo
      replace hsome := Option.isSome_of_eq_some hsome
      rw [Option.isSome_map] at hsome
      dsimp only
    · cases useNetbiosHostName with
      | false => rfl
      | true =>
        rw [if_pos rfl, if_pos rfl, map_eq_of_forall_mem (hnames.hostName hsome rfl)]
    · rw [map_eq_of_forall_mem (hnames.hostDescription hsome)]

theorem not_detects_of_asked {entries : List (String × String)} {ad : PropertyList}
    (hsmb : store "com.apple.smb" = some (.dictionary entries))
    (had : store "com.apple.opendirectoryd.ActiveDirectory" = some ad)
    (htype : ad.typeID ≠ .dictionary) :
    ¬ Detects H useNetbiosHostName store
      ((detectAppleWinNetInfo H useNetbiosHostName (some store)).run []) := by
  intro hfound
  refine htype (hfound.asked ad ?_)
  rw [run_of_dictionary hsmb, Prod.map_snd, run_detectDomain_asked had htype]
  exact List.mem_append_right _ List.mem_cons_self

/-- **What is found.**  For every content of the store: only dictionaries are asked, and the domain,
else the workgroup, and the names of the host are found, each under its own key, exactly if the
store has no domain, what it has instead is not asked for one, and the strings that are taken are
copied as they are. -/
theorem detects_iff (H : LocalHost) (useNetbiosHostName : Bool) (store : DynamicStore) :
    Detects H useNetbiosHostName store
      ((detectAppleWinNetInfo H useNetbiosHostName (some store)).run []) ↔
        NoDirectory store ∧ NamesCopied H useNetbiosHostName store := by
  by_cases hsmb : store.HasDictionary "com.apple.smb"
  · obtain ⟨entries, hentries⟩ := DynamicStore.exists_of_hasDictionary hsmb
    by_cases had : store "com.apple.opendirectoryd.ActiveDirectory" = none ∨
        store.HasDictionary "com.apple.opendirectoryd.ActiveDirectory"
    · rw [detects_iff_of_dictionary hentries had]
      exact and_congr_left fun _ => ⟨fun hno => ⟨hno, fun _ => had⟩, fun h => h.noDomain⟩
    · obtain ⟨hpresent, htype⟩ := not_or.1 had
      obtain ⟨ad, hvalue⟩ := Option.ne_none_iff_exists'.1 hpresent
      have hnot : ad.typeID ≠ .dictionary := by
        intro h
        exact htype (DynamicStore.hasDictionary_of_typeID hvalue h)
      exact iff_of_false (not_detects_of_asked hentries hvalue hnot)
        fun h => had (h.1.notAsked hsmb)
  · -- nothing is copied
    have hstring := DynamicStore.string_of_not_hasDictionary hsmb
    have hnames : NamesCopied H useNetbiosHostName store :=
      namesCopied_of_ascii fun key name hname => by simp [hstring key] at hname
    rw [detects_iff_of_noDictionary hsmb]
    exact ⟨fun hno => ⟨⟨hno, fun h => absurd h hsmb⟩, hnames⟩, fun h => h.1.noDomain⟩

/-- The string in which every `char` is a character. -/
def ofChars (cs : List UInt8) : String := String.ofList (cs.map fun c => Char.ofNat c.toNat)

theorem ofChars_ascii (cs : List UInt8) (_ : ∀ c ∈ cs, c < 128) :
    ofChars cs = String.ofList (cs.map fun c => Char.ofNat c.toNat) := rfl

/-- A builder that takes every `char` for a character. -/
def charBuilder : StringBuilder := ⟨ofChars, ofChars_ascii⟩

/-- A host that is named `mac`. -/
def mac : LocalHost := ⟨"mac", String.toUpper, charBuilder, fun _ _ => none⟩

/-- Its store with a workgroup, and a value for the domain. -/
def officeStore (ad : PropertyList) : DynamicStore := fun name =>
  [("com.apple.smb", .dictionary [("Workgroup", "WORKGROUP"), ("ServerDescription", "A Mac")]),
    ("com.apple.opendirectoryd.ActiveDirectory", ad)].lookup name

/-- **The domain is not found, and an array is asked for it.** -/
theorem office_without_domain :
    (officeStore (.dictionary [("DomainNameFlat", "CORP")])).membership = some (.domain "CORP") ∧
      (detectAppleWinNetInfo mac false
        (some (officeStore (.dictionary [("DomainNameFlat", "CORP")])))).run [] =
          (some ⟨"mac", "A Mac", .workgroup "WORKGROUP"⟩, .replicate 3
            (.dictionary [("Workgroup", "WORKGROUP"), ("ServerDescription", "A Mac")])) ∧
      .array ∈ ((detectAppleWinNetInfo mac false (some (officeStore .array))).run []).2 ∧
      ¬ Detects mac false (officeStore (.dictionary [("DomainNameFlat", "CORP")]))
        ((detectAppleWinNetInfo mac false
          (some (officeStore (.dictionary [("DomainNameFlat", "CORP")])))).run []) ∧
      ¬ Detects mac false (officeStore .array)
        ((detectAppleWinNetInfo mac false (some (officeStore .array))).run []) := by
  have hdomain : (officeStore (.dictionary [("DomainNameFlat", "CORP")])).membership =
      some (.domain "CORP") := rfl
  have hfound : (detectAppleWinNetInfo mac false
      (some (officeStore (.dictionary [("DomainNameFlat", "CORP")])))).run [] =
        (some ⟨"mac", "A Mac", .workgroup "WORKGROUP"⟩, .replicate 3
          (.dictionary [("Workgroup", "WORKGROUP"), ("ServerDescription", "A Mac")])) := by
    show (_ : Option WinNetInfo × List PropertyList) = _
    decide +kernel
  have hasked : PropertyList.array ∈
      ((detectAppleWinNetInfo mac false (some (officeStore .array))).run []).2 := by
    decide +kernel
  refine ⟨hdomain, hfound, hasked, fun h => ?_, fun h => ?_⟩
  · have hmember := h.memberOf
    rw [hfound, hdomain] at hmember
    cases hmember
  · cases h.asked _ hasked

/-! ### The configuration -/

namespace Config

/-- What the system says, in `Config::Config` on macOS; `detectWinNetInfo` is the reader of
`smb.conf`. -/
def systemWinNetInfo (H : LocalHost) (cmdline : CommandLine) (darwinMajor : ℕ)
    (detectWinNetInfo : Option Path → Bool → Option WinNetInfo) (store : Option DynamicStore) :
    StateM (List PropertyList) (Option WinNetInfo) :=
  let useNetbiosHostName := cmdline.hostname = some ""
  if cmdline.smbConf.isSome ∨ darwinMajor < 11 then
    pure (detectWinNetInfo cmdline.smbConf useNetbiosHostName)
  else detectAppleWinNetInfo H useNetbiosHostName store

/-- The names that `Config::Config` takes from the command line and from the system. -/
def winNetInfo (H : LocalHost) (cmdline : CommandLine) (systemWinNetInfo : Option WinNetInfo) :
    WinNetInfo :=
  let useNetbiosHostName := cmdline.hostname = some ""
  let explicitHostName := cmdline.hostname.filter (· ≠ "")
  let hostDescription := (systemWinNetInfo.map WinNetInfo.hostDescription).getD ""
  { memberOf :=
      match cmdline.memberOf, systemWinNetInfo with
      | some memberOf, _ => memberOf
      | none, some info => info.memberOf
      | none, none => .workgroup "WORKGROUP"
    hostName :=
      match explicitHostName, systemWinNetInfo with
      | some hostname, _ => hostname
      | none, some info => info.hostName
      | none, none => if useNetbiosHostName then H.toUpper H.simpleHostName else H.simpleHostName
    hostDescription :=
      if hostDescription = "" then explicitHostName.getD H.simpleHostName else hostDescription }

variable {cmdline : CommandLine} {darwinMajor : ℕ}
  {detectWinNetInfo : Option Path → Bool → Option WinNetInfo}

theorem winNetInfo_memberOf (system : Option WinNetInfo) :
    (winNetInfo H cmdline system).memberOf =
      (cmdline.memberOf.or (system.map WinNetInfo.memberOf)).getD (.workgroup "WORKGROUP") := by
  cases hmember : cmdline.memberOf <;> cases system <;> simp [winNetInfo, hmember]

/-- **A member of a domain says that it is in a workgroup**: without one on the command line, the
domain in the store is never announced. -/
theorem memberOf_of_dictionary (hmember : cmdline.memberOf = none) (hconf : cmdline.smbConf = none)
    (hdarwin : 11 ≤ darwinMajor)
    (had : store "com.apple.opendirectoryd.ActiveDirectory" = none ∨
      store.HasDictionary "com.apple.opendirectoryd.ActiveDirectory") :
    (winNetInfo H cmdline ((systemWinNetInfo H cmdline darwinMajor detectWinNetInfo
      (some store)).run []).1).memberOf =
        .workgroup (((store.string "com.apple.smb" "Workgroup").map H.builder.copied).getD
          "WORKGROUP") := by
  have hdetect : systemWinNetInfo H cmdline darwinMajor detectWinNetInfo (some store) =
      detectAppleWinNetInfo H (cmdline.hostname = some "") (some store) :=
    if_neg (by simp [hconf, hdarwin])
  rw [winNetInfo_memberOf, hmember, Option.none_or, hdetect]
  by_cases hsmb : store.HasDictionary "com.apple.smb"
  · obtain ⟨entries, hentries⟩ := DynamicStore.exists_of_hasDictionary hsmb
    rw [run_of_dictionary hentries, run_detectDomain_of_dictionary had, Prod.map_fst,
      makeWinNetInfo_memberOf, DynamicStore.string_of_dictionary hentries]
    cases entries.lookup "Workgroup" <;> rfl
  · rw [run_of_noDictionary hsmb, DynamicStore.string_of_not_hasDictionary hsmb]
    rfl

end Config

end Wsddn
