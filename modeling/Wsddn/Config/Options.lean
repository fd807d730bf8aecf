import Wsddn.Config.Values

/-!
# Options that can be given in two ways

An option can be given on the command line and in the config file, and it should mean the same in
both.

* `IntegerOption.meansWhatItSays_iff` : **a number means what it says exactly if it survives the
  conversions on its way**: the two ways check different ranges and convert to different widths.
* `uuid_honoured_iff` : **a UUID is honoured exactly if it is not one**: the setter reports every
  string as invalid.
* `parse_of_uuid` : in particular no command line with a UUID is accepted.
-/

namespace Wsddn

namespace CommandLine

variable {S : Surroundings} {c : CommandLine}

/-! ### Numbers -/

/-- The options that take a number. -/
inductive IntegerOption where
  | hoplimit
  | sourcePort
  | logLevel
  deriving DecidableEq, Repr

namespace IntegerOption

/-- The option on the command line. -/
def given : IntegerOption → String → Given
  | .hoplimit, val => .hoplimit val
  | .sourcePort, val => .sourcePort val
  | .logLevel, val => .logLevel val

/-- The key in the config file. -/
def keyName : IntegerOption → String
  | .hoplimit => "hoplimit"
  | .sourcePort => "source-port"
  | .logLevel => "log-level"

/-- The number that is stored for the option. -/
def stored : IntegerOption → CommandLine → Option Int
  | .hoplimit, c => c.hoplimit
  | .sourcePort, c => c.sourcePort.map Int.ofNat
  | .logLevel, c => c.logLevel.map Int.ofNat

/-- The number that should be stored for `n`, if `n` can be used. -/
def wanted : IntegerOption → Int → Option Int
  | .hoplimit, n => if 1 ≤ n then some n else none
  | .sourcePort, n => if 0 ≤ n ∧ n ≤ 65535 then some n else none
  | .logLevel, n => if 0 ≤ n then some (maxLogLevel - min n maxLogLevel) else none

/-- A number is rejected, or it can be used and is stored. -/
def Exact (opt : IntegerOption) (n : Int) (r : Setting) : Prop :=
  r.2 = none → (opt.wanted n).isSome = true ∧ opt.stored r.1 = opt.wanted n

variable (S) in
/-- A number means what was written, on the command line (in any text for it) and in the config
file, and it is the same in both. -/
structure MeansWhatItSays (opt : IntegerOption) (n : Int) (c : CommandLine) : Prop where
  commandLine : ∀ val (m : ℕ), S.parseIntegral val = some m → (m : Int) = n →
    opt.Exact n (handle S (opt.given val) c)
  file : opt.Exact n (parseConfigKey S opt.keyName (.integer n) c)
  same : ∀ val (m : ℕ), S.parseIntegral val = some m → (m : Int) = n →
    ((handle S (opt.given val) c).2 = none ↔
      (parseConfigKey S opt.keyName (.integer n) c).2 = none) ∧
    ((handle S (opt.given val) c).2 = none → opt.stored (handle S (opt.given val) c).1 =
      opt.stored (parseConfigKey S opt.keyName (.integer n) c).1)

/-- The numbers that survive the conversions. -/
def Survives : IntegerOption → Int → Prop
  | .hoplimit, n => n < 0 ∨ 1 ≤ n ∧ n < 2 ^ 16
  | .sourcePort, n => n < 2 ^ 16 ∨ 2 ^ 32 ≤ n
  | .logLevel, n => n < 2 ^ 32 ∨ maxLogLevel ≤ n % 2 ^ 32

/-- What the command line stores for a number. -/
def commandLineValue : IntegerOption → ℕ → Int
  | .hoplimit, m => if m < 2 ^ 31 then m else m - 2 ^ 32
  | .sourcePort, m => (m % 2 ^ 16 : ℕ)
  | .logLevel, m => (maxLogLevel - min m maxLogLevel : ℕ)

/-- What the config file stores for a number, if it is accepted. -/
def fileValue : IntegerOption → Int → Option Int
  | .hoplimit, n => if n < 1 then none else some (n % 2 ^ 16)
  | .sourcePort, n => if n < 0 ∨ 65536 ≤ n then none else some n
  | .logLevel, n =>
    if n < 0 then none
    else some (maxLogLevel - min (n.toNat % 2 ^ 32) maxLogLevel : ℕ)

/-- The command line takes every number. -/
theorem handle_given {val : String} {m : ℕ} (h : S.parseIntegral val = some m)
    (opt : IntegerOption) (c : CommandLine) :
    (handle S (opt.given val) c).2 = none ∧
      opt.stored (handle S (opt.given val) c).1 = some (opt.commandLineValue m) := by
  cases opt <;> simp [given, handle, integralValue, h, attempt, setLogLevel, stored, commandLineValue]

/-- The config file checks a range first. -/
theorem parseConfigKey_integer (opt : IntegerOption) (n : Int) (hset : opt.stored c = none) :
    ((parseConfigKey S opt.keyName (.integer n) c).2 = none ↔ (opt.fileValue n).isSome = true) ∧
      opt.stored (parseConfigKey S opt.keyName (.integer n) c).1 = opt.fileValue n := by
  cases opt with
  | hoplimit =>
    have hc : c.hoplimit = none := hset
    have hr : parseConfigKey S "hoplimit" (.integer n) c = setHoplimit n c := by
      show setConfigValue c.hoplimit.isSome "hoplimit" "an integer" Toml.asInteger (.integer n)
        setHoplimit c = _
      exact setConfigValue_of_some (by rw [hc]; rfl) rfl
    simp only [keyName, hr, setHoplimit, fileValue]
    split_ifs <;> simp [stored, hc]
  | sourcePort =>
    have hc : c.sourcePort = none := by simpa [stored] using hset
    have hr : parseConfigKey S "source-port" (.integer n) c = setSourcePort n c := by
      show setConfigValue c.sourcePort.isSome "source-port" "an integer" Toml.asInteger (.integer n)
        setSourcePort c = _
      exact setConfigValue_of_some (by rw [hc]; rfl) rfl
    simp only [keyName, hr, setSourcePort, fileValue]
    split_ifs with h
    · simp [stored, hc]
    · simp only [stored, Option.map_some, Option.isSome_some, true_and, Option.some.injEq]
      exact Int.toNat_of_nonneg (by omega)
  | logLevel =>
    have hc : c.logLevel = none := by simpa [stored] using hset
    have hr : parseConfigKey S "log-level" (.integer n) c = setLogLevelValue n c := by
      show setConfigValue c.logLevel.isSome "log-level" "an integer" Toml.asInteger (.integer n)
        setLogLevelValue c = _
      exact setConfigValue_of_some (by rw [hc]; rfl) rfl
    simp only [keyName, hr, setLogLevelValue, fileValue]
    split_ifs <;> simp [stored, hc, setLogLevel]

/-- What `parseIntegral<unsigned>` does: it reads the numbers that fit `unsigned`, and no others. -/
structure ReadsUnsigned (parseIntegral : String → Option ℕ) : Prop where
  fits : ∀ val m, parseIntegral val = some m → m < 2 ^ 32
  reads : ∀ m, m < 2 ^ 32 → ∃ val, parseIntegral val = some m

theorem meansWhatItSays_iff_values (hp : ReadsUnsigned S.parseIntegral) (opt : IntegerOption) (n : Int)
    (hset : opt.stored c = none) :
    MeansWhatItSays S opt n c ↔
      (∀ m : ℕ, m < 2 ^ 32 → (m : Int) = n →
        opt.wanted n = some (opt.commandLineValue m) ∧
          opt.fileValue n = some (opt.commandLineValue m)) ∧
      ∀ v, opt.fileValue n = some v → opt.wanted n = some v := by
  obtain ⟨hraised, hstored⟩ := parseConfigKey_integer (S := S) opt n hset
  constructor
  · intro h
    refine ⟨fun m hm hmn => ?_, fun v hv => ?_⟩
    · obtain ⟨val, hval⟩ := hp.reads m hm
      obtain ⟨hnone, hvalue⟩ := handle_given hval opt c
      have hwanted := (h.commandLine val m hval hmn hnone).2
      have hsame := (h.same val m hval hmn).2 hnone
      rw [hvalue] at hwanted hsame
      exact ⟨hwanted.symm, (hsame.trans hstored).symm⟩
    · have hnone := hraised.2 (by rw [hv]; rfl)
      have hwanted := (h.file hnone).2
      rw [hstored, hv] at hwanted
      exact hwanted.symm
  · rintro ⟨hboth, hfile⟩
    refine ⟨fun val m hval hmn _ => ?_, fun hnone => ?_, fun val m hval hmn => ?_⟩
    · obtain ⟨hwanted, -⟩ := hboth m (hp.fits val m hval) hmn
      exact ⟨by rw [hwanted]; rfl, (handle_given hval opt c).2.trans hwanted.symm⟩
    · obtain ⟨v, hv⟩ := Option.isSome_iff_exists.1 (hraised.1 hnone)
      rw [hstored, hv, hfile v hv]
      exact ⟨rfl, rfl⟩
    · obtain ⟨-, hv⟩ := hboth m (hp.fits val m hval) hmn
      obtain ⟨hnone, hvalue⟩ := handle_given hval opt c
      exact ⟨iff_of_true hnone (hraised.2 (by rw [hv]; rfl)), fun _ => by rw [hvalue, hstored, hv]⟩

/-- **When a number means what it says.** -/
theorem meansWhatItSays_iff (hp : ReadsUnsigned S.parseIntegral) (opt : IntegerOption) (n : Int)
    (hset : opt.stored c = none) : MeansWhatItSays S opt n c ↔ opt.Survives n := by
  rw [meansWhatItSays_iff_values hp opt n hset]
  by_cases hn : 0 ≤ n ∧ n < 2 ^ 32
  · -- there is one number for the command line
    obtain ⟨m, rfl⟩ := Int.eq_ofNat_of_zero_le hn.1
    have hm : m < 2 ^ 32 := by omega
    have hone : (∀ m' : ℕ, m' < 2 ^ 32 → (m' : Int) = m →
        opt.wanted m = some (opt.commandLineValue m') ∧
          opt.fileValue m = some (opt.commandLineValue m')) ↔
        opt.wanted m = some (opt.commandLineValue m) ∧
          opt.fileValue m = some (opt.commandLineValue m) := by
      refine ⟨fun h => h m hm rfl, fun h m' _ he => ?_⟩
      obtain rfl : m' = m := by omega
      exact h
    rw [hone]
    cases opt with
    | hoplimit =>
      simp only [wanted, fileValue, commandLineValue, Survives]
      split_ifs <;> simp <;> omega
    | sourcePort =>
      simp only [wanted, fileValue, commandLineValue, Survives]
      split_ifs <;> simp <;> omega
    | logLevel =>
      simp only [wanted, fileValue, commandLineValue, Survives, maxLogLevel]
      split_ifs <;> simp <;> omega
  · have hno : ∀ m : ℕ, m < 2 ^ 32 → (m : Int) = n → False := by
      intro m hm he
      omega
    rw [and_iff_right fun m hm he => (hno m hm he).elim]
    cases opt with
    | hoplimit =>
      simp only [wanted, fileValue, Survives]
      split_ifs <;> simp <;> omega
    | sourcePort =>
      simp only [wanted, fileValue, Survives]
      split_ifs <;> simp <;> omega
    | logLevel =>
      simp only [wanted, fileValue, Survives, maxLogLevel]
      split_ifs <;> simp <;> omega

theorem readsUnsigned_parseUnsigned : ReadsUnsigned parseUnsigned where
  fits val m h := by
    simp only [parseUnsigned] at h
    split_ifs at h with hok
    obtain rfl := Option.some.inj h
    exact hok.2.2
  reads m hm := by
    have hdigits : (Nat.toDigits 10 m).all Char.isDigit = true :=
      List.all_eq_true.2 fun ch hch => Nat.isDigit_of_mem_toDigits (by decide) (by decide) hch
    have hvalue : Nat.ofDigitChars 10 (Nat.toDigits 10 m) 0 = m :=
      Nat.ofDigitChars_toDigits (by decide) (by decide)
    have hne : String.ofList (Nat.toDigits 10 m) ≠ "" := by
      simp [Nat.toDigits_ne_nil]
    refine ⟨String.ofList (Nat.toDigits 10 m), ?_⟩
    simp only [parseUnsigned, String.toList_ofList, hdigits, hvalue]
    rw [if_pos ⟨hne, trivial, hm⟩]

theorem meansWhatItSays_hoplimit_five :
    ReadsUnsigned smallSystem.parseIntegral ∧ MeansWhatItSays smallSystem .hoplimit 5 {} :=
  ⟨readsUnsigned_parseUnsigned,
    (meansWhatItSays_iff readsUnsigned_parseUnsigned .hoplimit 5 rfl).2 (.inr ⟨by decide, by decide⟩)⟩

/-- **A number that does not mean what it says**: the config file takes this hop limit for 1. -/
theorem hoplimit_truncated :
    parseConfigKey smallSystem "hoplimit" (.integer 65537) {} = ({ hoplimit := some 1 }, none) ∧
      ¬ MeansWhatItSays smallSystem .hoplimit 65537 {} := by
  have h : parseConfigKey smallSystem "hoplimit" (.integer 65537) {} =
      ({ hoplimit := some 1 }, none) := rfl
  refine ⟨h, fun hm => ?_⟩
  have hexact := (hm.file (by rw [IntegerOption.keyName, h])).2
  rw [IntegerOption.keyName, h] at hexact
  exact absurd hexact (by decide)

end IntegerOption

/-! ### The UUID -/

/-- The identifiers of a `Config`. -/
structure Identifiers where
  httpPath : String
  endpointIdentifier : String
  deriving DecidableEq, Repr

/-- `to_urn`. -/
def toUrn (toChars : Uuid → String) (uuid : Uuid) : String := "urn:uuid:" ++ toChars uuid

/-- The identifiers that `Config` makes of the settings; `toChars` is the lower-case text of a UUID
and `generated` the UUID that is made of the host name. -/
def identifiers (toChars : Uuid → String) (generated : Uuid) (c : CommandLine) : Identifiers :=
  let uuid := c.uuid.getD generated
  { httpPath := toChars uuid, endpointIdentifier := toUrn toChars uuid }

/-- The two ways to give an option. -/
inductive Way where
  | commandLine
  | configFile
  deriving DecidableEq, Repr

variable (S) in
/-- Give a UUID. -/
def Way.giveUuid : Way → String → CommandLine → Setting
  | .commandLine, val, c => handle S (.uuid val) c
  | .configFile, val, c => parseConfigKey S "uuid" (.string val) c

variable (S) in
/-- A UUID is accepted and makes the identifiers, and anything else is reported and does not set
the UUID. -/
def UuidHonoured (toChars : Uuid → String) (generated : Uuid) (way : Way) (val : String)
    (c : CommandLine) : Prop :=
  (∀ uuid, S.uuidFromChars val = some uuid →
    (way.giveUuid S val c).2 = none ∧
      identifiers toChars generated (way.giveUuid S val c).1 =
        ⟨toChars uuid, "urn:uuid:" ++ toChars uuid⟩) ∧
  (S.uuidFromChars val = none →
    (way.giveUuid S val c).2 ≠ none ∧ (way.giveUuid S val c).1.uuid = none)

theorem Way.giveUuid_eq (hset : c.uuid = none) (way : Way) (val : String) :
    way.giveUuid S val c = setUuid S val c := by
  cases way with
  | commandLine => rfl
  | configFile =>
    show setConfigValue c.uuid.isSome "uuid" "a string" Toml.asString (.string val) (setUuid S) c = _
    exact setConfigValue_of_some (by rw [hset]; rfl) rfl

/-- The setter reports every string. -/
theorem setUuid_raises (val : String) (c : CommandLine) :
    (setUuid S val c).2 = some (.validation "invalid uuid") := by
  unfold setUuid
  split <;> rfl

/-- **A UUID that is given is never accepted**: only strings that are not a UUID are treated as
they should be. -/
theorem uuid_honoured_iff (toChars : Uuid → String) (generated : Uuid) (way : Way) (val : String)
    (hset : c.uuid = none) :
    UuidHonoured S toChars generated way val c ↔ S.uuidFromChars val = none := by
  unfold UuidHonoured
  rw [way.giveUuid_eq hset]
  cases hval : S.uuidFromChars val with
  | none =>
    refine iff_of_true ⟨by simp, fun _ => ⟨?_, ?_⟩⟩ rfl
    · simp [setUuid_raises]
    · simp [setUuid, hval, hset]
  | some uuid =>
    refine iff_of_false (fun h => ?_) (by simp)
    have hnone := (h.1 uuid rfl).1
    rw [setUuid_raises] at hnone
    cases hnone

theorem not_a_uuid_honoured :
    ({} : CommandLine).uuid = none ∧
      UuidHonoured smallSystem (fun _ => "00000000-0000-0000-0000-000000000001") 0 .configFile
        "nonsense" {} :=
  ⟨rfl, (uuid_honoured_iff _ 0 .configFile "nonsense" rfl).2 (by decide)⟩

/-- **What happens to a UUID**: the config file stores it and reports it as invalid. -/
theorem uuid_reported_invalid :
    parseConfigKey smallSystem "uuid" (.string "00000000-0000-0000-0000-000000000001") {} =
        ({ uuid := some 1 }, some (.validation "invalid uuid")) ∧
      ¬ UuidHonoured smallSystem (fun _ => "00000000-0000-0000-0000-000000000001") 0 .configFile
        "00000000-0000-0000-0000-000000000001" {} := by
  have h : parseConfigKey smallSystem "uuid" (.string "00000000-0000-0000-0000-000000000001") {} =
      ({ uuid := some 1 }, some (.validation "invalid uuid")) := rfl
  refine ⟨h, fun hon => ?_⟩
  have hnone := (hon.1 1 (by decide)).1
  rw [Way.giveUuid, h] at hnone
  cases hnone

/-- **No command line with a UUID is accepted.** -/
theorem parse_of_uuid {opts : List Given} {val : String} (h : .uuid val ∈ opts) :
    parse S opts = none := by
  have hall : ∀ {opts : List Given} {c : CommandLine}, .uuid val ∈ opts →
      handleAll S opts c = none := by
    intro opts
    induction opts with
    | nil => exact fun h => nomatch h
    | cons opt opts ih =>
      intro c h
      unfold handleAll
      rcases hr : handle S opt c with ⟨d, _ | e⟩
      · obtain rfl | h := List.mem_cons.1 h
        · have hraises := setUuid_raises (S := S) val c
          rw [show setUuid S val c = (d, none) from hr] at hraises
          cases hraises
        · exact ih h
      · rfl
  unfold parse
  split_ifs
  · exact hall h
  · rfl

end CommandLine

end Wsddn
