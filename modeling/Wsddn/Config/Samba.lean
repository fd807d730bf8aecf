import Wsddn.Config.SmbConf
import Wsddn.Config.WinNetInfo
import Wsddn.Text.LineReader
import Wsddn.Text.Replace

/-!
# The names of the host from Samba (`config_samba.cpp`)

The name of the host in Windows networks, its description and its workgroup or domain are taken from
`smb.conf`.  Where this file is says `samba --show-build`; if it cannot be run, the file of `ksmbd`
is used.  If there is no file to read, `testparm` is asked for one parameter after the other.  Both
commands write to a pipe, which is read line by line.

* `shell_eq` : what a command tells, however its output was cut.
* `Source` : where the parameters come from, in terms of the bytes of the files and of those that
  the commands write.
* `names` : **the names that are detected** are those of `Names` for the parameters of `Source`.
* `names_announced` : no name is empty, and no mark of Samba is left in the description.
-/

namespace Wsddn

namespace Samba

open SysString SmbConf

/-- How a process ended. -/
inductive WaitStatus where
  | exited (code : ℕ)
  | signaled (sig : ℕ)
  | other (status : ℕ)
  deriving DecidableEq, Repr

/-- The size of the buffer for the output of a command. -/
def bufferSize : ℕ := 1024

/-- The reads of the output of a command, before the one that gives nothing. -/
structure Output where
  reads : List (List UInt8)
  cut : LineReader.Cut bufferSize {} reads

/-- A command that is run: its output, `none` if it cannot be spawned or its output cannot be read,
and how it ends. -/
structure Command where
  output : Option Output
  status : WaitStatus

/-- What the system has of Samba. -/
structure System where
  /-- `samba --show-build` -/
  showBuild : Command
  /-- `testparm -sl --parameter-name=..` -/
  testparm : SysString → Command
  fileExists : SysString → Bool
  /-- The content of a file, `none` if it cannot be opened. -/
  file : SysString → Option (List UInt8)
  memoryMap : List UInt8 → Option (List UInt8)
  mapped : ∀ file bytes, memoryMap file = some bytes → bytes = file
  /-- The characters of a `sys_string`. -/
  text : SysString → String

/-- The lines that `shell` gives to the sink; `none` if it raises. -/
def shell (command : Command) : Option (List LineReader.Line) := do
  let output ← command.output
  let lines ← (LineReader.run bufferSize {} (output.reads ++ [[]])).1
  if command.status = .exited 0 then some lines else none

/-- The line begins with the text and goes on behind it. -/
def startsWithAndHasMore (buf str : SysString) : Bool :=
  if buf.length < str.length + 1 then false
  else if buf.take str.length ≠ str then false
  else true

/-- What stands before the name of the file in the output of `samba`. -/
def configFile : SysString := ofLiteral "   CONFIGFILE: "

section Source

variable (samba : System)

/-- The name of the file that `samba --show-build` gives, empty if no line has it. -/
def findSmbConfViaSamba : Option SysString :=
  (shell samba.showBuild).map fun lines =>
    lines.foldl (fun conf line =>
      if startsWithAndHasMore line configFile then line.drop configFile.length else conf) []

/-- The places where the file of `ksmbd` can be. -/
def ksmbConfPaths : List SysString :=
  [ofLiteral "/etc/ksmbd/ksmbd.conf", ofLiteral "/usr/local/etc/ksmbd/ksmbd.conf"]

/-- The first of the places where there is a file. -/
def findKsmbConf : Option SysString := ksmbConfPaths.find? samba.fileExists

/-- Only on Linux is there a `ksmbd`. -/
def findSmbConf (linux : Bool) : Option SysString :=
  match findSmbConfViaSamba samba with
  | some res => some res
  | none => if linux then findKsmbConf samba else none

/-- The last line that `testparm` writes for a parameter, if it writes one. -/
def runTestParm (name : SysString) : Option (Option SysString) :=
  (shell (samba.testparm name)).map fun lines => lines.foldl (fun _ line => some line) none

/-- The four parameters, each by a `testparm` of its own. -/
def paramsFromTestParm : Option SambaParams := do
  let workgroup ← runTestParm samba (ofLiteral "workgroup")
  let security ← runTestParm samba (ofLiteral "security")
  let hostName ← runTestParm samba (ofLiteral "netbios name")
  let hostDescription ← runTestParm samba (ofLiteral "server string")
  return { workgroup, security, hostName, hostDescription }

/-- `sys_string::replace` -/
def replace (str old new : String) : String :=
  String.ofList (Replace.replaceAll old.toList new.toList str.toList)

/-- The answers for the parameters that are missing or empty are made up from the local host. -/
def sambaParamsToWinNetInfo (H : LocalHost) (params : SambaParams) (useNetbiosHostName : Bool) :
    WinNetInfo :=
  let given : Param → Option String := fun p => (params.get p).map samba.text
  let isDomain := given .security = some "domain" ∨ given .security = some "ads"
  { memberOf :=
      match (given .workgroup).filter (· ≠ "") with
      | some workgroup => if isDomain then .domain workgroup else .workgroup workgroup
      | none => .workgroup "WORKGROUP"
    hostName :=
      if useNetbiosHostName then
        match (given .hostName).filter (· ≠ "") with
        | some hostName => hostName
        | none => H.toUpper H.simpleHostName
      else H.simpleHostName
    hostDescription :=
      match (given .hostDescription).filter (· ≠ "") with
      | some desc =>
        let desc := replace desc "%h" H.simpleHostName
        if '%' ∉ desc.toList then desc else H.simpleHostName
      | none => H.simpleHostName }

/-- **`Config::detectWinNetInfo`** -/
def detectWinNetInfo (H : LocalHost) (linux : Bool) (smbConf : Option SysString)
    (useNetbiosHostName : Bool) : Option WinNetInfo :=
  let smbConf := match smbConf with
    | some smbConf => some smbConf
    | none => findSmbConf samba linux
  let params := smbConf.bind fun smbConf =>
    paramsFromSmbConf samba.memoryMap (samba.file smbConf)
  let params := match params with
    | some params => some params
    | none => paramsFromTestParm samba
  params.map fun params => sambaParamsToWinNetInfo samba H params useNetbiosHostName

end Source

/-! ### What a command tells -/

/-- The lines of a stream that are shorter than the buffer, and the last one if it has no end. -/
def linesThatFit (stream : List UInt8) : List LineReader.Line :=
  (LineReader.linesOf stream).filter (·.length < bufferSize) ++
    if LineReader.lastOf stream ≠ [] ∧ (LineReader.lastOf stream).length < bufferSize then
      [LineReader.lastOf stream]
    else []

/-- The bytes that a command writes, if it can be run and is successful. -/
def Command.stream (command : Command) : Option (List UInt8) :=
  if command.status = .exited 0 then command.output.map fun output => output.reads.flatten else none

/-- **What a command tells** depends on the bytes that it writes, not on how they arrive. -/
theorem shell_eq (command : Command) : shell command = command.stream.map linesThatFit := by
  unfold shell Command.stream
  rcases command.output with _ | output
  · simp
  · have h := LineReader.stateAfter_readsUpTo output.cut
      (LineReader.readsUpTo_nil (by decide : 0 < bufferSize))
    have hempty : ([] : List UInt8).length ≤ LineReader.addition bufferSize
        (LineReader.stateAfter bufferSize {} output.reads) := Nat.zero_le _
    have hlast := LineReader.iteration_readsUpTo h hempty
    rw [List.nil_append, List.append_nil] at hlast
    have hrun : (LineReader.run bufferSize {} (output.reads ++ [[]])).1 =
        some (linesThatFit output.reads.flatten) := by
      rw [LineReader.run_append_nil output.cut, hlast.finish_eq]
      rfl
    simp only [Option.bind_eq_bind, Option.bind_some, hrun]
    split_ifs <;> rfl

/-! ### Where the parameters come from -/

section Source

variable {samba : System} {linux : Bool} {smbConf : Option SysString} {path : SysString}
  {params : SambaParams}

/-- The name of the file in a line of `samba --show-build`. -/
def fileNamed (line : SysString) : Option SysString :=
  if startsWithAndHasMore line configFile then some (line.drop configFile.length) else none

/-- A variable that is set in a loop has the last value. -/
theorem foldl_last {α β : Type*} (f : α → Option β) (init : β) (lines : List α) :
    lines.foldl (fun last line => (f line).getD last) init =
      (lines.filterMap f).getLast?.getD init := by
  induction lines using List.reverseRecOn with
  | nil => rfl
  | append_singleton lines line ih =>
    rw [List.foldl_append, List.filterMap_append, ih]
    cases h : f line <;> simp [h]

theorem findSmbConfViaSamba_eq : findSmbConfViaSamba samba = samba.showBuild.stream.map
    fun stream => ((linesThatFit stream).filterMap fileNamed).getLast?.getD [] := by
  have hstep : (fun conf (line : SysString) => if startsWithAndHasMore line configFile then
      line.drop configFile.length else conf) = fun conf line => (fileNamed line).getD conf := by
    funext conf line
    unfold fileNamed
    split_ifs <;> rfl
  rw [findSmbConfViaSamba, shell_eq, Option.map_map, hstep]
  exact congrArg (samba.showBuild.stream.map ·) (funext fun stream => foldl_last _ _ _)

theorem runTestParm_eq (name : SysString) : runTestParm samba name =
    (samba.testparm name).stream.map fun stream => (linesThatFit stream).getLast? := by
  rw [runTestParm, shell_eq, Option.map_map]
  refine congrArg ((samba.testparm name).stream.map ·) (funext fun stream => ?_)
  refine (foldl_last (fun line => some (some line)) none (linesThatFit stream)).trans ?_
  rw [List.filterMap_eq_map', List.getLast?_map]
  cases (linesThatFit stream).getLast? <;> rfl

/-- **Where the parameters are looked for**: in the file that was given, else in the one that
`samba` names last, else in the first one of `ksmbd` that there is. -/
inductive Locates (samba : System) (linux : Bool) : Option SysString → SysString → Prop
  | given (path : SysString) : Locates samba linux (some path) path
  | showBuild {stream : List UInt8} (h : samba.showBuild.stream = some stream) :
      Locates samba linux none (((linesThatFit stream).filterMap fileNamed).getLast?.getD [])
  | ksmbd {path : SysString} (h : samba.showBuild.stream = none) (hlinux : linux = true)
      (hpath : ksmbConfPaths.find? samba.fileExists = some path) : Locates samba linux none path

/-- `testparm` tells the parameters, one in its last line each time. -/
def Tells (samba : System) (params : SambaParams) : Prop :=
  ∀ p : Param, ∃ stream, (samba.testparm p.key).stream = some stream ∧
    params.get p = (linesThatFit stream).getLast?

/-- **Where the parameters come from.** -/
inductive Source (samba : System) (linux : Bool) (smbConf : Option SysString) : SambaParams → Prop
  | file {path : SysString} {content : List UInt8} (hpath : Locates samba linux smbConf path)
      (hfile : samba.file path = some content) (hmap : (samba.memoryMap content).isSome) :
      Source samba linux smbConf (specParams (endedLines content))
  | testparm {params : SambaParams}
      (hfile : ∀ path content, Locates samba linux smbConf path →
        samba.file path = some content → samba.memoryMap content = none)
      (htells : Tells samba params) : Source samba linux smbConf params

theorem locates_iff : (match smbConf with
    | some smbConf => some smbConf
    | none => findSmbConf samba linux) = some path ↔ Locates samba linux smbConf path := by
  constructor
  · intro h
    cases smbConf with
    | some given =>
      obtain rfl := Option.some.inj h
      exact .given _
    | none =>
      simp only [findSmbConf, findSmbConfViaSamba_eq] at h
      cases hstream : samba.showBuild.stream with
      | some stream =>
        rw [hstream] at h
        obtain rfl := Option.some.inj h
        exact .showBuild hstream
      | none =>
        rw [hstream] at h
        obtain ⟨hlinux, hfind⟩ := Option.ite_none_right_eq_some.1 h
        exact .ksmbd hstream hlinux hfind
  · intro h
    cases h with
    | given => rfl
    | showBuild h => simp only [findSmbConf, findSmbConfViaSamba_eq, h, Option.map_some]
    | ksmbd h hlinux hpath =>
      simp only [findSmbConf, findSmbConfViaSamba_eq, h, Option.map_none, hlinux, if_true]
      exact hpath

theorem paramsFromTestParm_iff : paramsFromTestParm samba = some params ↔ Tells samba params := by
  simp only [paramsFromTestParm, runTestParm_eq, Option.bind_eq_bind, Option.bind_eq_some_iff,
    Option.map_eq_some_iff, Option.pure_def, Option.some_inj]
  constructor
  · rintro ⟨_, ⟨s₁, h₁, rfl⟩, _, ⟨s₂, h₂, rfl⟩, _, ⟨s₃, h₃, rfl⟩, _, ⟨s₄, h₄, rfl⟩, rfl⟩ p
    cases p with
    | workgroup => exact ⟨s₁, h₁, rfl⟩
    | security => exact ⟨s₂, h₂, rfl⟩
    | hostName => exact ⟨s₃, h₃, rfl⟩
    | hostDescription => exact ⟨s₄, h₄, rfl⟩
  · intro h
    obtain ⟨s₁, h₁, hw⟩ := h .workgroup
    obtain ⟨s₂, h₂, hs⟩ := h .security
    obtain ⟨s₃, h₃, hn⟩ := h .hostName
    obtain ⟨s₄, h₄, hd⟩ := h .hostDescription
    exact ⟨_, ⟨s₁, h₁, hw.symm⟩, _, ⟨s₂, h₂, hs.symm⟩, _, ⟨s₃, h₃, hn.symm⟩, _,
      ⟨s₄, h₄, hd.symm⟩, rfl⟩

/-- The parameters of the file that is found. -/
theorem paramsFromSmbConf_iff {file : Option (List UInt8)} :
    paramsFromSmbConf samba.memoryMap file = some params ↔
      ∃ content, file = some content ∧ (samba.memoryMap content).isSome ∧
        params = specParams (endedLines content) := by
  simp only [paramsFromSmbConf, Option.bind_eq_bind, Option.bind_eq_some_iff, Option.pure_def,
    Option.some_inj]
  constructor
  · rintro ⟨content, hfile, bytes, hmap, rfl⟩
    obtain rfl := samba.mapped _ _ hmap
    exact ⟨bytes, hfile, Option.isSome_of_eq_some hmap, scan_eq⟩
  · rintro ⟨content, hfile, hmap, rfl⟩
    obtain ⟨bytes, hbytes⟩ := Option.isSome_iff_exists.1 hmap
    obtain rfl := samba.mapped _ _ hbytes
    exact ⟨bytes, hfile, bytes, hbytes, scan_eq⟩

end Source

/-! ### The names -/

/-- The value of a parameter; it is empty if there is none. -/
def value (samba : System) (params : SambaParams) (p : Param) : String :=
  ((params.get p).map samba.text).getD ""

/-- In a description in which every `%` begins the mark `%h`, the marks are replaced by the name of
the host, in which there is no `%` if there is a mark. -/
def Expands (desc host result : String) : Prop :=
  ∃ tokens, some '%' ∉ tokens ∧ desc.toList = Replace.encode '%' 'h' tokens ∧
    (none ∈ tokens → '%' ∉ host.toList) ∧ result.toList = Replace.expand host.toList tokens

/-- **What the names are.** -/
structure Names (samba : System) (H : LocalHost) (params : SambaParams) (useNetbiosHostName : Bool)
    (info : WinNetInfo) : Prop where
  memberOf : info.memberOf =
    if value samba params .workgroup = "" then .workgroup "WORKGROUP"
    else if value samba params .security ∈ ["domain", "ads"] then
      .domain (value samba params .workgroup)
    else .workgroup (value samba params .workgroup)
  hostName : info.hostName =
    if useNetbiosHostName = false then H.simpleHostName
    else if value samba params .hostName = "" then H.toUpper H.simpleHostName
    else value samba params .hostName
  expanded : ∀ result, value samba params .hostDescription ≠ "" →
    Expands (value samba params .hostDescription) H.simpleHostName result →
      info.hostDescription = result
  plain : (value samba params .hostDescription ≠ "" → ∀ result,
    ¬ Expands (value samba params .hostDescription) H.simpleHostName result) →
      info.hostDescription = H.simpleHostName

section Names

variable {samba : System} {linux : Bool} {smbConf : Option SysString} {H : LocalHost}
  {params : SambaParams} {useNetbiosHostName : Bool} {info : WinNetInfo}

theorem filter_value (p : Param) : ((params.get p).map samba.text).filter (· ≠ "") =
    if value samba params p = "" then none else some (value samba params p) := by
  unfold value
  cases (params.get p).map samba.text <;> simp [Option.filter]

theorem expands_iff {desc host result : String} : Expands desc host result ↔
    '%' ∉ (replace desc "%h" host).toList ∧ result = replace desc "%h" host := by
  have hmark : "%h".toList = ['%', 'h'] := rfl
  rw [replace, String.toList_ofList, hmark, Replace.not_mem_replaceAll_iff]
  constructor
  · rintro ⟨tokens, htokens, hdesc, hhost, hresult⟩
    refine ⟨⟨tokens, htokens, hdesc, hhost⟩, ?_⟩
    rw [hdesc, Replace.replaceAll_encode htokens, ← hresult, String.ofList_toList]
  · rintro ⟨⟨tokens, htokens, hdesc, hhost⟩, rfl⟩
    refine ⟨tokens, htokens, hdesc, hhost, ?_⟩
    rw [String.toList_ofList, hdesc, Replace.replaceAll_encode htokens]

/-- A description that cannot be expanded is not used. -/
theorem names_sambaParamsToWinNetInfo : Names samba H params useNetbiosHostName
    (sambaParamsToWinNetInfo samba H params useNetbiosHostName) := by
  have hdomain : ((params.get .security).map samba.text = some "domain" ∨
      (params.get .security).map samba.text = some "ads") ↔
        value samba params .security ∈ ["domain", "ads"] := by
    unfold value
    cases (params.get .security).map samba.text <;> simp
  refine ⟨?_, ?_, fun result hdesc hexpands => ?_, fun hplain => ?_⟩
  · simp only [sambaParamsToWinNetInfo, filter_value, hdomain]
    split_ifs <;> rfl
  · simp only [sambaParamsToWinNetInfo, filter_value]
    cases useNetbiosHostName <;> split_ifs <;> simp_all
  · obtain ⟨hleft, rfl⟩ := expands_iff.1 hexpands
    simp only [sambaParamsToWinNetInfo, filter_value, if_neg hdesc, if_pos hleft]
  · simp only [sambaParamsToWinNetInfo, filter_value]
    by_cases hdesc : value samba params .hostDescription = ""
    · rw [if_pos hdesc]
    · have hleft := fun h => hplain hdesc _ (expands_iff.2 ⟨h, rfl⟩)
      simp only [if_neg hdesc, if_neg hleft]

/-- The names are determined. -/
theorem Names.eq {info' : WinNetInfo} (h : Names samba H params useNetbiosHostName info)
    (h' : Names samba H params useNetbiosHostName info') : info = info' := by
  have hdesc : info.hostDescription = info'.hostDescription := by
    by_cases hexpands : value samba params .hostDescription ≠ "" ∧
        ∃ result, Expands (value samba params .hostDescription) H.simpleHostName result
    · obtain ⟨hne, result, hresult⟩ := hexpands
      rw [h.expanded result hne hresult, h'.expanded result hne hresult]
    · have hplain := fun hne result hresult => hexpands ⟨hne, result, hresult⟩
      rw [h.plain hplain, h'.plain hplain]
  cases info
  cases info'
  simp only [WinNetInfo.mk.injEq]
  exact ⟨h.hostName.trans h'.hostName.symm, hdesc, h.memberOf.trans h'.memberOf.symm⟩

/-- If `testparm` is asked, there is no file to read. -/
theorem detectWinNetInfo_iff :
    detectWinNetInfo samba H linux smbConf useNetbiosHostName = some info ↔
      ∃ params, Source samba linux smbConf params ∧
        info = sambaParamsToWinNetInfo samba H params useNetbiosHostName := by
  unfold detectWinNetInfo
  set smbConf' : Option SysString := match smbConf with
    | some smbConf => some smbConf
    | none => findSmbConf samba linux with hsmbConf
  have hlocates : ∀ path, smbConf' = some path ↔ Locates samba linux smbConf path :=
    fun path => hsmbConf ▸ locates_iff
  simp only [Option.map_eq_some_iff, eq_comm (a := info)]
  refine exists_congr fun params => and_congr_left fun _ => ?_
  cases hfile : smbConf'.bind fun path => paramsFromSmbConf samba.memoryMap (samba.file path) with
  | some found =>
    obtain ⟨path, hpath, hfound⟩ := Option.bind_eq_some_iff.1 hfile
    obtain ⟨content, hcontent, hmap, rfl⟩ := paramsFromSmbConf_iff.1 hfound
    rw [Option.some_inj]
    constructor
    · rintro rfl
      exact .file ((hlocates path).1 hpath) hcontent hmap
    · intro h
      cases h with
      | file hpath' hcontent' =>
        obtain rfl := Option.some.inj (hpath.symm.trans ((hlocates _).2 hpath'))
        obtain rfl := Option.some.inj (hcontent.symm.trans hcontent')
        rfl
      | testparm hno =>
        rw [hno path content ((hlocates path).1 hpath) hcontent] at hmap
        cases hmap
  | none =>
    rw [paramsFromTestParm_iff]
    have hno : ∀ path content, Locates samba linux smbConf path → samba.file path = some content →
        samba.memoryMap content = none := by
      intro path content hpath hcontent
      have hparams := Option.bind_eq_none_iff.1 hfile path ((hlocates path).2 hpath)
      by_contra hmap
      rw [paramsFromSmbConf_iff.2 ⟨content, hcontent, Option.isSome_iff_ne_none.2 hmap, rfl⟩]
        at hparams
      cases hparams
    constructor
    · exact fun htells => .testparm hno htells
    · intro h
      cases h with
      | file hpath hcontent hmap =>
        rw [hno _ _ hpath hcontent] at hmap
        cases hmap
      | testparm _ htells => exact htells

/-- **The names are taken from Samba** as it is set up, from the bytes of its file or from those
that its commands write, however these arrive. -/
theorem names (samba : System) (linux : Bool) (smbConf : Option SysString) (H : LocalHost)
    (useNetbiosHostName : Bool) (info : WinNetInfo) :
    detectWinNetInfo samba H linux smbConf useNetbiosHostName = some info ↔
      ∃ params, Source samba linux smbConf params ∧
        Names samba H params useNetbiosHostName info := by
  rw [detectWinNetInfo_iff]
  refine exists_congr fun params => and_congr_right fun _ => ?_
  constructor
  · rintro rfl
    exact names_sambaParamsToWinNetInfo
  · exact fun h => h.eq names_sambaParamsToWinNetInfo

/-! ### What is announced -/

theorem Names.hostDescription_or (h : Names samba H params useNetbiosHostName info) :
    info.hostDescription = H.simpleHostName ∨ '%' ∉ info.hostDescription.toList := by
  by_cases hexpands : value samba params .hostDescription ≠ "" ∧
      ∃ result, Expands (value samba params .hostDescription) H.simpleHostName result
  · obtain ⟨hne, result, hresult⟩ := hexpands
    obtain ⟨hleft, rfl⟩ := expands_iff.1 hresult
    rw [h.expanded _ hne hresult]
    exact .inr hleft
  · exact .inl (h.plain fun hne result hresult => hexpands ⟨hne, result, hresult⟩)

theorem Names.hostName_ne (h : Names samba H params useNetbiosHostName info)
    (hhost : H.simpleHostName ≠ "") (hupper : H.toUpper H.simpleHostName ≠ "") :
    info.hostName ≠ "" := by
  rw [h.hostName]
  split_ifs <;> assumption

/-- The name of the workgroup or domain. -/
def memberName : MemberOf → String
  | .workgroup name => name
  | .domain name => name

theorem Names.memberName_ne (h : Names samba H params useNetbiosHostName info) :
    memberName info.memberOf ≠ "" := by
  rw [h.memberOf]
  split_ifs <;> first | assumption | decide

theorem explicit_hostname {cmdline : CommandLine} {name : String}
    (h : cmdline.hostname.filter (· ≠ "") = some name) :
    name ≠ "" ∧ some name = cmdline.hostname := by
  obtain ⟨hname, hne⟩ := Option.filter_eq_some_iff.1 h
  exact ⟨by simpa using hne, hname.symm⟩

theorem winNetInfo_hostName_ne {cmdline : CommandLine} {system : Option WinNetInfo}
    (hhost : H.simpleHostName ≠ "") (hupper : H.toUpper H.simpleHostName ≠ "")
    (hsystem : ∀ info ∈ system, info.hostName ≠ "") :
    (Config.winNetInfo H cmdline system).hostName ≠ "" := by
  unfold Config.winNetInfo
  cases hgiven : cmdline.hostname.filter (· ≠ "") with
  | some name => exact (explicit_hostname hgiven).1
  | none =>
    cases system with
    | some info => exact hsystem info rfl
    | none =>
      dsimp only
      split_ifs <;> assumption

theorem winNetInfo_hostDescription {cmdline : CommandLine} {system : Option WinNetInfo}
    (hhost : H.simpleHostName ≠ "") :
    (Config.winNetInfo H cmdline system).hostDescription ≠ "" ∧
      ((Config.winNetInfo H cmdline system).hostDescription = H.simpleHostName ∨
        some (Config.winNetInfo H cmdline system).hostDescription = cmdline.hostname ∨
        ∃ info ∈ system, (Config.winNetInfo H cmdline system).hostDescription =
          info.hostDescription) := by
  unfold Config.winNetInfo
  dsimp only
  split_ifs with hempty
  · cases hgiven : cmdline.hostname.filter (· ≠ "") with
    | some name =>
      obtain ⟨hne, hname⟩ := explicit_hostname hgiven
      exact ⟨hne, .inr (.inl hname)⟩
    | none => exact ⟨hhost, .inl rfl⟩
  · cases system with
    | some info => exact ⟨hempty, .inr (.inr ⟨info, rfl, rfl⟩)⟩
    | none => exact absurd rfl hempty

/-- **Every name that is announced is a name.**  Whatever Samba says, none is empty if the host has
a name, and a mark of Samba can only be in the description if it is in the name that the host has or
was given. -/
theorem names_announced (samba : System) (linux : Bool) (H : LocalHost) (cmdline : CommandLine)
    (smbConf : Option SysString) (hhost : H.simpleHostName ≠ "")
    (hupper : H.toUpper H.simpleHostName ≠ "")
    (hmember : ∀ memberOf ∈ cmdline.memberOf, memberName memberOf ≠ "") :
    let info := Config.winNetInfo H cmdline
      (detectWinNetInfo samba H linux smbConf (cmdline.hostname = some ""))
    info.hostName ≠ "" ∧ memberName info.memberOf ≠ "" ∧ info.hostDescription ≠ "" ∧
      ('%' ∈ info.hostDescription.toList →
        info.hostDescription = H.simpleHostName ∨ some info.hostDescription = cmdline.hostname) := by
  have hsystem : ∀ info ∈ detectWinNetInfo samba H linux smbConf (cmdline.hostname = some ""),
      ∃ params, Names samba H params (cmdline.hostname = some "") info := by
    intro info h
    obtain ⟨params, -, rfl⟩ := detectWinNetInfo_iff.1 h
    exact ⟨params, names_sambaParamsToWinNetInfo⟩
  generalize detectWinNetInfo samba H linux smbConf (cmdline.hostname = some "") = system
    at hsystem ⊢
  obtain ⟨hdesc, hsource⟩ :
      (Config.winNetInfo H cmdline system).hostDescription ≠ "" ∧ _ :=
    winNetInfo_hostDescription hhost
  refine ⟨winNetInfo_hostName_ne hhost hupper fun info h => ?_, ?_, hdesc, fun hmark => ?_⟩
  · obtain ⟨params, hnames⟩ := hsystem info h
    exact hnames.hostName_ne hhost hupper
  · rw [Config.winNetInfo_memberOf]
    cases hgiven : cmdline.memberOf with
    | some memberOf => exact hmember memberOf hgiven
    | none =>
      cases system with
      | none => simp [memberName]
      | some info =>
        obtain ⟨params, hnames⟩ := hsystem info rfl
        exact hnames.memberName_ne
  · rcases hsource with h | h | ⟨info, hinfo, h⟩
    · exact .inl h
    · exact .inr h
    · obtain ⟨params, hnames⟩ := hsystem info hinfo
      rw [h] at hmark ⊢
      exact .inl (hnames.hostDescription_or.resolve_right (not_not_intro hmark))

/-- A command that writes some bytes in one read. -/
def Command.writing (bytes : List UInt8) (hne : bytes ≠ []) (hle : bytes.length ≤ bufferSize) :
    Command where
  output := some ⟨[bytes], .cons hne hle .nil⟩
  status := .exited 0

/-- A host on which `samba` names its file. -/
def nas : System where
  showBuild := .writing (ofLiteral "Paths:\n   CONFIGFILE: /etc/smb.conf\n") (by decide) (by decide)
  testparm := fun _ => ⟨none, .exited 0⟩
  fileExists := fun _ => true
  file := fun path =>
    if path = ofLiteral "/etc/smb.conf" then
      some (ofLiteral "[global]\nserver string = %h server\nsecurity = ads\n")
    else none
  memoryMap := some
  mapped := fun _ _ h => (Option.some.inj h).symm
  text := fun str => String.ofList (str.map fun b => Char.ofNat b.toNat)

theorem names_announced_nas :
    let info := Config.winNetInfo ⟨"nas", String.toUpper, charBuilder, fun _ _ => none⟩ {}
      (detectWinNetInfo nas ⟨"nas", String.toUpper, charBuilder, fun _ _ => none⟩ true none false)
    info = ⟨"nas", "nas server", .workgroup "WORKGROUP"⟩ ∧ info.hostName ≠ "" := by
  refine ⟨by decide +kernel, ?_⟩
  exact (names_announced nas true ⟨"nas", String.toUpper, charBuilder, fun _ _ => none⟩ {} none (by decide)
    (by decide +kernel) (fun _ h => nomatch h)).1

end Names

end Samba

end Wsddn
