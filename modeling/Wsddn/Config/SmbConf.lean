import Mathlib.Data.List.DropRight
import Wsddn.Http.Request
import Wsddn.Stream.Lines
import Wsddn.Text.Regex

/-!
# The parameters of `smb.conf` (`paramsFromSmbConf` of `config_samba.cpp`)

The file is mapped into memory and read line by line.  A line with a section name opens or ends the
`[global]` section, and an entry line inside it gives one of four parameters its value.

* `scan_eq` : the loop is the last value of each parameter in the lines of the section that have
  ended.
* `paramsFromSmbConf_eq_iff` : **the last line is lost** if it does not end with a newline; when
  this matters.
-/

namespace Wsddn

namespace SmbConf

open SysString

/-- `Config::SambaParams`. -/
structure SambaParams where
  workgroup : Option SysString := none
  security : Option SysString := none
  hostName : Option SysString := none
  hostDescription : Option SysString := none
  deriving DecidableEq, Repr

/-- `\n`. -/
def newline : UInt8 := 10

/-- `\s` in the classic locale. -/
def isSpace (b : UInt8) : Bool := b = 32 || (9 ≤ b && b ≤ 13)

/-- `.` of an ECMAScript expression. -/
def isAny (b : UInt8) : Bool := b ≠ 10 && b ≠ 13

/-- What is stripped from the end of a key and of a value. -/
def isBlank (b : UInt8) : Bool := b = 32 || b = 9

/-- `#` and `;`. -/
def startsComment (b : UInt8) : Bool := b = 35 || b = 59

/-- `\s*\[([^\]]*)\].*` -/
def sectionRe : Regex UInt8 :=
  .seq (.many isSpace) <| .seq (.one (· = 91)) <| .seq (.group 1 (.many (· ≠ 93))) <|
    .seq (.one (· = 93)) (.many isAny)

/-- `\s*([^ \t#;=][^=#;]*)\s*=\s*((?:[^ \t#;][^#;]*)?).*` -/
def entryRe : Regex UInt8 :=
  .seq (.many isSpace) <|
    .seq (.group 1 (.seq (.one fun b => !isBlank b && !startsComment b && b ≠ 61)
      (.many fun b => b ≠ 61 && !startsComment b))) <|
    .seq (.many isSpace) <| .seq (.one (· = 61)) <| .seq (.many isSpace) <|
    .seq (.group 2 (.opt (.seq (.one fun b => !isBlank b && !startsComment b)
      (.many fun b => !startsComment b))))
    (.many isAny)

/-- Without the blanks and tabs at the end. -/
def strip (text : SysString) : SysString := text.rdropWhile isBlank

/-- The name of the section that a line opens. -/
def sectionOf (line : SysString) : Option SysString :=
  (Regex.regexMatch sectionRe line).map fun m => m.text 1

/-- The key and the value of an entry line. -/
def entryOf (line : SysString) : Option (SysString × SysString) :=
  (Regex.regexMatch entryRe line).map fun m => (strip (m.text 1), strip (m.text 2))

/-- The value of an entry goes to the parameter with that key. -/
def store (ret : SambaParams) (entry : SysString × SysString) : SambaParams :=
  let (key, value) := entry
  if key = ofLiteral "workgroup" then { ret with workgroup := some value }
  else if key = ofLiteral "security" then { ret with security := some value }
  else if key = ofLiteral "netbios name" then { ret with hostName := some value }
  else if key = ofLiteral "server string" then { ret with hostDescription := some value }
  else ret

/-- The local variables of the loop. -/
structure State where
  ret : SambaParams := {}
  inGlobalSection : Bool := false

/-- A line; `none` if the loop ends with it. -/
def onLine (st : State) (line : SysString) : Option State :=
  match sectionOf line with
  | some name =>
    if st.inGlobalSection then none
    else some { st with inGlobalSection := name = ofLiteral "global" }
  | none =>
    if !st.inGlobalSection then some st
    else
      match entryOf line with
      | none => some st
      | some entry => some { st with ret := store st.ret entry }

/-- The loop over the bytes of the file, with those of the current line. -/
def scan : State → SysString → List UInt8 → SambaParams
  | st, _, [] => st.ret
  | st, line, b :: content =>
    if b ≠ newline then scan st (line ++ [b]) content
    else
      match onLine st line with
      | none => st.ret
      | some st => scan st [] content

/-- The parameters in a file, which is `none` if it cannot be opened.  The bytes of a mapping are
those of the file (`ptl::MemoryMap`); a file cannot always be mapped. -/
def paramsFromSmbConf (memoryMap : List UInt8 → Option (List UInt8)) (file : Option (List UInt8)) :
    Option SambaParams := do
  let bytes ← file
  let content ← memoryMap bytes
  return scan {} [] content

/-! ### The parameters of a list of lines -/

/-- The parameters. -/
inductive Param where
  | workgroup
  | security
  | hostName
  | hostDescription

/-- The key of a parameter in the file. -/
def Param.key : Param → SysString
  | .workgroup => ofLiteral "workgroup"
  | .security => ofLiteral "security"
  | .hostName => ofLiteral "netbios name"
  | .hostDescription => ofLiteral "server string"

/-- The value of a parameter. -/
def SambaParams.get (ret : SambaParams) : Param → Option SysString
  | .workgroup => ret.workgroup
  | .security => ret.security
  | .hostName => ret.hostName
  | .hostDescription => ret.hostDescription

/-- The first line that opens the section, and the lines from there on. -/
def fromGlobal (lines : List SysString) : List SysString :=
  lines.dropWhile fun line => sectionOf line ≠ some (ofLiteral "global")

/-- The lines between the first line that opens the section and the next section line. -/
def globalLines (lines : List SysString) : List SysString :=
  (fromGlobal lines).tail.takeWhile fun line => sectionOf line = none

/-- The value of the last entry line with a key. -/
def lastValue (key : SysString) (lines : List SysString) : Option SysString :=
  ((lines.filterMap entryOf).filter fun entry => entry.1 = key).getLast?.map Prod.snd

/-- Each parameter has the last value given to it in the section. -/
def specParams (lines : List SysString) : SambaParams where
  workgroup := lastValue (ofLiteral "workgroup") (globalLines lines)
  security := lastValue (ofLiteral "security") (globalLines lines)
  hostName := lastValue (ofLiteral "netbios name") (globalLines lines)
  hostDescription := lastValue (ofLiteral "server string") (globalLines lines)

/-- The lines that end with a newline. -/
def endedLines (content : List UInt8) : List SysString := Lines.ended newline [] content

/-- What follows the last newline. -/
def lastLine (content : List UInt8) : SysString := Lines.unended newline [] content

/-- All lines, also the last one if it has no newline. -/
def allLines (content : List UInt8) : List SysString :=
  endedLines content ++ if lastLine content = [] then [] else [lastLine content]

/-- After these lines the section is open. -/
def InGlobal (lines : List SysString) : Prop :=
  fromGlobal lines ≠ [] ∧ ∀ line ∈ (fromGlobal lines).tail, sectionOf line = none

/-- The last line changes nothing: it ends with a newline, it is not in the section, or it is no
entry line for a parameter, or one with the value that the parameter already has. -/
def LastLineSettled (content : List UInt8) : Prop :=
  lastLine content = [] ∨ ¬ InGlobal (endedLines content) ∨
    (sectionOf (lastLine content)).isSome ∨
    ∀ value, ∀ p : Param, entryOf (lastLine content) = some (p.key, value) →
      lastValue p.key (globalLines (endedLines content)) = some value

variable {st : State} {ret : SambaParams} {line : SysString} {lines : List SysString}
  {content : List UInt8} {p : Param}

/-! ### The loop -/

/-- The loop over lines. -/
def foldLines : State → List SysString → SambaParams
  | st, [] => st.ret
  | st, line :: lines =>
    match onLine st line with
    | none => st.ret
    | some st => foldLines st lines

theorem scan_eq_foldLines :
    scan st line content = foldLines st (Lines.ended newline line content) := by
  induction content generalizing st line with
  | nil => rfl
  | cons b content ih =>
    by_cases hb : b = newline
    · subst hb
      simp only [scan, Lines.ended_nl, foldLines, ne_eq, not_true_eq_false, if_false]
      rcases onLine st line with _ | st'
      · rfl
      · exact ih
    · simp only [scan, ne_eq, hb, not_false_eq_true, if_true, Lines.ended_cons hb, ih]

/-- In the section the entries are stored up to the next section line. -/
theorem foldLines_inGlobal : foldLines ⟨ret, true⟩ lines =
    ((lines.takeWhile fun line => sectionOf line = none).filterMap entryOf).foldl store ret := by
  induction lines generalizing ret with
  | nil => rfl
  | cons line lines ih =>
    rcases hs : sectionOf line with _ | name
    · rcases he : entryOf line with _ | entry
      · simp [foldLines, onLine, hs, he, ih]
      · simp [foldLines, onLine, hs, he, ih]
    · simp [foldLines, onLine, hs]

theorem foldLines_outside : foldLines ⟨ret, false⟩ lines =
    ((globalLines lines).filterMap entryOf).foldl store ret := by
  induction lines generalizing ret with
  | nil => rfl
  | cons line lines ih =>
    by_cases hg : sectionOf line = some (ofLiteral "global")
    · simp [foldLines, onLine, hg, globalLines, fromGlobal, foldLines_inGlobal]
    · have hskip : globalLines (line :: lines) = globalLines lines := by
        simp [globalLines, fromGlobal, hg]
      have hstep : onLine ⟨ret, false⟩ line = some ⟨ret, false⟩ := by
        rcases hs : sectionOf line with _ | name
        · simp [onLine, hs]
        · have hname : name ≠ ofLiteral "global" := fun h => hg (by rw [hs, h])
          simp [onLine, hs, hname]
      rw [foldLines, hstep, hskip]
      exact ih

theorem key_injective : Function.Injective Param.key := by
  intro p q h
  cases p <;> cases q <;> first | rfl | exact absurd h (by decide)

theorem get_store (entry : SysString × SysString) :
    (store ret entry).get p = if entry.1 = p.key then some entry.2 else ret.get p := by
  obtain ⟨key, value⟩ := entry
  by_cases hkey : ∃ q : Param, key = q.key
  · obtain ⟨q, rfl⟩ := hkey
    simp only [key_injective.eq_iff]
    cases q <;> cases p <;> rfl
  · have hne : ∀ q : Param, key ≠ q.key := fun q h => hkey ⟨q, h⟩
    have hw := hne .workgroup
    have hs := hne .security
    have hn := hne .hostName
    have hd := hne .hostDescription
    simp only [Param.key] at hw hs hn hd
    simp [store, hw, hs, hn, hd, hne p]

theorem get_foldl_store (entries : List (SysString × SysString)) :
    (entries.foldl store ret).get p =
      (((entries.filter fun entry => entry.1 = p.key).getLast?).map Prod.snd).or (ret.get p) := by
  induction entries generalizing ret with
  | nil => rfl
  | cons entry entries ih =>
    rw [List.foldl_cons, ih, get_store]
    by_cases hkey : entry.1 = p.key
    · rw [List.filter_cons_of_pos (by simpa using hkey), List.getLast?_cons, if_pos hkey]
      cases (entries.filter fun entry => decide (entry.1 = p.key)).getLast? <;> simp
    · rw [List.filter_cons_of_neg (by simpa using hkey), if_neg hkey]

theorem SambaParams.ext_get {ret' : SambaParams} (h : ∀ p, ret.get p = ret'.get p) :
    ret = ret' := by
  obtain ⟨w, s, n, d⟩ := ret
  obtain ⟨w', s', n', d'⟩ := ret'
  obtain rfl : w = w' := h .workgroup
  obtain rfl : s = s' := h .security
  obtain rfl : n = n' := h .hostName
  obtain rfl : d = d' := h .hostDescription
  rfl

theorem get_specParams : (specParams lines).get p = lastValue p.key (globalLines lines) := by
  cases p <;> rfl

/-- **The loop** gives each parameter its last value in the lines that have ended. -/
theorem scan_eq : scan {} [] content = specParams (endedLines content) := by
  rw [scan_eq_foldLines, foldLines_outside]
  refine SambaParams.ext_get fun p => ?_
  rw [get_foldl_store, get_specParams, lastValue, endedLines]
  have hnone : ({} : SambaParams).get p = none := by cases p <;> rfl
  rw [hnone, Option.or_none]

/-! ### The last line -/

variable {last : SysString}

theorem fromGlobal_concat : fromGlobal (lines ++ [last]) =
    if fromGlobal lines = [] then fromGlobal [last] else fromGlobal lines ++ [last] := by
  unfold fromGlobal
  rw [List.dropWhile_append]
  simp only [List.isEmpty_iff]

/-- A line behind the others is in the section, if that is open and the line does not end it. -/
theorem globalLines_of_inGlobal (h : InGlobal lines) (hs : sectionOf last = none) :
    globalLines (lines ++ [last]) = globalLines lines ++ [last] := by
  obtain ⟨hne, hall⟩ := h
  have hall' : ∀ line ∈ (fromGlobal lines).tail, decide (sectionOf line = none) = true := by
    simpa using hall
  have hself : globalLines lines = (fromGlobal lines).tail :=
    List.takeWhile_eq_self_iff.2 hall'
  rw [hself, globalLines, fromGlobal_concat, if_neg hne, List.tail_append_of_ne_nil hne,
    List.takeWhile_append_of_pos hall']
  simp [hs]

theorem globalLines_of_not_inGlobal (h : ¬ (InGlobal lines ∧ sectionOf last = none)) :
    globalLines (lines ++ [last]) = globalLines lines := by
  by_cases hne : fromGlobal lines = []
  · have hlast : (fromGlobal [last]).tail = [] := by
      unfold fromGlobal
      rw [List.dropWhile_cons]
      split_ifs <;> rfl
    rw [globalLines, globalLines, fromGlobal_concat, if_pos hne, hlast, hne]
    rfl
  · rw [globalLines, globalLines, fromGlobal_concat, if_neg hne, List.tail_append_of_ne_nil hne,
      List.takeWhile_append]
    split_ifs with hlen
    · -- the section is open, so the last line ends it
      have hself : (fromGlobal lines).tail.takeWhile (fun line => decide (sectionOf line = none)) =
          (fromGlobal lines).tail := (List.takeWhile_prefix _).eq_of_length hlen
      have hall : ∀ line ∈ (fromGlobal lines).tail, sectionOf line = none := by
        simpa using List.takeWhile_eq_self_iff.1 hself
      have hs : ¬ sectionOf last = none := fun hs => h ⟨⟨hne, hall⟩, hs⟩
      simp [hs, hself]
    · rfl

theorem lastValue_concat (key : SysString) : lastValue key (lines ++ [last]) =
    match entryOf last with
    | none => lastValue key lines
    | some entry => if entry.1 = key then some entry.2 else lastValue key lines := by
  unfold lastValue
  rw [List.filterMap_append, List.filter_append]
  rcases he : entryOf last with _ | entry
  · simp [he]
  · by_cases hkey : entry.1 = key <;> simp [he, hkey]

/-- The last line changes nothing exactly if it is settled. -/
theorem specParams_allLines_iff :
    specParams (allLines content) = specParams (endedLines content) ↔ LastLineSettled content := by
  unfold allLines LastLineSettled
  generalize endedLines content = lines
  generalize lastLine content = last
  by_cases hnil : last = []
  · simp [hnil]
  rw [if_neg hnil]
  by_cases hin : InGlobal lines ∧ sectionOf last = none
  · obtain ⟨hg, hs⟩ := hin
    have hnot : ¬ (sectionOf last).isSome := by simp [hs]
    simp only [hnil, hg, hnot, not_true_eq_false, false_or, Bool.false_eq_true]
    constructor
    · intro h value p he
      have hp := congrArg (fun ret => SambaParams.get ret p) h
      simp only [get_specParams, globalLines_of_inGlobal hg hs, lastValue_concat, he, if_true] at hp
      exact hp.symm
    · intro h
      refine SambaParams.ext_get fun p => ?_
      rw [get_specParams, get_specParams, globalLines_of_inGlobal hg hs, lastValue_concat]
      rcases he : entryOf last with _ | ⟨key, value⟩
      · rfl
      · by_cases hkey : key = p.key
        · subst hkey
          rw [h value p he]
          exact if_pos rfl
        · exact if_neg hkey
  · have hsettled : ¬ InGlobal lines ∨ (sectionOf last).isSome := by
      rw [Option.isSome_iff_ne_none]
      tauto
    have hspec : specParams (lines ++ [last]) = specParams lines :=
      SambaParams.ext_get fun p => by
        rw [get_specParams, get_specParams, globalLines_of_not_inGlobal hin]
    simp only [hspec, true_iff]
    exact .inr (hsettled.imp id .inl)

/-! ### The result -/

variable {memoryMap : List UInt8 → Option (List UInt8)}

/-- **The parameters are those of all lines** exactly if the file can be mapped and its last line is
settled. -/
theorem paramsFromSmbConf_eq_iff
    (hmap : ∀ file bytes, memoryMap file = some bytes → bytes = file) (content : List UInt8) :
    paramsFromSmbConf memoryMap (some content) = some (specParams (allLines content)) ↔
      (memoryMap content).isSome ∧ LastLineSettled content := by
  rw [← specParams_allLines_iff]
  rcases hm : memoryMap content with _ | bytes
  · simp [paramsFromSmbConf, hm]
  · obtain rfl := hmap _ _ hm
    have hresult :
        paramsFromSmbConf memoryMap (some bytes) = some (specParams (endedLines bytes)) := by
      simp [paramsFromSmbConf, hm, scan_eq]
    rw [hresult, Option.some_inj, eq_comm]
    simp

/-- `mmap`, which refuses an empty file. -/
def mmap (file : List UInt8) : Option (List UInt8) := if file = [] then none else some file

/-- The name of the workgroup is read if its line ends with a newline. -/
theorem paramsFromSmbConf_ended :
    paramsFromSmbConf mmap (some (ofLiteral "[global]\nworkgroup = W # ours\n")) =
      some { workgroup := some (ofLiteral "W") } := by
  have hmap : ∀ file bytes, mmap file = some bytes → bytes = file := by
    intro file bytes h
    unfold mmap at h
    split_ifs at h
    exact (Option.some.inj h).symm
  refine ((paramsFromSmbConf_eq_iff hmap _).2 ⟨by decide, .inl (by decide)⟩).trans ?_
  decide +kernel

/-- It is lost if it does not. -/
theorem paramsFromSmbConf_last_lost :
    paramsFromSmbConf mmap (some (ofLiteral "[global]\nworkgroup = W")) = some {} ∧
      specParams (allLines (ofLiteral "[global]\nworkgroup = W")) =
        { workgroup := some (ofLiteral "W") } ∧
      paramsFromSmbConf mmap (some (ofLiteral "[global]\nworkgroup = W\n")) =
        some { workgroup := some (ofLiteral "W") } := by
  refine ⟨?_, ?_, ?_⟩ <;> decide +kernel

end SmbConf

end Wsddn
