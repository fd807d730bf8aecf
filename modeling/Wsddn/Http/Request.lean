import Mathlib.Algebra.Ring.Nat
import Mathlib.Data.List.Basic

/-!
# HTTP request heads (`http_request.h`, `http_request.cpp`)

The data that the request parser fills in and the questions that the connection asks about it.

A `sys_string` is the list of its storage bytes.  `std::multimap` keeps the entries of one key in
the order in which they were inserted, and the code only ever looks at all entries of one key
(`equal_range`), so the header table is the list of its entries in order of arrival.
-/

namespace Wsddn

/-- The storage bytes of a `sys_string`. -/
abbrev SysString := List UInt8

namespace SysString

/-- The bytes of an ASCII literal (`S("...")`). -/
def ofLiteral (s : String) : SysString := s.toList.map fun c => c.toNat.toUInt8

/-- `sys_string::split` : the parts between the occurrences of a separator, found from left to
right.  `part` holds the current part, reversed; `skip` counts the separator bytes still to be
passed over. -/
def splitAux (sep : SysString) (part : SysString) : ℕ → SysString → List SysString
  | _, [] => [part.reverse]
  | skip + 1, _ :: cs => splitAux sep part skip cs
  | 0, c :: cs =>
    if sep.isPrefixOf (c :: cs) then
      part.reverse :: splitAux sep [] (sep.length - 1) cs
    else splitAux sep (c :: part) 0 cs

/-- The parts of `str` between the occurrences of `sep`. -/
def split (str sep : SysString) : List SysString := splitAux sep [] 0 str

/-- `std::from_chars` on the whole string, for a `size_t`: one or more digits and nothing else,
with a value that fits 64 bits. -/
def toSize (str : SysString) : Option ℕ :=
  if str ≠ [] ∧ str.all (fun c => 48 ≤ c && c ≤ 57) then
    let val := str.foldl (fun acc c => 10 * acc + (c.toNat - 48)) 0
    if val < 2 ^ 64 then some val else none
  else none

end SysString

open SysString

/-- Why a header cannot be used (`HttpRequest::HeaderError`). -/
inductive HeaderError where
  | notUnique
  | badFormat
  deriving DecidableEq, Repr

/-- The head of a request. -/
structure HttpRequest where
  method : SysString := []
  uri : SysString := []
  versionMajor : UInt32 := 0
  versionMinor : UInt32 := 0
  headers : List (SysString × SysString) := []
  deriving DecidableEq, Repr

namespace HttpRequest

/-- The values of the header `name`, in order of arrival (`equal_range`). -/
def equalRange (req : HttpRequest) (name : SysString) : List SysString :=
  (req.headers.filter fun h => h.1 = name).map Prod.snd

/-- The value of a header that may occur once. -/
def getUniqueHeader (req : HttpRequest) (name : SysString) :
    Except HeaderError (Option SysString) :=
  match req.equalRange name with
  | [] => .ok none
  | [val] => .ok (some val)
  | _ => .error .notUnique

/-- All values of a header, joined by commas. -/
def getHeaderList (req : HttpRequest) (name : SysString) : Option SysString :=
  match req.equalRange name with
  | [] => none
  | val :: vals => some (vals.foldl (fun acc v => acc ++ ofLiteral ", " ++ v) val)

/-- The value of `Content-Length`, which has to be a number. -/
def getContentLength (req : HttpRequest) : Except HeaderError (Option ℕ) :=
  match req.getUniqueHeader (ofLiteral "Content-Length") with
  | .error e => .error e
  | .ok none => .ok none
  | .ok (some val) =>
    match val.toSize with
    | some ret => .ok (some ret)
    | none => .error .badFormat

/-- The parts of the value of `Content-Type`. -/
def getContentType (req : HttpRequest) : Except HeaderError (Option (List SysString)) :=
  match req.getUniqueHeader (ofLiteral "Content-Type") with
  | .error e => .error e
  | .ok none => .ok none
  | .ok (some val) => .ok (some (val.split (ofLiteral "; ")))

/-- `keep-alive` is among the values of `Connection`. -/
def getKeepAlive (req : HttpRequest) : Bool :=
  match req.getHeaderList (ofLiteral "Connection") with
  | none => false
  | some val => ofLiteral "keep-alive" ∈ val.split (ofLiteral ", ")

theorem equalRange_append (req : HttpRequest) (hs : List (SysString × SysString))
    (name : SysString) :
    ({ req with headers := hs ++ req.headers } : HttpRequest).equalRange name =
      ({ headers := hs } : HttpRequest).equalRange name ++ req.equalRange name := by
  simp [equalRange]

/-- A content length was read off exactly one `Content-Length` header. -/
theorem length_eq_one_of_getContentLength {req : HttpRequest} {n : ℕ}
    (h : req.getContentLength = .ok (some n)) :
    (req.equalRange (ofLiteral "Content-Length")).length = 1 := by
  unfold getContentLength getUniqueHeader at h
  split at h
  · simp at h
  · simp at h
  · rename_i val hval
    split at hval
    · simp at hval
    · rename_i hr
      simp [hr]
    · simp at hval

end HttpRequest

end Wsddn
