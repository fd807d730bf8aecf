import Wsddn.Container.LowerBound
import Wsddn.Http.Split
import Wsddn.Stream.SelfDelimiting
import Wsddn.Text.Decimal
import Wsddn.Wsd.Document

/-!
# Responses on the wire (`http_response.cpp`)

The bytes of a response, and a client that reads them: it takes the head apart, and the body is as
long as the `Content-Length` says, except after the statuses that never have one.

* `findStatusRecord_eq` : the binary search in the table of statuses finds what is in it.
* `readResponse_stock_iff` : a client reads a stock page as it was sent exactly if its status is one
  that has a body; the pages of `204` and `304` run into the next response.
* `readAll_session` : **what a connection has written** is read by a client as the replies of the
  handler, and then at most one page of an error.
-/

namespace Wsddn

open SysString

/-! ### Statuses -/

/-- `StatusRecord` : a status, its line and its page. -/
structure StatusRecord where
  code : ℕ
  line : SysString
  page : SysString
  deriving DecidableEq

/-- The text that the pages have in common. -/
def htmlPage (title heading : SysString) : SysString :=
  ofLiteral "<html>" ++ (ofLiteral "<head><title>" ++ title ++ ofLiteral "</title></head>") ++
  (ofLiteral "<body><h1>" ++ heading ++ ofLiteral "</h1></body>") ++ ofLiteral "</html>"

/-- `g_statuses`. -/
def statuses : List StatusRecord :=
  [⟨200, ofLiteral "HTTP/1.0 200 OK\r\n", []⟩,
    ⟨201, ofLiteral "HTTP/1.0 201 Created\r\n",
      htmlPage (ofLiteral "Created") (ofLiteral "201 Created")⟩,
    ⟨202, ofLiteral "HTTP/1.0 202 Accepted\r\n",
      htmlPage (ofLiteral "Accepted") (ofLiteral "202 Accepted")⟩,
    ⟨204, ofLiteral "HTTP/1.0 204 No Content\r\n",
      htmlPage (ofLiteral "No Content") (ofLiteral "204 Content")⟩,
    ⟨300, ofLiteral "HTTP/1.0 300 Multiple Choices\r\n",
      htmlPage (ofLiteral "Multiple Choices") (ofLiteral "300 Multiple Choices")⟩,
    ⟨301, ofLiteral "HTTP/1.0 301 Moved Permanently\r\n",
      htmlPage (ofLiteral "Moved Permanently") (ofLiteral "301 Moved Permanently")⟩,
    ⟨302, ofLiteral "HTTP/1.0 302 Moved Temporarily\r\n",
      htmlPage (ofLiteral "Moved Temporarily") (ofLiteral "302 Moved Temporarily")⟩,
    ⟨304, ofLiteral "HTTP/1.0 304 Not Modified\r\n",
      htmlPage (ofLiteral "Not Modified") (ofLiteral "304 Not Modified")⟩,
    ⟨400, ofLiteral "HTTP/1.0 400 Bad Request\r\n",
      htmlPage (ofLiteral "Bad Request") (ofLiteral "400 Bad Request")⟩,
    ⟨401, ofLiteral "HTTP/1.0 401 Unauthorized\r\n",
      htmlPage (ofLiteral "Unauthorized") (ofLiteral "401 Unauthorized")⟩,
    ⟨403, ofLiteral "HTTP/1.0 403 Forbidden\r\n",
      htmlPage (ofLiteral "Forbidden") (ofLiteral "403 Forbidden")⟩,
    ⟨404, ofLiteral "HTTP/1.0 404 Not Found\r\n",
      htmlPage (ofLiteral "Not Found") (ofLiteral "404 Not Found")⟩,
    ⟨500, ofLiteral "HTTP/1.0 500 Internal Server Error\r\n",
      htmlPage (ofLiteral "Internal Server Error") (ofLiteral "500 Internal Server Error")⟩,
    ⟨501, ofLiteral "HTTP/1.0 501 Not Implemented\r\n",
      htmlPage (ofLiteral "Not Implemented") (ofLiteral "501 Not Implemented")⟩,
    ⟨502, ofLiteral "HTTP/1.0 502 Bad Gateway\r\n",
      htmlPage (ofLiteral "Bad Gateway") (ofLiteral "502 Bad Gateway")⟩,
    ⟨503, ofLiteral "HTTP/1.0 503 Service Unavailable\r\n",
      htmlPage (ofLiteral "Service Unavailable") (ofLiteral "503 Service Unavailable")⟩]

/-- The record for a status, by a binary search. -/
def findStatusRecord (status : ℕ) : Option StatusRecord :=
  statuses[lowerBound (fun val => val.code < status) statuses]?.filter fun val => val.code = status

/-- The binary search finds what is in the table. -/
theorem findStatusRecord_eq (status : ℕ) :
    findStatusRecord status = statuses.find? fun val => val.code = status := by
  refine getElem?_lowerBound ?_ status
  rw [← List.pairwise_map]
  decide

/-- `g_defaultStatusRecord`. -/
def defaultStatusRecord : StatusRecord :=
  ⟨500, ofLiteral "HTTP/1.0 500 Internal Server Error\r\n",
    htmlPage (ofLiteral "Internal Server Error") (ofLiteral "500 Internal Server Error")⟩

theorem findStatusRecord_default : findStatusRecord 500 = some defaultStatusRecord := by
  rw [findStatusRecord_eq]
  rfl

/-- The record that is used for a status. -/
def statusRecord (status : ℕ) : StatusRecord :=
  (findStatusRecord status).getD defaultStatusRecord

/-! ### Responses -/

/-- `HttpResponse`, with everything that is written. -/
structure WireResponse where
  status : ℕ
  content : SysString := []
  headers : List SysString := []
  deriving DecidableEq, Repr

/-- The end of a line. -/
def crlf : SysString := [13, 10]

namespace WireResponse

/-- A header line is added behind the others. -/
def addHeader (r : WireResponse) (name value : SysString) : WireResponse :=
  { r with headers := r.headers ++ [name ++ ofLiteral ": " ++ value ++ crlf] }

/-- The response for a status, with its page. -/
def makeStockResponse (status : ℕ) : WireResponse :=
  let content := (statusRecord status).page
  (({ status, content } : WireResponse).addHeader (ofLiteral "Content-Type")
    (ofLiteral "text/html")).addHeader (ofLiteral "Content-Length") (toDecimal content.length)

/-- The response with a document. -/
def makeReply (xml : SysString) : WireResponse :=
  (({ status := 200, content := xml } : WireResponse).addHeader (ofLiteral "Content-Type")
    (ofLiteral "application/soap+xml")).addHeader (ofLiteral "Content-Length")
      (toDecimal xml.length)

/-- The pieces that are written, one after the other. -/
def makeBuffers (r : WireResponse) : List SysString :=
  (statusRecord r.status).line :: r.headers ++ [crlf, r.content]

/-- What is written to the socket. -/
def bytes (r : WireResponse) : SysString := r.makeBuffers.flatten

end WireResponse

/-! ### A client -/

/-- A response as a client understands it. -/
structure SeenResponse where
  status : ℕ
  headers : List (SysString × SysString)
  content : SysString
  deriving DecidableEq, Repr

/-- A line and what follows its end. -/
def takeLine : List UInt8 → Option (SysString × List UInt8)
  | [] => none
  | b :: bs =>
    if b = 13 ∧ bs.head? = some 10 then some ([], bs.tail)
    else (takeLine bs).map fun (line, rest) => (b :: line, rest)

/-- The lines of a head, up to the empty one; `fuel` bounds their number. -/
def takeHead : ℕ → List UInt8 → Option (List SysString × List UInt8)
  | 0, _ => none
  | fuel + 1, bs =>
    match takeLine bs with
    | none => none
    | some ([], rest) => some ([], rest)
    | some (line, rest) => (takeHead fuel rest).map fun (lines, rest) => (line :: lines, rest)

/-- The number in a status line. -/
def readStatusLine (line : SysString) : Option ℕ :=
  if (ofLiteral "HTTP/1.0 ").isPrefixOf line then
    toSize ((line.drop 9).takeWhile (· ≠ 32))
  else none

/-- The name and the value in a header line. -/
def readHeader (line : SysString) : Option (SysString × SysString) :=
  (SysString.partitionAtFirst ':'.toNat.toUInt8 line).map fun (name, value) =>
    (name, value.dropWhile (· = 32))

/-- The statuses after which there is no body, whatever the headers say. -/
def Bodiless (status : ℕ) : Prop := status = 204 ∨ status = 304

instance (status : ℕ) : Decidable (Bodiless status) := inferInstanceAs (Decidable (_ ∨ _))

/-- A response, and what follows it. -/
def readResponse (bs : List UInt8) : Option (SeenResponse × List UInt8) :=
  match takeHead (bs.length + 1) bs with
  | some (line :: lines, rest) =>
    match readStatusLine line, lines.mapM readHeader with
    | some status, some headers =>
      if Bodiless status then some (⟨status, headers, []⟩, rest)
      else
        match (headers.lookup (ofLiteral "Content-Length")).bind toSize with
        | none => none
        | some n =>
          if n ≤ rest.length then some (⟨status, headers, rest.take n⟩, rest.drop n) else none
    | _, _ => none
  | _ => none

/-! ### What the client reads -/

section Lines

variable {line : SysString} {lines : List SysString} {rest : List UInt8}

theorem takeLine_append (h : 13 ∉ line) (rest : List UInt8) :
    takeLine (line ++ crlf ++ rest) = some (line, rest) := by
  induction line with
  | nil => rfl
  | cons b bs ih =>
    obtain ⟨hb, hbs⟩ := not_or.1 (mt List.mem_cons.2 h)
    rw [List.cons_append, List.cons_append, takeLine, if_neg (fun hand => hb hand.1.symm), ih hbs]
    rfl

theorem takeHead_append (h : ∀ line ∈ lines, line ≠ [] ∧ 13 ∉ line) {fuel : ℕ}
    (hfuel : lines.length < fuel) (rest : List UInt8) :
    takeHead fuel (lines.flatMap (· ++ crlf) ++ crlf ++ rest) = some (lines, rest) := by
  induction lines generalizing fuel with
  | nil =>
    obtain ⟨fuel, rfl⟩ := Nat.exists_eq_add_of_lt hfuel
    rfl
  | cons line lines ih =>
    obtain ⟨hne, hcr⟩ := h line List.mem_cons_self
    obtain ⟨b, bs, rfl⟩ := List.exists_cons_of_ne_nil hne
    obtain ⟨fuel, rfl⟩ : ∃ k, fuel = k + 1 := ⟨fuel - 1, by omega⟩
    have hassoc : ((b :: bs) :: lines).flatMap (· ++ crlf) ++ crlf ++ rest =
        (b :: bs) ++ crlf ++ (lines.flatMap (· ++ crlf) ++ crlf ++ rest) := by
      simp
    rw [hassoc, takeHead, takeLine_append hcr]
    dsimp only
    rw [ih (fun l hl => h l (List.mem_cons_of_mem _ hl)) (Nat.lt_of_succ_lt_succ hfuel)]
    rfl

theorem readHeader_line {name value : SysString} (hname : ':'.toNat.toUInt8 ∉ name)
    (hvalue : value.head? ≠ some 32) :
    readHeader (name ++ ofLiteral ": " ++ value) = some (name, value) := by
  have hcolon : name ++ ofLiteral ": " ++ value = name ++ ':'.toNat.toUInt8 :: 32 :: value := by
    simp [ofLiteral]
  rw [readHeader, hcolon, SysString.partitionAtFirst_append hname]
  cases value with
  | nil => rfl
  | cons b bs =>
    have hb : b ≠ 32 := fun hb => hvalue (by rw [hb]; rfl)
    simp [hb]

end Lines

/-- The line of a record without its end. -/
def StatusRecord.text (r : StatusRecord) : SysString := r.line.take (r.line.length - 2)

/-- What is checked about a record. -/
structure StatusRecord.Sound (r : StatusRecord) : Prop where
  line : r.line = r.text ++ crlf
  plain : r.text ≠ [] ∧ 13 ∉ r.text
  status : readStatusLine r.text = some r.code
  page : r.page.length < 2 ^ 64
  bodiless : Bodiless r.code → r.page ≠ []

theorem statuses_sound : ∀ r ∈ statuses, r.Sound := by
  have hall : ∀ r ∈ statuses, r.line = r.text ++ crlf ∧ (r.text ≠ [] ∧ 13 ∉ r.text) ∧
      readStatusLine r.text = some r.code ∧ r.page.length < 2 ^ 64 ∧
      (Bodiless r.code → r.page ≠ []) := by
    decide +kernel
  intro r hr
  obtain ⟨hline, hplain, hstatus, hpage, hbody⟩ := hall r hr
  exact ⟨hline, hplain, hstatus, hpage, hbody⟩

theorem statusRecord_mem (status : ℕ) : statusRecord status ∈ statuses := by
  unfold statusRecord
  cases h : findStatusRecord status with
  | none =>
    have := findStatusRecord_default
    rw [findStatusRecord_eq] at this
    exact List.mem_of_find?_eq_some this
  | some r =>
    rw [findStatusRecord_eq] at h
    exact List.mem_of_find?_eq_some h

theorem statusRecord_sound (status : ℕ) : (statusRecord status).Sound :=
  statuses_sound _ (statusRecord_mem status)

/-- The status that is sent for a status: that of its record. -/
def sentStatus (status : ℕ) : ℕ := (statusRecord status).code

namespace WireResponse

variable {r : WireResponse} {contentType : SysString}

/-- A response with a type and a length. -/
structure Typed (r : WireResponse) (contentType : SysString) : Prop where
  headers : r.headers = [ofLiteral "Content-Type" ++ ofLiteral ": " ++ contentType ++ crlf,
    ofLiteral "Content-Length" ++ ofLiteral ": " ++ toDecimal r.content.length ++ crlf]
  plain : 13 ∉ contentType ∧ contentType.head? ≠ some 32
  length : r.content.length < 2 ^ 64

/-- The headers of a typed response. -/
def seenHeaders (r : WireResponse) (contentType : SysString) : List (SysString × SysString) :=
  [(ofLiteral "Content-Type", contentType), (ofLiteral "Content-Length", toDecimal r.content.length)]

/-- The lines of its head. -/
def Typed.lines (r : WireResponse) (contentType : SysString) : List SysString :=
  [(statusRecord r.status).text, ofLiteral "Content-Type" ++ ofLiteral ": " ++ contentType,
    ofLiteral "Content-Length" ++ ofLiteral ": " ++ toDecimal r.content.length]

theorem Typed.bytes_eq (h : r.Typed contentType) :
    r.bytes = (lines r contentType).flatMap (· ++ crlf) ++ crlf ++ r.content := by
  rw [bytes, makeBuffers, h.headers, (statusRecord_sound r.status).line, lines]
  simp

theorem cr_notMem_toDecimal (n : ℕ) : 13 ∉ toDecimal n := by
  intro h
  have := (mem_toDecimal h).1
  revert this
  decide

theorem Typed.lines_plain (h : r.Typed contentType) :
    ∀ line ∈ lines r contentType, line ≠ [] ∧ 13 ∉ line := by
  have hname : (13 : UInt8) ∉ ofLiteral "Content-Type" ++ ofLiteral ": " ∧
      (13 : UInt8) ∉ ofLiteral "Content-Length" ++ ofLiteral ": " := by decide +kernel
  have hlen : ofLiteral "Content-Type" ≠ [] ∧ ofLiteral "Content-Length" ≠ [] := by decide +kernel
  intro line hline
  simp only [lines, List.mem_cons, List.not_mem_nil, or_false] at hline
  obtain rfl | rfl | rfl := hline
  · exact (statusRecord_sound r.status).plain
  · refine ⟨by simp [hlen.1], fun hmem => ?_⟩
    exact (List.mem_append.1 hmem).elim hname.1 h.plain.1
  · refine ⟨by simp [hlen.2], fun hmem => ?_⟩
    exact (List.mem_append.1 hmem).elim hname.2 (cr_notMem_toDecimal _)

theorem Typed.takeHead (h : r.Typed contentType) (rest : List UInt8) :
    Wsddn.takeHead ((r.bytes ++ rest).length + 1) (r.bytes ++ rest) =
      some (lines r contentType, r.content ++ rest) := by
  have hlines := h.lines_plain
  have hle : (lines r contentType).length ≤
      ((lines r contentType).flatMap (· ++ crlf)).length := by
    refine Stream.length_le_flatMap fun line hline => ?_
    simp [(hlines line hline).1]
  rw [h.bytes_eq, List.append_assoc]
  refine takeHead_append hlines ?_ _
  simp only [List.length_append] at hle ⊢
  omega

theorem Typed.mapM_readHeader (h : r.Typed contentType) :
    [ofLiteral "Content-Type" ++ ofLiteral ": " ++ contentType,
      ofLiteral "Content-Length" ++ ofLiteral ": " ++ toDecimal r.content.length].mapM readHeader =
      some (r.seenHeaders contentType) := by
  have hname : ':'.toNat.toUInt8 ∉ ofLiteral "Content-Type" ∧
      ':'.toNat.toUInt8 ∉ ofLiteral "Content-Length" := by decide +kernel
  have hdigits : (toDecimal r.content.length).head? ≠ some 32 := by
    intro hhead
    have := (mem_toDecimal (List.mem_of_mem_head? hhead)).1
    revert this
    decide
  rw [List.mapM_cons, readHeader_line hname.1 h.plain.2, List.mapM_cons,
    readHeader_line hname.2 hdigits]
  rfl

theorem Typed.withStatus (h : r.Typed contentType) (status : ℕ) :
    Typed { r with status } contentType :=
  ⟨h.headers, h.plain, h.length⟩

/-- What a client makes of a typed response. -/
theorem Typed.readResponse (h : r.Typed contentType) (rest : List UInt8) :
    Wsddn.readResponse (r.bytes ++ rest) =
      if Bodiless (sentStatus r.status) then
        some (⟨sentStatus r.status, r.seenHeaders contentType, []⟩, r.content ++ rest)
      else some (⟨sentStatus r.status, r.seenHeaders contentType, r.content⟩, rest) := by
  have hne : (ofLiteral "Content-Length" == ofLiteral "Content-Type") = false := by decide +kernel
  have hlookup : ((r.seenHeaders contentType).lookup (ofLiteral "Content-Length")).bind toSize =
      some r.content.length := by
    simp [seenHeaders, List.lookup_cons, hne, toSize_toDecimal h.length]
  rw [Wsddn.readResponse, h.takeHead, lines]
  dsimp only
  rw [(statusRecord_sound r.status).status, h.mapM_readHeader]
  dsimp only
  rw [hlookup, sentStatus]
  split_ifs with hbody
  · rfl
  · dsimp only
    rw [if_pos (by simp), List.take_left, List.drop_left]

theorem typed_makeStockResponse (status : ℕ) :
    (makeStockResponse status).Typed (ofLiteral "text/html") :=
  ⟨rfl, by decide +kernel, (statusRecord_sound status).page⟩

theorem typed_makeReply {xml : SysString} (h : xml.length < 2 ^ 64) :
    (makeReply xml).Typed (ofLiteral "application/soap+xml") :=
  ⟨rfl, by decide +kernel, h⟩

/-- A stock page as a client should see it. -/
def stockPage (status : ℕ) : SeenResponse :=
  ⟨sentStatus status, (makeStockResponse status).seenHeaders (ofLiteral "text/html"),
    (statusRecord status).page⟩

/-- What a client makes of a stock page. -/
theorem readResponse_stock (status : ℕ) (rest : List UInt8) :
    Wsddn.readResponse ((makeStockResponse status).bytes ++ rest) =
      if Bodiless (sentStatus status) then some (⟨sentStatus status,
        (makeStockResponse status).seenHeaders (ofLiteral "text/html"), []⟩,
        (statusRecord status).page ++ rest)
      else some (stockPage status, rest) :=
  (typed_makeStockResponse status).readResponse rest

/-- An unknown status is sent as one that has a body. -/
theorem bodiless_sentStatus (status : ℕ) : Bodiless (sentStatus status) ↔ Bodiless status := by
  have hknown : findStatusRecord status = none → ¬ Bodiless status := by
    intro hnone hbody
    rw [findStatusRecord_eq] at hnone
    obtain rfl | rfl := hbody <;> cases hnone
  unfold sentStatus statusRecord
  cases h : findStatusRecord status with
  | none =>
    have hdefault : ¬ Bodiless defaultStatusRecord.code := by decide
    exact iff_of_false hdefault (hknown h)
  | some r =>
    rw [findStatusRecord_eq] at h
    have hr : r.code = status := by simpa using List.find?_some h
    rw [Option.getD_some, hr]

/-- **A stock page is read as it was sent**, whatever follows it on the connection, exactly if it has
none of the statuses after which there is no body: the pages of `204` and `304`, which have a text
and a length, are taken for the beginning of what follows. -/
theorem readResponse_stock_iff (status : ℕ) :
    (∀ rest, readResponse ((makeStockResponse status).bytes ++ rest) =
      some (stockPage status, rest)) ↔ status ≠ 204 ∧ status ≠ 304 := by
  rw [← not_or]
  constructor
  · intro h hbody
    have hbody := (bodiless_sentStatus status).2 hbody
    have hnil := h []
    rw [readResponse_stock, if_pos hbody, Option.some.injEq, Prod.mk.injEq, List.append_nil] at hnil
    exact (statusRecord_sound status).bodiless hbody hnil.2
  · intro hbody rest
    rw [readResponse_stock, if_neg (mt (bodiless_sentStatus status).1 hbody)]

end WireResponse

/-! ### A connection -/

/-- The number of a status. -/
def Status.code : Status → ℕ
  | .ok => 200
  | .badRequest => 400
  | .notFound => 404
  | .internalServerError => 500

section Session

variable {Ctx Doc Reply σ : Type*}

-- `dump` is the text of a reply
variable (dump : Reply → SysString)

/-- A response with everything that is written of it. -/
def HttpResponse.toWire (r : HttpResponse Reply) : WireResponse :=
  match r.content with
  | none => WireResponse.makeStockResponse r.status.code
  | some reply => { WireResponse.makeReply (dump reply) with status := r.status.code }

/-- A response as a client should see it. -/
def HttpResponse.seen (r : HttpResponse Reply) : SeenResponse :=
  match r.content with
  | none => WireResponse.stockPage r.status.code
  | some reply => ⟨r.status.code, (WireResponse.makeReply (dump reply)).seenHeaders
      (ofLiteral "application/soap+xml"), dump reply⟩

/-- The responses among the outcomes of a connection. -/
def responses (outcomes : List (HttpConnection.Outcome Doc Reply)) : List (HttpResponse Reply) :=
  outcomes.filterMap fun
    | .response r => some r
    | _ => none

/-- The bytes that a connection has written. -/
def written (outcomes : List (HttpConnection.Outcome Doc Reply)) : List UInt8 :=
  (responses outcomes).flatMap fun r => (r.toWire dump).bytes

theorem bodiless_code (status : Status) : ¬ Bodiless (sentStatus status.code) := by
  cases status <;> decide

theorem sentStatus_code (status : Status) : sentStatus status.code = status.code := by
  cases status <;> decide

variable {dump}

/-- Every response that the server makes can be told from what follows it. -/
theorem delimits_response (hdump : ∀ reply, (dump reply).length < 2 ^ 64) (r : HttpResponse Reply) :
    Stream.Delimits (fun r => (HttpResponse.toWire dump r).bytes) readResponse
      (HttpResponse.seen dump) r := by
  have hne : ∀ w : WireResponse, w.bytes ≠ [] := by
    intro w
    simp [WireResponse.bytes, WireResponse.makeBuffers, crlf]
  refine ⟨hne _, fun rest => ?_⟩
  obtain ⟨status, content⟩ := r
  cases content with
  | none =>
    have hread := WireResponse.readResponse_stock status.code rest
    rwa [if_neg (bodiless_code status)] at hread
  | some reply =>
    have hread := ((WireResponse.typed_makeReply (hdump reply)).withStatus status.code).readResponse
      rest
    rw [if_neg (bodiless_code status), sentStatus_code] at hread
    exact hread

end Session

/-! ### A whole connection -/

namespace HttpConnection

variable {Ctx Doc Reply σ : Type*} (E : HttpEnv Ctx Doc Reply σ)

/-- The replies of the handler to some documents in a row, and its state afterwards. -/
def answers : σ → List Doc → List Reply × σ
  | h, [] => ([], h)
  | h, doc :: docs =>
    let reply := E.handleHttpRequest h doc
    let replies := answers reply.2 docs
    (reply.1.toList ++ replies.1, replies.2)

/-- The documents among the outcomes of a connection. -/
def documents (outcomes : List (Outcome Doc Reply)) : List Doc :=
  outcomes.filterMap fun
    | .handed doc => some doc
    | _ => none

/-- What a piece of input makes of the handler and of the response. -/
inductive Treats (h : σ) : Parsed Ctx Doc Reply σ → Prop where
  | continues (c : HttpConnection Ctx Reply) (rest : List UInt8) :
    Treats h ⟨.continue, c, h, none, rest⟩
  | refuses {c : HttpConnection Ctx Reply} {status : Status}
    (hc : c.response = HttpResponse.makeStockResponse status) (hs : status ≠ .ok)
    (rest : List UInt8) : Treats h ⟨.error, c, h, none, rest⟩
  | declines {c : HttpConnection Ctx Reply} {doc : Doc} {h' : σ}
    (hc : c.response = HttpResponse.makeStockResponse .badRequest)
    (hh : E.handleHttpRequest h doc = (none, h')) (rest : List UInt8) :
    Treats h ⟨.error, c, h', some doc, rest⟩
  | replies {c : HttpConnection Ctx Reply} {doc : Doc} {reply : Reply} {h' : σ}
    (hc : c.response = HttpResponse.makeReply reply)
    (hh : E.handleHttpRequest h doc = (some reply, h')) (rest : List UInt8) :
    Treats h ⟨.done, c, h', some doc, rest⟩

variable {E} {c : HttpConnection Ctx Reply} {h h' : σ} {bytes : List UInt8}

theorem answers_append (docs docs' : List Doc) :
    answers E h (docs ++ docs') = ((answers E h docs).1 ++ (answers E (answers E h docs).2 docs').1,
      (answers E (answers E h docs).2 docs').2) := by
  induction docs generalizing h with
  | nil => rfl
  | cons doc docs ih =>
    rw [List.cons_append, answers, answers, ih, List.append_assoc]

theorem treats_finishBody (c : HttpConnection Ctx Reply) (h : σ) (ctx : Ctx) (rest : List UInt8) :
    Treats E h (finishBody E c h ctx rest) := by
  cases hw : E.xml.wellFormed ctx with
  | false =>
    rw [finishBody_of_illFormed hw]
    exact .refuses rfl (by decide) _
  | true =>
    rcases hh : E.handleHttpRequest h (E.xml.extractDoc ctx) with ⟨_ | reply, h'⟩
    · rw [finishBody_of_none hw hh]
      exact .declines rfl hh _
    · rw [finishBody_of_some hw hh]
      exact .replies rfl hh _

theorem treats_parseBody (c : HttpConnection Ctx Reply) (h : σ) (bytes : List UInt8) :
    Treats E h (parseBody E c h bytes) := by
  rcases hp : c.contentParser with _ | ctx
  · rw [parseBody, hp]
    exact .refuses rfl (by decide) _
  rcases Nat.lt_or_ge bytes.length c.contentRemaining with hn | hn
  · rw [parseBody_of_lt hp hn]
    rcases E.xml.parseChunk ctx bytes false with _ | ctx
    · exact .refuses rfl (by decide) _
    · exact .continues _ _
  · rw [parseBody_of_le hp hn]
    rcases E.xml.parseChunk ctx (bytes.take c.contentRemaining) true with _ | ctx
    · exact .refuses rfl (by decide) _
    · exact treats_finishBody _ _ _ _

theorem parseHeader_refused {c' : HttpConnection Ctx Reply} {rest : List UInt8}
    (hr : parseHeader E c bytes = (.error, c', rest)) :
    ∃ status, c'.response = HttpResponse.makeStockResponse status ∧ status ≠ .ok := by
  rcases hp : c.headerParser.parse c.request bytes with ⟨⟨p, req⟩, _ | _ | _, rest'⟩
  · simp [parseHeader_of_none hp] at hr
  · rcases hc : checkRequest E.httpPath req with status | plan
    · obtain ⟨c'', hc'', hresp⟩ := parseHeader_of_error hp hc
      rw [hc'', Prod.mk.injEq, Prod.mk.injEq] at hr
      refine ⟨status, hr.2.1 ▸ hresp, ?_⟩
      rintro rfl
      by_cases ha : Addressed E.httpPath req
      · exact nomatch checkRequest_error hc ha
      · exact nomatch (checkRequest_of_not_addressed ha).symm.trans hc
    · simp [parseHeader_of_ok hp hc] at hr
  · rw [parseHeader_of_bad hp, Prod.mk.injEq, Prod.mk.injEq] at hr
    exact ⟨.badRequest, hr.2.1 ▸ rfl, by decide⟩

/-- **What a piece of input leads to** is one of four things. -/
theorem treats_parseIncoming (c : HttpConnection Ctx Reply) (h : σ) (bytes : List UInt8) :
    Treats E h (parseIncoming E c h bytes) := by
  by_cases hb : bytes = []
  · rw [hb, parseIncoming_nil]
    exact .continues _ _
  cases hs : c.state with
  | inBody =>
    rw [parseIncoming_inBody hs hb]
    exact treats_parseBody c h bytes
  | inHeader =>
    rw [parseIncoming_inHeader hs hb]
    rcases hr : parseHeader E c bytes with ⟨_ | _ | _, c', rest⟩
    · obtain ⟨-, hbody | rfl⟩ := parseHeader_ok hs hr
      · by_cases hrest : rest = []
        · rw [hrest]
          exact .continues _ _
        · simp only [parseIncoming_inBody hbody hrest]
          exact treats_parseBody c' h rest
      · exact .continues _ _
    · obtain ⟨status, hc, hne⟩ := parseHeader_refused hr
      exact .refuses hc hne _
    · exact absurd (by rw [hr]) (@parseHeader_ne_done _ _ _ _ E c bytes)

/-- The connection has given the replies of a handler that was in state `h`, and then possibly the
page of an error, with which it is closed. -/
structure Session.Answered (E : HttpEnv Ctx Doc Reply σ) (h : σ) (s : Session Ctx Doc Reply σ)
    (final : Option Status) : Prop where
  handler : s.handler = (answers E h (documents s.outcomes)).2
  responses : responses s.outcomes =
    (answers E h (documents s.outcomes)).1.map HttpResponse.makeReply ++
      final.toList.map HttpResponse.makeStockResponse
  closed : final ≠ none → s.conn = none
  isError : final ≠ some .ok

section Run

variable {s s' : Session Ctx Doc Reply σ} {final : Option Status}

/-- What comes next is answered from the state that the handler is in. -/
theorem Session.Answered.extend (hs : s.Answered E h none) {added : List (Outcome Doc Reply)}
    (ho : s'.outcomes = s.outcomes ++ added)
    (hh : s'.handler = (answers E s.handler (documents added)).2)
    (hr : Wsddn.responses added =
      (answers E s.handler (documents added)).1.map HttpResponse.makeReply ++
        final.toList.map HttpResponse.makeStockResponse)
    (hc : final ≠ none → s'.conn = none) (he : final ≠ some .ok) : s'.Answered E h final := by
  have hdocs : documents s'.outcomes = documents s.outcomes ++ documents added := by
    rw [ho, documents, List.filterMap_append]
    rfl
  have hresp : Wsddn.responses s'.outcomes =
      Wsddn.responses s.outcomes ++ Wsddn.responses added := by
    rw [ho, Wsddn.responses, List.filterMap_append]
    rfl
  have hanswers := answers_append (E := E) (h := h) (documents s.outcomes) (documents added)
  rw [← hs.handler] at hanswers
  refine ⟨?_, ?_, hc, he⟩
  · rw [hdocs, hanswers, hh]
  · rw [hresp, hs.responses, hr, hdocs, hanswers]
    simp

/-- A read keeps it. -/
theorem Session.Answered.read (hs : s.Answered E h final) (bytes : List UInt8) :
    ∃ final, (s.read E bytes).Answered E h final := by
  cases hconn : s.conn with
  | none =>
    rw [Session.read_of_none hconn]
    exact ⟨final, hs⟩
  | some c =>
    obtain rfl : final = none := by
      by_contra hne
      exact nomatch (hs.closed hne).symm.trans hconn
    have htreats : Treats E s.handler (parseIncoming E c s.handler bytes) :=
      treats_parseIncoming c s.handler bytes
    rw [Session.read_of_some hconn]
    generalize parseIncoming E c s.handler bytes = r at htreats
    cases htreats with
    | continues c' rest =>
      exact ⟨none, hs.extend (List.append_nil _).symm rfl rfl (by simp) (by simp)⟩
    | @refuses c' status hc hne rest =>
      refine ⟨some status, hs.extend (List.append_assoc _ _ _) rfl ?_ (fun _ => rfl)
        (by simpa using hne)⟩
      simp [hc, documents, answers, Wsddn.responses]
    | @declines c' doc h' hc hh rest =>
      refine ⟨some .badRequest, hs.extend (List.append_assoc _ _ _) ?_ ?_ (fun _ => rfl)
        (by simp)⟩
      · simp [Session.proceed, Session.write, documents, answers, hh]
      · simp [hc, documents, answers, Wsddn.responses, hh]
    | @replies c' doc reply h' hc hh rest =>
      cases hkeep : c'.keepAlive with
      | false =>
        simp only [Session.proceed, Session.write, hkeep]
        refine ⟨none, hs.extend (List.append_assoc _ _ _) ?_ ?_ (by simp) (by simp)⟩
        · simp [documents, answers, hh]
        · simp [hc, documents, answers, Wsddn.responses, hh]
      | true =>
        simp only [Session.proceed, Session.write, hkeep]
        refine ⟨none, hs.extend rfl ?_ ?_ (by simp) (by simp)⟩
        · simp [documents, answers, hh]
        · simp [hc, documents, answers, Wsddn.responses, hh]

/-- So do all reads. -/
theorem Session.Answered.reads (hs : s.Answered E h final) (reads : List (List UInt8)) :
    ∃ final, (reads.foldl (Session.read E) s).Answered E h final := by
  induction reads generalizing s final with
  | nil => exact ⟨final, hs⟩
  | cons bytes reads ih =>
    obtain ⟨final', hs'⟩ := hs.read bytes
    exact ih hs'

theorem answered_new (E : HttpEnv Ctx Doc Reply σ) (h : σ) :
    ({ handler := h } : Session Ctx Doc Reply σ).Answered E h none :=
  ⟨rfl, rfl, fun _ => by contradiction, by simp⟩

end Run

/-- **What a connection has written**, whatever was read and however it was cut: a client reads the
replies of the handler to the documents that it was given, in this order, and after them at most one
page of an error, with which the connection is closed. -/
theorem readAll_session (E : HttpEnv Ctx Doc Reply σ) (h : σ) {dump : Reply → SysString}
    (hdump : ∀ reply, (dump reply).length < 2 ^ 64) (reads : List (List UInt8)) :
    ∃ final : Option Status,
      Stream.readAll readResponse
        (written dump (reads.foldl (Session.read E) { handler := h }).outcomes) =
      some ((answers E h
        (documents (reads.foldl (Session.read E) { handler := h }).outcomes)).1.map
          (HttpResponse.seen dump ∘ HttpResponse.makeReply) ++
        final.toList.map fun status => WireResponse.stockPage status.code) ∧
      (final ≠ none → (reads.foldl (Session.read E) { handler := h }).conn = none) ∧
      final ≠ some .ok := by
  obtain ⟨final, hs⟩ := (answered_new E h).reads reads
  refine ⟨final, ?_, hs.closed, hs.isError⟩
  rw [written, Stream.readAll_flatMap fun r _ => delimits_response hdump r, hs.responses,
    List.map_append, List.map_map, List.map_map]
  rfl

/-- Two requests, and a page after the reply to the first. -/
theorem readAll_session_sequential : ∃ final : Option Status,
    Stream.readAll readResponse (written (fun _ => ofLiteral "<r/>")
      (sequential.reads.foldl (Session.read getEnv) { handler := () }).outcomes) =
    some ((answers getEnv () (documents
      (sequential.reads.foldl (Session.read getEnv) { handler := () }).outcomes)).1.map
        (HttpResponse.seen (fun _ => ofLiteral "<r/>") ∘ HttpResponse.makeReply) ++
      final.toList.map fun status => WireResponse.stockPage status.code) ∧
    (final ≠ none → (sequential.reads.foldl (Session.read getEnv) { handler := () }).conn = none) ∧
    final ≠ some .ok :=
  readAll_session getEnv () (fun _ => by decide +kernel) sequential.reads

end HttpConnection

end Wsddn
